import Ren2Hub.Lib.Program

namespace Ren2Hub.Lib

/-- What processes agree on: an invariant, what one relies on between two states, what it has to
know before a call, and when the others keep to this. -/
structure Terms (Call State : Type) where
  inv : State → Prop
  later : Nat → State → State → Prop
  license : Nat → Call → State → Prop
  guard : Call → State → Prop := fun _ _ => True

namespace Machine
variable {Call : Type} {Answer : Call → Type} {State : Type} {α β : Type}
  {m : Machine Call Answer State} {T : Terms Call State}

/-- Licensed calls keep the terms of every other process. -/
structure Lawful (m : Machine Call Answer State) (T : Terms Call State) : Prop where
  refl : ∀ i s, T.later i s s
  trans : ∀ i s t u, T.later i s t → T.later i t u → T.later i s u
  step : ∀ i c s, T.inv s → T.license i c s → T.guard c s → m.ready c s = true →
    T.inv (m.exec c s).1 ∧ ∀ j, j ≠ i → T.later j s (m.exec c s).1

/-- Process `i`, which left the state `s`, has the license for every call it issues in any later
state, and returns a value related to the last state it left. -/
def Earns (m : Machine Call Answer State) (T : Terms Call State) (i : Nat)
    (Q : α → State → Prop) : Program Call Answer α → State → Prop
  | .done a, s => Q a s
  | .call c next, s => ∀ t, T.inv t → T.later i s t → T.license i c t ∧
      (T.guard c t → m.ready c t = true →
        Earns m T i Q (next (m.exec c t).2) (m.exec c t).1) ∧
      ∀ r, m.fault c = some r → Earns m T i Q (next r) t

variable {p : Program Call Answer α} {Q R : α → State → Prop} {i j : Nat} {s : State}

theorem Earns.bind (hp : Earns m T i Q p s) (hf : ∀ a t, Q a t → Earns m T i S (f a) t) :
    Earns m T i S (p >>= f) s := by
  induction p generalizing s with
  | done a => exact hf a s hp
  | call c next ih =>
    intro t hinv hl
    obtain ⟨hc, hn, hr⟩ := hp t hinv hl
    exact ⟨hc, fun hg hy => ih _ (hn hg hy), fun r h => ih r (hr r h)⟩

theorem Earns.mono (hp : Earns m T i Q p s) (h : ∀ a t, Q a t → R a t) : Earns m T i R p s := by
  rw [← p.bind_done]
  exact hp.bind h

/-- Frame rule: what no process disturbs is still there at the end. -/
theorem Earns.frame {F : State → Prop} (hT : Lawful m T)
    (hF : ∀ j s t, T.later j s t → F s → F t) (hp : Earns m T i Q p s) (h : F s) :
    Earns m T i (fun a t => Q a t ∧ F t) p s := by
  induction p generalizing s with
  | done => exact ⟨hp, h⟩
  | call c next ih =>
    intro t hinv hl
    obtain ⟨hc, hn, hr⟩ := hp t hinv hl
    refine ⟨hc, fun hg hy => ih _ (hn hg hy) ?_, fun r he => ih r (hr r he) (hF i s t hl h)⟩
    -- The step keeps the terms of any other process, here the next one.
    have hstep := (hT.step i c t hinv hc hg hy).2 (i + 1) (Nat.succ_ne_self i)
    exact hF _ _ _ hstep (hF i s t hl h)

theorem Earns.call (hf : m.fault c = none) (h : ∀ t, T.inv t → T.later i s t → T.license i c t ∧
      (T.guard c t → m.ready c t = true →
        Earns m T i Q (next (m.exec c t).2) (m.exec c t).1)) :
    Earns m T i Q (Program.call c .done >>= next) s := by
  intro t hinv hl
  refine ⟨(h t hinv hl).1, (h t hinv hl).2, fun r hr => ?_⟩
  rw [hf] at hr
  cases hr

theorem Earns.actor (hl : T.later i = T.later j) (hc : T.license i = T.license j)
    (hp : Earns m T i Q p s) : Earns m T j Q p s := by
  induction p generalizing s with
  | done => exact hp
  | call c next ih =>
    intro t hinv hlater
    obtain ⟨hlic, hn, hr⟩ := hp t hinv (hl ▸ hlater)
    exact ⟨hc ▸ hlic, fun hg hy => ih _ (hn hg hy), fun r h => ih r (hr r h)⟩

/-- Every process of the pool has earned its next calls, up to the state it ends in. -/
def Earned (m : Machine Call Answer State) (T : Terms Call State) (Post : Nat → State → Prop)
    (cfg : Config Call Answer State) : Prop :=
  T.inv cfg.state ∧ ∀ i p, cfg.pool[i]? = some p →
    ∃ s, T.later i s cfg.state ∧ Earns m T i (fun _ => Post i) p s

variable {cfg : Config Call Answer State} {sched : List Choice} {Post : Nat → State → Prop}
  {guard : Call → State → Prop}

theorem Earned.step (hT : Lawful m T) (h : Earned m T Post cfg) (ch : Choice)
    (hg : ∀ c, m.executed cfg ch = some c → T.guard c cfg.state) :
    Earned m T Post (m.step cfg ch) ∧
      ∀ c, m.executed cfg ch = some c → T.license ch.proc c cfg.state := by
  obtain ⟨hinv, hpool⟩ := h
  rcases m.step_cases cfg ch with
    ⟨he, hn⟩ | ⟨c, next, r, hq, hr, hn, he⟩ | ⟨c, next, hq, hy, hc, he⟩ <;> rw [he]
  · exact ⟨⟨hinv, hpool⟩, fun c h => by rw [hn] at h; cases h⟩
  all_goals
    obtain ⟨s, hl, hp⟩ := hpool _ _ hq
    obtain ⟨hlic, hok, hfault⟩ := hp _ hinv hl
    have hlt : ch.proc < cfg.pool.length := (List.getElem?_eq_some_iff.mp hq).1
  · refine ⟨⟨hinv, fun i p hi => ?_⟩, fun c h => by rw [hn] at h; cases h⟩
    by_cases hne : ch.proc = i
    · subst hne
      rw [List.getElem?_set_self hlt] at hi
      cases hi
      exact ⟨_, hT.refl _ _, hfault r hr⟩
    · rw [List.getElem?_set_ne hne] at hi
      exact hpool i p hi
  · obtain ⟨hinv', hlater⟩ := hT.step ch.proc c _ hinv hlic (hg c hc) hy
    refine ⟨⟨hinv', fun i p hi => ?_⟩, fun d h => ?_⟩
    · by_cases hne : ch.proc = i
      · subst hne
        rw [List.getElem?_set_self hlt] at hi
        cases hi
        exact ⟨_, hT.refl _ _, hok (hg c hc) hy⟩
      · rw [List.getElem?_set_ne hne] at hi
        obtain ⟨u, hu, hp'⟩ := hpool i p hi
        exact ⟨u, hT.trans _ _ _ _ hu (hlater i (Ne.symm hne)), hp'⟩
    · rw [hc] at h
      cases h
      exact hlic

theorem Earned.run (hT : Lawful m T) (h : Earned m T Post cfg)
    (hg : m.Meets T.guard sched cfg) : Earned m T Post (m.run cfg sched) := by
  induction sched generalizing cfg with
  | nil => exact h
  | cons ch sched ih => exact ih (h.step hT ch hg.1).1 hg.2

/-- Invariant rule: what licensed and guarded calls keep, a guarded run keeps. -/
theorem run_licensed {I : State → Prop} (hT : Lawful m T)
    (hI : ∀ i c s, T.inv s → T.license i c s → guard c s → I s → I (m.exec c s).1)
    (h : Earned m T Post cfg) (ht : ∀ c s, guard c s → T.guard c s)
    (hg : m.Meets guard sched cfg) (hi : I cfg.state) : I (m.run cfg sched).state := by
  induction sched generalizing cfg with
  | nil => exact hi
  | cons ch sched ih =>
    obtain ⟨hnext, hlic⟩ := h.step hT ch fun c hc => ht c _ (hg.1 c hc)
    refine ih hnext hg.2 ?_
    rcases m.step_cases cfg ch with ⟨he, _⟩ | ⟨_, _, _, _, _, _, he⟩ | ⟨c, _, _, _, hc, he⟩ <;>
      rw [he]
    · exact hi
    · exact hi
    · exact hI ch.proc c _ h.1 (hlic c hc) (hg.1 c hc) hi

end Machine

end Ren2Hub.Lib
