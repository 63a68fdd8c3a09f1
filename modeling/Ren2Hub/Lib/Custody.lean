import Mathlib.Algebra.BigOperators.Group.List.Basic
import Mathlib.Tactic.Abel
import Ren2Hub.Lib.Program

namespace Ren2Hub.Lib

theorem sum_map_set {A β : Type} [AddCommGroup A] (f : β → A) {l : List β} {x : β}
    (hi : l[i]? = some x) (y : β) : ((l.set i y).map f).sum = (l.map f).sum - f x + f y := by
  obtain ⟨hlt, hget⟩ := List.getElem?_eq_some_iff.mp hi
  have hlen : i < (l.map f).length := by simpa using hlt
  rw [List.map_set, List.sum_set', dif_pos hlen]
  simp only [List.getElem_map, hget]
  abel

namespace Machine
variable {Call : Type} {Answer : Call → Type} {State : Type} {α β Φ A : Type} [AddCommGroup A]

/-- What a call takes out of the stock is in the hands of the process, what it puts back leaves
them. `J` holds of every state, `K φ` of those with a process at `φ`. -/
def Carries (m : Machine Call Answer State) (J : State → Prop) (K : Φ → State → Prop)
    (stock : State → A) (load : Φ → A) (Post : α → Φ → Prop) : Program Call Answer α → Φ → Prop
  | .done a, φ => Post a φ
  | .call c next, φ =>
    (∀ s, J s → K φ s → m.ready c s = true → ∃ φ', J (m.exec c s).1 ∧
      stock (m.exec c s).1 + load φ' = stock s + load φ ∧
      Carries m J K stock load Post (next (m.exec c s).2) φ') ∧
    (∀ r, m.fault c = some r → Carries m J K stock load Post (next r) φ)

section Hands
variable {m : Machine Call Answer State} {J : State → Prop} {K : Φ → State → Prop}
  {stock : State → A} {load : Φ → A} {Q R : α → Φ → Prop} {p : Program Call Answer α} {φ : Φ}

theorem Carries.bind (hp : Carries m J K stock load Q p φ)
    (hf : ∀ a φ, Q a φ → Carries m J K stock load S (f a) φ) :
    Carries m J K stock load S (p >>= f) φ := by
  induction p generalizing φ with
  | done a => exact hf a φ hp
  | call c next ih =>
    refine ⟨fun s hj hk hr => ?_, fun r hr => ih r (hp.2 r hr)⟩
    obtain ⟨φ', hj', hs, hn⟩ := hp.1 s hj hk hr
    exact ⟨φ', hj', hs, ih _ hn⟩

theorem Carries.mono (hp : Carries m J K stock load Q p φ) (h : ∀ a φ, Q a φ → R a φ) :
    Carries m J K stock load R p φ := by
  rw [← p.bind_done]
  exact hp.bind h

/-- A single call whose answer says what the process holds after it. -/
theorem carries_call (f : Answer c → Φ) (hc : ∀ s, J s → K φ s → m.ready c s = true →
      J (m.exec c s).1 ∧ stock (m.exec c s).1 + load (f (m.exec c s).2) = stock s + load φ)
    (hfault : ∀ r, m.fault c = some r → f r = φ) :
    Carries m J K stock load (fun r φ' => φ' = f r) (.call c .done) φ := by
  refine ⟨fun s hj hk hr => ?_, fun r hr => (hfault r hr).symm⟩
  obtain ⟨hj', hs⟩ := hc s hj hk hr
  exact ⟨_, hj', hs, rfl⟩

/-- A process whose calls leave the stock alone keeps what it holds. -/
theorem carries_of_yields (hp : p.Yields P V)
    (hc : ∀ c s, P c → J s → J (m.exec c s).1 ∧ stock (m.exec c s).1 = stock s) :
    Carries m J K stock load (fun a φ' => V a ∧ φ' = φ) p φ := by
  induction p with
  | done => exact ⟨hp, rfl⟩
  | call c next ih =>
    refine ⟨fun s hj _ _ => ?_, fun r _ => ih r (hp.2 r)⟩
    obtain ⟨hj', hs⟩ := hc c s hp.1 hj
    exact ⟨φ, hj', by rw [hs], ih _ (hp.2 _)⟩

end Hands

/-- Every process of the pool, with where it stands. -/
structure Loaded (m : Machine Call Answer State) (J : State → Prop) (K : Φ → State → Prop)
    (stock : State → A) (load : Φ → A) (Post : Unit → Φ → Prop) (cfg : Config Call Answer State)
    (ps : List (Program Call Answer Unit × Φ)) : Prop where
  pool : cfg.pool = ps.map Prod.fst
  shared : J cfg.state
  each : ∀ x ∈ ps, Carries m J K stock load Post x.1 x.2

def total (stock : State → A) (load : Φ → A) (s : State)
    (ps : List (Program Call Answer Unit × Φ)) : A :=
  stock s + (ps.map fun x => load x.2).sum

section Runs
variable {m : Machine Call Answer State} {J : State → Prop} {K : Φ → State → Prop}
  {stock : State → A} {load : Φ → A} {Post : Unit → Φ → Prop}
  {cfg : Config Call Answer State} {ps : List (Program Call Answer Unit × Φ)}

/-- A call of one process moves load between its hands and the stock. -/
theorem total_set {s s' : State} {i : Nat} {φ φ' : Φ} (hi : ps[i]? = some (p, φ))
    (hs : stock s' + load φ' = stock s + load φ) :
    total stock load s' (ps.set i (p', φ')) = total stock load s ps := by
  unfold total
  rw [sum_map_set (fun x => load x.2) hi]
  calc stock s' + ((ps.map fun x => load x.2).sum - load φ + load φ')
      = stock s' + load φ' + (ps.map fun x => load x.2).sum - load φ := by abel
    _ = stock s + (ps.map fun x => load x.2).sum := by rw [hs]; abel

variable (h : Loaded m J K stock load Post cfg ps)
include h

theorem Loaded.set (hj : J s') (hp : Carries m J K stock load Post p' φ') :
    Loaded m J K stock load Post ⟨s', cfg.pool.set i p'⟩ (ps.set i (p', φ')) := by
  refine ⟨by rw [h.pool, List.map_set], hj, fun x hx => ?_⟩
  rcases List.mem_or_eq_of_mem_set hx with hx | rfl
  · exact h.each x hx
  · exact hp

variable (hK : ∀ s (qs : List (Program Call Answer Unit × Φ)),
  total stock load s qs = total stock load cfg.state ps → ∀ x ∈ qs, K x.2 s)
include hK

theorem Loaded.step (ch : Choice) : ∃ ps', Loaded m J K stock load Post (m.step cfg ch) ps' ∧
      total stock load (m.step cfg ch).state ps' = total stock load cfg.state ps := by
  have hat : ∀ p, cfg.pool[ch.proc]? = some p → ∃ φ, ps[ch.proc]? = some (p, φ) := by
    intro p hp
    rw [h.pool, List.getElem?_map] at hp
    obtain ⟨⟨q, φ⟩, hq, rfl⟩ := Option.map_eq_some_iff.mp hp
    exact ⟨φ, hq⟩
  rcases m.step_cases cfg ch with ⟨he, _⟩ | ⟨c, next, r, hq, hr, _, he⟩ | ⟨c, next, hq, hy, _, he⟩
  · exact ⟨ps, by rwa [he], by rw [he]⟩
  all_goals
    obtain ⟨φ, hi⟩ := hat _ hq
    have hx := List.mem_of_getElem? hi
    rw [he]
  · exact ⟨_, h.set h.shared ((h.each _ hx).2 r hr), total_set hi rfl⟩
  · obtain ⟨φ', hj, hs, hn⟩ := (h.each _ hx).1 _ h.shared (hK _ ps rfl _ hx) hy
    exact ⟨_, h.set hj hn, total_set hi hs⟩

/-- Conservation rule: along a run, stock and hands together stay what they were. -/
theorem run_conserves (sched : List Choice) :
    ∃ ps', Loaded m J K stock load Post (m.run cfg sched) ps' ∧
      total stock load (m.run cfg sched).state ps' = total stock load cfg.state ps := by
  induction sched generalizing cfg ps with
  | nil => exact ⟨ps, h, rfl⟩
  | cons ch sched ih =>
    obtain ⟨qs, hl, ht⟩ := h.step hK ch
    obtain ⟨ps', hl', ht'⟩ := ih hl fun s rs hrs => hK s rs (hrs.trans ht)
    exact ⟨ps', hl', ht'.trans ht⟩

end Runs

end Machine

end Ren2Hub.Lib
