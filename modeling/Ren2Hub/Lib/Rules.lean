import Ren2Hub.Lib.Program

namespace Ren2Hub.Lib
open List

namespace Machine
variable {Call : Type} {Answer : Call → Type} {State : Type} {α β Φ Ψ : Type}
variable {m : Machine Call Answer State} {guard : Call → State → Prop} {P : Call → Prop}
variable {cfg : Config Call Answer State} {ch : Choice} {sched : List Choice}

theorem uses_of_executed (hpool : ∀ p ∈ cfg.pool, p.Uses P) (hc : m.executed cfg ch = some c) :
    P c := by
  rcases m.step_cases cfg ch with ⟨_, hn⟩ | ⟨_, _, _, _, _, hn, _⟩ | ⟨d, next, hp, _, hd, _⟩
  · rw [hn] at hc; cases hc
  · rw [hn] at hc; cases hc
  rw [hd] at hc
  cases hc
  exact (hpool _ (mem_of_getElem? hp)).1

/-- Processes never issue a call their text does not contain. -/
theorem step_uses (hpool : ∀ p ∈ cfg.pool, p.Uses P) :
    ∀ p ∈ (m.step cfg ch).pool, p.Uses P := by
  intro p hp
  rcases m.step_cases cfg ch with ⟨he, _⟩ | ⟨c, next, r, hq, _, _, he⟩ | ⟨c, next, hq, _, _, he⟩
  all_goals rw [he] at hp
  · exact hpool p hp
  all_goals
    have hc := hpool _ (mem_of_getElem? hq)
    rcases mem_or_eq_of_mem_set hp with hm | rfl
    · exact hpool p hm
    · exact hc.2 _

theorem step_state (cfg : Config Call Answer State) (ch : Choice) :
    ((m.step cfg ch).state = cfg.state ∧ m.executed cfg ch = none) ∨
    (∃ c, m.executed cfg ch = some c ∧ (m.step cfg ch).state = (m.exec c cfg.state).1) := by
  rcases m.step_cases cfg ch with ⟨he, hn⟩ | ⟨_, _, _, _, _, hn, he⟩ | ⟨c, _, _, _, hc, he⟩
  · exact .inl ⟨by rw [he], hn⟩
  · exact .inl ⟨by rw [he], hn⟩
  · exact .inr ⟨c, hc, by rw [he]⟩

/-- Invariant rule: what every guarded call keeps, every guarded run keeps. -/
theorem run_invariant {I : State → Prop} (hcall : ∀ c s, P c → I s → guard c s → I (m.exec c s).1)
    (hpool : ∀ p ∈ cfg.pool, p.Uses P) (hg : m.Meets guard sched cfg) (hi : I cfg.state) :
    I (m.run cfg sched).state := by
  induction sched generalizing cfg with
  | nil => exact hi
  | cons ch sched ih =>
    refine ih (step_uses hpool) hg.2 ?_
    rcases m.step_state cfg ch with ⟨he, _⟩ | ⟨c, hc, he⟩
    · rw [he]; exact hi
    · rw [he]
      exact hcall c _ (uses_of_executed hpool hc) hi (hg.1 c hc)

theorem Meets.of_prefix (h : m.Meets guard sched cfg) (hp : pre <+: sched) :
    m.Meets guard pre cfg := by
  induction pre generalizing sched cfg with
  | nil => trivial
  | cons ch pre ih =>
    cases sched with
    | nil => exact absurd (prefix_nil.mp hp) (by simp)
    | cons d sched =>
      obtain ⟨rfl, hp'⟩ := cons_prefix_cons.mp hp
      exact ⟨h.1, ih h.2 hp'⟩

/-- What relates the states around every call relates neighbours of every run. -/
theorem run_steps {T : State → State → Prop} (hrefl : ∀ s, T s s)
    (hcall : ∀ c s, T s (m.exec c s).1) (cfg : Config Call Answer State) (pre : List Choice)
    (ch : Choice) : T (m.run cfg pre).state (m.run cfg (pre ++ [ch])).state := by
  have he : m.run cfg (pre ++ [ch]) = m.step (m.run cfg pre) ch := by simp [run]
  rw [he]
  rcases m.step_state (m.run cfg pre) ch with ⟨hs, _⟩ | ⟨c, _, hs⟩ <;> rw [hs]
  · exact hrefl _
  · exact hcall c _

/-- Guards that can be evaluated make the condition of a run evaluable. -/
instance decidableMeets [∀ c s, Decidable (guard c s)] :
    (sched : List Choice) → (cfg : Config Call Answer State) →
      Decidable (m.Meets guard sched cfg)
  | [], _ => isTrue trivial
  | ch :: sched, cfg =>
    have : Decidable (∀ c, m.executed cfg ch = some c → guard c cfg.state) :=
      match m.executed cfg ch with
      | none => isTrue nofun
      | some c =>
        if h : guard c cfg.state then isTrue fun _ hd => Option.some.inj hd ▸ h
        else isFalse fun hall => h (hall c rfl)
    have := decidableMeets sched (m.step cfg ch)
    inferInstanceAs (Decidable (_ ∧ _))

theorem meets_true (sched : List Choice) (cfg : Config Call Answer State) :
    m.Meets (fun _ _ => True) sched cfg := by
  induction sched generalizing cfg with
  | nil => trivial
  | cons ch sched ih => exact ⟨fun _ _ => trivial, ih _⟩

/-- Exactness rule: when a call keeps `I` exactly if the guard holds before it, so does a run. `J`
holds in any case. -/
theorem run_exact {I J : State → Prop} (hJ : ∀ c s, P c → J s → J (m.exec c s).1)
    (hI : ∀ c s, P c → J s → I s → (I (m.exec c s).1 ↔ guard c s))
    (hpool : ∀ p ∈ cfg.pool, p.Uses P) (hj : J cfg.state) (hi : I cfg.state) :
    (∀ pre, pre <+: sched → I (m.run cfg pre).state) ↔ m.Meets guard sched cfg := by
  induction sched generalizing cfg with
  | nil =>
    refine ⟨fun _ => trivial, fun _ pre hp => ?_⟩
    rw [prefix_nil.mp hp]
    exact hi
  | cons ch sched ih =>
    have hj' : J (m.step cfg ch).state := by
      rcases m.step_state cfg ch with ⟨he, _⟩ | ⟨c, hc, he⟩ <;> rw [he]
      · exact hj
      · exact hJ c _ (uses_of_executed hpool hc) hj
    -- The first call decides whether the state after it is still inside `I`.
    have hone : I (m.step cfg ch).state ↔
        ∀ c, m.executed cfg ch = some c → guard c cfg.state := by
      rcases m.step_state cfg ch with ⟨he, hn⟩ | ⟨c, hc, he⟩
      · simp [he, hn, hi]
      · rw [he, hI c _ (uses_of_executed hpool hc) hj hi, hc]
        simp
    constructor
    · intro h
      have h1 : I (m.step cfg ch).state := h [ch] (by simp)
      refine ⟨hone.mp h1, (ih (step_uses hpool) hj' h1).mp ?_⟩
      intro pre hp
      exact h (ch :: pre) (cons_prefix_cons.mpr ⟨rfl, hp⟩)
    · rintro ⟨hg, hrest⟩ pre hp
      have h1 := hone.mpr hg
      cases pre with
      | nil => exact hi
      | cons d pre =>
        obtain ⟨rfl, hp'⟩ := cons_prefix_cons.mp hp
        exact (ih (step_uses hpool) hj' h1).mpr hrest pre hp'

def Follows (m : Machine Call Answer State) (guard : Call → State → Prop)
    (G : State → State → Prop) (I : Φ → State → Prop) (Post : α → Φ → Prop) :
    Program Call Answer α → Φ → Prop
  | .done a, φ => Post a φ
  | .call c next, φ =>
    (∀ s, I φ s → guard c s → ∃ φ', I φ' (m.exec c s).1 ∧ G s (m.exec c s).1 ∧
      Follows m guard G I Post (next (m.exec c s).2) φ') ∧
    (∀ r s, m.fault c = some r → I φ s → ∃ φ', I φ' s ∧ Follows m guard G I Post (next r) φ')

section Outlines
variable {G : State → State → Prop} {I : Φ → State → Prop} {Q R : α → Φ → Prop} {φ : Φ}
  {p : Program Call Answer α}

theorem Follows.bind (hp : Follows m guard G I Q p φ)
    (hf : ∀ a φ, Q a φ → Follows m guard G I S (f a) φ) : Follows m guard G I S (p >>= f) φ := by
  induction p generalizing φ with
  | done a => exact hf a φ hp
  | call c next ih =>
    refine ⟨fun s hi hg => ?_, fun r s hr hi => ?_⟩
    · obtain ⟨φ', hi', hG, hn⟩ := hp.1 s hi hg
      exact ⟨φ', hi', hG, ih _ hn⟩
    · obtain ⟨φ', hi', hn⟩ := hp.2 r s hr hi
      exact ⟨φ', hi', ih _ hn⟩

theorem Follows.mono (hp : Follows m guard G I Q p φ) (hqr : ∀ a φ, Q a φ → R a φ) :
    Follows m guard G I R p φ := by
  rw [← p.bind_done]
  exact hp.bind hqr

/-- A call that keeps what it finds and honours the guarantee. -/
def Keeps (m : Machine Call Answer State) (guard : Call → State → Prop)
    (G : State → State → Prop) (J : State → Prop) (c : Call) : Prop :=
  ∀ s, J s → guard c s → J (m.exec c s).1 ∧ G s (m.exec c s).1

/-- A call that keeps `I φ`, whatever it answers, and the rest of the process. -/
theorem Follows.keep (hk : Keeps m guard G (I φ) c) (hn : ∀ r, Follows m guard G I Q (cont r) φ) :
    Follows m guard G I Q (Program.call c .done >>= cont) φ := by
  refine ⟨fun s hi hg => ?_, fun r s _ hi => ⟨φ, hi, hn r⟩⟩
  obtain ⟨hi', hG⟩ := hk s hi hg
  exact ⟨φ, hi', hG, hn _⟩

/-- A process all of whose calls keep `I φ` follows any outline standing still. -/
theorem Follows.of_keeps (hp : p.Yields (Keeps m guard G (I φ)) V) :
    Follows m guard G I (fun a φ' => V a ∧ φ' = φ) p φ := by
  induction p with
  | done => exact ⟨hp, rfl⟩
  | call c next ih =>
    refine ⟨fun s hi hg => ?_, fun r s _ hi => ⟨φ, hi, ih r (hp.2 r)⟩⟩
    obtain ⟨hi', hG⟩ := hp.1 s hi hg
    exact ⟨φ, hi', hG, ih _ (hp.2 _)⟩

end Outlines

/-- Parallel rule. One process follows its outline; the others keep what it relies on, and may use
what they learned, `L ψ`, if no guarantee takes it away. -/
theorem run_follows (hstable : ∀ ψ s s', G s s' → L ψ s → L ψ s')
    (hp : Follows m guard G I Post p φ) (ho : ∀ q ∈ others, ∃ ψ, L ψ s ∧
      Follows m guard (fun s s' => G s s' ∧ ∀ φ, I φ s → I φ s') L (fun _ _ => True) q ψ)
    (hg : m.Meets guard sched ⟨s, p :: others⟩) (hi : I φ s) :
    ∃ φ', I φ' (m.run ⟨s, p :: others⟩ sched).state := by
  induction sched generalizing p others φ s with
  | nil => exact ⟨φ, hi⟩
  | cons ch sched ih =>
    obtain ⟨hg1, hg2⟩ := hg
    rw [run_cons]
    obtain ⟨i, fails⟩ := ch
    rcases m.step_cases ⟨s, p :: others⟩ ⟨i, fails⟩ with
      ⟨he, _⟩ | ⟨c, next, r, hq, hr, _, he⟩ | ⟨c, next, hq, _, hc, he⟩
    all_goals rw [he] at hg2 ⊢
    · exact ih hp ho hg2 hi
    · cases i with
      | zero =>
        simp only [getElem?_cons_zero, Option.some.injEq] at hq
        subst hq
        obtain ⟨φ', hi', hn⟩ := hp.2 r s hr hi
        exact ih hn ho hg2 hi'
      | succ i =>
        obtain ⟨ψ, hψ, hf⟩ := ho _ (mem_of_getElem? hq)
        refine ih hp (fun q hm => ?_) hg2 hi
        rcases mem_or_eq_of_mem_set hm with hm | rfl
        · exact ho q hm
        · exact hf.2 r s hr hψ
    · cases i with
      | zero =>
        simp only [getElem?_cons_zero, Option.some.injEq] at hq
        subst hq
        obtain ⟨φ', hi', hG, hn⟩ := hp.1 s hi (hg1 c hc)
        refine ih hn (fun q hm => ?_) hg2 hi'
        obtain ⟨ψ, hψ, hf⟩ := ho q hm
        exact ⟨ψ, hstable ψ _ _ hG hψ, hf⟩
      | succ i =>
        obtain ⟨ψ, hψ, hf⟩ := ho _ (mem_of_getElem? hq)
        obtain ⟨ψ', hψ', ⟨hG, hI⟩, hn⟩ := hf.1 s hψ (hg1 c hc)
        refine ih hp (fun q hm => ?_) hg2 (hI φ hi)
        rcases mem_or_eq_of_mem_set hm with hm | rfl
        · obtain ⟨χ, hχ, hq'⟩ := ho q hm
          exact ⟨χ, hstable χ _ _ hG hχ, hq'⟩
        · exact ⟨ψ', hψ', hn⟩

/-- Every process of the pool follows some outline from where it stands. -/
def Outlined (m : Machine Call Answer State) (guard : Call → State → Prop)
    (G : State → State → Prop) (L : Ψ → State → Prop) (cfg : Config Call Answer State) : Prop :=
  ∀ q ∈ cfg.pool, ∃ ψ, L ψ cfg.state ∧ Follows m guard G L (fun _ _ => True) q ψ

theorem Outlined.step (hrefl : ∀ s, G s s) (hstable : ∀ ψ s s', G s s' → L ψ s → L ψ s')
    (h : Outlined m guard G L cfg) (hg : ∀ c, m.executed cfg ch = some c → guard c cfg.state) :
    G cfg.state (m.step cfg ch).state ∧ Outlined m guard G L (m.step cfg ch) := by
  rcases m.step_cases cfg ch with ⟨he, _⟩ | ⟨c, next, r, hq, hr, _, he⟩ | ⟨c, next, hq, _, hc, he⟩
  all_goals rw [he]
  · exact ⟨hrefl _, h⟩
  all_goals obtain ⟨ψ, hψ, hf⟩ := h _ (mem_of_getElem? hq)
  · refine ⟨hrefl _, fun q hm => ?_⟩
    rcases mem_or_eq_of_mem_set hm with hm | rfl
    · exact h q hm
    · exact hf.2 r _ hr hψ
  · obtain ⟨ψ', hψ', hG, hn⟩ := hf.1 _ hψ (hg c hc)
    refine ⟨hG, fun q hm => ?_⟩
    rcases mem_or_eq_of_mem_set hm with hm | rfl
    · obtain ⟨χ, hχ, hq'⟩ := h q hm
      exact ⟨χ, hstable χ _ _ hG hχ, hq'⟩
    · exact ⟨ψ', hψ', hn⟩

/-- Pool rule: when every process guarantees `G` and relies on nothing `G` takes away, `G` relates
any two moments. -/
theorem run_guarantee (hrefl : ∀ s, G s s) (htrans : ∀ s t u, G s t → G t u → G s u)
    (hstable : ∀ ψ s s', G s s' → L ψ s → L ψ s') (h : Outlined m guard G L cfg)
    (hg : m.Meets guard (pre ++ more) cfg) :
    G (m.run cfg pre).state (m.run cfg (pre ++ more)).state := by
  induction pre generalizing cfg with
  | cons ch pre ih => exact ih (h.step hrefl hstable hg.1).2 hg.2
  | nil =>
    induction more generalizing cfg with
    | nil => exact hrefl _
    | cons ch more ih =>
      obtain ⟨hG, h'⟩ := h.step hrefl hstable hg.1
      exact htrans _ _ _ hG (ih h' hg.2)

end Machine

end Ren2Hub.Lib
