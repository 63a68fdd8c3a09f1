import Mathlib.Data.List.Basic

namespace Ren2Hub.Lib
open List

/-- A shared state and the jobs under way on it, each at some stage. -/
structure Crew (σ τ : Type) where
  state : σ
  jobs : List τ := []

namespace Crew
variable {σ τ : Type} {c : Crew σ τ} {i : Nat} {t u : τ}

/-- Job `i` moves on by one step of `f`. -/
def step (f : τ → σ → σ × τ) (c : Crew σ τ) (i : Nat) : Crew σ τ :=
  match c.jobs[i]? with
  | none => c
  | some t => ⟨(f t c.state).1, c.jobs.set i (f t c.state).2⟩

def join (c : Crew σ τ) (t : τ) : Crew σ τ := { c with jobs := c.jobs ++ [t] }

theorem step_cases (f : τ → σ → σ × τ) (c : Crew σ τ) (i : Nat) :
    c.step f i = c ∨ ∃ t, c.jobs[i]? = some t ∧
      c.step f i = ⟨(f t c.state).1, c.jobs.set i (f t c.state).2⟩ := by
  unfold step
  cases h : c.jobs[i]? with
  | none => exact .inl rfl
  | some t => exact .inr ⟨t, rfl, rfl⟩

theorem mem_set_of_ne {ts : List τ} (hu : u ∈ ts) (hi : ts[i]? = some t) (hne : u ≠ t)
    (t' : τ) : u ∈ ts.set i t' := by
  obtain ⟨j, hj⟩ := mem_iff_getElem?.mp hu
  have hij : i ≠ j := by
    rintro rfl
    exact hne (Option.some.inj (hj.symm.trans hi))
  exact mem_iff_getElem?.mpr ⟨j, by rw [getElem?_set_ne hij, hj]⟩

theorem mem_set_self {ts : List τ} (hi : ts[i]? = some t) (t' : τ) : t' ∈ ts.set i t' := by
  obtain ⟨hlt, _⟩ := List.getElem?_eq_some_iff.mp hi
  exact mem_set hlt t'

theorem not_mem_set {ts : List τ} (hu : u ∉ ts) (ht : t ≠ u) : u ∉ ts.set i t := by
  intro hm
  rcases mem_or_eq_of_mem_set hm with hm | rfl
  · exact hu hm
  · exact ht rfl

/-- What every job knows of the state, when one of them moves. -/
theorem knows_set {K : τ → σ → Prop} {ts : List τ} {t' : τ} (h : ∀ u ∈ ts, K u s) (hown : K t' s')
    (hothers : ∀ u, K u s → K u s') : ∀ u ∈ ts.set i t', K u s' := by
  intro u hu
  rcases mem_or_eq_of_mem_set hu with hu | rfl
  · exact hothers u (h u hu)
  · exact hown

/-- At most one job is not idle. `R` holds while all are, `K t` while one is at `t`. -/
structure Solo (idle : τ → Prop) (R : σ → Prop) (K : τ → σ → Prop) (c : Crew σ τ) : Prop where
  rest : (∀ u ∈ c.jobs, idle u) → R c.state
  busy : ∀ (i : Nat) t, c.jobs[i]? = some t → ¬ idle t →
    K t c.state ∧ ∀ (j : Nat) u, c.jobs[j]? = some u → ¬ idle u → j = i

variable {idle : τ → Prop} {R : σ → Prop} {K : τ → σ → Prop}

variable (h : Solo idle R K c)
include h

theorem Solo.others (hi : c.jobs[i]? = some t) (ht : ¬ idle t) :
    ∀ (j : Nat) u, j ≠ i → c.jobs[j]? = some u → idle u := by
  intro j u hji hj
  by_contra hu
  exact hji ((h.busy i t hi ht).2 j u hj hu)

/-- A job moves while all others are idle. -/
theorem Solo.move (hi : c.jobs[i]? = some t)
    (hothers : ∀ (j : Nat) u, j ≠ i → c.jobs[j]? = some u → idle u) {t' : τ}
    (hmove : (idle t → R c.state) → (¬ idle t → K t c.state) →
      (idle t' → R s') ∧ (¬ idle t' → K t' s')) : Solo idle R K ⟨s', c.jobs.set i t'⟩ := by
  have hrest : idle t → R c.state := by
    intro ht
    refine h.rest fun u hu => ?_
    obtain ⟨j, hj⟩ := mem_iff_getElem?.mp hu
    by_cases hji : j = i
    · rw [hji, hi] at hj
      cases hj
      exact ht
    · exact hothers j u hji hj
  obtain ⟨hR, hK⟩ := hmove hrest fun ht => (h.busy i t hi ht).1
  have hother : ∀ (j : Nat) u, (c.jobs.set i t')[j]? = some u → ¬ idle u → j = i := by
    intro j u hj hu
    by_contra hji
    rw [getElem?_set_ne (Ne.symm hji)] at hj
    exact hu (hothers j u hji hj)
  constructor
  · intro hall
    exact hR (hall t' (mem_set_self hi t'))
  intro j u hj hu
  have hji := hother j u hj hu
  subst hji
  obtain ⟨hlt, _⟩ := List.getElem?_eq_some_iff.mp hi
  rw [getElem?_set_self hlt] at hj
  cases hj
  exact ⟨hK hu, hother⟩

/-- An idle job moves on without a trace and stays idle. -/
theorem Solo.aside (hi : c.jobs[i]? = some t) (ht : idle t) {t' : τ} (ht' : idle t') :
    Solo idle R K ⟨c.state, c.jobs.set i t'⟩ := by
  have hold : ∀ (j : Nat) u, (c.jobs.set i t')[j]? = some u → ¬ idle u →
      c.jobs[j]? = some u := by
    intro j u hj hu
    by_cases hji : i = j
    · subst hji
      obtain ⟨hlt, _⟩ := List.getElem?_eq_some_iff.mp hi
      rw [getElem?_set_self hlt] at hj
      cases hj
      exact absurd ht' hu
    · rwa [getElem?_set_ne hji] at hj
  constructor
  · intro hall
    refine h.rest fun u hu => ?_
    by_cases hut : u = t
    · exact hut ▸ ht
    · exact hall u (mem_set_of_ne hu hi hut t')
  · intro j u hj hu
    obtain ⟨hK, hothers⟩ := h.busy j u (hold j u hj hu) hu
    exact ⟨hK, fun k v hk hv => hothers k v (hold k v hk hv) hv⟩

theorem Solo.join (ht : idle t) : Solo idle R K (c.join t) := by
  have hold : ∀ (j : Nat) u, (c.jobs ++ [t])[j]? = some u → ¬ idle u →
      c.jobs[j]? = some u := by
    intro j u hj hu
    rw [getElem?_append] at hj
    split at hj
    · exact hj
    · exact absurd (mem_singleton.mp (mem_of_getElem? hj)) fun he => hu (he ▸ ht)
  constructor
  · intro hall
    exact h.rest fun u hu => hall u (mem_append_left _ hu)
  intro i u hi hu
  obtain ⟨hK, hothers⟩ := h.busy i u (hold i u hi hu) hu
  exact ⟨hK, fun j v hj hv => hothers j v (hold j v hj hv) hv⟩

/-- The state changes under idle and busy jobs alike. -/
theorem Solo.shift (hR : R c.state → R s') (hK : ∀ t, K t c.state → K t s') :
    Solo idle R K ⟨s', c.jobs⟩ := by
  constructor
  · intro hall
    exact hR (h.rest hall)
  intro i t hi ht
  obtain ⟨hk, hothers⟩ := h.busy i t hi ht
  exact ⟨hK t hk, hothers⟩

end Crew

end Ren2Hub.Lib
