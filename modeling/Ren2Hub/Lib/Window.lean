import Mathlib.Data.List.Basic

namespace Ren2Hub.Lib
open List

variable {log : List Int} {now span : Int} {n : Nat}

def recent (span now : Int) (log : List Int) : List Int := log.filter fun t => now - t < span

theorem recent_cons_of_lt (h : now - t < span) :
    recent span now (t :: log) = t :: recent span now log := by
  simp [recent, h]

theorem recent_eq_nil (h : ∀ t ∈ log, span ≤ now - t) : recent span now log = [] := by
  simpa [recent] using h

theorem recent_length_anti (h : now ≤ later) :
    (recent span later log).length ≤ (recent span now log).length := by
  refine (monotone_filter_right log fun t ht => ?_).length_le
  simp only [decide_eq_true_eq] at ht ⊢
  omega

/-- No time in the log is later than one before it. -/
def Falling (log : List Int) : Prop := log.Pairwise fun later earlier => earlier ≤ later

theorem Falling.cons (h : Falling log) (ht : ∀ x ∈ log, x ≤ t) : Falling (t :: log) :=
  pairwise_cons.mpr ⟨ht, h⟩

/-- At most `n` times are recent exactly if the one after the first `n` is not. -/
theorem recent_length_le_iff (h : Falling log) (n : Nat) :
    (recent span now log).length ≤ n ↔ ∀ t, log[n]? = some t → span ≤ now - t := by
  induction log generalizing n with
  | nil => simp [recent]
  | cons a log ih =>
    obtain ⟨ha, htail⟩ := pairwise_cons.mp h
    by_cases hrecent : now - a < span
    · rw [recent_cons_of_lt hrecent]
      cases n with
      | zero =>
        simp only [length_cons, getElem?_cons_zero, Option.some.injEq, forall_eq']
        omega
      | succ n =>
        simp only [length_cons, getElem?_cons_succ, Nat.add_le_add_iff_right]
        exact ih htail n
    · have hold : ∀ t ∈ a :: log, span ≤ now - t := by
        intro t ht
        rcases mem_cons.mp ht with rfl | ht
        · omega
        · have := ha t ht
          omega
      rw [recent_eq_nil hold]
      simp only [length_nil, Nat.zero_le, true_iff]
      exact fun t ht => hold t (mem_of_getElem? ht)

/-- Each time came when less than `n` of those before it were recent. -/
def Spaced (span : Int) (n : Nat) : List Int → Prop
  | [] => True
  | t :: log => (recent span t log).length < n ∧ Spaced span n log

/-- Then no interval of that span holds more than `n`. -/
theorem Spaced.interval (hs : Spaced span n log) (h : Falling log) (x : Int) :
    (log.filter fun t => x ≤ t ∧ t < x + span).length ≤ n := by
  induction log with
  | nil => simp
  | cons a log ih =>
    obtain ⟨ha, htail⟩ := pairwise_cons.mp h
    by_cases hin : x ≤ a ∧ a < x + span
    · have hsub : (log.filter fun t => x ≤ t ∧ t < x + span).Sublist (recent span a log) := by
        refine monotone_filter_right log fun t ht => ?_
        simp only [decide_eq_true_eq] at ht ⊢
        omega
      have hlen := hsub.length_le
      have hfew := hs.1
      simp only [filter_cons, hin, and_self, decide_true, ↓reduceIte, length_cons]
      omega
    · simp only [filter_cons, hin, decide_false, Bool.false_eq_true, ↓reduceIte]
      exact ih hs.2 htail

end Ren2Hub.Lib
