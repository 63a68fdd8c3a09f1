import Mathlib.Data.List.Nodup

namespace Ren2Hub.Lib
open List

/-- A set whose members carry a score, each member once. -/
structure ScoredSet (α : Type) where
  members : List (α × Nat)
  distinct : (members.map (·.1)).Nodup

namespace ScoredSet
variable {α : Type}

def empty : ScoredSet α := ⟨[], nodup_nil⟩

def filter (p : α × Nat → Bool) (z : ScoredSet α) : ScoredSet α :=
  ⟨z.members.filter p, z.distinct.sublist (filter_sublist.map _)⟩

def dropUpTo (t : Nat) (z : ScoredSet α) : ScoredSet α := z.filter fun x => t < x.2

def card (z : ScoredSet α) : Nat := z.members.length

/-- How many members have this score or a higher one. -/
def countFrom (t : Nat) (z : ScoredSet α) : Nat := (z.members.filter fun x => t ≤ x.2).length

def countAbove (t : Nat) (z : ScoredSet α) : Nat := (z.members.filter fun x => t < x.2).length

variable {z : ScoredSet α} {t u : Nat}

theorem countFrom_le_card : z.countFrom t ≤ z.card := length_filter_le _ _

theorem countAbove_le_countFrom : z.countAbove t ≤ z.countFrom t := by
  unfold countAbove countFrom
  rw [← countP_eq_length_filter, ← countP_eq_length_filter]
  apply countP_mono_left
  intro x _ h
  simp only [decide_eq_true_eq] at h ⊢
  omega

theorem countFrom_anti (h : t ≤ u) : z.countFrom u ≤ z.countFrom t := by
  unfold countFrom
  rw [← countP_eq_length_filter, ← countP_eq_length_filter]
  apply countP_mono_left
  intro x _ hx
  simp only [decide_eq_true_eq] at hx ⊢
  omega

theorem countFrom_filter_le : (z.filter p).countFrom t ≤ z.countFrom t := by
  exact (filter_sublist.filter _).length_le

section Lookup
variable [DecidableEq α]

def score? (z : ScoredSet α) (a : α) : Option Nat :=
  (z.members.find? fun x => x.1 = a).map (·.2)

def remove (a : α) (z : ScoredSet α) : ScoredSet α := z.filter fun x => x.1 ≠ a

/-- The member gets the score, whether it was there or not. -/
def insert (a : α) (score : Nat) (z : ScoredSet α) : ScoredSet α where
  members := (a, score) :: (z.remove a).members
  distinct := by
    rw [map_cons, nodup_cons]
    refine ⟨fun hm => ?_, (z.remove a).distinct⟩
    obtain ⟨x, hx, he⟩ := mem_map.mp hm
    have hne : x.1 ≠ a := by simpa using (mem_filter.mp hx).2
    exact hne he

variable {a b : α} {score : Nat}

theorem score?_eq_some : z.score? a = some t ↔ (a, t) ∈ z.members := by
  obtain ⟨members, hd⟩ := z
  unfold score?
  induction members with
  | nil => simp
  | cons x xs ih =>
    obtain ⟨b, u⟩ := x
    rw [map_cons, nodup_cons] at hd
    by_cases hb : b = a
    · subst hb
      have hnot : (b, t) ∉ xs := fun hm => hd.1 (mem_map.mpr ⟨_, hm, rfl⟩)
      simp [hnot, eq_comm]
    have hne : ¬ (a = b ∧ t = u) := fun he => hb he.1.symm
    simp only [find?_cons, hb, decide_false, mem_cons, Prod.mk.injEq, hne, false_or]
    exact ih hd.2

theorem score?_filter : (z.filter p).score? a = some t ↔ z.score? a = some t ∧ p (a, t) = true := by
  rw [score?_eq_some, score?_eq_some]
  exact mem_filter

theorem score?_dropUpTo :
    (z.dropUpTo u).score? a = some t ↔ z.score? a = some t ∧ u < t := by
  rw [dropUpTo, score?_filter, decide_eq_true_eq]

@[simp] theorem score?_insert_self : (z.insert a score).score? a = some score :=
  score?_eq_some.mpr mem_cons_self

theorem score?_remove : (z.remove a).score? b = if b = a then none else z.score? b := by
  ext t
  rw [remove, score?_filter]
  by_cases hb : b = a <;> simp [hb]

theorem score?_insert :
    (z.insert a score).score? b = if b = a then some score else z.score? b := by
  by_cases hb : b = a
  · rw [if_pos hb, hb, score?_insert_self]
  ext t
  rw [score?_eq_some, insert, mem_cons, ← score?_eq_some, score?_remove, if_neg hb]
  simp [hb]

theorem insert_insert : (z.insert a score).insert a score = z.insert a score := by
  simp [insert, remove, filter]

theorem card_insert_le : (z.insert a score).card ≤ z.card + 1 :=
  Nat.succ_le_succ (length_filter_le _ _)

theorem length_filter_remove {members : List (α × Nat)} (hd : (members.map (·.1)).Nodup)
    (h : (a, score) ∈ members) (ht : t ≤ score) :
    ((members.filter fun x => x.1 ≠ a).filter fun x => t ≤ x.2).length + 1 =
      (members.filter fun x => t ≤ x.2).length := by
  induction members with
  | nil => cases h
  | cons x xs ih =>
    rw [map_cons, nodup_cons] at hd
    rcases mem_cons.mp h with rfl | hm
    · have hrest : xs.filter (fun x => x.1 ≠ a) = xs := by
        rw [filter_eq_self]
        intro x hx
        have hne : x.1 ≠ a := fun he => hd.1 (mem_map.mpr ⟨x, hx, he⟩)
        simpa using hne
      rw [filter_cons_of_neg (by simp), hrest, filter_cons_of_pos (by simpa using ht)]
      rfl
    · have hne : x.1 ≠ a := fun he => hd.1 (mem_map.mpr ⟨_, hm, he.symm⟩)
      have hstep := ih hd.2 hm
      rw [filter_cons_of_pos (by simpa using hne)]
      by_cases hx : t ≤ x.2
      · rw [filter_cons_of_pos (by simpa using hx),
          filter_cons_of_pos (by simpa using hx), length_cons, length_cons, hstep]
      · rw [filter_cons_of_neg (by simpa using hx), filter_cons_of_neg (by simpa using hx), hstep]

theorem countFrom_insert_le (h : z.score? a = some score) (ht : t ≤ score) :
    (z.insert a u).countFrom t ≤ z.countFrom t := by
  have hrem := length_filter_remove z.distinct (score?_eq_some.mp h) ht
  unfold countFrom insert remove filter
  rw [filter_cons]
  split
  · exact Nat.le_of_eq hrem
  · exact Nat.le_of_succ_le (Nat.le_of_eq hrem)

end Lookup

end ScoredSet

end Ren2Hub.Lib
