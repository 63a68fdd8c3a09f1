import Mathlib.Data.List.Flatten
import Mathlib.Data.List.Count
import Mathlib.Data.List.Sublists

namespace Ren2Hub.Lib
open List

variable {α : Type}

theorem map_sublist_drop {β : Type} (base : List α) (pos : β → Nat) (val : β → α) (l : List β)
    (hi : (l.map pos).Pairwise (· < ·)) (hb : ∀ b ∈ l, base[pos b]? = some (val b)) (n : Nat)
    (hn : ∀ b ∈ l, n ≤ pos b) : (l.map val).Sublist (base.drop n) := by
  induction l generalizing n with
  | nil => simp
  | cons b l ih =>
    rw [map_cons, pairwise_cons] at hi
    obtain ⟨hlt, hv⟩ := List.getElem?_eq_some_iff.mp (hb b (by simp))
    have hd : base.drop (pos b) = val b :: base.drop (pos b + 1) := by
      rw [drop_eq_getElem_cons hlt, hv]
    have ht := ih hi.2 (fun c hc => hb c (by simp [hc])) (pos b + 1)
      (fun c hc => hi.1 _ (mem_map_of_mem hc))
    refine List.Sublist.trans ?_ (drop_sublist_drop_left base (hn b (by simp)))
    rw [hd]
    exact ht.cons_cons _

variable [DecidableEq α]

def changes : List α → Nat
  | a :: b :: l => (if a = b then 0 else 1) + changes (b :: l)
  | _ => 0

def repeats : List α → Nat
  | a :: b :: l => (if a = b then 1 else 0) + repeats (b :: l)
  | _ => 0

theorem changes_lt_length (a : α) (l : List α) : changes (a :: l) < (a :: l).length := by
  induction l generalizing a with
  | nil => simp [changes]
  | cons b l ih =>
    have hb := ih b
    simp only [changes, length_cons] at hb ⊢
    split <;> omega

theorem changes_le_cons (a b : α) (l : List α) :
    changes (a :: l) ≤ changes (a :: b :: l) := by
  cases l with
  | nil => simp [changes]
  | cons c l =>
    simp only [changes]
    have : (if a = c then 0 else 1) ≤ (if a = b then 0 else 1) + (if b = c then 0 else 1) := by
      split_ifs with h1 h2 h3 <;> simp_all
    omega

theorem changes_cons_sublist (h : l1.Sublist l2) (a : α) :
    changes (a :: l1) ≤ changes (a :: l2) := by
  induction h generalizing a with
  | slnil => exact Nat.le_refl _
  | cons b _ ih => exact Nat.le_trans (ih a) (changes_le_cons a b _)
  | cons_cons b _ ih =>
    exact Nat.add_le_add_left (ih b) _

theorem changes_sublist {l1 l2 : List α} (h : l1.Sublist l2) : changes l1 ≤ changes l2 := by
  induction h with
  | slnil => exact Nat.le_refl _
  | @cons l1 l2 a h ih =>
    refine Nat.le_trans ih ?_
    cases l2 with
    | nil => simp [changes]
    | cons b l =>
      simp only [changes]
      omega
  | cons_cons a h => exact changes_cons_sublist h a

theorem changes_replicate_append (k : Nat) (a : α) (l : List α) :
    changes (List.replicate (k + 1) a ++ l) = changes (a :: l) := by
  induction k with
  | zero => rfl
  | succ k ih =>
    rw [replicate_succ, cons_append, ← ih, replicate_succ, cons_append]
    simp [changes]

/-- Each element repeated the same number of times: at most one change between two
elements of the original list. -/
theorem changes_flatMap_replicate (k : Nat) (a : α) (l : List α) :
    changes ((a :: l).flatMap (List.replicate (k + 1))) ≤ l.length := by
  induction l generalizing a with
  | nil =>
    have := changes_replicate_append k a []
    simpa [changes] using this.le
  | cons b l ih =>
    rw [flatMap_cons, changes_replicate_append]
    have hb := ih b
    rw [flatMap_cons, replicate_succ, cons_append] at hb ⊢
    simp only [changes, length_cons]
    split <;> omega

theorem count_flatMap_replicate_le (k : Nat) {l : List α} (h : l.Nodup) (a : α) :
    (l.flatMap (List.replicate k)).count a ≤ k := by
  induction l with
  | nil => simp
  | cons b l ih =>
    obtain ⟨hb, hl⟩ := nodup_cons.mp h
    rw [flatMap_cons, count_append, count_replicate]
    split
    next he =>
      have he : b = a := by simpa using he
      subst he
      have : b ∉ l.flatMap (List.replicate k) := by
        intro hm
        obtain ⟨c, hc, hr⟩ := mem_flatMap.mp hm
        exact hb (eq_of_mem_replicate hr ▸ hc)
      rw [count_eq_zero.mpr this]
      omega
    next => have := ih hl; omega

end Ren2Hub.Lib
