import Mathlib.Algebra.GroupWithZero.Nat
import Mathlib.Data.List.Count

namespace Ren2Hub.Routing
open List

/-- FNV-1a of 64 bits. -/
def sum64 (data : String) : UInt64 :=
  data.toUTF8.toList.foldl (fun hash b => (hash ^^^ b.toUInt64) * 1099511628211)
    14695981039346656037

def addWeight (total : Nat) (w : Int) : Nat :=
  if 0 < w then (total + w.toNat) % 2 ^ 64 else total

/-- The loop that looks for the bucket. -/
def indexOfBucket (bucket : Nat) : List Int → Nat → Option Nat
  | [], _ => none
  | w :: weights, accumulated =>
    if 0 < w ∧ bucket < addWeight accumulated w then some 0
    else (indexOfBucket bucket weights (addWeight accumulated w)).map (· + 1)

def candidateOfBucket (weights : List Int) (bucket : Nat) : Nat :=
  (indexOfBucket bucket weights 0).getD 0

def weightedManualCandidateIndex (weights : List Int) (requestID : String) : Nat :=
  if weights.length < 2 || requestID == "" then 0
  else
    let total := weights.foldl addWeight 0
    if total = 0 then (sum64 requestID).toNat % weights.length
    else candidateOfBucket weights ((sum64 requestID).toNat % total)

/-- The total without a word size. -/
def positiveSum (weights : List Int) : Nat := (weights.map Int.toNat).sum

variable (ws : List Int)

theorem addWeight_eq (h : n + w.toNat < 2 ^ 64) : addWeight n w = n + w.toNat := by
  unfold addWeight
  split
  · exact Nat.mod_eq_of_lt h
  · omega

theorem total_eq (h : n + positiveSum ws < 2 ^ 64) :
    ws.foldl addWeight n = n + positiveSum ws := by
  induction ws generalizing n with
  | nil => rfl
  | cons w ws ih =>
    simp only [positiveSum, map_cons, sum_cons, foldl_cons] at h ih ⊢
    rw [addWeight_eq (by omega), ih (by omega), Nat.add_assoc]

/-- The candidates in the order of the buckets, each as often as its weight says. -/
def shares : List Int → List Nat
  | [] => []
  | w :: ws => replicate w.toNat 0 ++ (shares ws).map (· + 1)

theorem indices_eq (h : n + positiveSum ws < 2 ^ 64) :
    (range (positiveSum ws)).map (fun b => indexOfBucket (n + b) ws n) = (shares ws).map some := by
  induction ws generalizing n with
  | nil => rfl
  | cons w ws ih =>
    simp only [positiveSum, map_cons, sum_cons] at h ih ⊢
    have hn := addWeight_eq (n := n) (w := w) (by omega)
    rw [range_add, map_append, shares, map_append]
    congr 1
    · rw [map_replicate, eq_replicate_iff]
      simp only [length_map, length_range, mem_map, mem_range, true_and]
      rintro _ ⟨b, hb, rfl⟩
      exact if_pos ⟨by omega, by omega⟩
    · have hrest := congrArg (map (Option.map (· + 1))) (ih (n := n + w.toNat) (by omega))
      simp only [map_map] at hrest ⊢
      refine Eq.trans (map_congr_left fun b hb => ?_) hrest
      rw [Function.comp_apply, indexOfBucket, if_neg (by omega), hn, ← Nat.add_assoc]
      rfl

theorem count_shares (h : ws[i]? = some w) : (shares ws).count i = w.toNat := by
  induction ws generalizing i with
  | nil => cases h
  | cons v ws ih =>
    cases i with
    | zero =>
      cases h
      simp [shares, count_eq_zero]
    | succ i =>
      rw [shares, count_append, count_map_of_injective _ _ fun _ _ => Nat.succ.inj, ih h]
      simp [count_replicate]

/-- Over the buckets each candidate is chosen as often as its weight says. -/
theorem weighted_index_exact (weights : List Int) (two : 2 ≤ weights.length)
    (hpos : 0 < positiveSum weights) (hfits : positiveSum weights < 2 ^ 64) :
    (∀ requestID ≠ "", weightedManualCandidateIndex weights requestID =
      candidateOfBucket weights ((sum64 requestID).toNat % positiveSum weights)) ∧
    ∀ (i : Nat) w, weights[i]? = some w →
      ((range (positiveSum weights)).map (candidateOfBucket weights)).count i = w.toNat := by
  constructor
  · intro requestID hid
    have htotal := total_eq (n := 0) weights (by omega)
    have hne := Nat.pos_iff_ne_zero.mp hpos
    simp [weightedManualCandidateIndex, htotal, hid, Nat.not_lt.mpr two, hne]
  · intro i w hi
    have hall := congrArg (map (·.getD 0)) (indices_eq (n := 0) weights (by omega))
    simp only [map_map, Function.comp_def, Nat.zero_add, Option.getD_some, map_id'] at hall
    exact (congrArg (count i) hall).trans (count_shares weights hi)

theorem two_to_one : ((range 3).map (candidateOfBucket [2, -5, 1])).count 0 = 2 :=
  (weighted_index_exact [2, -5, 1] (by decide) (by decide) (by decide)).2 0 2 rfl

end Ren2Hub.Routing
