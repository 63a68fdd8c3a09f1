import Mathlib.Data.List.Induction
import Mathlib.Tactic.Linarith
import Ren2Hub.Middleware.ModelRateLimit

namespace Ren2Hub.Proofs.BucketRuns
open Middleware List

abbrev after (N D : Int) (times : List Int) : BucketRun := times.foldl (BucketRun.allow N D) {}

/-- What the script counts for a call at `now`. -/
abbrev level (N D : Int) (times : List Int) (now : Int) : Int :=
  refilled N (N * D) now (after N D times).bucket

abbrev admitted (N D : Int) (times : List Int) : Int := (after N D times).admitted

variable {N D : Int} {times pre mid : List Int} {t now a : Int}

theorem level_le : level N D times now ≤ N * D := by
  cases h : (after N D times).bucket <;> simp [level, refilled, h]

section
variable (hN : 1 ≤ N) (hD : 1 ≤ D)
include hD

theorem level_next (h : 0 ≤ level N D times t) :
    ∃ k, (after N D (times ++ [t])).bucket = some ⟨k, t⟩ ∧ 0 ≤ k ∧ k ≤ N * D ∧
      D * admitted N D (times ++ [t]) + k = D * admitted N D times + level N D times t := by
  have hlevel : level N D times t ≤ N * D := level_le
  simp only [level, admitted, after, foldl_append, foldl_cons, foldl_nil, BucketRun.allow,
    rateLimitScript] at h hlevel ⊢
  split
  · refine ⟨_, rfl, by omega, by omega, ?_⟩
    simp only [if_true]
    linarith
  · exact ⟨_, rfl, h, hlevel, rfl⟩

include hN

/-- The tokens are those of a moment when the bucket was full, with what came in and went out since.
-/
theorem level_spec (hs : (times ++ [now]).Pairwise (· ≤ ·)) :
    0 ≤ level N D times now ∧ ∃ pre f post, times ++ [now] = pre ++ f :: post ∧
      level N D pre f = N * D ∧ level N D times now =
        N * D + N * (now - f) - D * (admitted N D times - admitted N D pre) := by
  have hcapacity : 0 ≤ N * D := mul_nonneg (by omega) (by omega)
  induction times using reverseRecOn generalizing now with
  | nil => exact ⟨hcapacity, [], now, [], rfl, rfl, by simp [level, refilled]⟩
  | append_singleton times t ih =>
    obtain ⟨hsorted, _, hle⟩ := pairwise_append.mp hs
    obtain ⟨h0, pre, f, post, hsplit, hfull, heq⟩ := ih hsorted
    obtain ⟨k, hbucket, hk, _, hpaid⟩ := level_next hD h0
    have hlater := hle t (by simp) now (by simp)
    have hgain : 0 ≤ (now - t) * N := mul_nonneg (by omega) (by omega)
    have hlevel : level N D (times ++ [t]) now = min (N * D) (k + (now - t) * N) := by
      rw [level, hbucket]
      rfl
    rw [hlevel]
    refine ⟨le_min hcapacity (by omega), ?_⟩
    rcases min_choice (N * D) (k + (now - t) * N) with hcap | hcap
    · exact ⟨times ++ [t], now, [], rfl, hlevel.trans hcap, by rw [hcap]; linarith⟩
    refine ⟨pre, f, post ++ [now], by rw [hsplit]; simp, hfull, ?_⟩
    rw [hcap]
    linarith

theorem spent_le (hs : (pre ++ mid ++ [now]).Pairwise (· ≤ ·)) (ha : ∀ t ∈ mid ++ [now], a ≤ t) :
    D * (admitted N D (pre ++ mid) - admitted N D pre) + level N D (pre ++ mid) now ≤
      N * D + N * (now - a) := by
  induction mid using reverseRecOn generalizing now with
  | nil =>
    have hlater := ha now (by simp)
    have hgain : 0 ≤ N * (now - a) := mul_nonneg (by omega) (by omega)
    simp only [append_nil, sub_self, mul_zero, zero_add]
    exact level_le.trans (by omega)
  | append_singleton mid t ih =>
    rw [← append_assoc] at hs ⊢
    have hsorted := (pairwise_append.mp hs).1
    have hspent := ih hsorted fun x hx => ha x (mem_append_left _ hx)
    obtain ⟨k, hbucket, _, _, hpaid⟩ := level_next hD (level_spec hN hD hsorted).1
    have hlevel : level N D (pre ++ mid ++ [t]) now ≤ k + (now - t) * N := by
      rw [level, hbucket]
      exact min_le_right ..
    linarith

/-- The tokens stay in range, calls within `T` seconds are admitted at most as often as a full
bucket and the refill allow, and a call is only refused when those admitted since the bucket was
full leave no room for it. -/
theorem token_bucket_bounds_intervals (times : List Int) (hs : times.Pairwise (· ≤ ·)) :
    (∀ b, (after N D times).bucket = some b → 0 ≤ b.tokens ∧ b.tokens ≤ N * D) ∧
    (∀ pre mid post a T, times = pre ++ mid ++ post → (∀ t ∈ mid, a ≤ t ∧ t ≤ a + T) → 0 ≤ T →
      admitted N D (pre ++ mid) - admitted N D pre ≤ N + N * T / D) ∧
    ∀ now, (∀ t ∈ times, t ≤ now) →
      (rateLimitScript D N (N * D) now (after N D times).bucket).2 = false →
      ∃ pre f post, times ++ [now] = pre ++ f :: post ∧ level N D pre f = N * D ∧
        N * D + N * (now - f) < D * (admitted N D times - admitted N D pre + 1) := by
  refine ⟨?_, ?_, ?_⟩
  · intro b hb
    cases times using reverseRecOn with
    | nil => cases hb
    | append_singleton times t =>
      obtain ⟨k, hbucket, h0, hk, _⟩ := level_next hD (level_spec hN hD hs).1
      cases hbucket.symm.trans hb
      exact ⟨h0, hk⟩
  · rintro pre mid post a T rfl hmid hT
    have hgain : 0 ≤ N * T := mul_nonneg (by omega) hT
    suffices hspent : D * (admitted N D (pre ++ mid) - admitted N D pre) ≤ N * D + N * T by
      rw [← Int.mul_add_ediv_right _ _ (by omega)]
      apply Int.le_ediv_of_mul_le (by omega)
      linarith
    cases mid using reverseRecOn with
    | nil =>
      rw [append_nil, sub_self]
      nlinarith
    | append_singleton mid t =>
      rw [← append_assoc] at hs ⊢
      have hsorted := (pairwise_append.mp hs).1
      have hspent := spent_le hN hD hsorted fun x hx => (hmid x hx).1
      obtain ⟨k, _, hk, _, hpaid⟩ := level_next hD (level_spec hN hD hsorted).1
      have hlast := (hmid t (by simp)).2
      nlinarith
  · intro now hnow hrefused
    have hsorted : (times ++ [now]).Pairwise (· ≤ ·) :=
      pairwise_append.mpr ⟨hs, by simp, by simpa using hnow⟩
    obtain ⟨_, pre, f, post, hsplit, hfull, heq⟩ := level_spec hN hD hsorted
    refine ⟨pre, f, post, hsplit, hfull, ?_⟩
    have hlow : level N D times now < D := by
      by_contra hroom
      simp [rateLimitScript, not_lt.mp hroom] at hrefused
    linarith

end

theorem third_request_refused :
    ∃ pre f post, [0, 0] ++ [1] = pre ++ f :: post ∧ level 2 60 pre f = 120 ∧
      120 + 2 * (1 - f) < 60 * (admitted 2 60 [0, 0] - admitted 2 60 pre + 1) :=
  (token_bucket_bounds_intervals (by decide) (by decide) [0, 0] (by decide)).2.2 1 (by decide)
    (by decide)

end Ren2Hub.Proofs.BucketRuns
