import Ren2Hub.Proofs.ResetRuns

namespace Ren2Hub.Proofs.ResetLoop
open Billing ResetRuns

variable {cal : Calendar} {plan : SubscriptionPlan} {sub sub' : UserSubscription} {now : Int}
  {next : Int → Int} {base : Int} {advanced : Bool}

theorem catchUp_unique (h : catchUp next now n base advanced = some x)
    (h' : catchUp next now m base advanced = some y) : x = y := by
  induction n generalizing m base advanced with
  | zero => cases h
  | succ n ih =>
    cases m with
    | zero => cases h'
    | succ m =>
      unfold catchUp at h h'
      split at h
      · rw [if_pos ‹_›] at h'
        exact ih h h'
      · rw [if_neg ‹_›] at h'
        exact Option.some.inj (h.symm.trans h')

/-- Boundaries after their base let the loop end. -/
theorem catchUp_ends (hup : ∀ b, 0 < next b → b < next b) (now base : Int) (n : Nat)
    (hn : now < base + n) (advanced : Bool) :
    ∃ last after, catchUp next now (n + 1) base advanced = some (last, after) ∧
      ¬ (0 < next last ∧ next last ≤ now) ∧
      (after = advanced ∧ last = base ∨ after = true ∧ 0 < last ∧ last ≤ now) := by
  induction n generalizing base advanced with
  | zero =>
    have hnot : ¬ (0 < next base ∧ next base ≤ now) := by
      rintro ⟨hpos, hle⟩
      have := hup base hpos
      omega
    exact ⟨base, advanced, by rw [catchUp, if_neg hnot], hnot, .inl ⟨rfl, rfl⟩⟩
  | succ n ih =>
    by_cases hdue : 0 < next base ∧ next base ≤ now
    · have hgt := hup base hdue.1
      obtain ⟨last, after, hloop, hnot, hcases⟩ := ih (next base) (by omega) true
      refine ⟨last, after, by rw [catchUp, if_pos hdue, hloop], hnot, .inr ?_⟩
      rcases hcases with ⟨rfl, rfl⟩ | h
      · exact ⟨rfl, hdue⟩
      · exact h
    · exact ⟨base, advanced, by rw [catchUp, if_neg hdue], hdue, .inl ⟨rfl, rfl⟩⟩

/-- Boundaries before their base let it end too, below the last one that is positive. -/
theorem catchUp_falls {d : Int} (hd : d < 0) (hnext : ∀ b ≤ base, next b = b + d)
    (hle : base + d ≤ now) (hpos : 0 < base) (advanced : Bool) :
    ∃ n last after, catchUp next now n base advanced = some (last, after) ∧ 0 < last ∧
      next last = last + d ∧ last + d ≤ 0 ∧ last ≤ base ∧ d ∣ base - last ∧
      (after = advanced ∧ last = base ∨ after = true ∧ last ≤ now) := by
  obtain ⟨n, hn⟩ : ∃ n : Nat, base ≤ n := ⟨base.toNat, by omega⟩
  induction n generalizing base advanced with
  | zero => omega
  | succ n ih =>
    have hbase := hnext base le_rfl
    by_cases hstop : base + d ≤ 0
    · refine ⟨1, base, advanced, ?_, hpos, hbase, hstop, le_rfl, by simp, .inl ⟨rfl, rfl⟩⟩
      rw [catchUp, if_neg (by omega)]
    · obtain ⟨m, last, after, hloop, hlast, hnl, hend, hbound, hdvd, hcases⟩ :=
        @ih (base + d) (fun b hb => hnext b (by omega)) (by omega) (by omega) true (by omega)
      refine ⟨m + 1, last, after, ?_, hlast, hnl, hend, by omega, ?_, .inr ?_⟩
      · rw [catchUp, if_pos (by omega), hbase, hloop]
      · have := Int.dvd_sub hdvd (Int.dvd_refl d)
        rwa [show base + d - last - d = base - last by omega] at this
      · rcases hcases with ⟨rfl, rfl⟩ | h
        · exact ⟨rfl, hle⟩
        · exact h

theorem wrapping_cases (cal : Calendar) (plan : SubscriptionPlan) (stop : Int) :
    (∀ base, calcNextResetTimeWrapping cal plan base stop = calcNextResetTime cal base plan stop) ∧
      plan.quotaResetPeriod ≠ .custom ∨
    plan.quotaResetPeriod = .custom ∧ ∀ base, calcNextResetTimeWrapping cal plan base stop =
      if plan.quotaResetCustomSeconds ≤ 0 then 0
      else if stop > 0 ∧ base + durationSeconds plan.quotaResetCustomSeconds > stop then 0
      else base + durationSeconds plan.quotaResetCustomSeconds := by
  by_cases hc : plan.quotaResetPeriod = .custom
  · refine .inr ⟨hc, fun base => ?_⟩
    unfold calcNextResetTimeWrapping
    by_cases hs : plan.quotaResetCustomSeconds ≤ 0
    · rw [if_neg (by omega), if_pos hs]
      simp [calcNextResetTime, hc, hs]
    · rw [if_pos ⟨hc, by omega⟩, if_neg hs]
  · exact .inl ⟨fun base => by simp [calcNextResetTimeWrapping, hc], hc⟩

theorem durationSeconds_eq (h0 : 0 < n) (h : n ≤ 9223372036) : durationSeconds n = n := by
  unfold durationSeconds
  rw [Int.bmod_eq_of_le (by omega) (by omega)]
  omega

theorem advanceReset_catchUp {stop : Int}
    (h : catchUp (fun t => calcNextResetTime cal t plan stop) now (n + 1) base advanced =
      some (last, after)) :
    advanceReset cal plan stop now n base (calcNextResetTime cal base plan stop) advanced =
      (last, calcNextResetTime cal last plan stop, after) := by
  induction n generalizing base advanced with
  | zero =>
    unfold catchUp at h
    split at h
    · cases h
    · cases h
      rfl
  | succ n ih =>
    unfold catchUp at h
    split at h
    · rw [advanceReset, if_pos ‹_›]
      exact ih h
    · cases h
      exact advanceReset_stop _ _ _ _ _ _ ‹_›

/-- Where the duration does not wrap, the loop is the one with a bound. -/
theorem maybeResetTx_bounded (hcal : Forward cal) (hsecs : plan.quotaResetPeriod = .custom →
      plan.quotaResetCustomSeconds ≤ 9223372036) (sub : UserSubscription) (now : Int) :
    ∃ rounds, maybeResetUserSubscriptionWithPlanTx cal plan sub now rounds =
      some (maybeResetUserSubscriptionWithPlan cal sub plan now) := by
  have hsame : ∀ base, calcNextResetTimeWrapping cal plan base sub.endTime =
      calcNextResetTime cal base plan sub.endTime := by
    intro base
    unfold calcNextResetTimeWrapping
    split
    · rename_i h
      rw [durationSeconds_eq h.2 (hsecs h.1)]
      simp only [calcNextResetTime, h.1, if_neg (not_le.mpr h.2)]
    · rfl
  have hup : ∀ b, 0 < calcNextResetTime cal b plan sub.endTime →
      b < calcNextResetTime cal b plan sub.endTime := fun _ => calcNext_gt hcal
  obtain ⟨last, after, hloop, _⟩ := catchUp_ends hup now (resetBase sub)
    ((now - resetBase sub).toNat + 1) (by omega) false
  have hwalk := advanceReset_catchUp hloop
  refine ⟨(now - resetBase sub).toNat + 1 + 1, ?_⟩
  simp only [resetBase] at hloop hwalk ⊢
  simp only [maybeResetUserSubscriptionWithPlanTx, maybeResetUserSubscriptionWithPlan, hsame, hloop,
    hwalk]
  split
  · rfl
  · split <;> rfl

/-- The boundary the check begins with. -/
def firstBoundary (cal : Calendar) (plan : SubscriptionPlan) (sub : UserSubscription) : Int :=
  calcNextResetTimeWrapping cal plan (resetBase sub) sub.endTime

/-- The check ends with the next reset in the future and the last one in the past, and then another
one does nothing. -/
def Settles (cal : Calendar) (plan : SubscriptionPlan) (sub : UserSubscription) (now : Int) :
    Prop :=
  ∃ rounds sub', maybeResetUserSubscriptionWithPlanTx cal plan sub now rounds = some sub' ∧
    (sub'.nextResetTime = 0 ∨ now < sub'.nextResetTime) ∧ sub'.lastResetTime ≤ now ∧
    ∃ again, maybeResetUserSubscriptionWithPlanTx cal plan sub' now again = some sub'

/-- Where a boundary is due, a custom period must wrap to a positive duration or one that divides
the base; where one is announced, the base must be past; elsewhere the row must be right already. -/
def Lands (cal : Calendar) (plan : SubscriptionPlan) (sub : UserSubscription) (now : Int) : Prop :=
  if 0 < sub.nextResetTime ∧ now < sub.nextResetTime then sub.lastResetTime ≤ now
  else if 0 < firstBoundary cal plan sub ∧ firstBoundary cal plan sub ≤ now then
    plan.quotaResetPeriod = .custom → 0 < durationSeconds plan.quotaResetCustomSeconds ∨
      durationSeconds plan.quotaResetCustomSeconds ∣ resetBase sub
  else if sub.nextResetTime = 0 ∧ 0 < firstBoundary cal plan sub then resetBase sub ≤ now
  else (sub.nextResetTime = 0 ∨ now < sub.nextResetTime) ∧ sub.lastResetTime ≤ now

instance (cal : Calendar) (plan : SubscriptionPlan) (sub : UserSubscription) (now : Int) :
    Decidable (Lands cal plan sub now) := by
  unfold Lands
  infer_instance

/-- The row after a loop that ended at `base`. -/
def saved (cal : Calendar) (plan : SubscriptionPlan) (sub : UserSubscription) (base : Int)
    (advanced : Bool) : UserSubscription :=
  if advanced then
    { sub with amountUsed := 0, lastResetTime := base
               nextResetTime := calcNextResetTimeWrapping cal plan base sub.endTime }
  else if sub.nextResetTime = 0 ∧ 0 < calcNextResetTimeWrapping cal plan base sub.endTime then
    { sub with nextResetTime := calcNextResetTimeWrapping cal plan base sub.endTime
               lastResetTime := base }
  else sub

theorem maybeResetTx_once
    (h : maybeResetUserSubscriptionWithPlanTx cal plan sub now 0 = some sub') :
    maybeResetUserSubscriptionWithPlanTx cal plan sub now 1 = some sub' := by
  unfold maybeResetUserSubscriptionWithPlanTx at h ⊢
  split at h
  · rw [if_pos ‹_›]
    exact h
  rw [if_neg ‹_›]
  split at h
  · rw [if_pos ‹_›]
    exact h
  · cases h

section
variable (hearly : ¬ (0 < sub.nextResetTime ∧ now < sub.nextResetTime))
include hearly

/-- A plan that never resets has no boundaries, so the loop and what follows it cover it too. -/
theorem maybeResetTx_loop (rounds : Nat) :
    maybeResetUserSubscriptionWithPlanTx cal plan sub now (rounds + 1) =
      (catchUp (fun b => calcNextResetTimeWrapping cal plan b sub.endTime) now (rounds + 1)
        (resetBase sub) false).map fun x => saved cal plan sub x.1 x.2 := by
  unfold maybeResetUserSubscriptionWithPlanTx
  rw [if_neg hearly]
  split
  · rename_i hnever
    have hzero : ∀ b, calcNextResetTimeWrapping cal plan b sub.endTime = 0 := by
      intro b
      simp [calcNextResetTimeWrapping, hnever, calcNext_never hnever]
    simp [catchUp, hzero, saved]
  · simp only [resetBase, saved]
    congr 1
    funext x
    cases x.2 <;> simp

theorem settles_saved (h : catchUp (fun b => calcNextResetTimeWrapping cal plan b sub.endTime) now n
      (resetBase sub) false = some (last, after)) :
    Settles cal plan sub now ↔
      ((saved cal plan sub last after).nextResetTime = 0 ∨
        now < (saved cal plan sub last after).nextResetTime) ∧
      (saved cal plan sub last after).lastResetTime ≤ now ∧
      ∃ again, maybeResetUserSubscriptionWithPlanTx cal plan (saved cal plan sub last after) now
        again = some (saved cal plan sub last after) := by
  obtain ⟨m, rfl⟩ : ∃ m, n = m + 1 := Nat.exists_eq_succ_of_ne_zero (by rintro rfl; cases h)
  constructor
  · rintro ⟨rounds, sub', hrun, hprops⟩
    obtain ⟨k, hk⟩ : ∃ k, maybeResetUserSubscriptionWithPlanTx cal plan sub now (k + 1) =
        some sub' := by
      cases rounds with
      | zero => exact ⟨0, maybeResetTx_once hrun⟩
      | succ k => exact ⟨k, hrun⟩
    rw [maybeResetTx_loop hearly] at hk
    obtain ⟨x, hx, rfl⟩ := Option.map_eq_some_iff.mp hk
    cases catchUp_unique h hx
    exact hprops
  · intro hprops
    refine ⟨m + 1, _, ?_, hprops⟩
    rw [maybeResetTx_loop hearly, h]
    rfl

end

/-- A row whose next reset is to come, or that has none and no boundary due or to announce, is left
as it is. -/
theorem maybeResetTx_stays
    (h : 0 < sub.nextResetTime ∧ now < sub.nextResetTime ∨
      ¬ (0 < firstBoundary cal plan sub ∧ firstBoundary cal plan sub ≤ now) ∧
      ¬ (sub.nextResetTime = 0 ∧ 0 < firstBoundary cal plan sub)) :
    maybeResetUserSubscriptionWithPlanTx cal plan sub now 1 = some sub := by
  by_cases hearly : 0 < sub.nextResetTime ∧ now < sub.nextResetTime
  · unfold maybeResetUserSubscriptionWithPlanTx
    rw [if_pos hearly]
  · obtain ⟨hdue, hnew⟩ := h.resolve_left hearly
    unfold firstBoundary at hdue hnew
    rw [maybeResetTx_loop hearly, catchUp, if_neg hdue, Option.map_some, saved]
    simp only [Bool.false_eq_true, if_false]
    rw [if_neg hnew]

/-- A loop that advanced to a positive `last` leaves a row that stays as it is. -/
theorem saved_stays (hlast : 0 < last)
    (hnot : ¬ (0 < calcNextResetTimeWrapping cal plan last sub.endTime ∧
      calcNextResetTimeWrapping cal plan last sub.endTime ≤ now)) :
    maybeResetUserSubscriptionWithPlanTx cal plan (saved cal plan sub last true) now 1 =
      some (saved cal plan sub last true) := by
  apply maybeResetTx_stays
  have hbase : resetBase (saved cal plan sub last true) = last := if_neg (not_le.mpr hlast)
  simp only [firstBoundary, hbase]
  simp only [saved, if_true]
  omega

section
variable (hearly : ¬ (0 < sub.nextResetTime ∧ now < sub.nextResetTime))
  (hdue : 0 < firstBoundary cal plan sub ∧ firstBoundary cal plan sub ≤ now)
include hearly hdue

theorem settles_of_later (hup : ∀ b, calcNextResetTimeWrapping cal plan b sub.endTime = 0 ∨
      b < calcNextResetTimeWrapping cal plan b sub.endTime) : Settles cal plan sub now := by
  have hup' : ∀ b, 0 < calcNextResetTimeWrapping cal plan b sub.endTime →
      b < calcNextResetTimeWrapping cal plan b sub.endTime := by
    intro b hpos
    have := hup b
    omega
  obtain ⟨last, after, hloop, hnot, hcases⟩ :=
    catchUp_ends hup' now (resetBase sub) ((now - resetBase sub).toNat + 1) (by omega) false
  rw [settles_saved hearly hloop]
  rcases hcases with ⟨_, rfl⟩ | ⟨rfl, hlast, hle⟩
  · exact absurd hdue hnot
  refine ⟨?_, hle, 1, saved_stays hlast hnot⟩
  have := hup last
  simp only [saved, if_true]
  omega

/-- A custom period that wraps to nothing or less: the loop never ends, or falls to a boundary that
is not positive. -/
theorem settles_of_earlier {d : Int} (hd : d ≤ 0)
    (hnext : ∀ b ≤ resetBase sub, calcNextResetTimeWrapping cal plan b sub.endTime = b + d) :
    Settles cal plan sub now ↔ d ∣ resetBase sub := by
  have hfirst := hnext (resetBase sub) le_rfl
  simp only [firstBoundary, hfirst] at hdue
  rcases eq_or_lt_of_le hd with rfl | hneg
  · have hloop : ∀ n advanced, catchUp
        (fun b => calcNextResetTimeWrapping cal plan b sub.endTime) now n (resetBase sub) advanced =
          none := by
      intro n
      induction n with
      | zero => exact fun _ => rfl
      | succ n ih =>
        intro advanced
        rw [catchUp, hfirst, if_pos hdue, Int.add_zero]
        exact ih true
    constructor
    · rintro ⟨rounds, sub', hrun, _⟩
      cases rounds with
      | zero =>
        have hnone := maybeResetTx_once hrun
        rw [maybeResetTx_loop hearly, hloop] at hnone
        cases hnone
      | succ rounds =>
        rw [maybeResetTx_loop hearly, hloop] at hrun
        cases hrun
    · intro hdvd
      have := Int.zero_dvd.mp hdvd
      omega
  · obtain ⟨n, last, after, hloop, hlast, hnl, hend, _, hdvd, hcases⟩ :=
      catchUp_falls hneg hnext hdue.2 (by omega) false
    rw [settles_saved hearly hloop]
    rcases hcases with ⟨_, rfl⟩ | ⟨rfl, hle⟩
    · omega
    have hstays : ∃ again, maybeResetUserSubscriptionWithPlanTx cal plan
        (saved cal plan sub last true) now again = some (saved cal plan sub last true) :=
      ⟨1, saved_stays hlast (by rw [hnl]; omega)⟩
    have hnow : ((saved cal plan sub last true).nextResetTime = 0 ∨
        now < (saved cal plan sub last true).nextResetTime) ↔ last + d = 0 := by
      simp only [saved, if_true, hnl]
      omega
    rw [hnow]
    constructor
    · rintro ⟨hzero, _⟩
      have hself : d ∣ last := ⟨-1, by omega⟩
      have := Int.dvd_add hdvd hself
      rwa [Int.sub_add_cancel] at this
    · intro hbase
      have hself : d ∣ last := by
        have := Int.dvd_sub hbase hdvd
        rwa [Int.sub_sub_self] at this
      have := Int.le_of_dvd hlast (Int.neg_dvd.mpr hself)
      exact ⟨by omega, hle, hstays⟩

end

/-- The check lands in the present exactly under the condition, for every plan, row and time. -/
theorem maybeResetTx_settles_iff (hcal : Forward cal) (sub : UserSubscription) (now : Int) :
    Settles cal plan sub now ↔ Lands cal plan sub now := by
  unfold Lands
  split
  · rename_i hearly
    have hrun : ∀ rounds, maybeResetUserSubscriptionWithPlanTx cal plan sub now rounds =
        some sub := by
      intro rounds
      unfold maybeResetUserSubscriptionWithPlanTx
      rw [if_pos hearly]
    constructor
    · rintro ⟨rounds, sub', hr, _, hlast, _⟩
      cases (hrun rounds).symm.trans hr
      exact hlast
    · exact fun hlast => ⟨0, sub, hrun 0, .inr hearly.2, hlast, 0, hrun 0⟩
  rename_i hearly
  split
  · rename_i hdue
    rcases wrapping_cases cal plan sub.endTime with ⟨hsame, hother⟩ | ⟨hcustom, hnext⟩
    · refine iff_of_true (settles_of_later hearly hdue fun b => ?_) fun h => absurd h hother
      rw [hsame]
      exact calcNext_cases hcal b plan sub.endTime
    have hsecs : ¬ plan.quotaResetCustomSeconds ≤ 0 := by
      intro hle
      have := hdue.1
      simp [firstBoundary, hnext, hle] at this
    simp only [hsecs, if_false] at hnext
    simp only [hcustom, forall_const]
    by_cases hd : 0 < durationSeconds plan.quotaResetCustomSeconds
    · refine iff_of_true (settles_of_later hearly hdue fun b => ?_) (.inl hd)
      rw [hnext]
      split <;> omega
    · rw [or_iff_right hd]
      refine settles_of_earlier hearly hdue (not_lt.mp hd) fun b hb => ?_
      have hpos := hdue.1
      rw [firstBoundary, hnext] at hpos
      rw [hnext, if_neg]
      split at hpos <;> omega
  rename_i hdue
  have hloop : catchUp (fun b => calcNextResetTimeWrapping cal plan b sub.endTime) now 1
      (resetBase sub) false = some (resetBase sub, false) := if_neg hdue
  rw [settles_saved hearly hloop]
  simp only [saved, Bool.false_eq_true, if_false]
  split
  · rename_i hnew
    change sub.nextResetTime = 0 ∧ 0 < firstBoundary cal plan sub at hnew
    rw [if_pos hnew]
    have hfuture : now < firstBoundary cal plan sub := by
      have := hnew.2
      omega
    refine ⟨fun h => h.2.1, fun h => ⟨.inr hfuture, h, 1, maybeResetTx_stays (.inl ?_)⟩⟩
    exact ⟨hnew.2, hfuture⟩
  · rename_i hnew
    change ¬ (sub.nextResetTime = 0 ∧ 0 < firstBoundary cal plan sub) at hnew
    rw [if_neg hnew]
    refine ⟨fun h => ⟨h.1, h.2.1⟩, fun h => ⟨h.1, h.2, 1, maybeResetTx_stays (.inr ⟨hdue, hnew⟩)⟩⟩

def halfUsed : UserSubscription :=
  { id := 1, userId := 1, planId := 1, amountTotal := 10, amountUsed := 5, startTime := 15
    endTime := 100 }

theorem maybeResetTx_settles_monthly :
    Settles monthly.toCalendar { quotaResetPeriod := .monthly } halfUsed 65 :=
  (maybeResetTx_settles_iff monthly_forward halfUsed 65).mpr (by decide)

/-- Of `2 ^ 55` seconds the 64 bits keep nothing. -/
def endless : SubscriptionPlan :=
  { quotaResetPeriod := .custom, quotaResetCustomSeconds := 36028797018963968 }

/-- The boundary after 15 is 15 again, and no number of rounds is enough. -/
theorem maybeResetTx_never_ends :
    calcNextResetTimeWrapping monthly.toCalendar endless 15 100 = 15 ∧ ∀ rounds,
      maybeResetUserSubscriptionWithPlanTx monthly.toCalendar endless halfUsed 15 rounds =
        none := by
  refine ⟨by decide, fun rounds => ?_⟩
  have hloop : ∀ n advanced, catchUp (fun base =>
      calcNextResetTimeWrapping monthly.toCalendar endless base 100) 15 n 15 advanced = none := by
    intro n
    induction n with
    | zero => exact fun _ => rfl
    | succ n ih =>
      intro advanced
      rw [catchUp, if_pos (by decide)]
      exact ih true
  exact congrArg (Option.map _) (hloop rounds false)

end Ren2Hub.Proofs.ResetLoop
