import Ren2Hub.Proofs.MembershipSpec
import Ren2Hub.Proofs.SubscriptionSpec
import Ren2Hub.Proofs.SubscriptionCalls
import Ren2Hub.Proofs.RequestBook

namespace Ren2Hub.Proofs.UsageBound
open Lib Billing Ledger RecoverySpec CallSpec SubscriptionSpec SubscriptionCalls
  MembershipSpec RequestBook

/-- The used amount is not negative and, under a total, not more than it. -/
def Fits (sub : UserSubscription) : Prop :=
  0 ≤ sub.amountUsed ∧ (0 < sub.amountTotal → sub.amountUsed ≤ sub.amountTotal)

/-- Every stored subscription fits, under its own id. -/
structure Within (s : Store) : Prop where
  key : ∀ k sub, s.subscriptions k = some sub → sub.id = k
  fits : ∀ k sub, s.subscriptions k = some sub → Fits sub

theorem Within.of_same (h : Within s) (he : s'.subscriptions = s.subscriptions) : Within s' := by
  constructor <;> rw [he]
  · exact h.key
  · exact h.fits

theorem Within.save (h : Within s) (hf : Fits sub) : Within (s.saveSubscription sub) := by
  constructor
  all_goals
    intro k q hq
    rcases saveSubscription_cases hq with ⟨rfl, rfl⟩ | hold
  · rfl
  · exact h.key k q hold
  · exact hf
  · exact h.fits k q hold

theorem Within.keyed (h : Within s) : Keyed s :=
  ⟨h.key, fun k sub hs => (h.fits k sub hs).1⟩

theorem Within.setRecord (h : Within s) (rid : RequestID) (r : SubscriptionPreConsumeRecord) :
    Within (s.setRecord rid r) :=
  h.of_same rfl

theorem Fits.clear (sub : UserSubscription) : Fits { sub with amountUsed := 0 } :=
  ⟨le_refl 0, fun ht => ht.le⟩

theorem Fits.add (h : Fits sub) (hpos : 0 < amount)
    (hroom : ¬ (sub.amountTotal > 0 ∧ sub.amountTotal - sub.amountUsed < amount)) :
    Fits { sub with amountUsed := sub.amountUsed + amount } := by
  obtain ⟨h0, _⟩ := h
  have hle : 0 < sub.amountTotal → sub.amountUsed + amount ≤ sub.amountTotal := by omega
  exact ⟨by dsimp only; omega, hle⟩

theorem fits_maybeReset (h : Fits sub) (cal : Calendar) (plan : SubscriptionPlan) (now : Int) :
    Fits (maybeResetUserSubscriptionWithPlan cal sub plan now) := by
  obtain ⟨used, last, next, hu, heq⟩ := maybeReset_eq cal sub plan now
  rw [heq]
  rcases hu with rfl | rfl
  · exact h
  · exact Fits.clear sub

theorem fits_reset (cal : Calendar) (plan : SubscriptionPlan) (now : Int) (advance : Bool)
    (sub : UserSubscription) : Fits (resetUserSubscription cal plan now advance sub) := by
  cases advance <;> exact Fits.clear sub

theorem rows_stored {s : Store} (h : sub ∈ s.subscriptionRows) :
    ∃ k, s.subscriptions k = some sub := by
  obtain ⟨k, _, hk⟩ := List.mem_filterMap.mp h
  exact ⟨k, hk⟩

theorem active_fits (h : Within s) (hm : sub ∈ activeSubscriptions s userId now) : Fits sub := by
  simp only [activeSubscriptions, List.mem_insertionSort, List.mem_filter] at hm
  obtain ⟨k, hk⟩ := rows_stored (s := s) hm.1
  exact h.fits k sub hk

theorem postConsumeTx_within (hw : Within s)
    (h : postConsumeUserSubscriptionDeltaTx k delta s = .ok s') : Within s' := by
  obtain ⟨sub, _, ht, rfl⟩ := postConsumeTx_ok h
  exact hw.save ⟨le_max_left 0 _, ht⟩

theorem consumeCandidate_within (hpos : 0 < amount) (hsubs : ∀ sub ∈ subs, Fits sub)
    (hw : Within s) (h : consumeCandidate cal rid userId amount now subs s = .ok (res, s')) :
    Within s' := by
  induction subs generalizing s with
  | nil => cases h
  | cons candidate rest ih =>
    unfold consumeCandidate at h
    split at h
    · cases h
    rename_i plan _
    have hfit := fits_maybeReset (hsubs candidate List.mem_cons_self) cal plan now
    simp only at h
    split at h
    · exact ih (fun q hq => hsubs q (List.mem_cons_of_mem _ hq)) (hw.save hfit) h
    rename_i hroom
    cases h
    exact (hw.save (hfit.add hpos hroom)).setRecord rid _

theorem preConsume_within (hw : Within s)
    (h : preConsumeUserSubscription cal rid userId amount now s = .ok (res, s')) : Within s' := by
  unfold preConsumeUserSubscription at h
  split at h
  · cases h
  split at h
  · cases h
  split at h
  · split at h
    · cases h
    · split at h <;> cases h
      exact hw
  · split at h
    · cases h
    · exact consumeCandidate_within (by omega) (fun sub hm => active_fits hw hm) hw h

theorem within_steady : Steady Within where
  same := fun _ _ h he _ => h.of_same he
  delta := fun _ _ _ _ h hd => postConsumeTx_within h hd

theorem call_within (cal : Calendar) (c : Call) (hw : Within s) : Within (c.exec cal s).1 :=
  within_steady.call cal c hw fun _ _ _ _ _ _ _ h => preConsume_within hw h

theorem resetAll_within (hw : Within s) (cal : Calendar) (plan : SubscriptionPlan) (now : Int)
    (advance : Bool) (subs : List UserSubscription) :
    Within (resetUserSubscriptions cal plan now advance subs s) := by
  exact foldl_keeps (fun s sub h => h.save (fits_reset cal plan now advance sub)) hw subs

theorem resetDue_within (hw : Within s) (cal : Calendar) (k now : Int) :
    Within (resetDueSubscription cal k now s) := by
  unfold resetDueSubscription
  split
  · exact hw
  rename_i sub hs
  split
  · exact hw
  split
  · exact hw.save (fits_maybeReset (hw.fits k sub hs) cal _ now)
  · exact hw

theorem insert_within (hw : Within s) (hf : Fits sub) : Within (s.insertSubscription sub) :=
  (hw.save hf).of_same rfl

theorem expireUser_within (hw : Within s) (userId now : Int) :
    Within (s.expireUser userId now) := by
  have hold : ∀ k sub, (s.expireUser userId now).subscriptions k = some sub →
      ∃ old, s.subscriptions k = some old ∧ sub.id = old.id ∧ (Fits old → Fits sub) := by
    intro k sub h
    obtain ⟨old, ho, rfl⟩ := Option.map_eq_some_iff.mp h
    refine ⟨old, ho, ?_⟩
    split
    · exact ⟨rfl, fun hf => hf⟩
    · exact ⟨rfl, fun hf => hf⟩
  constructor
  · intro k sub h
    obtain ⟨old, ho, hid, _⟩ := hold k sub h
    rw [hid]
    exact hw.key k old ho
  · intro k sub h
    obtain ⟨old, ho, _, hf⟩ := hold k sub h
    exact hf (hw.fits k old ho)

theorem expireDue_within (hw : Within a.store) (limit now : Int) (order : List Int) :
    Within (expireDueSubscriptions limit now order a).2.store := by
  apply expireDue_keeps (J := fun a => Within a.store) limit now order _ hw
  intro a userId h
  rw [expireUserSubscriptions_store]
  exact expireUser_within h userId now

theorem exec_within (cal : PlanCalendar) (a : Accounts) (op : SubscriptionOp)
    (hw : Within a.store) : Within (a.exec cal op).store := by
  cases op with
  | call c => exact call_within cal.toCalendar c hw
  | create userId planId now =>
    simp only [Accounts.exec]
    split
    · exact hw
    rename_i h
    obtain ⟨plan, stop, _, _, rfl, rfl⟩ := purchase_ok h
    exact insert_within hw ⟨le_refl 0, fun ht => ht.le⟩
  | expireDue limit now order => exact expireDue_within hw limit now order
  | resetDue k now => exact resetDue_within hw cal.toCalendar k now
  | resetUserPlan userId planId now advance =>
    simp only [Accounts.exec]
    cases h :
      adminResetUserSubscriptionsByPlan cal.toCalendar userId planId now advance a.store with
    | error e => exact hw
    | ok p =>
      obtain ⟨plan, _, hs⟩ := resetUserPlan_ok h
      rw [Accounts.apply, hs]
      exact resetAll_within hw ..
  | resetPlan planId now advance =>
    simp only [Accounts.exec]
    cases h : adminResetPlanSubscriptions cal.toCalendar planId now advance a.store with
    | error e => exact hw
    | ok p =>
      obtain ⟨plan, _, hs⟩ := resetPlan_ok h
      rw [Accounts.apply, hs]
      exact resetAll_within hw ..

theorem postConsumeTxInt64_within (hw : Within s)
    (h : postConsumeUserSubscriptionDeltaTxInt64 k delta s = .ok s') : Within s' := by
  unfold postConsumeUserSubscriptionDeltaTxInt64 at h
  split at h
  · cases h
  rename_i sub _
  have hpos : 0 ≤ if int64 (sub.amountUsed + delta) < 0 then 0
      else int64 (sub.amountUsed + delta) := by
    split <;> omega
  dsimp only at h
  generalize (if int64 (sub.amountUsed + delta) < 0 then 0
    else int64 (sub.amountUsed + delta)) = newUsed at h hpos
  split at h
  · cases h
  rename_i hroom
  cases h
  exact hw.save ⟨hpos, fun ht => Int.not_lt.mp fun hover => hroom ⟨ht, hover⟩⟩

theorem postConsumeInt64_within (hw : Within s)
    (h : postConsumeUserSubscriptionDeltaInt64 k delta s = .ok s') : Within s' := by
  unfold postConsumeUserSubscriptionDeltaInt64 at h
  split at h
  · cases h
  split at h
  · cases h
    exact hw
  · exact postConsumeTxInt64_within hw h

/-- Also where a sum wraps. -/
theorem execInt64_within (cal : PlanCalendar) (a : Accounts) (op : SubscriptionOp)
    (hw : Within a.store) : Within (a.execInt64 cal op).store := by
  match op with
  | .call c =>
    by_cases hc : ∃ k d, c = .postConsumeUserSubscriptionDelta k d
    · obtain ⟨k, d, rfl⟩ := hc
      simp only [Accounts.execInt64, Call.execInt64]
      cases hx : postConsumeUserSubscriptionDeltaInt64 k d a.store with
      | error e => exact hw
      | ok s => exact postConsumeInt64_within hw hx
    · have hexec := exec_within cal a (.call c) hw
      cases c <;> first | exact hexec | exact absurd ⟨_, _, rfl⟩ hc
  | .create .. | .expireDue .. | .resetDue .. | .resetUserPlan .. | .resetPlan .. =>
    exact exec_within cal a _ hw

/-- Adding `d` would take the subscription over its total. -/
def Overdraws (s : Store) (k d : Int) : Prop :=
  ∃ sub, s.subscriptions k = some sub ∧ 0 < sub.amountTotal ∧ sub.amountTotal < sub.amountUsed + d

/-- The subscription and the amount a call would add to it, when no marker says that it did before.
-/
inductive Charges (s : Store) : Call → Int → Int → Prop
  | delta : Charges s (.postConsumeUserSubscriptionDelta k d) k d
  | reserve (hr : s.recoveries rid = some r) (hsrc : r.source = .subscription)
      (hk : 0 < r.subscriptionID) (hn : s.adjustments rid (.reserve target) .reserve = none) :
      Charges s (.reserve rid target delta unlimited) r.subscriptionID (target - r.reserved)
  | settle (hr : s.recoveries rid = some r) (hsrc : r.source = .subscription)
      (hk : 0 < r.subscriptionID) (hn : s.adjustments rid .funding .settle = none) :
      Charges s (.applyAdjustment rid .funding .settle) r.subscriptionID r.settlementDelta
  | extra (hr : s.recoveries rid = some r) (hst : r.status = .active ∨ r.status = .refundPending)
      (hk : 0 < r.subscriptionID) (hn : s.adjustments rid .extra .refund = none) :
      Charges s (.applyAdjustment rid .extra .refund) r.subscriptionID (-r.extraAmount)

/-- The subscription and the delta that a call hands to the transaction. -/
inductive Adds (s : Store) : Call → Int → Int → Prop
  | charge (h : Charges s c k d) : Adds s c k d
  | refund (h : s.records rid = some record) :
      Adds s (.refundSubscriptionPreConsume rid) record.userSubscriptionId (-record.preConsumed)
  | recovery (h : s.records rid = some record) :
      Adds s (.applyAdjustment rid .funding .refund) record.userSubscriptionId (-record.preConsumed)

/-- The sum fits an `int64`. -/
def Fits64 (s : Store) (k d : Int) : Prop :=
  ∀ sub, s.subscriptions k = some sub →
    -2 ^ 63 ≤ sub.amountUsed + d ∧ sub.amountUsed + d < 2 ^ 63

theorem Fits64.same (h : Fits64 s k d) :
    postConsumeUserSubscriptionDeltaTxInt64 k d s = postConsumeUserSubscriptionDeltaTx k d s := by
  unfold postConsumeUserSubscriptionDeltaTxInt64 postConsumeUserSubscriptionDeltaTx
  split
  · rfl
  · rename_i sub hsub
    rw [int64_eq (h sub hsub)]

/-- No candidate of a first pre-consume has room for the amount, a due reset
taken into account. -/
def NoRoom (cal : Calendar) (s : Store) (userId amount now : Int) : Prop :=
  ∀ sub ∈ activeSubscriptions s userId now, ∀ plan,
    getSubscriptionPlanById s sub.planId = .ok plan →
    0 < sub.amountTotal ∧ sub.amountTotal <
      (maybeResetUserSubscriptionWithPlan cal sub plan now).amountUsed + amount

inductive Exceeds (cal : Calendar) (s : Store) : Call → Prop
  | charge (hc : Charges s c k d) (ho : Overdraws s k d) : Exceeds cal s c
  | preConsume (hrec : s.records rid = none) (hroom : NoRoom cal s userId amount now) :
      Exceeds cal s (.preConsumeUserSubscription rid userId amount now)

theorem Overdraws.of_same (h : Overdraws s k d) (he : s'.subscriptions = s.subscriptions) :
    Overdraws s' k d := by
  unfold Overdraws
  rw [he]
  exact h

theorem Overdraws.pos (hw : Within s) (h : Overdraws s k d) : 0 < d := by
  obtain ⟨sub, hs, ht, hover⟩ := h
  have := (hw.fits k sub hs).2 ht
  omega

theorem Overdraws.refused (h : Overdraws s k d) :
    postConsumeUserSubscriptionDeltaTx k d s ≠ .ok s' := by
  intro hok
  obtain ⟨sub, hs, hle, _⟩ := postConsumeTx_ok hok
  obtain ⟨sub', hs', ht, hover⟩ := h
  rw [hs] at hs'
  cases hs'
  omega

theorem Overdraws.refused_delta (hw : Within s) (h : Overdraws s k d) (hk : 0 < k) :
    applySubscriptionDeltaTx k d s ≠ .ok s' := by
  have hd := h.pos hw
  unfold applySubscriptionDeltaTx
  rw [if_neg (by omega)]
  exact h.refused

theorem reserve_refused (hw : Within s) (hr : s.recoveries rid = some r)
    (hsrc : r.source = .subscription) (hk : 0 < r.subscriptionID)
    (hn : s.adjustments rid (.reserve target) .reserve = none)
    (ho : Overdraws s r.subscriptionID (target - r.reserved)) :
    reserveBillingRecovery rid target delta unlimited s ≠ .ok p := by
  intro h
  unfold reserveBillingRecovery at h
  split at h
  · cases h
  obtain ⟨s0, hflush, h⟩ := bind_ok.mp h
  have hf := flush_ok hflush
  obtain ⟨r', hr', h⟩ := bind_ok.mp h
  rw [recovery_ok, hf.rows.recoveries, hr] at hr'
  cases hr'
  split at h
  · cases h
  have hpos := ho.pos hw
  rw [if_neg (by omega), hf.rows.adjustments, hn] at h
  obtain ⟨s1, h1, _⟩ := bind_ok.mp h
  simp only [reserveFunding, hsrc] at h1
  have ho' := ho.of_same hf.rows.subscriptions
  exact ho'.refused_delta (hw.of_same hf.rows.subscriptions) hk h1

theorem adjustment_refused (hr : s.recoveries rid = some r)
    (hlive : ¬ (op = .refund ∧ r.status = .settled)) (hadm : r.admits c op ≠ .ok false)
    (hn : s.adjustments rid c op = none)
    (heff : ∀ s0 s1, s0.subscriptions = s.subscriptions →
      applyBillingRecoveryEffect rid r c op (r.adjustmentAmount c op) s0 ≠ .ok s1) :
    applyBillingRecoveryAdjustment rid c op s ≠ .ok s' := by
  intro h
  unfold applyBillingRecoveryAdjustment at h
  split at h
  · cases h
  split at h
  · cases h
  obtain ⟨s0, hflush, h⟩ := bind_ok.mp h
  have hf := flush_ok hflush
  obtain ⟨r', hr', h⟩ := bind_ok.mp h
  rw [recovery_ok, hf.rows.recoveries, hr] at hr'
  cases hr'
  rw [if_neg hlive, hf.rows.adjustments, hn] at h
  obtain ⟨admitted, ha, h⟩ := bind_ok.mp h
  cases admitted with
  | false => exact hadm ha
  | true =>
    obtain ⟨s1, h1, _⟩ := bind_ok.mp h
    exact heff s0 s1 hf.rows.subscriptions h1

theorem settle_refused (hw : Within s) (hr : s.recoveries rid = some r)
    (hsrc : r.source = .subscription) (hk : 0 < r.subscriptionID)
    (hn : s.adjustments rid .funding .settle = none)
    (ho : Overdraws s r.subscriptionID r.settlementDelta) :
    applyBillingRecoveryAdjustment rid .funding .settle s ≠ .ok s' := by
  apply adjustment_refused hr (by simp) _ hn
  · intro s0 s1 hs h
    have hpos := ho.pos hw
    unfold applyBillingRecoveryEffect at h
    rw [if_neg (by simp), if_neg (by simp only [BillingRecovery.adjustmentAmount]; omega)] at h
    simp only [hsrc] at h
    exact (ho.of_same hs).refused_delta (hw.of_same hs) hk h
  · intro h
    rcases admits_false h with hs | hs <;> simp [BillingRecovery.admits, hs] at h

theorem extra_refused (hw : Within s) (hr : s.recoveries rid = some r)
    (hst : r.status = .active ∨ r.status = .refundPending) (hk : 0 < r.subscriptionID)
    (hn : s.adjustments rid .extra .refund = none)
    (ho : Overdraws s r.subscriptionID (-r.extraAmount)) :
    applyBillingRecoveryAdjustment rid .extra .refund s ≠ .ok s' := by
  apply adjustment_refused hr _ _ hn
  · intro s0 s1 hs h
    rw [effect_extra_eq] at h
    exact (ho.of_same hs).refused_delta (hw.of_same hs) hk h
  · rintro ⟨-, hs⟩
    rcases hst with h | h <;> rw [h] at hs <;> cases hs
  · intro h
    rcases admits_false h with hs | hs <;> rcases hst with h | h <;> rw [h] at hs <;> cases hs

theorem consumeCandidate_refused (hplans : s.plans = s0.plans)
    (hsubs : ∀ sub ∈ subs, ∀ plan, getSubscriptionPlanById s0 sub.planId = .ok plan →
      0 < sub.amountTotal ∧ sub.amountTotal <
        (maybeResetUserSubscriptionWithPlan cal sub plan now).amountUsed + amount) :
    consumeCandidate cal rid userId amount now subs s ≠ .ok p := by
  induction subs generalizing s with
  | nil => exact nofun
  | cons candidate rest ih =>
    intro h
    unfold consumeCandidate at h
    have hget : getSubscriptionPlanById s candidate.planId =
        getSubscriptionPlanById s0 candidate.planId := by
      simp only [getSubscriptionPlanById, hplans]
    split at h
    · cases h
    rename_i plan hplan
    rw [hget] at hplan
    have hover := hsubs candidate List.mem_cons_self plan hplan
    obtain ⟨used, last, next, _, heq⟩ := maybeReset_eq cal candidate plan now
    simp only [heq] at h hover
    rw [if_pos ⟨hover.1, by omega⟩] at h
    refine ih ?_ (fun q hq => hsubs q (List.mem_cons_of_mem _ hq)) h
    exact hplans

theorem preConsume_refused (hrec : s.records rid = none) (hroom : NoRoom cal s userId amount now) :
    preConsumeUserSubscription cal rid userId amount now s ≠ .ok p := by
  intro h
  obtain ⟨_, h⟩ := preConsumeSubscription_first hrec h
  exact consumeCandidate_refused rfl hroom h

theorem commit_refused (s : Store) {x : Except BillingError (α × Store)} (h : ∀ p, x ≠ .ok p) :
    ∃ e, (commit s x).2 = .error e := by
  cases x with
  | error e => exact ⟨e, rfl⟩
  | ok p => exact absurd rfl (h p)

theorem commitUnit_refused (s : Store) (h : ∀ p, x ≠ .ok p) :
    ∃ e, (commitUnit s x).2 = .error e := by
  have heq : commitUnit s x = commit s (x.map ((), ·)) := by cases x <;> rfl
  rw [heq]
  apply commit_refused
  cases x with
  | error e => exact nofun
  | ok p => exact absurd rfl (h p)

theorem exceeding_refused (hw : Within s) (h : Exceeds cal s c) :
    ∃ e, (c.exec cal s).2 = .error e := by
  cases h with
  | preConsume hrec hroom => exact commit_refused s fun p => preConsume_refused hrec hroom
  | charge hc ho =>
    cases hc with
    | delta =>
      apply commitUnit_refused
      intro p h
      have hd := ho.pos hw
      unfold postConsumeUserSubscriptionDelta at h
      split at h
      · cases h
      rw [if_neg (by omega)] at h
      exact ho.refused h
    | reserve hr hsrc hk hn => exact commit_refused s fun p => reserve_refused hw hr hsrc hk hn ho
    | settle hr hsrc hk hn => exact commitUnit_refused s fun p => settle_refused hw hr hsrc hk hn ho
    | extra hr hst hk hn => exact commitUnit_refused s fun p => extra_refused hw hr hst hk hn ho

/-- Where its sums fit, a call is the same on `int64`. -/
theorem execInt64_eq (cal : Calendar) (c : Call) (h : ∀ k d, Adds s c k d → Fits64 s k d) :
    c.execInt64 cal s = c.exec cal s := by
  cases c with
  | postConsumeUserSubscriptionDelta k d =>
    have hsame := (h k d (.charge .delta)).same
    simp only [Call.execInt64, Call.exec, postConsumeUserSubscriptionDeltaInt64,
      postConsumeUserSubscriptionDelta, hsame]
  | _ => rfl

/-- No subscription uses more than its total, whatever deltas callers bring; and a call that would,
with a sum that fits an `int64`, is refused and leaves every table alone. -/
theorem usage_stays_within_total (cal : PlanCalendar) (a : Accounts) (ops : List SubscriptionOp)
    (h : Within a.store) :
    let s := (ops.foldl (Accounts.execInt64 cal) a).store
    (∀ k sub, s.subscriptions k = some sub → 0 < sub.amountTotal →
      0 ≤ sub.amountUsed ∧ sub.amountUsed ≤ sub.amountTotal) ∧
    ∀ c : Call, (∀ k d, Adds s c k d → Fits64 s k d) → Exceeds cal.toCalendar s c →
      (∃ e, (c.execInt64 cal.toCalendar s).2 = .error e) ∧
        (c.execInt64 cal.toCalendar s).1 = s := by
  intro s
  have hw : Within s :=
    foldl_keeps (I := fun a : Accounts => Within a.store) (execInt64_within cal) h ops
  constructor
  · intro k sub hs ht
    obtain ⟨h0, hle⟩ := hw.fits k sub hs
    exact ⟨h0, hle ht⟩
  intro c hfits hc
  rw [execInt64_eq cal.toCalendar c hfits]
  obtain ⟨e, he⟩ := exceeding_refused hw hc
  exact ⟨⟨e, he⟩, exec_error cal.toCalendar c s he⟩

def meteredAccounts : Accounts where
  store := { sampleStore with
    subscriptions := Function.update (fun _ => none) 1
      (some { id := 1, userId := 1, planId := 1, amountTotal := 100, amountUsed := 40,
              startTime := 1, endTime := 90 })
    subscriptionIDs := [1] }
  groups := fun _ => none

theorem meteredAccounts_within : Within meteredAccounts.store := by
  have hrow : ∀ k sub, meteredAccounts.store.subscriptions k = some sub →
      k = 1 ∧ sub.id = 1 ∧ sub.amountUsed = 40 ∧ sub.amountTotal = 100 := by
    intro k sub h
    by_cases hk : k = 1
    · subst hk
      cases h
      exact ⟨rfl, rfl, rfl, rfl⟩
    · simp [meteredAccounts, hk] at h
  constructor
  · intro k sub h
    obtain ⟨hk, hid, _⟩ := hrow k sub h
    rw [hid, hk]
  intro k sub h
  obtain ⟨_, _, hu, ht⟩ := hrow k sub h
  constructor <;> omega

def planCalendar : PlanCalendar :=
  { sampleCalendar with addYears := fun t n => t + 365 * n, addMonths := fun t n => t + 30 * n }

/-- From 40 of 100, a delta of 61 is refused after one of 20 went through. -/
theorem usage_stays_within_total_metered :
    let s := ([SubscriptionOp.call (.postConsumeUserSubscriptionDelta 1 20)].foldl
      (Accounts.execInt64 planCalendar) meteredAccounts).store
    (s.subscriptions 1).map UserSubscription.amountUsed = some 60 ∧
    (∃ e, (Call.execInt64 planCalendar.toCalendar s (.postConsumeUserSubscriptionDelta 1 61)).2 =
      .error e) ∧
    (Call.execInt64 planCalendar.toCalendar s (.postConsumeUserSubscriptionDelta 1 61)).1 = s := by
  have h := usage_stays_within_total planCalendar meteredAccounts
    [.call (.postConsumeUserSubscriptionDelta 1 20)] meteredAccounts_within
  refine ⟨by decide, h.2 _ ?_ (.charge .delta ⟨_, rfl, by decide, by decide⟩)⟩
  intro k d hadd sub hsub
  cases hadd with
  | charge hc =>
    cases hc
    cases hsub
    decide

/-- A delta far over the total goes through: the sum wraps and is then taken for a negative one. -/
theorem wrapped_delta_accepted :
    let c : Call := .postConsumeUserSubscriptionDelta 1 (2 ^ 63 - 1)
    let after := c.execInt64 planCalendar.toCalendar meteredAccounts.store
    Exceeds planCalendar.toCalendar meteredAccounts.store c ∧ after.2 = .ok () ∧
      (after.1.subscriptions 1).map UserSubscription.amountUsed = some 0 :=
  ⟨.charge .delta ⟨_, rfl, by decide, by decide⟩, rfl, by decide⟩

end Ren2Hub.Proofs.UsageBound
