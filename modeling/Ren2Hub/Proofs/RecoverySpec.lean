import Ren2Hub.Proofs.Ledger

namespace Ren2Hub.Proofs.RecoverySpec
open Lib Billing Ledger

theorem create_ok (h : createBillingRecovery input s = .ok (r, s')) :
    s.recoveries input.requestID = none ∧ r = input.row ∧
      s' = s.setRecovery input.requestID input.row := by
  unfold createBillingRecovery at h
  cases hr : s.recoveries input.requestID with
  | some r0 => simp [hr] at h
  | none =>
    simp only [hr, Except.ok.injEq, Prod.mk.injEq] at h
    exact ⟨rfl, h.1.symm, h.2.symm⟩

theorem rebind_ok (h : rebindBillingRecovery input s = .ok (r', s')) :
    ∃ r, s.recoveries input.requestID = some r ∧ input.sameIdentity r = true ∧
      billingRecoveryIsReusable r = true ∧ r' =
        { r with source := input.source, status := .active } ∧
      s' = s.setRecovery input.requestID { r with source := input.source, status := .active } := by
  obtain ⟨r, hr, h⟩ := bind_ok.mp h
  split at h
  · cases h
  rename_i hc
  simp only [Bool.or_eq_true, Bool.not_eq_true', not_or, Bool.not_eq_false] at hc
  cases h
  exact ⟨r, recovery_ok.mp hr, hc.1, hc.2, rfl, rfl⟩

theorem abort_ok (h : abortPreparedBillingRecovery rid s = .ok s') :
    s' = s ∨ ∃ r, s.recoveries rid = some r ∧ r.status = .active ∧ r.preConsumeState = .prepared ∧
      r.fundingAmount = 0 ∧ r.extraAmount = 0 ∧ r.tokenAmount = 0 ∧
      s' = s.setRecovery rid { r with status := .refunded } := by
  obtain ⟨r, hr, h⟩ := bind_ok.mp h
  split at h
  · cases h
    exact .inl rfl
  split at h
  · cases h
  rename_i hc
  simp only [not_or, not_not] at hc
  cases h
  exact .inr ⟨r, recovery_ok.mp hr, hc.1, hc.2.1, hc.2.2.1, hc.2.2.2.1, hc.2.2.2.2, rfl⟩

theorem updateAmounts_ok (h : updateBillingRecoveryAmounts rid sub f x t s = .ok s') :
    0 ≤ f ∧ 0 ≤ x ∧ 0 ≤ t ∧ ∃ r, s.recoveries rid = some r ∧ r.status = .active ∧
      s' = s.setRecovery rid
        { r with subscriptionID := sub, fundingAmount := f, extraAmount := x, tokenAmount := t,
                 preConsumeState := .committed } := by
  unfold updateBillingRecoveryAmounts at h
  split at h
  · cases h
  rename_i hneg
  obtain ⟨r, hr, h⟩ := bind_ok.mp h
  split at h
  · cases h
  rename_i hc
  simp only [not_or, not_not] at hc
  cases h
  exact ⟨by omega, by omega, by omega, r, recovery_ok.mp hr, hc.1, rfl⟩

theorem writeSettlement_cases (rid : RequestID) (delta : Int) (s : Store) :
    writeBillingRecoverySettlement rid delta s = (0, s) ∨
    ∃ r, s.recoveries rid = some r ∧ (r.status = .active ∨ r.status = .settlementPending) ∧
      writeBillingRecoverySettlement rid delta s = (1, s.setRecovery rid
        { r with settlementDelta := delta, status := .settlementPending }) := by
  unfold writeBillingRecoverySettlement
  cases hr : s.recoveries rid with
  | none => exact .inl rfl
  | some r =>
    by_cases hc : r.status = .active ∨ r.status = .settlementPending
    · exact .inr ⟨r, rfl, hc, by simp [hc]⟩
    · exact .inl (by simp [hc])

theorem markRefundPending_ok (h : markBillingRecoveryRefundPending rid s = .ok s') :
    ∃ r, s.recoveries rid = some r ∧ ((r.status = .refunded ∧ s' = s) ∨
      ((r.status = .active ∨ r.status = .refundPending) ∧
        s' = s.setRecovery rid
          { r.withRecord (s.records rid) with status := .refundPending })) := by
  obtain ⟨r, hr, h⟩ := bind_ok.mp h
  refine ⟨r, recovery_ok.mp hr, ?_⟩
  split at h
  · rename_i hs
    cases h
    exact .inl ⟨hs, rfl⟩
  split at h
  · cases h
  rename_i hc
  cases h
  exact .inr ⟨by tauto, rfl⟩

theorem markSettled_ok (h : markBillingRecoverySettled rid s = .ok s') :
    ∃ r, s.recoveries rid = some r ∧ ((r.status = .settled ∧ s' = s) ∨
      (r.status = .settlementPending ∧ r.fundingSettlement = .completed ∧
        r.tokenSettlement = .completed ∧
        s' = s.setRecovery rid { r with status := .settled })) := by
  obtain ⟨r, hr, h⟩ := bind_ok.mp h
  refine ⟨r, recovery_ok.mp hr, ?_⟩
  split at h
  · rename_i hs
    cases h
    exact .inl ⟨hs, rfl⟩
  split at h
  · cases h
  rename_i hc
  simp [billingRecoverySettlementComplete] at hc
  cases h
  exact .inr ⟨hc.1, hc.2.1, hc.2.2, rfl⟩

theorem markRefunded_ok (h : markBillingRecoveryRefunded rid s = .ok s') :
    ∃ r, s.recoveries rid = some r ∧ ((r.status = .refunded ∧ s' = s) ∨
      (r.status = .refundPending ∧ billingRecoveryRefundComplete r = true ∧
        s' = s.setRecovery rid { r with status := .refunded })) := by
  obtain ⟨r, hr, h⟩ := bind_ok.mp h
  refine ⟨r, recovery_ok.mp hr, ?_⟩
  split at h
  · rename_i hs
    cases h
    exact .inl ⟨hs, rfl⟩
  split at h
  · cases h
  rename_i hc
  simp only [not_or, not_not, Bool.not_eq_true', Bool.not_eq_false] at hc
  cases h
  exact .inr ⟨hc.1, hc.2, rfl⟩

/-- The part of the store the subscription side of a transaction leaves alone. -/
structure SubscriptionsOnly (s s' : Store) : Prop where
  users : s'.users = s.users
  tokens : s'.tokens = s.tokens
  recoveries : s'.recoveries = s.recoveries
  adjustments : s'.adjustments = s.adjustments
  userPending : s'.userPending = s.userPending
  tokenPending : s'.tokenPending = s.tokenPending

theorem SubscriptionsOnly.refl (s : Store) : SubscriptionsOnly s s := ⟨rfl, rfl, rfl, rfl, rfl, rfl⟩

theorem SubscriptionsOnly.shift (h : SubscriptionsOnly s s') : Shift s s' 0 0 :=
  .of_same h.users h.tokens h.userPending h.tokenPending

theorem postConsumeTx_ok (h : postConsumeUserSubscriptionDeltaTx k delta s = .ok s') :
    ∃ sub, s.subscriptions k = some sub ∧
      (0 < sub.amountTotal → max 0 (sub.amountUsed + delta) ≤ sub.amountTotal) ∧
      s' = s.saveSubscription { sub with amountUsed := max 0 (sub.amountUsed + delta) } := by
  unfold postConsumeUserSubscriptionDeltaTx at h
  cases hs : s.subscriptions k with
  | none => simp [hs] at h
  | some sub =>
    have hmax : (if sub.amountUsed + delta < 0 then 0 else sub.amountUsed + delta) =
        max 0 (sub.amountUsed + delta) := by
      split <;> omega
    simp only [hs, hmax] at h
    by_cases hc : sub.amountTotal > 0 ∧ max 0 (sub.amountUsed + delta) > sub.amountTotal
    · rw [if_pos hc] at h
      cases h
    rw [if_neg hc] at h
    cases h
    exact ⟨sub, rfl, fun ht => by omega, rfl⟩

theorem postConsumeTx_missing
    (h : postConsumeUserSubscriptionDeltaTx k delta s = .error .recordNotFound) :
    s.subscriptions k = none := by
  unfold postConsumeUserSubscriptionDeltaTx at h
  cases hs : s.subscriptions k with
  | none => rfl
  | some sub =>
    simp only [hs] at h
    repeat' split at h
    all_goals cases h

theorem postConsumeTx_frame (h : postConsumeUserSubscriptionDeltaTx k delta s = .ok s') :
    SubscriptionsOnly s s' := by
  obtain ⟨sub, _, _, rfl⟩ := postConsumeTx_ok h
  exact ⟨rfl, rfl, rfl, rfl, rfl, rfl⟩

theorem applySubscriptionDelta_frame (h : applySubscriptionDeltaTx sub delta s = .ok s') :
    SubscriptionsOnly s s' := by
  unfold applySubscriptionDeltaTx at h
  split at h
  · cases h
    exact .refl s
  · exact postConsumeTx_frame h

theorem refundRecordTx_frame (h : refundBillingRecoverySubscriptionPreConsumeTx rid s = .ok s') :
    SubscriptionsOnly s s' := by
  unfold refundBillingRecoverySubscriptionPreConsumeTx at h
  split at h
  · cases h
  split at h
  · cases h
    exact .refl s
  obtain ⟨s1, h1, h⟩ := bind_ok.mp h
  cases h
  split at h1
  · have hf := postConsumeTx_frame h1
    exact ⟨hf.users, hf.tokens, hf.recoveries, hf.adjustments, hf.userPending, hf.tokenPending⟩
  · cases h1
    exact ⟨rfl, rfl, rfl, rfl, rfl, rfl⟩

theorem refundRecordTx_refunded (h : refundBillingRecoverySubscriptionPreConsumeTx rid s = .ok s')
    (hr : s'.records rid = some record) : record.status = .refunded := by
  unfold refundBillingRecoverySubscriptionPreConsumeTx at h
  split at h
  · cases h
  rename_i rec hrec
  split at h
  · rename_i hst
    cases h
    rw [hrec] at hr
    cases hr
    exact hst
  · obtain ⟨s1, h1, h⟩ := bind_ok.mp h
    cases h
    simp only [Store.setRecord, Function.update_self, Option.some.injEq] at hr
    rw [← hr]

def Operation.sign : Operation → Int
  | .settle => -1
  | _ => 1

/-- What an adjustment moves in the wallet and in the token. -/
def walletEffect (r : BillingRecovery) (c : Component) (op : Operation) (amount : Int) : Int :=
  if c = .funding ∧ r.source = .wallet then amount * Operation.sign op else 0

def tokenEffect (r : BillingRecovery) (c : Component) (op : Operation) (amount : Int) : Int :=
  if c = .token ∧ 0 < r.tokenID then amount * Operation.sign op else 0

theorem effect_spec (h : applyBillingRecoveryEffect rid r c op amount s = .ok s') :
    Shift s s' (point r.userID (walletEffect r c op amount))
      (point r.tokenID (tokenEffect r c op amount)) ∧
    s'.recoveries = s.recoveries ∧ s'.adjustments = s.adjustments ∧
    (tokenEffect r c op amount = 0 → s'.tokens = s.tokens) := by
  have hsign : (if op = .settle then (-1 : Int) else 1) = Operation.sign op := by
    cases op <;> rfl
  -- A transaction on the subscription side moves neither balance.
  have hsubs : ∀ c', c' ≠ .token → (c' = .funding → r.source = .subscription) →
      SubscriptionsOnly s s' →
      Shift s s' (point r.userID (walletEffect r c' op amount))
        (point r.tokenID (tokenEffect r c' op amount)) ∧
      s'.recoveries = s.recoveries ∧ s'.adjustments = s.adjustments ∧
      (tokenEffect r c' op amount = 0 → s'.tokens = s.tokens) := by
    intro c' hc hf ho
    have hw : walletEffect r c' op amount = 0 :=
      if_neg (fun ⟨h1, h2⟩ => by rw [hf h1] at h2; cases h2)
    have ht : tokenEffect r c' op amount = 0 := if_neg (fun h => hc h.1)
    rw [hw, ht, point_zero, point_zero]
    exact ⟨ho.shift, ho.recoveries, ho.adjustments, fun _ => ho.tokens⟩
  unfold applyBillingRecoveryEffect at h
  rw [hsign] at h
  by_cases hskip : c = .token ∧ r.tokenID ≤ 0
  · rw [if_pos hskip] at h
    cases h
    obtain ⟨rfl, hid⟩ := hskip
    have hw : walletEffect r .token op amount = 0 := rfl
    have ht : tokenEffect r .token op amount = 0 := if_neg (by omega)
    rw [hw, ht, point_zero, point_zero]
    exact ⟨.refl s, rfl, rfl, fun _ => rfl⟩
  rw [if_neg hskip] at h
  by_cases hzero : amount = 0
  · rw [if_pos hzero] at h
    cases h
    have hw : walletEffect r c op amount = 0 := by simp [walletEffect, hzero]
    have ht : tokenEffect r c op amount = 0 := by simp [tokenEffect, hzero]
    rw [hw, ht, point_zero, point_zero]
    exact ⟨.refl s, rfl, rfl, fun _ => rfl⟩
  rw [if_neg hzero] at h
  cases c with
  | funding =>
    cases hsrc : r.source with
    | wallet =>
      simp only [hsrc] at h
      obtain ⟨hs, hrows, htok⟩ := addUserQuota_spec h
      have hw : walletEffect r .funding op amount = amount * Operation.sign op := by
        simp [walletEffect, hsrc]
      have ht : tokenEffect r .funding op amount = 0 := rfl
      rw [hw, ht, point_zero]
      exact ⟨hs, hrows.recoveries, hrows.adjustments, fun _ => htok⟩
    | subscription =>
      refine hsubs .funding (by simp) (fun _ => hsrc) ?_
      simp only [hsrc] at h
      split at h
      · cases hrec : refundBillingRecoverySubscriptionPreConsumeTx rid s with
        | ok s1 =>
          simp only [hrec] at h
          cases h
          exact refundRecordTx_frame hrec
        | error e =>
          rw [hrec] at h
          cases e <;> cases h
          exact .refl s
      · exact applySubscriptionDelta_frame h
  | extra => exact hsubs .extra (by simp) (by simp) (applySubscriptionDelta_frame h)
  | token =>
    obtain ⟨hs, hrows⟩ := addTokenQuota_spec h
    have hid : 0 < r.tokenID := by
      have := not_and.mp hskip rfl
      omega
    have hw : walletEffect r .token op amount = 0 := rfl
    have ht : tokenEffect r .token op amount = amount * Operation.sign op := by
      simp [tokenEffect, hid]
    rw [hw, ht, point_zero]
    refine ⟨hs, hrows.recoveries, hrows.adjustments, fun hz => ?_⟩
    cases op <;> simp [Operation.sign] at hz <;> exact absurd hz hzero
  | reserve n =>
    cases h
    exact hsubs (.reserve n) (by simp) (by simp) (.refl s)

/-- What moving queued deltas into the tables leaves as it was. -/
structure Flushed (rid : RequestID) (s s' : Store) : Prop where
  shift : Shift s s' 0 0
  rows : SameRows s s'
  tokens : ∀ r, s.recoveries rid = some r → r.tokenRequired = false → s'.tokens = s.tokens

theorem Flushed.refl (rid : RequestID) (s : Store) : Flushed rid s s :=
  ⟨.refl s, .refl s, fun _ _ _ => rfl⟩

theorem flush_ok (h : flushPendingDeltas rid fu ft s = .ok s') : Flushed rid s s' := by
  obtain ⟨r, hr, hs, hrows, htok⟩ := flushPendingDeltas_spec h
  refine ⟨hs, hrows, fun r' hr' hreq => htok ?_⟩
  rw [hr] at hr'
  cases hr'
  exact hreq

/-- The share of a charge that goes to the token. -/
def tokenShare (r : BillingRecovery) (quota : Int) : Int :=
  if r.tokenRequired ∧ r.tokenID > 0 then quota else 0

theorem chargeShare_ok (h : (if r.tokenRequired ∧ r.tokenID > 0 then
      chargeToken r.tokenID quota unlimited s else .ok s) = .ok s') :
    Shift s s' 0 (point r.tokenID (-tokenShare r quota)) ∧ SameRows s s' ∧
      (r.tokenRequired = false → s'.tokens = s.tokens) := by
  unfold tokenShare
  split at h
  · rename_i hc
    obtain ⟨hs, hrows⟩ := chargeToken_spec h
    rw [if_pos hc]
    exact ⟨hs, hrows, fun hf => absurd hc.1 (by simp [hf])⟩
  · rename_i hc
    cases h
    rw [if_neg hc, neg_zero, point_zero]
    exact ⟨.refl s, .refl s, fun _ => rfl⟩

theorem chargePreConsume_ok (hq : 0 ≤ quota)
    (h : chargePreConsume rid r quota unlimited s = .ok s') :
    ∃ s1, Shift s s1 (point r.userID (-quota)) (point r.tokenID (-tokenShare r quota)) ∧
      SameRows s s1 ∧ (r.tokenRequired = false → s1.tokens = s.tokens) ∧
      s' = s1.setRecovery rid (r.charged quota) := by
  obtain ⟨s1, h1, h⟩ := bind_ok.mp h
  obtain ⟨s2, h2, h⟩ := bind_ok.mp h
  cases h
  have htok : Shift s s1 0 (point r.tokenID (-tokenShare r quota)) ∧ SameRows s s1 ∧
      (r.tokenRequired = false → s1.tokens = s.tokens) := by
    by_cases hz : quota = 0
    · have hshare : tokenShare r quota = 0 := by simp [tokenShare, hz]
      rw [if_neg (by omega)] at h1
      cases h1
      rw [hshare, neg_zero, point_zero]
      exact ⟨.refl s, .refl s, fun _ => rfl⟩
    · have hpos : quota > 0 := by omega
      simp only [hpos, and_true] at h1
      exact chargeShare_ok h1
  have hwal : Shift s1 s2 (point r.userID (-quota)) 0 ∧ SameRows s1 s2 ∧ s2.tokens = s1.tokens := by
    split at h2
    · exact chargeUser_spec h2
    cases h2
    have hz : quota = 0 := by omega
    rw [hz, neg_zero, point_zero]
    exact ⟨.refl _, .refl _, rfl⟩
  obtain ⟨hts, htr, htt⟩ := htok
  obtain ⟨hws, hwr, hwt⟩ := hwal
  exact ⟨s2, by simpa using hts.trans hws, htr.trans hwr, fun hreq => hwt.trans (htt hreq), rfl⟩

/-- A wallet pre-consume replays a charge, or charges wallet and token and stores the amounts. -/
theorem preConsumeWallet_ok (h : preConsumeWalletBillingRecovery rid quota unlimited s = .ok s') :
    0 ≤ quota ∧ ∃ r, s.recoveries rid = some r ∧ r.source = .wallet ∧ r.status = .active ∧
      ((r.preConsumeState = .committed ∧ r.fundingAmount = quota ∧
          (r.tokenRequired = true → r.tokenAmount = quota) ∧ Flushed rid s s') ∨
       (r.preConsumeState = .prepared ∧ ∃ s1,
          Shift s s1 (point r.userID (-quota)) (point r.tokenID (-tokenShare r quota)) ∧
          SameRows s s1 ∧ (r.tokenRequired = false → s1.tokens = s.tokens) ∧
          s' = s1.setRecovery rid (r.charged quota))) := by
  unfold preConsumeWalletBillingRecovery at h
  by_cases hneg : quota < 0
  · rw [if_pos hneg] at h
    cases h
  rw [if_neg hneg] at h
  obtain ⟨s0, hflush, h⟩ := bind_ok.mp h
  have hf : Flushed rid s s0 := by
    split at hflush
    · exact flush_ok hflush
    · cases hflush
      exact .refl rid s
  obtain ⟨r, hr, h⟩ := bind_ok.mp h
  have hr' : s.recoveries rid = some r := by rw [← hf.rows.recoveries]; exact recovery_ok.mp hr
  split at h
  · cases h
  rename_i hsrc
  simp only [not_or, not_not] at hsrc
  refine ⟨by omega, r, hr', hsrc.1, hsrc.2, ?_⟩
  cases hp : r.preConsumeState with
  | committed =>
    rw [if_pos hp] at h
    split at h
    · rename_i heq
      cases h
      exact .inl ⟨rfl, heq.1, fun ht => by simpa [ht] using heq.2, hf⟩
    · cases h
  | prepared =>
    rw [if_neg (by simp [hp])] at h
    obtain ⟨s1, hs, hrows, htok, rfl⟩ := chargePreConsume_ok (by omega) h
    exact .inr ⟨rfl, s1, hf.shift.same_trans hs, hf.rows.trans hrows,
      fun hreq => (htok hreq).trans (hf.tokens r hr' hreq), rfl⟩

/-- The share of a reservation that goes to the wallet. -/
def walletShare (r : BillingRecovery) (delta : Int) : Int :=
  if r.source = .wallet then delta else 0

theorem reserveFunding_ok (h : reserveFunding r delta s = .ok s') :
    Shift s s' (point r.userID (-walletShare r delta)) 0 ∧ s'.recoveries = s.recoveries ∧
      s'.adjustments = s.adjustments ∧ s'.tokens = s.tokens := by
  unfold reserveFunding at h
  unfold walletShare
  cases hsrc : r.source with
  | wallet =>
    simp only [hsrc] at h
    obtain ⟨hs, hrows, htok⟩ := addUserQuota_spec h
    exact ⟨hs, hrows.recoveries, hrows.adjustments, htok⟩
  | subscription =>
    simp only [hsrc] at h
    have ho := applySubscriptionDelta_frame h
    exact ⟨by simpa using ho.shift, ho.recoveries, ho.adjustments, ho.tokens⟩

/-- What a reservation did on the subscription side. -/
def Reserved (r : BillingRecovery) (delta : Int) (s s' : Store) : Prop :=
  ∃ sa sb, SameSubscriptions s sa ∧ reserveFunding r delta sa = .ok sb ∧ SameSubscriptions sb s'

/-- A reservation finds its target reached, or charges the missing part and
leaves a marker for the target. -/
theorem reserve_ok (h : reserveBillingRecovery rid target delta unlimited s = .ok (applied, s')) :
    ∃ r, s.recoveries rid = some r ∧ r.status = .active ∧ r.preConsumeState = .committed ∧
      ((applied = 0 ∧ Flushed rid s s') ∨
       (applied = target - r.reserved ∧ 0 < applied ∧
          s.adjustments rid (.reserve target) .reserve = none ∧ ∃ s1,
          Shift s s1 (point r.userID (-walletShare r applied))
            (point r.tokenID (-tokenShare r applied)) ∧
          s1.recoveries = s.recoveries ∧ s1.adjustments = s.adjustments ∧
          (r.tokenRequired = false → s1.tokens = s.tokens) ∧ Reserved r applied s s1 ∧
          s' = (s1.setRecovery rid (r.extend applied)).setAdjustment rid
            (.reserve target) .reserve applied)) := by
  unfold reserveBillingRecovery at h
  split at h
  · cases h
  obtain ⟨s0, hflush, h⟩ := bind_ok.mp h
  have hf := flush_ok hflush
  obtain ⟨r, hr, h⟩ := bind_ok.mp h
  have hr' : s.recoveries rid = some r := by rw [← hf.rows.recoveries]; exact recovery_ok.mp hr
  split at h
  · cases h
  rename_i hst
  simp only [not_or, not_not] at hst
  refine ⟨r, hr', hst.1, hst.2, ?_⟩
  split at h
  · cases h
    exact .inl ⟨rfl, hf⟩
  split at h
  · split at h
    · cases h
    · cases h
      exact .inl ⟨rfl, hf⟩
  · rename_i hnone
    obtain ⟨s1, h1, h⟩ := bind_ok.mp h
    obtain ⟨s2, h2, h⟩ := bind_ok.mp h
    cases h
    obtain ⟨hs1, hr1, ha1, ht1⟩ := reserveFunding_ok h1
    obtain ⟨hs2, hrows2, ht2⟩ := chargeShare_ok h2
    refine .inr ⟨rfl, by omega, ?_, s2, ?_, ?_, ?_, fun hreq => ?_,
      ⟨s0, s1, hf.rows.subscriptionSide, h1, hrows2.subscriptionSide⟩, rfl⟩
    · rw [← hf.rows.adjustments]
      exact hnone
    · simpa using hf.shift.trans (hs1.trans hs2)
    · rw [hrows2.recoveries, hr1, hf.rows.recoveries]
    · rw [hrows2.adjustments, ha1, hf.rows.adjustments]
    · rw [ht2 hreq, ht1, hf.tokens r hr' hreq]

theorem admits_true {r : BillingRecovery} (h : r.admits c op = .ok true) :
    (op = .settle ∧ (c = .funding ∨ c = .token) ∧ r.status = .settlementPending) ∨
      (op ≠ .settle ∧ (r.status = .active ∨ r.status = .refundPending)) := by
  unfold BillingRecovery.admits at h
  split at h
  · rename_i hop
    split at h
    · cases h
    split at h
    · cases h
    · exact .inl ⟨hop, by tauto, by tauto⟩
  · rename_i hop
    split at h
    · cases h
    split at h
    · cases h
    · exact .inr ⟨hop, by tauto⟩

theorem admits_false {r : BillingRecovery} (h : r.admits c op = .ok false) :
    r.status = .settled ∨ r.status = .refunded := by
  unfold BillingRecovery.admits at h
  split at h
  · split at h
    · cases h
    · split at h <;> cases h
  split at h
  · assumption
  · split at h <;> cases h

/-- An adjustment that is late or repeated only flushes; the first of its kind changes balance,
marker and state together. -/
theorem applyAdjustment_ok (h : applyBillingRecoveryAdjustment rid c op s = .ok s') :
    ∃ r, s.recoveries rid = some r ∧
      ((Flushed rid s s' ∧ ((s.adjustments rid c op).isSome ∨ r.status = .settled ∨
          r.status = .refunded)) ∨
       (s.adjustments rid c op = none ∧
        ((op = .settle ∧ (c = .funding ∨ c = .token) ∧ r.status = .settlementPending) ∨
          (op = .refund ∧ (c = .funding ∨ c = .extra ∨ c = .token) ∧
            (r.status = .active ∨ r.status = .refundPending))) ∧
        ∃ s0 s1, Flushed rid s s0 ∧
          applyBillingRecoveryEffect rid r c op (r.adjustmentAmount c op) s0 = .ok s1 ∧
          s' = (s1.setAdjustment rid c op (r.adjustmentAmount c op)).setRecovery rid
            (r.complete c op))) := by
  unfold applyBillingRecoveryAdjustment at h
  split at h
  · cases h
  split at h
  · cases h
  obtain ⟨s0, hflush, h⟩ := bind_ok.mp h
  have hf := flush_ok hflush
  obtain ⟨r, hr, h⟩ := bind_ok.mp h
  refine ⟨r, by rw [← hf.rows.recoveries]; exact recovery_ok.mp hr, ?_⟩
  split at h
  · rename_i hlate
    cases h
    exact .inl ⟨hf, .inr (.inl hlate.2)⟩
  split at h
  · rename_i hagain
    cases h
    rw [hf.rows.adjustments] at hagain
    exact .inl ⟨hf, .inl hagain⟩
  rename_i hsome
  obtain ⟨admitted, hadm, h⟩ := bind_ok.mp h
  cases admitted with
  | false =>
    cases h
    exact .inl ⟨hf, .inr (admits_false hadm)⟩
  | true =>
    obtain ⟨s1, h1, h⟩ := bind_ok.mp h
    cases h
    refine .inr ⟨?_, ?_, s0, s1, hf, h1, rfl⟩
    · rw [← hf.rows.adjustments]
      simpa using hsome
    rcases admits_true hadm with hs | ⟨hne, hst⟩
    · exact .inl hs
    · exact .inr ⟨by tauto, by tauto, hst⟩

end Ren2Hub.Proofs.RecoverySpec
