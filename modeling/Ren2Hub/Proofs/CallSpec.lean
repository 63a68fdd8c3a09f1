import Ren2Hub.Proofs.RecoverySpec

namespace Ren2Hub.Proofs.CallSpec
open Lib Billing Ledger RecoverySpec

/-- The request whose row or pre-consume record a call works on. -/
def request : Call → Option RequestID
  | .findRecovery rid | .abortPrepared rid | .updateAmounts rid _ _ _ _ |
    .writeSettlement rid _ | .markRefundPending rid | .markSettled rid | .markRefunded rid |
    .preConsumeWallet rid _ _ | .reserve rid _ _ _ | .applyAdjustment rid _ _ |
    .preConsumeUserSubscription rid _ _ _ | .refundSubscriptionPreConsume rid => some rid
  | .createRecovery input | .rebindRecovery input => some input.requestID
  | _ => none

/-- Calls that write balances outside a recovery transaction. -/
def direct : Call → Bool
  | .tryReserveTokenQuota _ _ _ | .increaseTokenQuota _ _ | .decreaseTokenQuota _ _ |
    .tryReserveUserQuota _ _ | .increaseUserQuota _ _ | .decreaseUserQuota _ _ |
    .preConsumeUserSubscription _ _ _ _ | .refundSubscriptionPreConsume _ |
    .postConsumeUserSubscriptionDelta _ _ => true
  | _ => false

/-- What a call can do to the store. Every invariant over runs is a case
analysis of this relation. -/
inductive Change : Call → Store → Store → Prop
  | same : Change c s s
  | flushed (hc : request c = some rid) (hf : Flushed rid s s') : Change c s s'
  | create (hr : s.recoveries input.requestID = none) :
      Change (.createRecovery input) s (s.setRecovery input.requestID input.row)
  | rebind (hr : s.recoveries input.requestID = some r) (hid : input.sameIdentity r = true)
      (hre : billingRecoveryIsReusable r = true) :
      Change (.rebindRecovery input) s
        (s.setRecovery input.requestID { r with source := input.source, status := .active })
  | abort (hr : s.recoveries rid = some r) (ha : r.status = .active)
      (hp : r.preConsumeState = .prepared) (hf : r.fundingAmount = 0) (hx : r.extraAmount = 0)
      (ht : r.tokenAmount = 0) :
      Change (.abortPrepared rid) s (s.setRecovery rid { r with status := .refunded })
  | amounts (hr : s.recoveries rid = some r) (ha : r.status = .active)
      (hf : 0 ≤ f) (hx : 0 ≤ x) (ht : 0 ≤ t) :
      Change (.updateAmounts rid sub f x t) s (s.setRecovery rid
        { r with subscriptionID := sub, fundingAmount := f, extraAmount := x, tokenAmount := t,
                 preConsumeState := .committed })
  | settlement (hr : s.recoveries rid = some r)
      (ha : r.status = .active ∨ r.status = .settlementPending) :
      Change (.writeSettlement rid delta) s
        (s.setRecovery rid { r with settlementDelta := delta, status := .settlementPending })
  | refundPending (hr : s.recoveries rid = some r)
      (ha : r.status = .active ∨ r.status = .refundPending) :
      Change (.markRefundPending rid) s
        (s.setRecovery rid { r.withRecord (s.records rid) with status := .refundPending })
  | settled (hr : s.recoveries rid = some r) (ha : r.status = .settlementPending)
      (hf : r.fundingSettlement = .completed) (ht : r.tokenSettlement = .completed) :
      Change (.markSettled rid) s (s.setRecovery rid { r with status := .settled })
  | refunded (hr : s.recoveries rid = some r) (ha : r.status = .refundPending)
      (hc : billingRecoveryRefundComplete r = true) :
      Change (.markRefunded rid) s (s.setRecovery rid { r with status := .refunded })
  | charge (hr : s.recoveries rid = some r) (hw : r.source = .wallet) (ha : r.status = .active)
      (hp : r.preConsumeState = .prepared) (hq : 0 ≤ quota)
      (hs : Shift s s₁ (point r.userID (-quota)) (point r.tokenID (-tokenShare r quota)))
      (hrows : SameRows s s₁) (htok : r.tokenRequired = false → s₁.tokens = s.tokens) :
      Change (.preConsumeWallet rid quota unlimited) s (s₁.setRecovery rid (r.charged quota))
  | extend (hr : s.recoveries rid = some r) (ha : r.status = .active)
      (hp : r.preConsumeState = .committed) (hd : 0 < target - r.reserved)
      (hs : Shift s s₁ (point r.userID (-walletShare r (target - r.reserved)))
        (point r.tokenID (-tokenShare r (target - r.reserved))))
      (hrec : s₁.recoveries = s.recoveries) (hadj : s₁.adjustments = s.adjustments)
      (htok : r.tokenRequired = false → s₁.tokens = s.tokens)
      (hfund : Reserved r (target - r.reserved) s s₁) :
      Change (.reserve rid target delta unlimited) s
        ((s₁.setRecovery rid (r.extend (target - r.reserved))).setAdjustment rid
          (.reserve target) .reserve (target - r.reserved))
  | adjust (hr : s.recoveries rid = some r) (hn : s.adjustments rid c op = none)
      (ha : (op = .settle ∧ (c = .funding ∨ c = .token) ∧ r.status = .settlementPending) ∨
        (op = .refund ∧ (c = .funding ∨ c = .extra ∨ c = .token) ∧
          (r.status = .active ∨ r.status = .refundPending)))
      (hf : Flushed rid s s0)
      (he : applyBillingRecoveryEffect rid r c op (r.adjustmentAmount c op) s0 = .ok s₁) :
      Change (.applyAdjustment rid c op) s
        ((s₁.setAdjustment rid c op (r.adjustmentAmount c op)).setRecovery rid (r.complete c op))
  | direct (hd : direct c = true) (hrec : s'.recoveries = s.recoveries)
      (hadj : s'.adjustments = s.adjustments) : Change c s s'

theorem commit_keeps {x : Except BillingError (α × Store)} {J : Store → Prop} (hs : J s)
    (h : ∀ a s', x = .ok (a, s') → J s') : J (commit s x).1 := by
  cases x with
  | error e => exact hs
  | ok p => exact h p.1 p.2 rfl

theorem commitUnit_keeps {J : Store → Prop} (hs : J s) (h : ∀ s', x = .ok s' → J s') :
    J (commitUnit s x).1 := by
  cases x with
  | error e => exact hs
  | ok s' => exact h s' rfl

theorem commit_ok (h : commit s x = (s', .ok a)) : x = .ok (a, s') := by
  cases x with
  | error e => cases h
  | ok p => cases h; rfl

theorem commitUnit_ok (h : commitUnit s x = (s', .ok ())) : x = .ok s' := by
  cases x with
  | error e => cases h
  | ok p => cases h; rfl

theorem commitUnit_of_ok (s : Store) (h : x = .ok s') : commitUnit s x = (s', .ok ()) := by
  rw [h]
  rfl

theorem commit_error (s : Store) (h : (commit s x).2 = .error e) : (commit s x).1 = s := by
  cases x with
  | error e => rfl
  | ok p => cases h

theorem commitUnit_error (s : Store) (h : (commitUnit s x).2 = .error e) :
    (commitUnit s x).1 = s := by
  cases x with
  | error e => rfl
  | ok p => cases h

theorem exec_error (cal : Calendar) (c : Call) (s : Store) (h : (Call.exec cal c s).2 = .error e) :
    (Call.exec cal c s).1 = s := by
  cases c <;> first | rfl | exact commit_error s h | exact commitUnit_error s h

theorem updateToken_rows (k d : Int) (s : Store) : SameRows s (updateToken k d s) := by
  unfold updateToken
  split
  · exact ⟨rfl, rfl, rfl, rfl, rfl, rfl⟩
  · exact .refl s

theorem updateToken_shift (h : (s.tokens k).isSome) (d : Int) :
    Shift s (updateToken k d s) 0 (point k d) := by
  obtain ⟨t, ht⟩ := Option.isSome_iff_exists.mp h
  simp only [updateToken, ht]
  exact setToken_shift ht rfl rfl

theorem updateUser_rows (k d : Int) (s : Store) : SameRows s (updateUser k d s) := by
  unfold updateUser
  split
  · exact ⟨rfl, rfl, rfl, rfl, rfl, rfl⟩
  · exact .refl s

theorem quota_ok {quota : Int}
    (h : (if quota < 0 then .error .negativeQuota else .ok t : Except BillingError Store) =
      .ok s') :
    0 ≤ quota ∧ s' = t := by
  split at h
  · cases h
  · cases h
    exact ⟨by omega, rfl⟩

theorem tryReserveTokenQuota_ok (h : tryReserveTokenQuota k quota unlimited s = .ok (b, s')) :
    0 ≤ quota ∧ ((b = false ∧ s' = s) ∨ (b = true ∧ quota = 0 ∧ s' = s) ∨
      (b = true ∧ 0 < quota ∧ s' = updateToken k (-quota) s)) := by
  unfold tryReserveTokenQuota at h
  split at h
  · cases h
  refine ⟨by omega, ?_⟩
  split at h
  · rename_i hz
    cases h
    exact .inr (.inl ⟨rfl, hz, rfl⟩)
  split at h
  · cases h
    exact .inr (.inr ⟨rfl, by omega, rfl⟩)
  split at h
  · split at h
    · cases h
      exact .inr (.inr ⟨rfl, by omega, rfl⟩)
    · cases h
      exact .inl ⟨rfl, rfl⟩
  · cases h
    exact .inl ⟨rfl, rfl⟩

theorem tryReserveUserQuota_ok (h : tryReserveUserQuota k quota s = .ok (b, s')) :
    0 ≤ quota ∧ ((b = false ∧ s' = s) ∨ (b = true ∧ quota = 0 ∧ s' = s) ∨
      (b = true ∧ 0 < quota ∧ s' = updateUser k (-quota) s)) := by
  unfold tryReserveUserQuota at h
  split at h
  · cases h
  refine ⟨by omega, ?_⟩
  split at h
  · rename_i hz
    cases h
    exact .inr (.inl ⟨rfl, hz, rfl⟩)
  split at h
  · split at h
    · cases h
      exact .inr (.inr ⟨rfl, by omega, rfl⟩)
    · cases h
      exact .inl ⟨rfl, rfl⟩
  · cases h
    exact .inl ⟨rfl, rfl⟩

theorem consumeCandidate_frame
    (h : consumeCandidate cal rid userId amount now subs s = .ok (res, s')) :
    SubscriptionsOnly s s' := by
  induction subs generalizing s with
  | nil => cases h
  | cons sub rest ih =>
    unfold consumeCandidate at h
    split at h
    · cases h
    simp only at h
    split at h
    · have hf := ih h
      exact ⟨hf.users, hf.tokens, hf.recoveries, hf.adjustments, hf.userPending, hf.tokenPending⟩
    · cases h
      exact ⟨rfl, rfl, rfl, rfl, rfl, rfl⟩

theorem preConsumeSubscription_frame
    (h : preConsumeUserSubscription cal rid userId amount now s = .ok (res, s')) :
    SubscriptionsOnly s s' := by
  unfold preConsumeUserSubscription at h
  split at h
  · cases h
  split at h
  · cases h
  split at h
  · split at h
    · cases h
    · split at h <;> cases h
      exact .refl s
  · split at h
    · cases h
    · exact consumeCandidate_frame h

theorem refundSubscription_frame (h : refundSubscriptionPreConsume rid s = .ok s') :
    SubscriptionsOnly s s' := by
  unfold refundSubscriptionPreConsume at h
  split at h
  · cases h
  split at h
  · cases h
    exact .refl s
  split at h
  · cases h
    exact ⟨rfl, rfl, rfl, rfl, rfl, rfl⟩
  obtain ⟨s1, h1, h⟩ := bind_ok.mp h
  cases h
  have hf := postConsumeTx_frame h1
  exact ⟨hf.users, hf.tokens, hf.recoveries, hf.adjustments, hf.userPending, hf.tokenPending⟩

theorem postConsume_frame (h : postConsumeUserSubscriptionDelta k delta s = .ok s') :
    SubscriptionsOnly s s' := by
  unfold postConsumeUserSubscriptionDelta at h
  split at h
  · cases h
  split at h
  · cases h
    exact .refl s
  · exact postConsumeTx_frame h

theorem change_of_rows (hd : direct c = true) (h : SameRows s s') : Change c s s' :=
  .direct hd h.recoveries h.adjustments

theorem change_of_subscriptions (hd : direct c = true) (h : SubscriptionsOnly s s') :
    Change c s s' :=
  .direct hd h.recoveries h.adjustments

/-- Every call does one of the listed things. -/
theorem exec_change (cal : Calendar) (c : Call) (s : Store) : Change c s (Call.exec cal c s).1 := by
  cases c with
  | findRecovery | getUserQuota | hasActiveUserSubscription
  | subscriptionsAllowWalletOverflow => exact .same
  | createRecovery =>
    refine commit_keeps .same fun r s' h => ?_
    obtain ⟨hr, _, rfl⟩ := create_ok h
    exact .create hr
  | rebindRecovery =>
    refine commit_keeps .same fun r' s' h => ?_
    obtain ⟨r, hr, hid, hre, _, rfl⟩ := rebind_ok h
    exact .rebind hr hid hre
  | abortPrepared =>
    refine commitUnit_keeps .same fun s' h => ?_
    rcases abort_ok h with rfl | ⟨r, hr, ha, hp, hf, hx, ht, rfl⟩
    · exact .same
    · exact .abort hr ha hp hf hx ht
  | updateAmounts =>
    refine commitUnit_keeps .same fun s' h => ?_
    obtain ⟨hf, hx, ht, r, hr, ha, rfl⟩ := updateAmounts_ok h
    exact .amounts hr ha hf hx ht
  | writeSettlement rid delta =>
    refine commit_keeps .same fun n s' h => ?_
    rcases writeSettlement_cases rid delta s with he | ⟨r, hr, ha, he⟩
    · rw [he] at h
      cases h
      exact .same
    rw [he] at h
    cases h
    exact .settlement hr ha
  | markRefundPending =>
    refine commitUnit_keeps .same fun s' h => ?_
    obtain ⟨r, hr, ⟨_, rfl⟩ | ⟨ha, rfl⟩⟩ := markRefundPending_ok h
    · exact .same
    · exact .refundPending hr ha
  | markSettled =>
    refine commitUnit_keeps .same fun s' h => ?_
    obtain ⟨r, hr, ⟨_, rfl⟩ | ⟨ha, hf, ht, rfl⟩⟩ := markSettled_ok h
    · exact .same
    · exact .settled hr ha hf ht
  | markRefunded =>
    refine commitUnit_keeps .same fun s' h => ?_
    obtain ⟨r, hr, ⟨_, rfl⟩ | ⟨ha, hc, rfl⟩⟩ := markRefunded_ok h
    · exact .same
    · exact .refunded hr ha hc
  | preConsumeWallet =>
    refine commitUnit_keeps .same fun s' h => ?_
    obtain ⟨hq, r, hr, hw, ha, ⟨_, _, _, hf⟩ | ⟨hp, s1, hs, hrows, htok, rfl⟩⟩ :=
      preConsumeWallet_ok h
    · exact .flushed rfl hf
    · exact .charge hr hw ha hp hq hs hrows htok
  | reserve =>
    refine commit_keeps .same fun applied s' h => ?_
    obtain ⟨r, hr, ha, hp, ⟨_, hf⟩ | ⟨rfl, hpos, _, s1, hs, hrec, hadj, htok, hfund, rfl⟩⟩ :=
      reserve_ok h
    · exact .flushed rfl hf
    · exact .extend hr ha hp hpos hs hrec hadj htok hfund
  | applyAdjustment =>
    refine commitUnit_keeps .same fun s' h => ?_
    obtain ⟨r, hr, ⟨hf, _⟩ | ⟨hn, ha, s0, s1, hf, he, rfl⟩⟩ := applyAdjustment_ok h
    · exact .flushed rfl hf
    · exact .adjust hr hn ha hf he
  | tryReserveTokenQuota k =>
    refine commit_keeps .same fun b s' h => ?_
    obtain ⟨_, ⟨_, rfl⟩ | ⟨_, _, rfl⟩ | ⟨_, _, rfl⟩⟩ := tryReserveTokenQuota_ok h
    · exact .same
    · exact .same
    · exact change_of_rows rfl (updateToken_rows k _ s)
  | tryReserveUserQuota k =>
    refine commit_keeps .same fun b s' h => ?_
    obtain ⟨_, ⟨_, rfl⟩ | ⟨_, _, rfl⟩ | ⟨_, _, rfl⟩⟩ := tryReserveUserQuota_ok h
    · exact .same
    · exact .same
    · exact change_of_rows rfl (updateUser_rows k _ s)
  | increaseTokenQuota k | decreaseTokenQuota k =>
    refine commitUnit_keeps .same fun s' h => ?_
    rw [(quota_ok h).2]
    exact change_of_rows rfl (updateToken_rows k _ s)
  | increaseUserQuota k | decreaseUserQuota k =>
    refine commitUnit_keeps .same fun s' h => ?_
    rw [(quota_ok h).2]
    exact change_of_rows rfl (updateUser_rows k _ s)
  | preConsumeUserSubscription =>
    exact commit_keeps .same fun res s' h =>
      change_of_subscriptions rfl (preConsumeSubscription_frame h)
  | refundSubscriptionPreConsume =>
    exact commitUnit_keeps .same fun s' h => change_of_subscriptions rfl
      (refundSubscription_frame h)
  | postConsumeUserSubscriptionDelta =>
    exact commitUnit_keeps .same fun s' h => change_of_subscriptions rfl (postConsume_frame h)

theorem Change.other (h : Change c s s') (hc : request c ≠ some rid) :
    s'.recoveries rid = s.recoveries rid ∧ s'.adjustments rid = s.adjustments rid := by
  cases h with
  | same => exact ⟨rfl, rfl⟩
  | flushed _ hf => rw [hf.rows.recoveries, hf.rows.adjustments]; exact ⟨rfl, rfl⟩
  | direct _ hrec hadj => rw [hrec, hadj]; exact ⟨rfl, rfl⟩
  | charge _ _ _ _ _ _ hrows =>
    have hne := fun he => hc (congrArg some (Eq.symm he))
    rw [setRecovery_of_ne _ _ _ hne, hrows.recoveries, setRecovery_adjustments, hrows.adjustments]
    exact ⟨rfl, rfl⟩
  | extend _ _ _ _ _ hrec hadj =>
    have hne := fun he => hc (congrArg some (Eq.symm he))
    rw [setAdjustment_recoveries, setRecovery_of_ne _ _ _ hne, setAdjustment_of_ne _ _ _ _ _ hne,
      setRecovery_adjustments, hrec, hadj]
    exact ⟨rfl, rfl⟩
  | adjust _ _ _ hf he =>
    have hne := fun he => hc (congrArg some (Eq.symm he))
    obtain ⟨_, hrec, hadj, _⟩ := effect_spec he
    rw [setRecovery_of_ne _ _ _ hne, setRecovery_adjustments, setAdjustment_of_ne _ _ _ _ _ hne,
      setAdjustment_recoveries, hrec, hadj, hf.rows.recoveries, hf.rows.adjustments]
    exact ⟨rfl, rfl⟩
  | _ =>
    have hne := fun he => hc (congrArg some (Eq.symm he))
    exact ⟨setRecovery_of_ne _ _ _ hne, rfl⟩

theorem Change.refund_marker (h : Change call s s') (hn : s.adjustments rid c .refund = none)
    (ha : s'.adjustments rid c .refund = some a) :
    ∃ r s0 s1, call = .applyAdjustment rid c .refund ∧ s.recoveries rid = some r ∧
      a = r.adjustmentAmount c .refund ∧ Flushed rid s s0 ∧
      applyBillingRecoveryEffect rid r c .refund a s0 = .ok s1 ∧
      s' = (s1.setAdjustment rid c .refund a).setRecovery rid (r.complete c .refund) := by
  by_cases hc : request call = some rid
  · cases h with
    | same => rw [hn] at ha; cases ha
    | flushed _ hf => rw [hf.rows.adjustments, hn] at ha; cases ha
    | direct _ _ hadj => rw [hadj, hn] at ha; cases ha
    | charge _ _ _ _ _ _ hrows =>
      rw [setRecovery_adjustments, hrows.adjustments, hn] at ha
      cases ha
    | extend _ _ _ _ _ _ hadj =>
      cases hc
      rw [setAdjustment_self, setRecovery_adjustments, hadj] at ha
      simp [hn] at ha
    | adjust hr _ _ hf he =>
      cases hc
      rw [setRecovery_adjustments, setAdjustment_self, (effect_spec he).2.2.1,
        hf.rows.adjustments] at ha
      split at ha
      · rename_i hk
        obtain ⟨rfl, rfl⟩ := hk
        cases ha
        exact ⟨_, _, _, rfl, hr, rfl, hf, he, rfl⟩
      · rw [hn] at ha
        cases ha
    | _ => rw [setRecovery_adjustments, hn] at ha; cases ha
  · rw [(h.other hc).2, hn] at ha
    cases ha

end Ren2Hub.Proofs.CallSpec
