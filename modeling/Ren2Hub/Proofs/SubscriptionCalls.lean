import Ren2Hub.Proofs.CallSpec

namespace Ren2Hub.Proofs.SubscriptionCalls
open Lib Billing Ledger RecoverySpec CallSpec

/-- A property of the subscriptions and plans that a delta keeps. -/
structure Steady (J : Store → Prop) : Prop where
  same : ∀ s s', J s → s'.subscriptions = s.subscriptions → s'.plans = s.plans → J s'
  delta : ∀ s s' k d, J s → postConsumeUserSubscriptionDeltaTx k d s = .ok s' → J s'

variable {J : Store → Prop}

variable (hj : Steady J)
include hj

theorem Steady.rows (h : J s) (hr : SameRows s s') : J s' :=
  hj.same s s' h hr.subscriptions hr.plans

theorem Steady.side (h : J s) (hr : SameSubscriptions s s') : J s' :=
  hj.same s s' h hr.subscriptions hr.plans

theorem Steady.applyDelta (hs : J s) (h : applySubscriptionDeltaTx k d s = .ok s') : J s' := by
  unfold applySubscriptionDeltaTx at h
  split at h
  · cases h
    exact hs
  · exact hj.delta s s' k d hs h

theorem Steady.postConsume (hs : J s) (h : postConsumeUserSubscriptionDelta k d s = .ok s') :
    J s' := by
  unfold postConsumeUserSubscriptionDelta at h
  split at h
  · cases h
  split at h
  · cases h
    exact hs
  · exact hj.delta s s' k d hs h

theorem Steady.refundRecordTx (hs : J s)
    (h : refundBillingRecoverySubscriptionPreConsumeTx rid s = .ok s') : J s' := by
  unfold refundBillingRecoverySubscriptionPreConsumeTx at h
  split at h
  · cases h
  split at h
  · cases h
    exact hs
  obtain ⟨s1, h1, h⟩ := bind_ok.mp h
  cases h
  have hs1 : J s1 := by
    split at h1
    · exact hj.delta s s1 _ _ hs h1
    · cases h1
      exact hs
  exact hj.same s1 _ hs1 rfl rfl

theorem Steady.refund (hs : J s) (h : refundSubscriptionPreConsume rid s = .ok s') : J s' := by
  unfold refundSubscriptionPreConsume at h
  split at h
  · cases h
  split at h
  · cases h
    exact hs
  split at h
  · cases h
    exact hj.same s _ hs rfl rfl
  obtain ⟨s1, h1, h⟩ := bind_ok.mp h
  cases h
  exact hj.same s1 _ (hj.delta s s1 _ _ hs h1) rfl rfl

theorem Steady.reserveFunding (hs : J s) (h : Billing.reserveFunding r d s = .ok s') : J s' := by
  unfold Billing.reserveFunding at h
  split at h
  · exact hj.applyDelta hs h
  · exact hj.rows hs (addUserQuota_spec h).2.1

theorem Steady.effect (hs : J s) (h : applyBillingRecoveryEffect rid r c op amount s = .ok s') :
    J s' := by
  unfold applyBillingRecoveryEffect at h
  split at h
  · cases h
    exact hs
  split at h
  · cases h
    exact hs
  cases c with
  | funding =>
    cases hsrc : r.source with
    | wallet =>
      simp only [hsrc] at h
      exact hj.rows hs (addUserQuota_spec h).2.1
    | subscription =>
      simp only [hsrc] at h
      split at h
      · cases hrec : refundBillingRecoverySubscriptionPreConsumeTx rid s with
        | ok s1 =>
          simp only [hrec] at h
          cases h
          exact hj.refundRecordTx hs hrec
        | error e =>
          rw [hrec] at h
          cases e <;> cases h
          exact hs
      · exact hj.applyDelta hs h
  | extra => exact hj.applyDelta hs h
  | token => exact hj.rows hs (addTokenQuota_spec h).2
  | reserve =>
    cases h
    exact hs

theorem Steady.change (hs : J s) (hc : Change c s s') (hd : direct c = false) : J s' := by
  cases hc with
  | same => exact hs
  | flushed _ hf => exact hj.rows hs hf.rows
  | charge _ _ _ _ _ _ hrows => exact hj.same _ _ hs hrows.subscriptions hrows.plans
  | extend _ _ _ _ _ _ _ _ hres =>
    obtain ⟨sa, sb, hsa, hfund, hsb⟩ := hres
    have hb := hj.side (hj.reserveFunding (hj.side hs hsa) hfund) hsb
    exact hj.same _ _ hb rfl rfl
  | adjust _ _ _ hf he => exact hj.same _ _ (hj.effect (hj.rows hs hf.rows) he) rfl rfl
  | direct hd' => simp [hd] at hd'
  | _ => exact hj.same _ _ hs rfl rfl

theorem Steady.call (cal : Calendar) (c : Call) (hs : J s)
    (hpre : ∀ rid userId amount now res s', c = .preConsumeUserSubscription rid userId amount now →
      preConsumeUserSubscription cal rid userId amount now s = .ok (res, s') → J s') :
    J (c.exec cal s).1 := by
  by_cases hd : direct c = true
  · cases c with
    | preConsumeUserSubscription rid userId amount now =>
      exact commit_keeps hs fun res s' h => hpre rid userId amount now res s' rfl h
    | refundSubscriptionPreConsume => exact commitUnit_keeps hs fun _ h => hj.refund hs h
    | postConsumeUserSubscriptionDelta =>
      exact commitUnit_keeps hs fun _ h => hj.postConsume hs h
    | increaseTokenQuota k q =>
      refine commitUnit_keeps hs fun _ h => ?_
      rw [(quota_ok h).2]
      exact hj.rows hs (updateToken_rows k q s)
    | decreaseTokenQuota k q =>
      refine commitUnit_keeps hs fun _ h => ?_
      rw [(quota_ok h).2]
      exact hj.rows hs (updateToken_rows k (-q) s)
    | increaseUserQuota k q =>
      refine commitUnit_keeps hs fun _ h => ?_
      rw [(quota_ok h).2]
      exact hj.rows hs (updateUser_rows k q s)
    | decreaseUserQuota k q =>
      refine commitUnit_keeps hs fun _ h => ?_
      rw [(quota_ok h).2]
      exact hj.rows hs (updateUser_rows k (-q) s)
    | tryReserveTokenQuota k q =>
      refine commit_keeps hs fun b s' h => ?_
      obtain ⟨_, ⟨_, rfl⟩ | ⟨_, _, rfl⟩ | ⟨_, _, rfl⟩⟩ := tryReserveTokenQuota_ok h
      · exact hs
      · exact hs
      · exact hj.rows hs (updateToken_rows k (-q) s)
    | tryReserveUserQuota k q =>
      refine commit_keeps hs fun b s' h => ?_
      obtain ⟨_, ⟨_, rfl⟩ | ⟨_, _, rfl⟩ | ⟨_, _, rfl⟩⟩ := tryReserveUserQuota_ok h
      · exact hs
      · exact hs
      · exact hj.rows hs (updateUser_rows k (-q) s)
    | _ => simp [direct] at hd
  · exact hj.change hs (exec_change cal c s) (by simpa using hd)

end Ren2Hub.Proofs.SubscriptionCalls
