import Ren2Hub.Proofs.RequestBook

namespace Ren2Hub.Proofs.SessionCalls
open Lib Billing CallSpec RequestBook BillingSession

/-- The calls of a session with a row after its creation. -/
def SessionStep (rid : RequestID) : Call → Prop
  | .findRecovery q | .writeSettlement q _ | .markRefundPending q | .markSettled q |
    .markRefunded q | .reserve q _ _ _ | .applyAdjustment q _ _ => q = rid
  | _ => False

theorem SessionStep.request (h : SessionStep rid call) : request call = some rid := by
  cases call <;> cases h <;> rfl

theorem SessionStep.not_direct (h : SessionStep rid call) : direct call = false := by
  cases call <;> cases h <;> rfl

theorem WorkerCall.sessionStep (h : WorkerCall rid call) : SessionStep rid call := by
  cases call <;> first | exact h | cases h

/-- Those among them that refund nothing. -/
def PlainStep (rid : RequestID) : Call → Prop
  | .findRecovery q | .writeSettlement q _ | .markSettled q | .reserve q _ _ _ |
    .applyAdjustment q _ .settle => q = rid
  | _ => False

theorem PlainStep.sessionStep (h : PlainStep rid call) : SessionStep rid call := by
  unfold PlainStep at h
  split at h <;> first | exact h | cases h

theorem PlainStep.not_refund (h : PlainStep rid call) (c : Component) :
    call ≠ .applyAdjustment rid c .refund := by
  rintro rfl
  cases h

/-- A request charges a token with an id, unless it is a playground request. -/
abbrev TokenNamed (info : RelayInfo) : Prop := info.isPlayground = true ∨ 0 < info.tokenId

section
variable {rid : RequestID} {s : BillingSession} {err : Option RefundFailure}

section
variable (h : s.recoveryID = some rid)
include h

theorem markPending_uses : s.markPending.Uses (WorkerCall rid) := by
  unfold markPending
  rw [h]
  exact .bindExcept ⟨rfl, fun _ => trivial⟩ (fun _ => trivial) fun _ => trivial

theorem refundFunding_yields (he : err = none → ok) :
    (s.refundFunding err).Yields (fun c => ok ∧ WorkerCall rid c) fun x => x.2 = none → ok := by
  unfold refundFunding
  split
  · exact he
  rw [h]
  cases err with
  | none => exact .bindExcept ⟨⟨he rfl, rfl⟩, fun _ => trivial⟩ (fun _ => nofun) fun _ _ => he rfl
  | some f => exact he

theorem refundExtra_yields (he : err = none → ok) :
    (s.refundExtra err).Yields (fun c => ok ∧ WorkerCall rid c) fun x => x.2 = none → ok := by
  unfold refundExtra
  cases err with
  | none =>
    split
    · rw [h]
      exact .bindExcept ⟨⟨he rfl, rfl⟩, fun _ => trivial⟩ (fun _ => nofun) fun _ _ => he rfl
    · exact he
  | some f => exact he

theorem refundToken_yields (he : err = none → ok) :
    (s.refundToken err).Yields (fun c => ok ∧ WorkerCall rid c) fun x => x.2 = none → ok := by
  unfold refundToken
  cases err with
  | none =>
    split
    · rw [h]
      exact .bindExcept ⟨⟨he rfl, rfl⟩, fun _ => trivial⟩ (fun _ => nofun) fun _ _ => he rfl
    · exact he
  | some f => exact he

end

theorem finishRefund_yields (h : s.recoveryID = some rid) (he : s.refundErr = none → ok) :
    s.finishRefund.Yields (fun c => ok ∧ WorkerCall rid c) fun s' => s'.recoveryID = some rid := by
  unfold finishRefund
  split
  · exact h
  rename_i hn
  have hok : ok := he (by simpa using hn)
  simp only [h]
  split
  · rfl
  · exact .bindExcept ⟨⟨hok, rfl⟩, fun _ => trivial⟩ (fun _ => rfl) fun _ => rfl

/-- The session after a refund none of whose components failed. -/
def finished (s : BillingSession) : BillingSession :=
  { s with refunded := s.refunded || s.refundComponentsCompleteLocked }

theorem finishRefund_eq (h : s.recoveryID = some rid) (he : s.refundErr = none) :
    s.finishRefund = if !s.refundComponentsCompleteLocked then return finished s
      else do match ← Db.markRefunded rid with
        | .ok () => return finished s
        | .error e => return { finished s with refundErr := some ⟨.complete, e⟩ } := by
  cases s
  cases h
  cases he
  rfl

/-- What is left of a refund once the row was marked. -/
def afterMark (s : BillingSession) (refundErr : Option RefundFailure) : Process BillingSession := do
  let (fundingRefunded, refundErr) ← s.refundFunding refundErr
  let (extraRefunded, refundErr) ← s.refundExtra refundErr
  let (tokenRefunded, refundErr) ← s.refundToken refundErr
  finishRefund
    { s with fundingRefunded, extraRefunded, refundErr
             tokenRefunded := s.relayInfo.isPlayground || s.tokenConsumed ≤ 0 || tokenRefunded }

theorem refund_eq (s : BillingSession) :
    s.refund =
      if s.settled || s.refunded || s.refundInProgress || !s.needsRefundLocked then return s
      else s.markPending >>= afterMark s := rfl

theorem afterMark_yields (h : s.recoveryID = some rid) (err : Option RefundFailure) :
    (afterMark s err).Yields (fun c => err = none ∧ WorkerCall rid c)
      fun s' => s'.recoveryID = some rid := by
  refine Program.Yields.bind (refundFunding_yields h id) fun ⟨_, err1⟩ he1 => ?_
  refine Program.Yields.bind (refundExtra_yields h he1) fun ⟨_, err2⟩ he2 => ?_
  refine Program.Yields.bind (refundToken_yields h he2) fun ⟨_, err3⟩ he3 => ?_
  exact finishRefund_yields h he3

theorem refund_yields (h : s.recoveryID = some rid) :
    s.refund.Yields (WorkerCall rid) fun s' => s'.recoveryID = some rid := by
  rw [refund_eq]
  split
  · exact h
  · refine Program.Yields.bind (markPending_uses h) fun err _ => ?_
    exact (afterMark_yields h err).mono (fun _ hc => hc.2) fun _ => id

theorem updateSettlement_uses (rid : RequestID) (delta : Int) :
    (updateBillingRecoverySettlement rid delta).Uses (PlainStep rid) := by
  refine .bindExcept ⟨rfl, fun _ => trivial⟩ (fun _ => trivial) fun rows => ?_
  simp only []
  split
  · trivial
  refine .bindExcept ⟨rfl, fun _ => trivial⟩ (fun _ => trivial) fun r => ?_
  simp only []
  split <;> trivial

/-- What `Settle` can leave: the two flags of a settlement are all it writes. -/
def SettleResult (s s' : BillingSession) : Prop :=
  ∃ f b, (s.fundingSettled = true → f = true) ∧ s' = { s with fundingSettled := f, settled := b }

theorem settleRecovery_yields (s : BillingSession) (rid : RequestID) (delta : Int) :
    (s.settleRecovery rid delta).Yields (PlainStep rid) fun x => SettleResult s x.2 := by
  have hsame : SettleResult s s := ⟨s.fundingSettled, s.settled, id, rfl⟩
  have hboth (f b) (hf : s.fundingSettled = true → f = true) :
      SettleResult s { s with fundingSettled := f, settled := b } := ⟨f, b, hf, rfl⟩
  refine .bindExcept (updateSettlement_uses rid delta) (fun _ => hsame) fun _ => ?_
  simp only []
  split
  · refine .bindExcept ⟨rfl, fun _ => trivial⟩ (fun _ => hsame) fun _ => ?_
    refine .bindExcept ⟨rfl, fun _ => trivial⟩ (fun _ => hsame) fun _ => ?_
    exact .bindExcept ⟨rfl, fun _ => trivial⟩ (fun _ => hsame) fun _ => hboth _ true id
  have hpaid : SettleResult s { s with fundingSettled := true } := hboth true _ fun _ => rfl
  refine .bindExcept (onlyIf_uses _ ⟨rfl, fun _ => trivial⟩) (fun _ => hsame) fun _ => ?_
  refine Program.Yields.bind (Q := fun _ => True) ⟨rfl, fun _ => trivial⟩ fun _ _ => ?_
  exact .bindExcept ⟨rfl, fun _ => trivial⟩ (fun _ => hpaid) fun _ => hboth true true fun _ => rfl

theorem settle_yields (h : s.recoveryID = some rid) (actual : Int) :
    (s.settle actual).Yields (PlainStep rid) fun x => SettleResult s x.2 := by
  unfold settle
  split
  · exact ⟨s.fundingSettled, s.settled, id, rfl⟩
  · rw [h]
    exact settleRecovery_yields s rid _

/-- The session after a reservation of `d`. -/
def reserved (s : BillingSession) (d : Int) : BillingSession :=
  let s := match s.funding with
    | .wallet consumed =>
      { s with funding := .wallet (consumed + d), preConsumedQuota := s.preConsumedQuota + d }
    | .subscription _ _ _ =>
      { s with preConsumedQuota := s.preConsumedQuota + d, extraReserved := s.extraReserved + d }
  let s := if s.relayInfo.isPlayground then s else { s with tokenConsumed := s.tokenConsumed + d }
  s.syncRelayInfo

/-- What the reservation takes from the token. -/
def tokenPart (info : RelayInfo) (d : Int) : Int := if info.isPlayground then 0 else d

theorem reserved_wallet (hf : s.funding = .wallet c) (d : Int) :
    reserved s d =
      { s with funding := .wallet (c + d), preConsumedQuota := s.preConsumedQuota + d
               tokenConsumed := s.tokenConsumed + tokenPart s.relayInfo d
               relayInfo.subscriptionId := 0 } := by
  unfold reserved tokenPart
  simp only [hf]
  split <;> simp [syncRelayInfo]

theorem reserved_subscription (hf : s.funding = .subscription own k p) (d : Int) :
    reserved s d =
      { s with preConsumedQuota := s.preConsumedQuota + d, extraReserved := s.extraReserved + d
               tokenConsumed := s.tokenConsumed + tokenPart s.relayInfo d
               relayInfo.subscriptionId := k } := by
  unfold reserved tokenPart
  simp only [hf]
  split <;> simp [syncRelayInfo]

theorem reserved_recoveryID (s : BillingSession) (d : Int) :
    (reserved s d).recoveryID = s.recoveryID := by
  cases hf : s.funding with
  | wallet => rw [reserved_wallet hf]
  | subscription => rw [reserved_subscription hf]

/-- What `Reserve` can leave. -/
def ReserveResult (s s' : BillingSession) : Prop :=
  s' = s ∨ (s.refunded = false ∧ ∃ d, 0 < d ∧ s' = reserved s d)

theorem reserveRecovery_yields (hs : s.refunded = false) (rid : RequestID) (target delta : Int) :
    (s.reserveRecovery rid target delta).Yields (PlainStep rid) fun x => ReserveResult s x.2 := by
  refine .bindExcept ⟨rfl, fun _ => trivial⟩ (fun _ => .inl rfl) fun applied => ?_
  simp only []
  split
  · exact .inl rfl
  · exact .inr ⟨hs, applied, by omega, rfl⟩

theorem reserve_yields (h : s.recoveryID = some rid) (target : Int) :
    (s.reserve target).Yields (PlainStep rid) fun x => ReserveResult s x.2 := by
  unfold reserve
  split
  · exact .inl rfl
  rename_i hopen
  simp only [h]
  refine reserveRecovery_yields ?_ rid _ _
  cases hr : s.refunded with
  | false => rfl
  | true => simp [hr] at hopen

theorem SettleResult.recoveryID (hs : SettleResult s s') : s'.recoveryID = s.recoveryID := by
  obtain ⟨f, b, -, rfl⟩ := hs
  rfl

theorem ReserveResult.recoveryID (hs : ReserveResult s s') : s'.recoveryID = s.recoveryID := by
  obtain rfl | ⟨-, d, -, rfl⟩ := hs
  · rfl
  · exact reserved_recoveryID s d

theorem perform_yields (h : s.recoveryID = some rid) (c : SessionCall) :
    (s.perform c).Yields (SessionStep rid) fun s' => s'.recoveryID = some rid := by
  cases c with
  | reserve target =>
    refine Program.Yields.bind ((reserve_yields h target).mono (fun _ hc => ?_) fun _ => id)
      fun x hx => hx.recoveryID.trans h
    exact hc.sessionStep
  | settle actual =>
    refine Program.Yields.bind ((settle_yields h actual).mono (fun _ hc => ?_) fun _ => id)
      fun x hx => hx.recoveryID.trans h
    exact hc.sessionStep
  | refund => exact (refund_yields h).mono (fun _ hc => WorkerCall.sessionStep hc) fun _ => id

theorem performAll_yields (h : s.recoveryID = some rid) (calls : List SessionCall) :
    (s.performAll calls).Yields (SessionStep rid) fun s' => s'.recoveryID = some rid := by
  induction calls generalizing s with
  | nil => exact h
  | cons c calls ih => exact Program.Yields.bind (perform_yields h c) fun s' hs' => ih hs'

end

end Ren2Hub.Proofs.SessionCalls
