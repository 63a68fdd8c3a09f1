import Ren2Hub.Billing.Calls

namespace Ren2Hub.Billing
open Ren2Hub.Lib

/-- A billing preference after `NormalizeBillingPreference`. -/
inductive BillingPreference where
  | subscriptionFirst
  | walletFirst
  | subscriptionOnly
  | walletOnly

/-- What the session reads of the request. `tokenQuota` is the balance from the auth middleware,
`trustQuota` is `GetTrustQuota()`. -/
structure RelayInfo where
  requestId : RequestID
  userId : Int
  tokenId : Int
  tokenUnlimited : Bool := false
  isPlayground : Bool := false
  forcePreConsume : Bool := false
  userQuota : Int := 0
  tokenQuota : Int := 0
  trustQuota : Int := 0
  billingPreference : BillingPreference := .subscriptionFirst
  subscriptionId : Int := 0

abbrev RelayInfo.rid (info : RelayInfo) : RequestID := info.requestId

inductive Funding where
  | wallet (consumed : Int)
  | subscription (amount subscriptionId preConsumed : Int)

def Funding.source : Funding → Source
  | .wallet _ => .wallet
  | .subscription _ _ _ => .subscription

inductive RefundStage where
  | markPending
  | funding
  | extra
  | token
  | complete

structure RefundFailure where
  stage : RefundStage
  cause : BillingError

structure BillingSession where
  relayInfo : RelayInfo
  funding : Funding
  recoveryID : Option RequestID
  preConsumedQuota : Int := 0
  tokenConsumed : Int := 0
  extraReserved : Int := 0
  trusted : Bool := false
  fundingSettled : Bool := false
  settled : Bool := false
  refunded : Bool := false
  recoveryNeedsRefund : Bool := false
  fundingRefunded : Bool := false
  extraRefunded : Bool := false
  tokenRefunded : Bool := false
  refundInProgress : Bool := false
  refundErr : Option RefundFailure := none

inductive ErrorCode where
  | preConsumeTokenQuotaFailed
  | insufficientUserQuota
  | updateDataError
  | queryDataError
deriving DecidableEq, Repr

structure APIError where
  code : ErrorCode
  cause : BillingError

section
variable (s : BillingSession)

def BillingSession.syncRelayInfo : BillingSession :=
  match s.funding with
  | .subscription _ subscriptionId _ => { s with relayInfo.subscriptionId := subscriptionId }
  | .wallet _ => { s with relayInfo.subscriptionId := 0 }

def reconcileBillingRecoveryInput (r : BillingRecovery) (input : BillingRecoveryInput) :
    Process (Except BillingError BillingRecovery) := do
  if !input.sameIdentity r then return .error .identityConflict
  if r.source = input.source then return .ok r
  if !billingRecoveryIsReusable r then return .error .identityConflict
  Db.rebindRecovery input

def ensureBillingRecovery (input : BillingRecoveryInput) :
    Process (Except BillingError BillingRecovery) := do
  if let .error e := input.check then return .error e
  match ← Db.findRecovery input.requestID with
  | .ok r => reconcileBillingRecoveryInput r input
  | .error .recordNotFound =>
    match ← Db.createRecovery input with
    | .ok r => return .ok r
    | .error e =>
      match ← Db.findRecovery input.requestID with
      | .ok r => reconcileBillingRecoveryInput r input
      | .error _ => return .error e
  | .error e => return .error e

def BillingSession.recoveryInput (rid : RequestID) : BillingRecoveryInput :=
  { requestID := rid, userID := s.relayInfo.userId, tokenID := s.relayInfo.tokenId,
    source := s.funding.source,
    tokenRequired := !s.relayInfo.isPlayground && s.relayInfo.tokenId > 0 }

def updateBillingRecoverySettlement (rid : RequestID) (delta : Int) :
    Process (Except BillingError Unit) := do
  match ← Db.writeSettlement rid delta with
  | .error e => return .error e
  | .ok rows =>
    if rows = 1 then return .ok ()
    match ← Db.findRecovery rid with
    | .error e => return .error e
    | .ok r => if r.status = .settled then return .ok () else return .error .stateConflict

def BillingSession.syncRecovery : Process (Except BillingError Unit) :=
  match s.recoveryID with
  | none => return .ok ()
  | some rid =>
    let tokenAmount := if s.relayInfo.isPlayground then 0 else s.tokenConsumed
    match s.funding with
    | .wallet consumed =>
      Db.updateAmounts rid s.relayInfo.subscriptionId consumed s.extraReserved tokenAmount
    | .subscription _ subscriptionId preConsumed =>
      Db.updateAmounts rid subscriptionId preConsumed s.extraReserved tokenAmount

/-- `refundWithRetry`: at most three attempts, the last error counts. -/
def refundWithRetry (fn : Process (Except BillingError Unit)) :
    Process (Except BillingError Unit) := do
  if let .ok () ← fn then return .ok ()
  if let .ok () ← fn then return .ok ()
  fn

def BillingSession.fundingPreConsume (amount now : Int) :
    Process (Except BillingError Funding) := do
  match s.funding with
  | .wallet consumed =>
    if amount ≤ 0 then return .ok (.wallet consumed)
    match ← Db.tryReserveUserQuota s.relayInfo.userId amount with
    | .error e => return .error e
    | .ok reserved =>
      if !reserved then return .error .insufficientWalletQuota
      return .ok (.wallet amount)
  | .subscription own _ _ =>
    -- The argument is ignored: the amount was fixed when the source was built.
    match ← Db.preConsumeUserSubscription s.relayInfo.requestId s.relayInfo.userId own now with
    | .error e => return .error e
    | .ok res => return .ok (.subscription own res.userSubscriptionId res.preConsumed)

def BillingSession.fundingSettle (delta : Int) : Process (Except BillingError Unit) := do
  if delta = 0 then return .ok ()
  match s.funding with
  | .wallet _ =>
    if delta > 0 then Db.decreaseUserQuota s.relayInfo.userId delta
    else Db.increaseUserQuota s.relayInfo.userId (-delta)
  | .subscription _ subscriptionId _ => Db.postConsumeUserSubscriptionDelta subscriptionId delta

def BillingSession.fundingRefund : Process (Except BillingError Unit) := do
  match s.funding with
  | .wallet consumed =>
    if consumed ≤ 0 then return .ok ()
    Db.increaseUserQuota s.relayInfo.userId consumed
  | .subscription _ _ preConsumed =>
    if preConsumed ≤ 0 then return .ok ()
    refundWithRetry (Db.refundSubscriptionPreConsume s.relayInfo.requestId)

/-- `Settle` with a durable row. The error of the token adjustment is looked at only without a row,
so a failed one shows only when the row is marked settled. -/
def BillingSession.settleRecovery (rid : RequestID) (delta : Int) :
    Process (Option BillingError × BillingSession) := do
  if let .error e ← updateBillingRecoverySettlement rid delta then return (some e, s)
  if delta = 0 then
    if let .error e ← Db.applyAdjustment rid .funding .settle then return (some e, s)
    if let .error e ← Db.applyAdjustment rid .token .settle then return (some e, s)
    if let .error e ← Db.markSettled rid then return (some e, s)
    return (none, { s with settled := true })
  if let .error e ← onlyIf (!s.fundingSettled) (Db.applyAdjustment rid .funding .settle) then
    return (some e, s)
  let s := { s with fundingSettled := true }
  let _ ← Db.applyAdjustment rid .token .settle
  if let .error e ← Db.markSettled rid then return (some e, s)
  return (none, { s with settled := true })

def BillingSession.settleDirect (delta : Int) : Process (Option BillingError × BillingSession) := do
  if delta = 0 then return (none, { s with settled := true })
  if let .error e ← onlyIf (!s.fundingSettled) (s.fundingSettle delta) then return (some e, s)
  let s := { s with fundingSettled := true }
  if let .error e ← onlyIf (!s.relayInfo.isPlayground)
      (if delta > 0 then Db.decreaseTokenQuota s.relayInfo.tokenId delta
        else Db.increaseTokenQuota s.relayInfo.tokenId (-delta)) then return (some e, s)
  return (none, { s with settled := true })

def BillingSession.settle (actualQuota : Int) : Process (Option BillingError × BillingSession) :=
  if s.settled then return (none, s)
  else
    let delta := actualQuota - s.preConsumedQuota
    match s.recoveryID with
    | some rid => s.settleRecovery rid delta
    | none => s.settleDirect delta

def BillingSession.needsRefundLocked : Bool :=
  if s.settled || s.refunded then false
  else if (!s.fundingSettled && !s.fundingRefunded) &&
      (s.tokenConsumed > 0 || (match s.funding with
        | .subscription _ _ preConsumed => preConsumed > 0
        | .wallet _ => false)) then true
  else if !s.extraRefunded && s.extraReserved > 0 && s.funding.source = .subscription then true
  else !s.tokenRefunded && s.tokenConsumed > 0 && !s.relayInfo.isPlayground

def BillingSession.refundComponentsCompleteLocked : Bool :=
  if !s.fundingSettled && !s.fundingRefunded then false
  else if s.extraReserved > 0 && s.funding.source = .subscription && !s.extraRefunded then false
  else s.relayInfo.isPlayground || s.tokenConsumed ≤ 0 || s.tokenRefunded

section
variable (refundErr : Option RefundFailure)

/-- The funding component of `Refund`. When marking the row failed, nothing is refunded, yet the
component counts as done. -/
def BillingSession.refundFunding : Process (Bool × Option RefundFailure) := do
  if s.fundingRefunded || s.fundingSettled then return (s.fundingRefunded, refundErr)
  let issue := match s.recoveryID with
    | some rid => Db.applyAdjustment rid .funding .refund
    | none => s.fundingRefund
  match ← onlyIf refundErr.isNone issue with
  | .error e => return (false, some ⟨.funding, e⟩)
  | .ok () => return (true, refundErr)

def BillingSession.refundExtra : Process (Bool × Option RefundFailure) := do
  if refundErr.isNone && !s.extraRefunded && s.extraReserved > 0 &&
      s.funding.source = .subscription && s.relayInfo.subscriptionId > 0 then
    let issue := match s.recoveryID with
      | some rid => Db.applyAdjustment rid .extra .refund
      | none => Db.postConsumeUserSubscriptionDelta s.relayInfo.subscriptionId (-s.extraReserved)
    match ← issue with
    | .error e => return (false, some ⟨.extra, e⟩)
    | .ok () => return (true, none)
  else return (s.extraRefunded, refundErr)

def BillingSession.refundToken : Process (Bool × Option RefundFailure) := do
  if refundErr.isNone && !s.tokenRefunded && s.tokenConsumed > 0 && !s.relayInfo.isPlayground then
    let issue := match s.recoveryID with
      | some rid => Db.applyAdjustment rid .token .refund
      | none => Db.increaseTokenQuota s.relayInfo.tokenId s.tokenConsumed
    match ← issue with
    | .error e => return (false, some ⟨.token, e⟩)
    | .ok () => return (true, none)
  else return (s.tokenRefunded, refundErr)

end

/-- The end of `Refund`: the flags are written back, and a row with all components done is closed.
-/
def BillingSession.finishRefund : Process BillingSession := do
  if s.refundErr.isSome then return s
  let s := { s with refunded := s.refunded || s.refundComponentsCompleteLocked }
  match s.recoveryID with
  | none => return s
  | some rid =>
    if !s.refundComponentsCompleteLocked then return s
    match ← Db.markRefunded rid with
    | .ok () => return s
    | .error e => return { s with refundErr := some ⟨.complete, e⟩ }

def BillingSession.markPending : Process (Option RefundFailure) := do
  match s.recoveryID with
  | none => return none
  | some rid =>
    match ← Db.markRefundPending rid with
    | .ok () => return none
    | .error e => return some ⟨.markPending, e⟩

def BillingSession.refund : Process BillingSession := do
  if s.settled || s.refunded || s.refundInProgress || !s.needsRefundLocked then return s
  let refundErr ← s.markPending
  let (fundingRefunded, refundErr) ← s.refundFunding refundErr
  let (extraRefunded, refundErr) ← s.refundExtra refundErr
  let (tokenRefunded, refundErr) ← s.refundToken refundErr
  BillingSession.finishRefund
    { s with fundingRefunded, extraRefunded, refundErr
             tokenRefunded := s.relayInfo.isPlayground || s.tokenConsumed ≤ 0 || tokenRefunded }

def preConsumeTokenQuota (info : RelayInfo) (quota : Int) :
    Process (Except BillingError Unit) := do
  if quota < 0 then return .error .negativeQuota
  if info.isPlayground then return .ok ()
  match ← Db.tryReserveTokenQuota info.tokenId quota info.tokenUnlimited with
  | .error e => return .error e
  | .ok reserved => if reserved then return .ok () else return .error .tokenQuotaNotEnough

def BillingSession.reserveRecovery (rid : RequestID) (targetQuota delta : Int) :
    Process (Option BillingError × BillingSession) := do
  match ← Db.reserve rid targetQuota delta s.relayInfo.tokenUnlimited with
  | .error e => return (some e, s)
  | .ok applied =>
    if applied ≤ 0 then return (none, s)
    let s := match s.funding with
      | .wallet consumed =>
        { s with funding := .wallet (consumed + applied)
                 preConsumedQuota := s.preConsumedQuota + applied }
      | .subscription _ _ _ =>
        { s with preConsumedQuota := s.preConsumedQuota + applied
                 extraReserved := s.extraReserved + applied }
    let s := if s.relayInfo.isPlayground then s
      else { s with tokenConsumed := s.tokenConsumed + applied }
    return (none, s.syncRelayInfo)

def BillingSession.reserveDirect (delta : Int) :
    Process (Option BillingError × BillingSession) := do
  let charge := match s.funding with
    | .wallet _ => Db.decreaseUserQuota s.relayInfo.userId delta
    | .subscription _ subscriptionId _ => Db.postConsumeUserSubscriptionDelta subscriptionId delta
  if let .error e ← charge then return (some e, s)
  let s := match s.funding with
    | .wallet consumed => { s with funding := .wallet (consumed + delta) }
    | .subscription _ _ _ => s
  match ← onlyIf (!(delta ≤ 0 || s.relayInfo.isPlayground))
      (preConsumeTokenQuota s.relayInfo delta) with
  | .ok () =>
    return (none, { s with preConsumedQuota := s.preConsumedQuota + delta
                           tokenConsumed := s.tokenConsumed + delta
                           extraReserved := s.extraReserved + delta }.syncRelayInfo)
  | .error e =>
    let rollback := match s.funding with
      | .wallet _ => Db.increaseUserQuota s.relayInfo.userId delta
      | .subscription _ subscriptionId _ =>
        Db.postConsumeUserSubscriptionDelta subscriptionId (-delta)
    match ← rollback, s.funding with
    | .ok (), .wallet consumed => return (some e, { s with funding := .wallet (consumed - delta) })
    | .ok (), .subscription _ _ _ => return (some e, s)
    | .error _, _ =>
      return (some e, { s with preConsumedQuota := s.preConsumedQuota + delta
                               extraReserved := s.extraReserved + delta
                               recoveryNeedsRefund := true }.syncRelayInfo)

def BillingSession.reserve (targetQuota : Int) : Process (Option BillingError × BillingSession) :=
  if s.settled || s.refunded || s.trusted || targetQuota ≤ s.preConsumedQuota then return (none, s)
  else
    let delta := targetQuota - s.preConsumedQuota
    match s.recoveryID with
    | some rid => s.reserveRecovery rid targetQuota delta
    | none => s.reserveDirect delta

def BillingSession.shouldTrust : Bool :=
  if s.relayInfo.forcePreConsume then false
  else if s.relayInfo.trustQuota ≤ 0 then false
  else if !(s.relayInfo.tokenUnlimited || s.relayInfo.tokenQuota > s.relayInfo.trustQuota) then
    false
  else match s.funding with
    | .wallet _ => s.relayInfo.userQuota > s.relayInfo.trustQuota
    | .subscription _ _ _ => false

/-- The two shortages the source recognises by the text of the error. -/
def BillingError.isSubscriptionShortage : BillingError → Bool
  | .noActiveSubscription => true
  | .subscriptionQuotaInsufficient _ => true
  | _ => false

def BillingError.preConsumeCode (e : BillingError) : ErrorCode :=
  if e = .insufficientWalletQuota || e.isSubscriptionShortage then .insufficientUserQuota
  else .updateDataError

/-- The wallet branch of `preConsume`: wallet, token and row in one transaction. -/
def BillingSession.preConsumeWallet (rid : RequestID) (quota : Int) :
    Process (Except APIError BillingSession) := do
  match ← Db.preConsumeWallet rid quota s.relayInfo.tokenUnlimited with
  | .error .tokenQuota => return .error ⟨.preConsumeTokenQuotaFailed, .tokenQuota⟩
  | .error .fundingQuota => return .error ⟨.insufficientUserQuota, .userQuotaExhausted⟩
  | .error e => return .error ⟨.updateDataError, e⟩
  | .ok () =>
    let s := { s with funding := .wallet quota, preConsumedQuota := quota }
    let s := if s.relayInfo.isPlayground then s else { s with tokenConsumed := quota }
    return .ok s.syncRelayInfo

/-- The funding source refused, the token goes back. If that fails too, the row is left to the
worker. -/
def BillingSession.rollbackToken : Process BillingSession := do
  if s.tokenConsumed > 0 && !s.relayInfo.isPlayground then
    match ← Db.increaseTokenQuota s.relayInfo.tokenId s.tokenConsumed with
    | .ok () => return { s with tokenConsumed := 0 }
    | .error _ =>
      let s := { s with recoveryNeedsRefund := true }
      let _ ← s.syncRecovery
      return s
  else return s

/-- `preConsume` with token and funding charged apart. On failure it returns the session, whose row
has to be closed. -/
def BillingSession.preConsumeApart (quota now : Int) :
    Process (Option APIError × BillingSession) := do
  if let .error e ← onlyIf (quota > 0) (preConsumeTokenQuota s.relayInfo quota) then
    return (some ⟨.preConsumeTokenQuotaFailed, e⟩, s)
  let s := if quota > 0 then { s with tokenConsumed := quota } else s
  match ← s.fundingPreConsume quota now with
  | .error e =>
    let s ← s.rollbackToken
    return (some ⟨e.preConsumeCode, e⟩, s)
  | .ok funding =>
    return (none, { s with funding := funding, preConsumedQuota := quota }.syncRelayInfo)

def BillingSession.preConsume (quota now : Int) : Process (Option APIError × BillingSession) := do
  let trusted := s.shouldTrust
  let effectiveQuota := if trusted then 0 else quota
  let s := { s with trusted := trusted }
  match s.recoveryID, s.funding with
  | some rid, .wallet _ =>
    match ← s.preConsumeWallet rid effectiveQuota with
    | .error e => return (some e, s)
    | .ok s => return (none, s)
  | _, _ => s.preConsumeApart effectiveQuota now

def recordBillingPreConsumeFailure : Process Unit := do
  match s.recoveryID with
  | none => return ()
  | some rid =>
    if s.recoveryNeedsRefund then
      let _ ← Db.markRefundPending rid
    else
      let _ ← Db.abortPrepared rid

/-- The part `tryWallet` and `trySubscription` share once the session value is
built. -/
def BillingSession.start (rid : RequestID) (quota now : Int) :
    Process (Except APIError BillingSession) := do
  if let .error e ← ensureBillingRecovery (s.recoveryInput rid) then
    return .error ⟨.updateDataError, e⟩
  let (apiErr, s) ← s.preConsume quota now
  if let some e := apiErr then
    recordBillingPreConsumeFailure s
    return .error e
  if let .error e ← s.syncRecovery then
    let _ ← Db.markRefundPending rid
    let _ ← s.refund
    return .error ⟨.updateDataError, e⟩
  return .ok s

end

def tryWallet (info : RelayInfo) (preConsumedQuota now : Int) :
    Process (Except APIError BillingSession) := do
  match ← Db.getUserQuota info.userId with
  | .error e => return .error ⟨.queryDataError, e⟩
  | .ok userQuota =>
    if userQuota ≤ 0 then return .error ⟨.insufficientUserQuota, .userQuotaExhausted⟩
    if userQuota - preConsumedQuota < 0 then
      return .error ⟨.insufficientUserQuota, .userQuotaExhausted⟩
    let info := { info with userQuota := userQuota }
    BillingSession.start
      { relayInfo := info, funding := .wallet 0, recoveryID := some info.requestId }
      info.requestId preConsumedQuota now

def trySubscription (info : RelayInfo) (preConsumedQuota now : Int) :
    Process (Except APIError BillingSession) :=
  let subConsume := if preConsumedQuota ≤ 0 then 1 else preConsumedQuota
  BillingSession.start
    { relayInfo := info, funding := .subscription subConsume 0 0,
      recoveryID := some info.requestId }
    info.requestId subConsume now

def newBillingSession (info : RelayInfo) (preConsumedQuota now : Int) :
    Process (Except APIError BillingSession) := do
  match info.billingPreference with
  | .subscriptionOnly => trySubscription info preConsumedQuota now
  | .walletOnly => tryWallet info preConsumedQuota now
  | .walletFirst =>
    match ← tryWallet info preConsumedQuota now with
    | .ok s => return .ok s
    | .error e =>
      if e.code = .insufficientUserQuota then trySubscription info preConsumedQuota now
      else return .error e
  | .subscriptionFirst =>
    match ← Db.hasActiveUserSubscription info.userId now with
    | .error e => return .error ⟨.queryDataError, e⟩
    | .ok hasSub =>
      if !hasSub then tryWallet info preConsumedQuota now
      else
        match ← trySubscription info preConsumedQuota now with
        | .ok s => return .ok s
        | .error apiErr =>
          if apiErr.code ≠ .insufficientUserQuota then return .error apiErr
          match ← Db.subscriptionsAllowWalletOverflow info.userId now with
          | .error e => return .error ⟨.queryDataError, e⟩
          | .ok allow =>
            if allow then tryWallet info preConsumedQuota now else return .error apiErr

inductive SessionCall where
  | reserve (targetQuota : Int)
  | settle (actualQuota : Int)
  | refund

def BillingSession.perform (s : BillingSession) : SessionCall → Process BillingSession
  | .reserve target => do return (← s.reserve target).2
  | .settle actual => do return (← s.settle actual).2
  | .refund => s.refund

def BillingSession.performAll (s : BillingSession) : List SessionCall → Process BillingSession
  | [] => return s
  | c :: calls => do (← s.perform c).performAll calls

def sessionLife (create : Process (Except APIError BillingSession)) (calls : List SessionCall) :
    Process Unit := do
  match ← create with
  | .error _ => return ()
  | .ok s => let _ ← s.performAll calls

end Ren2Hub.Billing
