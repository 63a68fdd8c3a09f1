import Ren2Hub.Billing.Subscription

namespace Ren2Hub.Billing

structure BillingRecoveryInput where
  requestID : RequestID
  userID : Int
  tokenID : Int
  source : Source
  fundingAmount : Int := 0
  tokenAmount : Int := 0
  tokenRequired : Bool := false

section
variable (input : BillingRecoveryInput)

/-- The argument checks `EnsureBillingRecovery` makes before it reads anything. -/
def BillingRecoveryInput.check : Except BillingError Unit :=
  if input.userID ≤ 0 ∨ input.tokenID < 0 then .error .invalidRecoveryInput
  else if input.fundingAmount < 0 ∨ input.tokenAmount < 0 then .error .negativeAmounts
  else if input.tokenID = 0 ∧ input.tokenAmount ≠ 0 then .error .tokenAmountRequiresToken
  else .ok ()

def BillingRecoveryInput.row : BillingRecovery :=
  { userID := input.userID, tokenID := input.tokenID, source := input.source,
    fundingAmount := input.fundingAmount, tokenAmount := input.tokenAmount,
    tokenRequired := input.tokenRequired }

/-- `DB.Create` under the unique index on the request id. -/
def createBillingRecovery (s : Store) : Except BillingError (BillingRecovery × Store) :=
  match s.recoveries input.requestID with
  | some _ => .error .duplicateKey
  | none => .ok (input.row, s.setRecovery input.requestID input.row)

def billingRecoveryIsReusable (r : BillingRecovery) : Bool :=
  r.status = .refunded ∧ r.preConsumeState = .prepared ∧
    r.fundingAmount = 0 ∧ r.extraAmount = 0 ∧ r.tokenAmount = 0

def BillingRecoveryInput.sameIdentity (r : BillingRecovery) : Bool :=
  r.userID = input.userID ∧ r.tokenID = input.tokenID ∧ r.tokenRequired = input.tokenRequired

/-- In one transaction: the row is read again under its lock before it is bound to the other source.
-/
def rebindBillingRecovery (s : Store) : Except BillingError (BillingRecovery × Store) := do
  let current ← s.recovery input.requestID
  if !input.sameIdentity current || !billingRecoveryIsReusable current then
    throw .identityConflict
  let rebound := { current with source := input.source, status := .active }
  return (rebound, s.setRecovery input.requestID rebound)

end

variable (rid : RequestID)

def abortPreparedBillingRecovery (s : Store) : Except BillingError Store := do
  let r ← s.recovery rid
  if r.status = .refunded then return s
  if r.status ≠ .active ∨ r.preConsumeState ≠ .prepared ∨
      r.fundingAmount ≠ 0 ∨ r.extraAmount ≠ 0 ∨ r.tokenAmount ≠ 0 then
    throw .stateConflict
  return s.setRecovery rid { r with status := .refunded }

/-- The second test of the source names both states before the consumption, so it refuses no row. -/
def updateBillingRecoveryAmounts (subscriptionID fundingAmount extraAmount tokenAmount : Int)
    (s : Store) : Except BillingError Store := do
  if fundingAmount < 0 ∨ extraAmount < 0 ∨ tokenAmount < 0 then throw .negativeAmounts
  let r ← s.recovery rid
  if r.status ≠ .active ∨
      (r.preConsumeState ≠ .prepared ∧ r.preConsumeState ≠ .committed) then
    throw .stateConflict
  return s.setRecovery rid
    { r with subscriptionID, fundingAmount, extraAmount, tokenAmount,
             preConsumeState := .committed }

/-- The update statement of `UpdateBillingRecoverySettlement`, with the number
of rows it matched. -/
def writeBillingRecoverySettlement (delta : Int) (s : Store) : Nat × Store :=
  match s.recoveries rid with
  | none => (0, s)
  | some r =>
    if r.status = .active ∨ r.status = .settlementPending then
      (1, s.setRecovery rid { r with settlementDelta := delta, status := .settlementPending })
    else (0, s)

/-- What a still consumed pre-consume record proves to be taken, for a row that stored no amounts.
-/
def BillingRecovery.withRecord (r : BillingRecovery)
    (record : Option SubscriptionPreConsumeRecord) : BillingRecovery :=
  if r.source = .subscription ∧ r.preConsumeState = .prepared then
    match record with
    | some rec =>
      if rec.status = .consumed then
        { r with subscriptionID := rec.userSubscriptionId, fundingAmount := rec.preConsumed,
                 tokenAmount := if r.tokenRequired then rec.preConsumed else r.tokenAmount,
                 preConsumeState := .committed }
      else r
    | none => r
  else r

def markBillingRecoveryRefundPending (s : Store) : Except BillingError Store := do
  let r ← s.recovery rid
  if r.status = .refunded then return s
  if r.status ≠ .active ∧ r.status ≠ .refundPending then throw .stateConflict
  return s.setRecovery rid { r.withRecord (s.records rid) with status := .refundPending }

def billingRecoverySettlementComplete (r : BillingRecovery) : Bool :=
  r.fundingSettlement = .completed ∧ r.tokenSettlement = .completed

def billingRecoveryRefundComplete (r : BillingRecovery) : Bool :=
  r.fundingRefund = .completed ∧
    ¬(r.extraAmount > 0 ∧ r.extraRefund ≠ .completed) ∧
    ¬(r.tokenAmount > 0 ∧ r.tokenRefund ≠ .completed)

def markBillingRecoverySettled (s : Store) : Except BillingError Store := do
  let r ← s.recovery rid
  if r.status = .settled then return s
  if r.status ≠ .settlementPending ∨ !billingRecoverySettlementComplete r then
    throw .stateConflict
  return s.setRecovery rid { r with status := .settled }

def markBillingRecoveryRefunded (s : Store) : Except BillingError Store := do
  let r ← s.recovery rid
  if r.status = .refunded then return s
  if r.status ≠ .refundPending ∨ !billingRecoveryRefundComplete r then throw .stateConflict
  return s.setRecovery rid { r with status := .refunded }

structure QuotaMutation where
  userID : Int
  tokenID : Int
  userPendingDelta : Int
  tokenPendingDelta : Int

def pendingQuotaDelta (queue : Int → Int) (id : Int) : Int :=
  if id ≤ 0 then 0 else queue id

def dropPendingQuotaDelta (queue : Int → Int) (id : Int) : Int → Int :=
  if id ≤ 0 then queue else Function.update queue id 0

def beginBillingRecoveryQuotaMutation (fenceUser fenceToken : Bool) (s : Store) :
    Except BillingError (QuotaMutation × Store) := do
  let r ← s.recovery rid
  let userID := if fenceUser ∧ r.source = .wallet then r.userID else 0
  let tokenID := if fenceToken ∧ r.tokenRequired ∧ r.tokenID > 0 then r.tokenID else 0
  return (⟨userID, tokenID, pendingQuotaDelta s.userPending userID,
      pendingQuotaDelta s.tokenPending tokenID⟩,
    { s with userPending := dropPendingQuotaDelta s.userPending userID,
             tokenPending := dropPendingQuotaDelta s.tokenPending tokenID })

def QuotaMutation.applyPendingDeltas (m : QuotaMutation) (s : Store) :
    Except BillingError Store := do
  let s ← (if m.userPendingDelta ≠ 0 then s.addUserQuota m.userID m.userPendingDelta else .ok s)
  if m.tokenPendingDelta ≠ 0 then s.addTokenQuota m.tokenID m.tokenPendingDelta else .ok s

/-- Both halves of the mutation that come before the body of a transaction. -/
def flushPendingDeltas (fenceUser fenceToken : Bool) (s : Store) : Except BillingError Store := do
  let (m, s) ← beginBillingRecoveryQuotaMutation rid fenceUser fenceToken s
  m.applyPendingDeltas s

def chargeToken (id quota : Int) (tokenUnlimited : Bool) (s : Store) :
    Except BillingError Store :=
  match s.tokens id with
  | some t =>
    if tokenUnlimited ∨ t.remainQuota ≥ quota then
      .ok (s.setToken id
        { t with remainQuota := t.remainQuota - quota, usedQuota := t.usedQuota + quota })
    else .error .tokenQuota
  | none => .error .tokenQuota

def chargeUser (id quota : Int) (s : Store) : Except BillingError Store :=
  match s.users id with
  | some u =>
    if u.quota ≥ quota then .ok (s.setUser id { u with quota := u.quota - quota })
    else .error .fundingQuota
  | none => .error .fundingQuota

def BillingRecovery.charged (r : BillingRecovery) (quota : Int) : BillingRecovery :=
  { r with fundingAmount := quota, tokenAmount := if r.tokenRequired then quota else 0,
           preConsumeState := .committed }

def chargePreConsume (r : BillingRecovery) (quota : Int) (tokenUnlimited : Bool) (s : Store) :
    Except BillingError Store := do
  let s ← (if r.tokenRequired ∧ r.tokenID > 0 ∧ quota > 0 then
    chargeToken r.tokenID quota tokenUnlimited s else .ok s)
  let s ← (if quota > 0 then chargeUser r.userID quota s else .ok s)
  return s.setRecovery rid (r.charged quota)

/-- The transaction body of `PreConsumeWalletBillingRecovery`. -/
def preConsumeWalletTx (quota : Int) (tokenUnlimited : Bool) (s : Store) :
    Except BillingError Store := do
  let r ← s.recovery rid
  if r.source ≠ .wallet ∨ r.status ≠ .active then .error .stateConflict
  else if r.preConsumeState = .committed then
    if r.fundingAmount = quota ∧ (!r.tokenRequired ∨ r.tokenAmount = quota) then .ok s
    else .error .stateConflict
  else chargePreConsume rid r quota tokenUnlimited s

def preConsumeWalletBillingRecovery (quota : Int) (tokenUnlimited : Bool) (s : Store) :
    Except BillingError Store :=
  if quota < 0 then .error .invalidWalletPreConsume
  else do
    let s ← (if quota > 0 then flushPendingDeltas rid true true s else .ok s)
    preConsumeWalletTx rid quota tokenUnlimited s

section
variable (r : BillingRecovery)

/-- A later wallet reserve may carry the balance negative, unlike the first pre-consume. -/
def reserveFunding (delta : Int) (s : Store) : Except BillingError Store :=
  match r.source with
  | .subscription => applySubscriptionDeltaTx r.subscriptionID delta s
  | .wallet => s.addUserQuota r.userID (-delta)

def BillingRecovery.reserved : Int :=
  match r.source with
  | .subscription => r.fundingAmount + r.extraAmount
  | .wallet => r.fundingAmount

def BillingRecovery.extend (delta : Int) : BillingRecovery :=
  let r := match r.source with
    | .subscription => { r with extraAmount := r.extraAmount + delta }
    | .wallet => { r with fundingAmount := r.fundingAmount + delta }
  if r.tokenRequired ∧ r.tokenID > 0 then { r with tokenAmount := r.tokenAmount + delta } else r

def chargeReserve (targetQuota delta : Int) (tokenUnlimited : Bool) (s : Store) :
    Except BillingError (Int × Store) := do
  let s ← reserveFunding r delta s
  let s ← (if r.tokenRequired ∧ r.tokenID > 0 then
    chargeToken r.tokenID delta tokenUnlimited s else .ok s)
  return (delta, (s.setRecovery rid (r.extend delta)).setAdjustment rid
    (.reserve targetQuota) .reserve delta)

end

/-- The transaction body of `ReserveBillingRecovery`, with the delta it applied. -/
def reserveTx (targetQuota : Int) (tokenUnlimited : Bool) (s : Store) :
    Except BillingError (Int × Store) := do
  let r ← s.recovery rid
  if r.status ≠ .active ∨ r.preConsumeState ≠ .committed then .error .stateConflict
  else if targetQuota - r.reserved ≤ 0 then .ok (0, s)
  else match s.adjustments rid (.reserve targetQuota) .reserve with
    | some amount =>
      if amount ≠ targetQuota - r.reserved then .error .stateConflict else .ok (0, s)
    | none => chargeReserve rid r targetQuota (targetQuota - r.reserved) tokenUnlimited s

/-- The caller's `delta` is only checked for its sign; the row decides. -/
def reserveBillingRecovery (targetQuota delta : Int) (tokenUnlimited : Bool) (s : Store) :
    Except BillingError (Int × Store) :=
  if targetQuota ≤ 0 ∨ delta ≤ 0 then .error .invalidReservation
  else do
    let s ← flushPendingDeltas rid true true s
    reserveTx rid targetQuota tokenUnlimited s

section
variable (r : BillingRecovery)

variable (component : Component)

variable (operation : Operation)

def applyBillingRecoveryEffect (amount : Int) (s : Store) : Except BillingError Store :=
  if component = .token ∧ r.tokenID ≤ 0 then .ok s
  else if amount = 0 then .ok s
  else
    let sign : Int := if operation = .settle then -1 else 1
    match component with
    | .funding =>
      match r.source with
      | .subscription =>
        if operation = .refund then
          match refundBillingRecoverySubscriptionPreConsumeTx rid s with
          | .error .recordNotFound => .ok s
          | result => result
        else applySubscriptionDeltaTx r.subscriptionID amount s
      | .wallet => s.addUserQuota r.userID (amount * sign)
    | .extra => applySubscriptionDeltaTx r.subscriptionID (-amount) s
    | .token => s.addTokenQuota r.tokenID (amount * sign)
    | .reserve _ => .ok s

/-- `updateBillingRecoveryComponentState` on the row. -/
def BillingRecovery.complete : BillingRecovery :=
  match operation, component with
  | .refund, .funding => { r with fundingRefund := .completed }
  | .refund, .extra => { r with extraRefund := .completed }
  | .refund, .token => { r with tokenRefund := .completed }
  | .settle, .funding => { r with fundingSettlement := .completed }
  | .settle, .token => { r with tokenSettlement := .completed }
  | _, _ => r

def BillingRecovery.adjustmentAmount : Int :=
  match operation, component with
  | .settle, .funding => r.settlementDelta
  | .settle, .token => r.settlementDelta
  | _, .funding => r.fundingAmount
  | _, .extra => r.extraAmount
  | _, .token => r.tokenAmount
  | _, .reserve _ => 0

/-- Whether the state of the row lets an adjustment without a marker through. A refund after the end
succeeds and does nothing. -/
def BillingRecovery.admits : Except BillingError Bool :=
  if operation = .settle then
    if component ≠ .funding ∧ component ≠ .token then .error .invalidSettlementComponent
    else if r.status ≠ .settlementPending then .error .stateConflict
    else .ok true
  else if r.status = .settled ∨ r.status = .refunded then .ok false
  else if r.status ≠ .active ∧ r.status ≠ .refundPending then .error .stateConflict
  else .ok true

end

/-- The transaction body of `ApplyBillingRecoveryAdjustment`. -/
def applyAdjustmentTx (component : Component) (operation : Operation) (s : Store) :
    Except BillingError Store := do
  let r ← s.recovery rid
  if operation = .refund ∧ r.status = .settled then .ok s
  else if (s.adjustments rid component operation).isSome then .ok s
  else do
    let admitted ← r.admits component operation
    if !admitted then .ok s
    else do
      let amount := r.adjustmentAmount component operation
      let s ← applyBillingRecoveryEffect rid r component operation amount s
      return (s.setAdjustment rid component operation amount).setRecovery rid
        (r.complete component operation)

def applyBillingRecoveryAdjustment (component : Component) (operation : Operation) (s : Store) :
    Except BillingError Store :=
  if component ≠ .funding ∧ component ≠ .extra ∧ component ≠ .token then .error .invalidComponent
  else if operation ≠ .settle ∧ operation ≠ .refund then .error .invalidOperation
  else do
    let s ← flushPendingDeltas rid (component = .funding) (component = .token) s
    applyAdjustmentTx rid component operation s

end Ren2Hub.Billing
