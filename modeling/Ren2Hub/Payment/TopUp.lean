import Mathlib.Algebra.Group.Nat.Defs
import Mathlib.Algebra.Ring.Int.Defs
import Ren2Hub.Lib.Transaction

namespace Ren2Hub.Payment
open Lib Lib.Transaction

/-- `value / 10 ^ scale`, as the decimal library keeps it. -/
structure Decimal where
  value : Int
  scale : Nat := 0

namespace Decimal

def mul (a b : Decimal) : Decimal := ⟨a.value * b.value, a.scale + b.scale⟩

/-- The integer nearest to `n / d`, halves away from zero. -/
def nearest (n : Int) (d : Nat) : Int := n.sign * ((2 * n.natAbs + d) / (2 * d) : Nat)

def round (a : Decimal) : Int := nearest a.value (10 ^ a.scale)

def floor (a : Decimal) : Int := a.value / (10 ^ a.scale : Nat)

/-- `Div` rounds to sixteen digits. -/
def div (a b : Decimal) : Decimal :=
  ⟨nearest (b.value.sign * a.value * (10 ^ (16 + b.scale) : Nat))
    (b.value.natAbs * 10 ^ a.scale), 16⟩

end Decimal

def maxQuota : Int := 2147483647

def minQuota : Int := -2147483648

/-- A value outside the range of a wallet is an error and never clamped. -/
def quotaFromDecimalStrict (d : Decimal) : Option Int :=
  if d.round ≥ maxQuota ∨ d.round ≤ minQuota then none else some d.round

inductive PaymentProvider where
  | epay
  | stripe
  | creem
  | waffo
  | waffoPancake
  | balance
deriving DecidableEq, Repr

inductive TopUpStatus where
  | pending
  | success
  | failed
  | expired
deriving DecidableEq, Repr

/-- The trade number is the key of the table. Rows from before the provider column have none. -/
structure TopUp where
  id : Int
  userId : Int
  amount : Int
  money : Decimal
  paymentMethod : String
  paymentProvider : Option PaymentProvider
  createTime : Int
  completeTime : Int := 0
  status : TopUpStatus := .pending
  affiliateBaseQuota : Int := 0

structure User where
  quota : Int
  stripeCustomer : String := ""
  email : String := ""
  enabled : Bool := true
  createdAt : Int := 0
  inviterId : Int := 0
  affCodeEnabled : Bool := true
  affRebateRateBps : Option Int := none
  affQuota : Int := 0
  affFrozenQuota : Int := 0
  affHistoryQuota : Int := 0

inductive AffiliateSource where
  | topUp
  | subscription
deriving DecidableEq, Repr

/-- `source_event_key`: the type and id of what is rewarded, or a transfer. -/
inductive EventKey where
  | source (type : AffiliateSource) (id : Int)
  | transfer (uuid : String)
deriving DecidableEq, Repr

inductive AffiliateAction where
  | accrue
  | skip
  | transfer
deriving DecidableEq, Repr

inductive SkipReason where
  | noInviter
  | programInactive
  | complianceUnconfirmed
  | inviterMissing
  | inviterInactive
  | durationExpired
  | zeroReward
  | inviteeCapReached
  | inviterQuotaLimit

structure AffiliateLedger where
  userId : Int
  inviteeId : Int
  action : AffiliateAction
  sourceTradeNo : String := ""
  sourceEventKey : EventKey
  baseQuota : Int := 0
  rateBps : Int := 0
  rewardQuota : Int := 0
  reason : Option SkipReason := none
  frozenUntil : Int := 0
  thawedAt : Int := 0
  balanceAfter : Option Int := none
  availableQuotaAfter : Option Int := none
  frozenQuotaAfter : Option Int := none
  historyQuotaAfter : Option Int := none

/-- Options an administrator may change at any time. -/
structure Settings where
  quotaPerUnit : Decimal := ⟨500000, 0⟩
  affiliateEnabled : Bool := false
  affiliateActivatedAt : Int := 0
  paymentComplianceConfirmed : Bool := false
  affiliateDurationDays : Int := 0
  affiliateRebateRateBps : Int := 0
  affiliatePerInviteeCap : Decimal := ⟨0, 0⟩
  affiliateFreezeHours : Int := 0

structure Store where
  topUps : String → Option TopUp := fun _ => none
  users : Int → Option User := fun _ => none
  ledger : List AffiliateLedger := []

inductive TopUpError where
  | tradeNoMissing
  | orderNoMissing
  | topUpNotFound
  | orderNotFound
  | paymentMethodMismatch
  | topUpStatusInvalid
  | orderStatusWrong
  | orderNotPending
  | invalidTopUpQuota
  | topUpQuotaLimitExceeded
  | recordNotFound
  | duplicateKey
  | invalidAffiliatePeriod
  | affiliatePeriodOverflow
  | invalidAffiliatePaymentBase
  | invalidAffiliateQuotaBase
  | affiliateDisabled
  | transferTooSmall
  | affiliateQuotaEmpty
  | rechargeFailed
deriving DecidableEq, Repr

abbrev Tx := Transaction Store TopUpError

def Store.saveTopUp (s : Store) (tradeNo : String) (topUp : TopUp) : Store :=
  { s with topUps := Function.update s.topUps tradeNo (some topUp) }

def Store.saveUser (s : Store) (userId : Int) (user : User) : Store :=
  { s with users := Function.update s.users userId (some user) }

def topUpQuotaMaxCurrent (creditedQuota : Int) : Except TopUpError Int :=
  if creditedQuota ≤ 0 ∨ creditedQuota ≥ maxQuota then .error .invalidTopUpQuota
  else .ok (maxQuota - 1 - creditedQuota)

structure UserUpdates where
  stripeCustomer : Option String := none
  email : Option String := none

def UserUpdates.apply (updates : UserUpdates) (user : User) : User :=
  { user with
    stripeCustomer := updates.stripeCustomer.getD user.stripeCustomer
    email := updates.email.getD user.email }

def creditTopUpQuota (userId creditedQuota : Int) (updates : UserUpdates) : Tx Unit := do
  let maxCurrentQuota ← topUpQuotaMaxCurrent creditedQuota
  let s ← get
  match s.users userId with
  | none => throw .recordNotFound
  | some user =>
    if user.quota ≤ maxCurrentQuota then
      modify fun s => s.saveUser userId
        { updates.apply user with quota := user.quota + creditedQuota }
    else throw .topUpQuotaLimitExceeded

structure AffiliateRewardSource where
  type : AffiliateSource
  id : Int
  tradeNo : String
  inviteeId : Int
  baseQuota : Int
  createdAt : Int

def AffiliateRewardSource.eventKey (source : AffiliateRewardSource) : EventKey :=
  .source source.type source.id

def clampAffiliateRateBps (value : Int) : Int :=
  if value < 0 then 0 else if value > 10000 then 10000 else value

variable (cfg : Settings)

def effectiveAffiliateRateBps (user : User) : Int :=
  clampAffiliateRateBps (user.affRebateRateBps.getD cfg.affiliateRebateRateBps)

def affiliateBaseQuotaFromPayment (payMoney unitPrice : Decimal) : Except TopUpError Int :=
  if payMoney.value ≤ 0 ∨ unitPrice.value ≤ 0 ∨ cfg.quotaPerUnit.value ≤ 0 then
    .error .invalidAffiliatePaymentBase
  else
    let base := ((payMoney.div unitPrice).mul cfg.quotaPerUnit).floor
    if base ≤ 0 then .error .invalidAffiliateQuotaBase
    else match quotaFromDecimalStrict ⟨base, 0⟩ with
      | none => .error .invalidAffiliateQuotaBase
      | some quota => if quota ≤ 0 then .error .invalidAffiliateQuotaBase else .ok quota

def affiliateBaseQuotaFromUSD (amount : Decimal) : Except TopUpError Int :=
  affiliateBaseQuotaFromPayment cfg amount ⟨1, 0⟩

def maxInt64 : Int := 9223372036854775807

def mulInt64 (a b : Int) : Int := (a * b + (maxInt64 + 1)) % (2 * (maxInt64 + 1)) - (maxInt64 + 1)

def affiliatePeriodEndUnix (base amount unitSeconds : Int) : Except TopUpError Int :=
  if amount < 0 ∨ unitSeconds ≤ 0 then .error .invalidAffiliatePeriod
  else if amount = 0 then .ok base
  else if amount > maxInt64 / unitSeconds then .error .affiliatePeriodOverflow
  else if base > maxInt64 - amount * unitSeconds then .error .affiliatePeriodOverflow
  else .ok (base + amount * unitSeconds)

inductive AffiliateOutcome where
  | skip (inviterId : Int) (reason : SkipReason)
  | accrue (inviterId : Int) (inviter : User) (rateBps reward : Int)

/-- Whether the purchase came too late after the registration of the buyer. -/
def affiliateDurationExpired (invitee : User) (source : AffiliateRewardSource) :
    Except TopUpError Bool := do
  if cfg.affiliateDurationDays > 0 then
    let expiresAt ←
      affiliatePeriodEndUnix invitee.createdAt cfg.affiliateDurationDays (24 * 60 * 60)
    pure (decide (source.createdAt > expiresAt))
  else pure false

/-- What one inviter may earn from one invitee; an option that is not positive is
no cap. -/
def affiliateCap : Except TopUpError (Option Int) :=
  match affiliateBaseQuotaFromUSD cfg cfg.affiliatePerInviteeCap with
  | .ok capQuota => .ok (some capQuota)
  | .error e => if cfg.affiliatePerInviteeCap.value > 0 then .error e else .ok none

def accruedReward (ledger : List AffiliateLedger) (inviterId inviteeId : Int) : Int :=
  ((ledger.filter fun row => row.userId = inviterId ∧ row.inviteeId = inviteeId ∧
    row.action = .accrue).map (·.rewardQuota)).sum

/-- The reward within the cap and the limit of a wallet. -/
def affiliateRewardWithin (inviterId : Int) (inviter : User) (rateBps full accrued : Int)
    (cap : Option Int) : AffiliateOutcome :=
  if cap.any fun capQuota => accrued ≥ capQuota then .skip inviterId .inviteeCapReached
  else
    let reward := cap.elim full fun capQuota => min full (capQuota - accrued)
    if reward > maxQuota ∨ inviter.affHistoryQuota + reward ≥ maxQuota ∨
        inviter.affQuota + inviter.affFrozenQuota + reward ≥ maxQuota then
      .skip inviterId .inviterQuotaLimit
    else .accrue inviterId inviter rateBps reward

def affiliateOutcome (source : AffiliateRewardSource) (invitee : User) (s : Store) :
    Except TopUpError AffiliateOutcome :=
  if invitee.inviterId ≤ 0 then .ok (.skip 0 .noInviter)
  else if !cfg.affiliateEnabled ∨ cfg.affiliateActivatedAt ≤ 0 then
    .ok (.skip invitee.inviterId .programInactive)
  else if !cfg.paymentComplianceConfirmed then
    .ok (.skip invitee.inviterId .complianceUnconfirmed)
  else match s.users invitee.inviterId with
    | none => .ok (.skip invitee.inviterId .inviterMissing)
    | some inviter =>
      if !inviter.enabled ∨ !inviter.affCodeEnabled then
        .ok (.skip invitee.inviterId .inviterInactive)
      else do
        let expired ← affiliateDurationExpired cfg invitee source
        let rateBps := effectiveAffiliateRateBps cfg inviter
        let full := (mulInt64 source.baseQuota rateBps).tdiv 10000
        if expired then pure (.skip invitee.inviterId .durationExpired)
        else if full ≤ 0 then pure (.skip invitee.inviterId .zeroReward)
        else do
          let cap ← affiliateCap cfg
          pure (affiliateRewardWithin invitee.inviterId inviter rateBps full
            (accruedReward s.ledger invitee.inviterId source.inviteeId) cap)

/-- The unique index on the event key refuses a second row of one source. -/
def createAffiliateLedger (row : AffiliateLedger) : Tx Unit := do
  let s ← get
  require (∀ r ∈ s.ledger, r.sourceEventKey ≠ row.sourceEventKey) .duplicateKey
  modify fun s => { s with ledger := s.ledger ++ [row] }

def createAffiliateSkip (source : AffiliateRewardSource) (inviterId : Int) (reason : SkipReason) :
    Tx Unit :=
  createAffiliateLedger
    { userId := inviterId, inviteeId := source.inviteeId, action := .skip
      sourceTradeNo := source.tradeNo, sourceEventKey := source.eventKey
      baseQuota := source.baseQuota, reason := some reason }

section
variable (now : Int)

def frozenUntil : Except TopUpError Int :=
  if cfg.affiliateFreezeHours > 0 then
    affiliatePeriodEndUnix now cfg.affiliateFreezeHours (60 * 60)
  else .ok 0

def User.reward (reward : Int) (inviter : User) : User :=
  if cfg.affiliateFreezeHours > 0 then
    { inviter with
      affHistoryQuota := inviter.affHistoryQuota + reward
      affFrozenQuota := inviter.affFrozenQuota + reward }
  else
    { inviter with
      affHistoryQuota := inviter.affHistoryQuota + reward
      affQuota := inviter.affQuota + reward }

def accrueAffiliateReward (source : AffiliateRewardSource) (inviterId : Int) (inviter : User)
    (rateBps reward : Int) : Tx Unit := do
  let frozenUntil ← frozenUntil cfg now
  let updated := inviter.reward cfg reward
  modify fun s => s.saveUser inviterId updated
  createAffiliateLedger
    { userId := inviterId, inviteeId := source.inviteeId, action := .accrue
      sourceTradeNo := source.tradeNo, sourceEventKey := source.eventKey
      baseQuota := source.baseQuota, rateBps, rewardQuota := reward, frozenUntil
      availableQuotaAfter := some updated.affQuota
      frozenQuotaAfter := some updated.affFrozenQuota
      historyQuotaAfter := some updated.affHistoryQuota }

def applyAffiliateReward (source : AffiliateRewardSource) : Tx Unit := do
  let s ← get
  if source.id ≤ 0 ∨ source.inviteeId ≤ 0 ∨ source.baseQuota ≤ 0 ∨
      source.createdAt < cfg.affiliateActivatedAt then pure ()
  else if ∃ r ∈ s.ledger, r.sourceEventKey = source.eventKey then pure ()
  else match s.users source.inviteeId with
    | none => throw .recordNotFound
    | some invitee => do
      let outcome ← affiliateOutcome cfg source invitee s
      match outcome with
      | .skip inviterId reason => createAffiliateSkip source inviterId reason
      | .accrue inviterId inviter rateBps reward =>
        accrueAffiliateReward cfg now source inviterId inviter rateBps reward

section
variable (tradeNo : String)

def applyTopUpAffiliateReward (topUp : TopUp) : Tx Unit :=
  if topUp.affiliateBaseQuota ≤ 0 then pure ()
  else applyAffiliateReward cfg now
    { type := .topUp, id := topUp.id, tradeNo, inviteeId := topUp.userId
      baseQuota := topUp.affiliateBaseQuota, createdAt := topUp.createTime }

def lockTopUp (missing : TopUpError) : Tx TopUp := do
  let s ← get
  match s.topUps tradeNo with
  | none => throw missing
  | some topUp => pure topUp

def saveTopUp (topUp : TopUp) : Tx Unit :=
  modify fun s => s.saveTopUp tradeNo topUp

def TopUp.complete (topUp : TopUp) (now : Int) : TopUp :=
  { topUp with completeTime := now, status := .success }

/-- A quota to add; none, or one that is not positive, fails the order. -/
def requireQuota (quota : Option Int) : Tx Int :=
  match quota with
  | none => throw .invalidTopUpQuota
  | some quota => do
    require (0 < quota) .invalidTopUpQuota
    pure quota

def TopUp.amountQuota (topUp : TopUp) : Option Int :=
  quotaFromDecimalStrict ((⟨topUp.amount, 0⟩ : Decimal).mul cfg.quotaPerUnit)

def TopUp.moneyQuota (topUp : TopUp) : Option Int :=
  quotaFromDecimalStrict (topUp.money.mul cfg.quotaPerUnit)

/-- The statements of an order whose quota is known before it is saved. -/
def completeOrder (topUp : TopUp) (quota : Int) : Tx Unit := do
  saveTopUp tradeNo (topUp.complete now)
  creditTopUpQuota topUp.userId quota {}
  applyTopUpAffiliateReward cfg now tradeNo (topUp.complete now)

def updatePendingTopUpStatus (expectedPaymentProvider : Option PaymentProvider)
    (targetStatus : TopUpStatus) : Tx Unit := do
  require (tradeNo ≠ "") .tradeNoMissing
  let topUp ← lockTopUp tradeNo .topUpNotFound
  require (expectedPaymentProvider = none ∨ topUp.paymentProvider = expectedPaymentProvider)
    .paymentMethodMismatch
  require (topUp.status = .pending) .topUpStatusInvalid
  saveTopUp tradeNo { topUp with status := targetStatus }

/-- The answer tells whether the order was complete already. -/
def rechargeEpay (tradeNo actualPaymentMethod : String) : Tx Bool := do
  require (tradeNo ≠ "") .tradeNoMissing
  let topUp ← lockTopUp tradeNo .topUpNotFound
  require (topUp.paymentProvider = some .epay) .paymentMethodMismatch
  if topUp.status = .success then pure true
  else do
    require (topUp.status = .pending) .topUpStatusInvalid
    let topUp := if actualPaymentMethod ≠ "" then
      { topUp with paymentMethod := actualPaymentMethod } else topUp
    let quotaToAdd ← requireQuota (topUp.amountQuota cfg)
    completeOrder cfg now tradeNo topUp quotaToAdd
    pure false

/-- The order is saved before the quota is computed. A second callback is an error. -/
def recharge (referenceId customerId : String) : Tx Unit := do
  require (referenceId ≠ "") .tradeNoMissing
  let topUp ← lockTopUp referenceId .orderNotFound
  require (topUp.paymentProvider = some .stripe) .paymentMethodMismatch
  require (topUp.status = .pending) .orderStatusWrong
  saveTopUp referenceId (topUp.complete now)
  let quota ← requireQuota (topUp.moneyQuota cfg)
  creditTopUpQuota topUp.userId quota { stripeCustomer := some customerId }
  applyTopUpAffiliateReward cfg now referenceId (topUp.complete now)

/-- The routine of an administrator asks for no provider. -/
def manualCompleteTopUp : Tx Unit := do
  require (tradeNo ≠ "") .orderNoMissing
  let topUp ← lockTopUp tradeNo .orderNotFound
  if topUp.status = .success then pure ()
  else do
    require (topUp.status = .pending) .orderNotPending
    let quotaToAdd ← requireQuota
      (if topUp.paymentProvider = some .stripe then topUp.moneyQuota cfg
        else topUp.amountQuota cfg)
    completeOrder cfg now tradeNo topUp quotaToAdd

end

/-- The mail address of the payment goes to a user that has none. -/
def creemUpdates (userId : Int) (customerEmail : String) : Tx UserUpdates :=
  if customerEmail = "" then pure {}
  else do
    let s ← get
    match s.users userId with
    | none => throw .recordNotFound
    | some user => pure (if user.email = "" then { email := some customerEmail } else {})

/-- An amount of Creem is a quota already. -/
def rechargeCreem (referenceId customerEmail : String) : Tx Unit := do
  require (referenceId ≠ "") .tradeNoMissing
  let topUp ← lockTopUp referenceId .orderNotFound
  require (topUp.paymentProvider = some .creem) .paymentMethodMismatch
  require (topUp.status = .pending) .orderStatusWrong
  saveTopUp referenceId (topUp.complete now)
  let quota ← requireQuota (quotaFromDecimalStrict ⟨topUp.amount, 0⟩)
  let updates ← creemUpdates topUp.userId customerEmail
  creditTopUpQuota topUp.userId quota updates
  applyTopUpAffiliateReward cfg now referenceId (topUp.complete now)

/-- The body `RechargeWaffo` and `RechargeWaffoPancake` share. -/
def rechargeIdempotent (provider : PaymentProvider) (cfg : Settings) (now : Int)
    (tradeNo : String) : Tx Unit := do
  require (tradeNo ≠ "") .tradeNoMissing
  let topUp ← lockTopUp tradeNo .orderNotFound
  require (topUp.paymentProvider = some provider) .paymentMethodMismatch
  if topUp.status = .success then pure ()
  else do
    require (topUp.status = .pending) .orderStatusWrong
    let quotaToAdd ← requireQuota (topUp.amountQuota cfg)
    completeOrder cfg now tradeNo topUp quotaToAdd

def rechargeWaffo : Settings → Int → String → Tx Unit := rechargeIdempotent .waffo

def rechargeWaffoPancake : Settings → Int → String → Tx Unit := rechargeIdempotent .waffoPancake

inductive Call where
  | updatePendingTopUpStatus (tradeNo : String) (expectedPaymentProvider : Option PaymentProvider)
      (targetStatus : TopUpStatus)
  | rechargeEpay (tradeNo actualPaymentMethod : String)
  | recharge (referenceId customerId : String)
  | manualCompleteTopUp (tradeNo : String)
  | rechargeCreem (referenceId customerEmail : String)
  | rechargeWaffo (tradeNo : String)
  | rechargeWaffoPancake (tradeNo : String)

def Call.tradeNo : Call → String
  | .updatePendingTopUpStatus t _ _ | .rechargeEpay t _ | .recharge t _ | .manualCompleteTopUp t
  | .rechargeCreem t _ | .rechargeWaffo t | .rechargeWaffoPancake t => t

def Call.provider : Call → Option PaymentProvider
  | .updatePendingTopUpStatus _ p _ => p
  | .rechargeEpay .. => some .epay
  | .recharge .. => some .stripe
  | .manualCompleteTopUp _ => none
  | .rechargeCreem .. => some .creem
  | .rechargeWaffo _ => some .waffo
  | .rechargeWaffoPancake _ => some .waffoPancake

/-- The answer tells whether the order was complete already, as only
`RechargeEpay` does. -/
def transactionOf : Call → Tx Bool
  | .updatePendingTopUpStatus t p status => do updatePendingTopUpStatus t p status; pure false
  | .rechargeEpay t method => rechargeEpay cfg now t method
  | .recharge t customer => do recharge cfg now t customer; pure false
  | .manualCompleteTopUp t => do manualCompleteTopUp cfg now t; pure false
  | .rechargeCreem t email => do rechargeCreem cfg now t email; pure false
  | .rechargeWaffo t => do rechargeWaffo cfg now t; pure false
  | .rechargeWaffoPancake t => do rechargeWaffoPancake cfg now t; pure false

/-- The routines of four providers log why a transaction failed and answer with one
text. -/
def Call.answer (e : TopUpError) : Call → TopUpError
  | .recharge .. | .rechargeCreem .. | .rechargeWaffo _ | .rechargeWaffoPancake _ =>
    if e = .tradeNoMissing then e else .rechargeFailed
  | _ => e

def Call.exec (c : Call) (s : Store) : Except TopUpError Bool × Store :=
  let r := commit (transactionOf cfg now c) s
  (r.1.mapError fun e => c.answer e, r.2)

end

def Store.wallet (s : Store) (userId : Int) : Int := (s.users userId).elim 0 (·.quota)

def Store.earned (s : Store) (userId : Int) : Int :=
  (s.users userId).elim 0 fun user => (s.users user.inviterId).elim 0 (·.affHistoryQuota)

/-- Rows and options, and what calls for each trade number moved on buyer's wallet and inviter's
balance. -/
structure World where
  store : Store := {}
  settings : Settings := {}
  now : Int := 0
  credits : List (String × Int) := []
  rewards : List (String × Int) := []

/-- A call goes through or loses its transaction. In between time passes, and others may write
users, options and ledger rows of other sources. -/
inductive Event where
  | call (c : Call)
  | lost (c : Call)
  | outside (users : Int → Option User) (settings : Settings) (rows : List AffiliateLedger)
      (now : Int)

def moved (tradeNo : String) (before after : Int) : List (String × Int) :=
  if after = before then [] else [(tradeNo, after - before)]

variable (w : World)

def World.called (c : Call) : World :=
  let s := (c.exec w.settings w.now w.store).2
  match w.store.topUps c.tradeNo with
  | none => { w with store := s }
  | some topUp =>
    { w with
      store := s
      credits := w.credits ++
        moved c.tradeNo (w.store.wallet topUp.userId) (s.wallet topUp.userId)
      rewards := w.rewards ++
        moved c.tradeNo (w.store.earned topUp.userId) (s.earned topUp.userId) }

def World.on : Event → World
  | .call c => w.called c
  | .lost _ => w
  | .outside users settings rows now =>
    { w with
      store := { w.store with users, ledger := w.store.ledger ++ rows }
      settings, now }

def World.run (events : List Event) : World := events.foldl World.on w

def World.creditsOf (tradeNo : String) : List (String × Int) :=
  w.credits.filter fun c => c.1 = tradeNo

def World.rewardsOf (tradeNo : String) : List (String × Int) :=
  w.rewards.filter fun r => r.1 = tradeNo

def World.status? (tradeNo : String) : Option TopUpStatus :=
  (w.store.topUps tradeNo).map (·.status)

end Ren2Hub.Payment
