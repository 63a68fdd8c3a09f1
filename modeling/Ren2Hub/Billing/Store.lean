import Mathlib.Data.List.Sort
import Ren2Hub.Lib.Text

namespace Ren2Hub.Billing
open Ren2Hub.Lib

/-- A request id that passed the blank check every entry point starts with. -/
structure RequestID where
  text : String
  nonblank : text.toList.any (fun c => !isSpace c) = true
deriving DecidableEq

inductive Source where
  | wallet
  | subscription
deriving DecidableEq, Repr

inductive RecoveryStatus where
  | active
  | settlementPending
  | refundPending
  | settled
  | refunded
deriving DecidableEq, Repr

inductive PreConsumeState where
  | prepared
  | committed
deriving DecidableEq, Repr

inductive ComponentState where
  | pending
  | completed
deriving DecidableEq, Repr

/-- `reserve` carries the target of the component name `reserve:<target>`. -/
inductive Component where
  | funding
  | extra
  | token
  | reserve (target : Int)
deriving DecidableEq, Repr

inductive Operation where
  | settle
  | refund
  | reserve
deriving DecidableEq, Repr

/-- The durable row of one request. The defaults are those of `BeforeCreate`. -/
structure BillingRecovery where
  userID : Int
  tokenID : Int
  subscriptionID : Int := 0
  source : Source
  fundingAmount : Int := 0
  extraAmount : Int := 0
  tokenAmount : Int := 0
  tokenRequired : Bool := false
  settlementDelta : Int := 0
  preConsumeState : PreConsumeState := .prepared
  fundingRefund : ComponentState := .pending
  extraRefund : ComponentState := .pending
  tokenRefund : ComponentState := .pending
  fundingSettlement : ComponentState := .pending
  tokenSettlement : ComponentState := .pending
  status : RecoveryStatus := .active
deriving DecidableEq, Repr

structure User where
  quota : Int
deriving DecidableEq, Repr

structure Token where
  remainQuota : Int
  usedQuota : Int := 0
deriving DecidableEq, Repr

inductive SubscriptionStatus where
  | active
  | expired
  | cancelled
deriving DecidableEq, Repr

structure UserSubscription where
  id : Int
  userId : Int
  planId : Int
  amountTotal : Int
  amountUsed : Int := 0
  startTime : Int
  endTime : Int
  status : SubscriptionStatus := .active
  lastResetTime : Int := 0
  nextResetTime : Int := 0
  upgradeGroup : String := ""
  prevUserGroup : String := ""
  downgradeGroup : String := ""
  allowWalletOverflow : Bool := true
deriving DecidableEq, Repr

/-- A reset period after `NormalizeResetPeriod`. -/
inductive ResetPeriod where
  | never
  | daily
  | weekly
  | monthly
  | custom
deriving DecidableEq, Repr

inductive DurationUnit where
  | year
  | month
  | day
  | hour
  | custom
  | other (name : String)
deriving DecidableEq, Repr

/-- The columns of a plan that purchases and resets read, with the defaults of
the table. -/
structure SubscriptionPlan where
  durationUnit : DurationUnit := .month
  durationValue : Int := 1
  customSeconds : Int := 0
  allowWalletOverflow : Option Bool := none
  maxPurchasePerUser : Int := 0
  upgradeGroup : String := ""
  downgradeGroup : String := ""
  totalAmount : Int := 0
  quotaResetPeriod : ResetPeriod := .never
  quotaResetCustomSeconds : Int := 0

inductive RecordStatus where
  | consumed
  | refunded
deriving DecidableEq, Repr

structure SubscriptionPreConsumeRecord where
  userId : Int
  userSubscriptionId : Int
  preConsumed : Int
  status : RecordStatus

/-- The billing tables, and the two queues of quota deltas accepted but not written yet. -/
structure Store where
  users : Int → Option User
  tokens : Int → Option Token
  subscriptions : Int → Option UserSubscription
  subscriptionIDs : List Int
  plans : Int → Option SubscriptionPlan
  records : RequestID → Option SubscriptionPreConsumeRecord
  recoveries : RequestID → Option BillingRecovery
  adjustments : RequestID → Component → Operation → Option Int
  userPending : Int → Int
  tokenPending : Int → Int

inductive BillingError where
  | invalidRecoveryInput
  | negativeAmounts
  | tokenAmountRequiresToken
  | identityConflict
  | stateConflict
  | tokenQuota
  | fundingQuota
  | recordNotFound
  | duplicateKey
  | invalidWalletPreConsume
  | invalidReservation
  | invalidComponent
  | invalidOperation
  | invalidSettlementComponent
  | settlementIncomplete
  | refundIncomplete
  | subscriptionExceedsTotal (used total : Int)
  | invalidUserSubscriptionId
  | invalidUserId
  | amountNotPositive
  | invalidPlanId
  | alreadyRefunded
  | noActiveSubscription
  | subscriptionQuotaInsufficient (need : Int)
  | negativeQuota
  | tokenQuotaNotEnough
  | insufficientWalletQuota
  | userQuotaExhausted
  | recoveryIdentityUnavailable
  | unsupportedFunding
  | database
deriving DecidableEq, Repr

namespace Store

variable (s : Store)

variable (rid : RequestID)

def setRecovery (r : BillingRecovery) : Store :=
  { s with recoveries := Function.update s.recoveries rid (some r) }

def setAdjustment (c : Component) (op : Operation) (amount : Int) : Store :=
  { s with
    adjustments := Function.update s.adjustments rid (fun c' op' =>
      if c' = c ∧ op' = op then some amount else s.adjustments rid c' op') }

def setUser (id : Int) (u : User) : Store :=
  { s with users := Function.update s.users id (some u) }

def setToken (id : Int) (t : Token) : Store :=
  { s with tokens := Function.update s.tokens id (some t) }

/-- `tx.Save(&sub)` of a row that was read in the same transaction. -/
def saveSubscription (sub : UserSubscription) : Store :=
  { s with subscriptions := Function.update s.subscriptions sub.id (some sub) }

def setRecord (r : SubscriptionPreConsumeRecord) : Store :=
  { s with records := Function.update s.records rid (some r) }

/-- `First` on the recovery table. -/
def recovery : Except BillingError BillingRecovery :=
  match s.recoveries rid with
  | some r => .ok r
  | none => .error .recordNotFound

/-- `quota = quota + d` on one user row; a missing row is reported. -/
def addUserQuota (id d : Int) : Except BillingError Store :=
  match s.users id with
  | some u => .ok (s.setUser id { u with quota := u.quota + d })
  | none => .error .recordNotFound

/-- `remain_quota = remain_quota + d, used_quota = used_quota - d`. -/
def addTokenQuota (id d : Int) : Except BillingError Store :=
  match s.tokens id with
  | some t => .ok (s.setToken id
      { t with remainQuota := t.remainQuota + d, usedQuota := t.usedQuota - d })
  | none => .error .recordNotFound

end Store

end Ren2Hub.Billing
