import Ren2Hub.Billing.Store
import Ren2Hub.Lib.Int64

namespace Ren2Hub.Billing
open Lib

/-- From `time.Date` and `AddDate`, at the server: the midnight, Monday and first of month to come.
-/
structure Calendar where
  nextMidnight : Int → Int
  nextMonday : Int → Int
  nextMonth : Int → Int

def calcNextResetTime (cal : Calendar) (base : Int) (plan : SubscriptionPlan)
    (endUnix : Int) : Int :=
  let within (next : Int) := if endUnix > 0 ∧ next > endUnix then 0 else next
  match plan.quotaResetPeriod with
  | .never => 0
  | .daily => within (cal.nextMidnight base)
  | .weekly => within (cal.nextMonday base)
  | .monthly => within (cal.nextMonth base)
  | .custom =>
    if plan.quotaResetCustomSeconds ≤ 0 then 0
    else within (base + plan.quotaResetCustomSeconds)

/-- The loop over every boundary up to `now`. The bound is enough because boundaries increase. -/
def advanceReset (cal : Calendar) (plan : SubscriptionPlan) (endUnix now : Int) :
    Nat → Int → Int → Bool → Int × Int × Bool
  | 0, base, next, advanced => (base, next, advanced)
  | n + 1, base, next, advanced =>
    if next > 0 ∧ next ≤ now then
      advanceReset cal plan endUnix now n next (calcNextResetTime cal next plan endUnix) true
    else (base, next, advanced)

def maybeResetUserSubscriptionWithPlan (cal : Calendar) (sub : UserSubscription)
    (plan : SubscriptionPlan) (now : Int) : UserSubscription :=
  if sub.nextResetTime > 0 ∧ sub.nextResetTime > now then sub
  else if plan.quotaResetPeriod = .never then sub
  else
    let baseUnix := if sub.lastResetTime ≤ 0 then sub.startTime else sub.lastResetTime
    let (base, next, advanced) := advanceReset cal plan sub.endTime now
      ((now - baseUnix).toNat + 1) baseUnix (calcNextResetTime cal baseUnix plan sub.endTime) false
    if !advanced then
      if sub.nextResetTime = 0 ∧ next > 0 then
        { sub with nextResetTime := next, lastResetTime := base }
      else sub
    else { sub with amountUsed := 0, lastResetTime := base, nextResetTime := next }

/-- The rows `PreConsumeUserSubscription` locks, earliest end first. -/
def activeSubscriptions (s : Store) (userId now : Int) : List UserSubscription :=
  ((s.subscriptionIDs.filterMap s.subscriptions).filter (fun sub =>
    sub.userId = userId ∧ sub.status = .active ∧ sub.endTime > now)).insertionSort
      (fun a b => a.endTime < b.endTime ∨ (a.endTime = b.endTime ∧ a.id ≤ b.id))

def getSubscriptionPlanById (s : Store) (id : Int) : Except BillingError SubscriptionPlan :=
  if id ≤ 0 then .error .invalidPlanId
  else match s.plans id with
    | some plan => .ok plan
    | none => .error .recordNotFound

structure SubscriptionPreConsumeResult where
  userSubscriptionId : Int
  preConsumed : Int

/-- The candidate loop. A due reset is saved even when the candidate is then passed over. -/
def consumeCandidate (cal : Calendar) (rid : RequestID) (userId amount now : Int) :
    List UserSubscription → Store → Except BillingError (SubscriptionPreConsumeResult × Store)
  | [], _ => .error (.subscriptionQuotaInsufficient amount)
  | candidate :: rest, s =>
    match getSubscriptionPlanById s candidate.planId with
    | .error e => .error e
    | .ok plan =>
      let sub := maybeResetUserSubscriptionWithPlan cal candidate plan now
      if sub.amountTotal > 0 ∧ sub.amountTotal - sub.amountUsed < amount then
        consumeCandidate cal rid userId amount now rest (s.saveSubscription sub)
      else
        .ok (⟨sub.id, amount⟩,
          (s.saveSubscription { sub with amountUsed := sub.amountUsed + amount }).setRecord rid
            { userId := userId, userSubscriptionId := sub.id, preConsumed := amount,
              status := .consumed })

def preConsumeUserSubscription (cal : Calendar) (rid : RequestID) (userId amount now : Int)
    (s : Store) : Except BillingError (SubscriptionPreConsumeResult × Store) :=
  if userId ≤ 0 then .error .invalidUserId
  else if amount ≤ 0 then .error .amountNotPositive
  else match s.records rid with
    | some existing =>
      if existing.status = .refunded then .error .alreadyRefunded
      else match s.subscriptions existing.userSubscriptionId with
        | some sub => .ok (⟨sub.id, existing.preConsumed⟩, s)
        | none => .error .recordNotFound
    | none =>
      match activeSubscriptions s userId now with
      | [] => .error .noActiveSubscription
      | subs => consumeCandidate cal rid userId amount now subs s

def postConsumeUserSubscriptionDeltaTx (subscriptionID delta : Int) (s : Store) :
    Except BillingError Store :=
  match s.subscriptions subscriptionID with
  | none => .error .recordNotFound
  | some sub =>
    let newUsed := if sub.amountUsed + delta < 0 then 0 else sub.amountUsed + delta
    if sub.amountTotal > 0 ∧ newUsed > sub.amountTotal then
      .error (.subscriptionExceedsTotal newUsed sub.amountTotal)
    else .ok (s.saveSubscription { sub with amountUsed := newUsed })

/-- The same transaction with the sum in an `int64`, as the code has it. Quotas are far from its
bounds, but a caller's delta need not be. -/
def postConsumeUserSubscriptionDeltaTxInt64 (subscriptionID delta : Int) (s : Store) :
    Except BillingError Store :=
  match s.subscriptions subscriptionID with
  | none => .error .recordNotFound
  | some sub =>
    let newUsed := if int64 (sub.amountUsed + delta) < 0 then 0 else int64 (sub.amountUsed + delta)
    if sub.amountTotal > 0 ∧ newUsed > sub.amountTotal then
      .error (.subscriptionExceedsTotal newUsed sub.amountTotal)
    else .ok (s.saveSubscription { sub with amountUsed := newUsed })

def applySubscriptionDeltaTx (subscriptionID delta : Int) (s : Store) :
    Except BillingError Store :=
  if subscriptionID ≤ 0 ∨ delta = 0 then .ok s
  else postConsumeUserSubscriptionDeltaTx subscriptionID delta s

def postConsumeUserSubscriptionDelta (userSubscriptionId delta : Int) (s : Store) :
    Except BillingError Store :=
  if userSubscriptionId ≤ 0 then .error .invalidUserSubscriptionId
  else if delta = 0 then .ok s
  else postConsumeUserSubscriptionDeltaTx userSubscriptionId delta s

def postConsumeUserSubscriptionDeltaInt64 (userSubscriptionId delta : Int) (s : Store) :
    Except BillingError Store :=
  if userSubscriptionId ≤ 0 then .error .invalidUserSubscriptionId
  else if delta = 0 then .ok s
  else postConsumeUserSubscriptionDeltaTxInt64 userSubscriptionId delta s

def refundBillingRecoverySubscriptionPreConsumeTx (rid : RequestID) (s : Store) :
    Except BillingError Store :=
  match s.records rid with
  | none => .error .recordNotFound
  | some record =>
    if record.status = .refunded then .ok s
    else do
      let s ← (if record.preConsumed > 0 then
          postConsumeUserSubscriptionDeltaTx record.userSubscriptionId (-record.preConsumed) s
        else .ok s)
      return s.setRecord rid { record with status := .refunded }

def refundSubscriptionPreConsume (rid : RequestID) (s : Store) : Except BillingError Store :=
  match s.records rid with
  | none => .error .recordNotFound
  | some record =>
    if record.status = .refunded then .ok s
    else if record.preConsumed ≤ 0 then .ok (s.setRecord rid { record with status := .refunded })
    else do
      let s ← postConsumeUserSubscriptionDeltaTx record.userSubscriptionId (-record.preConsumed) s
      return s.setRecord rid { record with status := .refunded }

def hasActiveUserSubscription (userId now : Int) (s : Store) : Except BillingError Bool :=
  if userId ≤ 0 then .error .invalidUserId
  else .ok (!(activeSubscriptions s userId now).isEmpty)

def userActiveSubscriptionsAllowWalletOverflow (userId now : Int) (s : Store) :
    Except BillingError Bool :=
  if userId ≤ 0 then .error .invalidUserId
  else .ok ((activeSubscriptions s userId now).all (fun sub => sub.allowWalletOverflow))

end Ren2Hub.Billing
