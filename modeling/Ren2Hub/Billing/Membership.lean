import Ren2Hub.Billing.Subscription

namespace Ren2Hub.Billing
open Ren2Hub.Lib

/-- The store, and the group column of the user rows. No billing transaction
reads that column. -/
structure Accounts where
  store : Store
  groups : Int → Option String

/-- `AddDate` with years and with months. -/
structure PlanCalendar extends Calendar where
  addYears : Int → Int → Int
  addMonths : Int → Int → Int

inductive SubscriptionError where
  | invalidPlan
  | invalidUserId
  | purchaseLimit
  | durationValue
  | customSeconds
  | durationUnit (name : String)
  | invalidUserIdOrPlanId
  | invalidPlanId
  | noValidSubscription
  | plan (e : BillingError)

variable (s : Store)

/-- `getSubscriptionPlanByIdTx`, for the functions of this part. -/
def planById (planId : Int) : Except SubscriptionError SubscriptionPlan :=
  (getSubscriptionPlanById s planId).mapError .plan

def calcPlanEndTime (cal : PlanCalendar) (start : Int) (plan : SubscriptionPlan) :
    Except SubscriptionError Int :=
  if plan.durationValue ≤ 0 ∧ plan.durationUnit ≠ .custom then .error .durationValue
  else match plan.durationUnit with
    | .year => .ok (cal.addYears start plan.durationValue)
    | .month => .ok (cal.addMonths start plan.durationValue)
    | .day => .ok (start + plan.durationValue * 24 * 3600)
    | .hour => .ok (start + plan.durationValue * 3600)
    | .custom =>
      if plan.customSeconds ≤ 0 then .error .customSeconds else .ok (start + plan.customSeconds)
    | .other name => .error (.durationUnit name)

def Store.subscriptionRows : List UserSubscription :=
  s.subscriptionIDs.filterMap s.subscriptions

/-- `Find` leaves the zero value when no row matches. -/
def getUserGroupById (a : Accounts) (userId : Int) : String :=
  (a.groups userId).getD ""

/-- `Update("group", ..)`, which matches nothing when the row is gone. -/
def Accounts.setGroup (a : Accounts) (userId : Int) (group : String) : Accounts :=
  { a with groups := Function.update a.groups userId ((a.groups userId).map fun _ => group) }

/-- `tx.Create` with the next id of the table. -/
def Store.insertSubscription (sub : UserSubscription) : Store :=
  { s with
    subscriptions := Function.update s.subscriptions sub.id (some sub)
    subscriptionIDs := sub.id :: s.subscriptionIDs }

def Store.nextSubscriptionID : Int := s.subscriptionIDs.foldl max 0 + 1

/-- The row a purchase stores. The group held before is only kept when the
purchase changes it. -/
def newSubscription (cal : Calendar) (id userId planId : Int) (plan : SubscriptionPlan)
    (currentGroup : String) (now endUnix : Int) : UserSubscription :=
  let nextReset := calcNextResetTime cal now plan endUnix
  let upgradeGroup := trimSpace plan.upgradeGroup
  { id, userId, planId
    amountTotal := plan.totalAmount
    amountUsed := 0
    startTime := now
    endTime := endUnix
    status := .active
    lastResetTime := if nextReset > 0 then now else 0
    nextResetTime := nextReset
    upgradeGroup
    prevUserGroup :=
      if upgradeGroup ≠ "" ∧ currentGroup ≠ upgradeGroup then currentGroup else ""
    downgradeGroup := trimSpace plan.downgradeGroup
    allowWalletOverflow := plan.allowWalletOverflow.getD true }

def createUserSubscriptionFromPlan (cal : PlanCalendar) (userId planId : Int)
    (plan : SubscriptionPlan) (now : Int) (a : Accounts) :
    Except SubscriptionError (UserSubscription × Accounts) :=
  if planId = 0 then .error .invalidPlan
  else if userId ≤ 0 then .error .invalidUserId
  else if plan.maxPurchasePerUser > 0 ∧
      a.store.subscriptionRows.countP (fun sub => sub.userId = userId ∧ sub.planId = planId) ≥
        plan.maxPurchasePerUser then .error .purchaseLimit
  else
    match calcPlanEndTime cal now plan with
    | .error e => .error e
    | .ok endUnix =>
      let currentGroup := getUserGroupById a userId
      let sub := newSubscription cal.toCalendar a.store.nextSubscriptionID userId planId plan
        currentGroup now endUnix
      let a := if sub.upgradeGroup ≠ "" ∧ currentGroup ≠ sub.upgradeGroup then
        a.setGroup userId sub.upgradeGroup else a
      .ok (sub, { a with store := a.store.insertSubscription sub })

def UserSubscription.expires (sub : UserSubscription) (now : Int) : Bool :=
  sub.status = .active ∧ 0 < sub.endTime ∧ sub.endTime ≤ now

def Store.expireUser (userId now : Int) : Store :=
  { s with subscriptions := fun k => (s.subscriptions k).map fun sub =>
      if sub.userId = userId ∧ sub.expires now then { sub with status := .expired } else sub }

/-- The order `end_time desc, id desc`. -/
def latestFirst (a b : UserSubscription) : Prop :=
  b.endTime < a.endTime ∨ (a.endTime = b.endTime ∧ b.id ≤ a.id)

instance : DecidableRel latestFirst := fun _ _ => inferInstanceAs (Decidable (_ ∨ _))

/-- The expired row that ended last among those that move the group. -/
def lastExpired (userId : Int) : Option UserSubscription :=
  ((s.subscriptionRows.filter (fun sub => sub.userId = userId ∧ sub.status = .expired ∧
    (sub.downgradeGroup ≠ "" ∨ sub.upgradeGroup ≠ ""))).insertionSort latestFirst).head?

/-- The group an expired row sends its user to, if any. -/
def expiryTarget (last : UserSubscription) (currentGroup : String) : Option String :=
  if trimSpace last.downgradeGroup ≠ "" then some (trimSpace last.downgradeGroup)
  else if trimSpace last.upgradeGroup = "" ∨ trimSpace last.prevUserGroup = "" then none
  else if currentGroup ≠ trimSpace last.upgradeGroup then none
  else some (trimSpace last.prevUserGroup)

/-- The transaction `ExpireDueSubscriptions` runs for one user, with the number
of rows it expired. -/
def expireUserSubscriptions (userId now : Int) (a : Accounts) : Nat × Accounts :=
  let count := a.store.subscriptionRows.countP (fun sub => sub.userId = userId ∧ sub.expires now)
  let b := { a with store := a.store.expireUser userId now }
  if b.store.subscriptionRows.any (fun sub => sub.userId = userId ∧ sub.status = .active ∧
      sub.endTime > now ∧ sub.upgradeGroup ≠ "") then (count, b)
  else
    match (lastExpired b.store userId).bind (expiryTarget · (getUserGroupById b userId)) with
    | none => (count, b)
    | some target =>
      if target = getUserGroupById b userId then (count, b) else (count, b.setGroup userId target)

def dueUsers (limit now : Int) (s : Store) : List Int :=
  let rows := (s.subscriptionRows.filter (·.expires now)).insertionSort
    (fun a b => a.endTime < b.endTime ∨ (a.endTime = b.endTime ∧ a.id ≤ b.id))
  (((rows.take (if limit ≤ 0 then 200 else limit.toNat)).map (·.userId)).filter (0 < ·)).dedup

/-- The users come out of a map, in any order; `order` names those that come
first. -/
def expireDueSubscriptions (limit now : Int) (order : List Int) (a : Accounts) :
    Nat × Accounts :=
  let users := dueUsers limit now a.store
  let visited := order.dedup.filter (· ∈ users) ++ users.filter (· ∉ order)
  visited.foldl (fun (count, a) userId =>
    let (n, a) := expireUserSubscriptions userId now a
    (count + n, a)) (0, a)

end Ren2Hub.Billing
