import Ren2Hub.Billing.Calls
import Ren2Hub.Billing.Membership

namespace Ren2Hub.Billing

variable (cal : Calendar)

/-- `time.Duration(seconds) * time.Second` in whole seconds; the nanoseconds have 64 bits. -/
def durationSeconds (seconds : Int) : Int :=
  (seconds * 1000000000).bmod 18446744073709551616 / 1000000000

/-- `calcNextResetTime` with the duration of a custom period as it wraps. -/
def calcNextResetTimeWrapping (plan : SubscriptionPlan) (base endUnix : Int) : Int :=
  if plan.quotaResetPeriod = .custom ∧ 0 < plan.quotaResetCustomSeconds then
    let next := base + durationSeconds plan.quotaResetCustomSeconds
    if endUnix > 0 ∧ next > endUnix then 0 else next
  else calcNextResetTime cal base plan endUnix

/-- The catch-up loop with its base and `advanced`, missing if it needs more than `rounds`. -/
def catchUp (next : Int → Int) (now : Int) : Nat → Int → Bool → Option (Int × Bool)
  | 0, _, _ => none
  | rounds + 1, base, advanced =>
    if next base > 0 ∧ next base ≤ now then catchUp next now rounds (next base) true
    else some (base, advanced)

/-- The check with the arithmetic and the loop of `maybeResetUserSubscriptionWithPlanTx`. -/
def maybeResetUserSubscriptionWithPlanTx (plan : SubscriptionPlan) (sub : UserSubscription)
    (now : Int) (rounds : Nat) : Option UserSubscription :=
  if sub.nextResetTime > 0 ∧ sub.nextResetTime > now then some sub
  else if plan.quotaResetPeriod = .never then some sub
  else
    let baseUnix := if sub.lastResetTime ≤ 0 then sub.startTime else sub.lastResetTime
    let next := fun base => calcNextResetTimeWrapping cal plan base sub.endTime
    (catchUp next now rounds baseUnix false).map fun (base, advanced) =>
      if !advanced then
        if sub.nextResetTime = 0 ∧ next base > 0 then
          { sub with nextResetTime := next base, lastResetTime := base }
        else sub
      else { sub with amountUsed := 0, lastResetTime := base, nextResetTime := next base }

/-- A moment without a next boundary also clears the time of the last reset. -/
def resetUserSubscription (plan : SubscriptionPlan) (now : Int) (advanceResetTime : Bool)
    (sub : UserSubscription) : UserSubscription :=
  if advanceResetTime then
    let nextReset := calcNextResetTime cal now plan sub.endTime
    { sub with amountUsed := 0, nextResetTime := nextReset
               lastResetTime := if nextReset > 0 then now else 0 }
  else { sub with amountUsed := 0 }

structure SubscriptionResetResult where
  planId : Int
  matchedCount : Nat
  resetCount : Nat
  userCount : Nat
  advanceResetTime : Bool
  affectedUserIds : List Int

def buildSubscriptionResetResult (planId : Int) (subs : List UserSubscription)
    (advanceResetTime : Bool) : SubscriptionResetResult :=
  let userIds := (subs.map (·.userId)).eraseDups
  { planId, matchedCount := subs.length, resetCount := subs.length
    userCount := userIds.length, advanceResetTime, affectedUserIds := userIds }

def resetUserSubscriptions (plan : SubscriptionPlan) (now : Int) (advanceResetTime : Bool)
    (subs : List UserSubscription) (s : Store) : Store :=
  subs.foldl (fun s sub =>
    s.saveSubscription (resetUserSubscription cal plan now advanceResetTime sub)) s

/-- The rows an admin reset locks: those of one user, or of every user. -/
def planSubscriptions (s : Store) (userId : Option Int) (planId now : Int) :
    List UserSubscription :=
  let rows := s.subscriptionRows.filter (fun sub =>
    sub.planId = planId ∧ sub.status = .active ∧ sub.endTime > now ∧
      ∀ u ∈ userId, sub.userId = u)
  rows.insertionSort (fun a b => a.userId < b.userId ∨ (a.userId = b.userId ∧
    (a.endTime < b.endTime ∨ (a.endTime = b.endTime ∧ a.id ≤ b.id))))

def adminResetUserSubscriptionsByPlan (userId planId now : Int) (advanceResetTime : Bool)
    (s : Store) : Except SubscriptionError (SubscriptionResetResult × Store) :=
  if userId ≤ 0 ∨ planId ≤ 0 then .error .invalidUserIdOrPlanId
  else match planById s planId with
    | .error e => .error e
    | .ok plan =>
      let subs := planSubscriptions s (some userId) planId now
      if subs.isEmpty then .error .noValidSubscription
      else .ok (buildSubscriptionResetResult planId subs advanceResetTime,
        resetUserSubscriptions cal plan now advanceResetTime subs s)

/-- Unlike the reset for one user, no matching row is a success. -/
def adminResetPlanSubscriptions (planId now : Int) (advanceResetTime : Bool) (s : Store) :
    Except SubscriptionError (SubscriptionResetResult × Store) :=
  if planId ≤ 0 then .error .invalidPlanId
  else match planById s planId with
    | .error e => .error e
    | .ok plan =>
      let subs := planSubscriptions s none planId now
      .ok (buildSubscriptionResetResult planId subs advanceResetTime,
        resetUserSubscriptions cal plan now advanceResetTime subs s)

/-- The transaction for one row `ResetDueSubscriptions` selected. A row not due any more, or without
a plan, is skipped. -/
def resetDueSubscription (id now : Int) (s : Store) : Store :=
  match s.subscriptions id with
  | none => s
  | some sub =>
    match getSubscriptionPlanById s sub.planId with
    | .error _ => s
    | .ok plan =>
      if 0 < sub.nextResetTime ∧ sub.nextResetTime ≤ now then
        s.saveSubscription (maybeResetUserSubscriptionWithPlan cal sub plan now)
      else s

def purchaseSubscription (cal : PlanCalendar) (userId planId now : Int) (a : Accounts) :
    Except SubscriptionError (UserSubscription × Accounts) :=
  match planById a.store planId with
  | .error e => .error e
  | .ok plan => createUserSubscriptionFromPlan cal userId planId plan now a

inductive SubscriptionOp where
  | call (c : Call)
  | create (userId planId now : Int)
  | expireDue (limit now : Int) (order : List Int)
  | resetDue (id now : Int)
  | resetUserPlan (userId planId now : Int) (advanceResetTime : Bool)
  | resetPlan (planId now : Int) (advanceResetTime : Bool)

def SubscriptionOp.time : SubscriptionOp → Option Int
  | .call (.preConsumeUserSubscription _ _ _ now) => some now
  | .call _ => none
  | .create _ _ now | .expireDue _ now _ | .resetDue _ now | .resetUserPlan _ _ now _ |
    .resetPlan _ now _ => some now

/-- A transaction that reports an error leaves the accounts as they were. -/
def Accounts.apply (a : Accounts) : Except SubscriptionError (α × Store) → Accounts
  | .ok (_, s) => { a with store := s }
  | .error _ => a

def Accounts.exec (cal : PlanCalendar) (a : Accounts) : SubscriptionOp → Accounts
  | .call c => { a with store := (c.exec cal.toCalendar a.store).1 }
  | .create userId planId now =>
    match purchaseSubscription cal userId planId now a with
    | .error _ => a
    | .ok (_, a') => a'
  | .expireDue limit now order => (expireDueSubscriptions limit now order a).2
  | .resetDue id now => { a with store := resetDueSubscription cal.toCalendar id now a.store }
  | .resetUserPlan userId planId now advance =>
    a.apply (adminResetUserSubscriptionsByPlan cal.toCalendar userId planId now advance a.store)
  | .resetPlan planId now advance =>
    a.apply (adminResetPlanSubscriptions cal.toCalendar planId now advance a.store)

/-- A caller's delta is added in an `int64`. -/
def Call.execInt64 (cal : Calendar) (s : Store) : (c : Call) → Store × c.Answer
  | .postConsumeUserSubscriptionDelta id delta =>
    commitUnit s (postConsumeUserSubscriptionDeltaInt64 id delta s)
  | c => c.exec cal s

def Accounts.execInt64 (cal : PlanCalendar) (a : Accounts) : SubscriptionOp → Accounts
  | .call c => { a with store := (c.execInt64 cal.toCalendar a.store).1 }
  | op => a.exec cal op

end Ren2Hub.Billing
