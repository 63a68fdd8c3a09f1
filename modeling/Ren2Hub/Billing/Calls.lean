import Ren2Hub.Billing.Recovery
import Ren2Hub.Lib.Program

namespace Ren2Hub.Billing
open Ren2Hub.Lib

def updateToken (id d : Int) (s : Store) : Store :=
  match s.tokens id with
  | some t => s.setToken id
      { t with remainQuota := t.remainQuota + d, usedQuota := t.usedQuota - d }
  | none => s

theorem updateToken_users (id d : Int) (s : Store) : (updateToken id d s).users = s.users := by
  unfold updateToken
  split <;> rfl

theorem updateToken_isSome (id d : Int) (s : Store) (k : Int) :
    ((updateToken id d s).tokens k).isSome = (s.tokens k).isSome := by
  unfold updateToken
  split
  · rename_i token he
    by_cases hk : k = id
    · subst hk
      simp [Store.setToken, he]
    · simp [Store.setToken, hk]
  · rfl

def updateUser (id d : Int) (s : Store) : Store :=
  match s.users id with
  | some u => s.setUser id { u with quota := u.quota + d }
  | none => s

def increaseTokenQuota (tokenId quota : Int) (s : Store) : Except BillingError Store :=
  if quota < 0 then .error .negativeQuota else .ok (updateToken tokenId quota s)

section
variable (id quota : Int)

def decreaseTokenQuota (s : Store) : Except BillingError Store :=
  if quota < 0 then .error .negativeQuota else .ok (updateToken id (-quota) s)

def tryReserveTokenQuota (unlimited : Bool) (s : Store) : Except BillingError (Bool × Store) :=
  if quota < 0 then .error .negativeQuota
  else if quota = 0 then .ok (true, s)
  else if unlimited then .ok (true, updateToken id (-quota) s)
  else match s.tokens id with
    | some t => if t.remainQuota ≥ quota then .ok (true, updateToken id (-quota) s) else .ok
        (false, s)
    | none => .ok (false, s)

def increaseUserQuota (s : Store) : Except BillingError Store :=
  if quota < 0 then .error .negativeQuota else .ok (updateUser id quota s)

def decreaseUserQuota (s : Store) : Except BillingError Store :=
  if quota < 0 then .error .negativeQuota else .ok (updateUser id (-quota) s)

def tryReserveUserQuota (s : Store) : Except BillingError (Bool × Store) :=
  if quota < 0 then .error .negativeQuota
  else if quota = 0 then .ok (true, s)
  else match s.users id with
    | some u => if u.quota ≥ quota then .ok (true, updateUser id (-quota) s) else .ok (false, s)
    | none => .ok (false, s)

end

/-- `Find` leaves the zero value when no row matches. -/
def getUserQuota (id : Int) (s : Store) : Int :=
  match s.users id with
  | some u => u.quota
  | none => 0

/-- The database calls of session and worker, each a single statement or transaction. -/
inductive Call where
  | findRecovery (rid : RequestID)
  | createRecovery (input : BillingRecoveryInput)
  | rebindRecovery (input : BillingRecoveryInput)
  | abortPrepared (rid : RequestID)
  | updateAmounts (rid : RequestID) (subscriptionID fundingAmount extraAmount tokenAmount : Int)
  | writeSettlement (rid : RequestID) (delta : Int)
  | markRefundPending (rid : RequestID)
  | markSettled (rid : RequestID)
  | markRefunded (rid : RequestID)
  | preConsumeWallet (rid : RequestID) (quota : Int) (tokenUnlimited : Bool)
  | reserve (rid : RequestID) (targetQuota delta : Int) (tokenUnlimited : Bool)
  | applyAdjustment (rid : RequestID) (component : Component) (operation : Operation)
  | getUserQuota (id : Int)
  | tryReserveTokenQuota (id quota : Int) (unlimited : Bool)
  | increaseTokenQuota (id quota : Int)
  | decreaseTokenQuota (id quota : Int)
  | tryReserveUserQuota (id quota : Int)
  | increaseUserQuota (id quota : Int)
  | decreaseUserQuota (id quota : Int)
  | preConsumeUserSubscription (rid : RequestID) (userId amount now : Int)
  | refundSubscriptionPreConsume (rid : RequestID)
  | postConsumeUserSubscriptionDelta (userSubscriptionId delta : Int)
  | hasActiveUserSubscription (userId now : Int)
  | subscriptionsAllowWalletOverflow (userId now : Int)

abbrev Call.Value : Call → Type
  | .findRecovery _ | .createRecovery _ | .rebindRecovery _ => BillingRecovery
  | .writeSettlement _ _ => Nat
  | .reserve _ _ _ _ | .getUserQuota _ => Int
  | .tryReserveTokenQuota _ _ _ | .tryReserveUserQuota _ _ |
    .hasActiveUserSubscription _ _ | .subscriptionsAllowWalletOverflow _ _ => Bool
  | .preConsumeUserSubscription _ _ _ _ => SubscriptionPreConsumeResult
  | _ => Unit

abbrev Call.Answer (c : Call) : Type := Except BillingError c.Value

/-- A transaction that reports an error leaves the store as it was. -/
def commit {α : Type} (s : Store) : Except BillingError (α × Store) → Store × Except BillingError α
  | .ok (a, s') => (s', .ok a)
  | .error e => (s, .error e)

def commitUnit (s : Store) : Except BillingError Store → Store × Except BillingError Unit
  | .ok s' => (s', .ok ())
  | .error e => (s, .error e)

def Call.exec (cal : Calendar) : (c : Call) → Store → Store × c.Answer
  | .findRecovery rid, s => (s, s.recovery rid)
  | .createRecovery input, s => commit s (createBillingRecovery input s)
  | .rebindRecovery input, s => commit s (rebindBillingRecovery input s)
  | .abortPrepared rid, s => commitUnit s (abortPreparedBillingRecovery rid s)
  | .updateAmounts rid sub funding extra token, s =>
    commitUnit s (updateBillingRecoveryAmounts rid sub funding extra token s)
  | .writeSettlement rid delta, s => commit s (.ok (writeBillingRecoverySettlement rid delta s))
  | .markRefundPending rid, s => commitUnit s (markBillingRecoveryRefundPending rid s)
  | .markSettled rid, s => commitUnit s (markBillingRecoverySettled rid s)
  | .markRefunded rid, s => commitUnit s (markBillingRecoveryRefunded rid s)
  | .preConsumeWallet rid quota unlimited, s =>
    commitUnit s (preConsumeWalletBillingRecovery rid quota unlimited s)
  | .reserve rid target delta unlimited, s =>
    commit s (reserveBillingRecovery rid target delta unlimited s)
  | .applyAdjustment rid component operation, s =>
    commitUnit s (applyBillingRecoveryAdjustment rid component operation s)
  | .getUserQuota id, s => (s, .ok (Billing.getUserQuota id s))
  | .tryReserveTokenQuota id quota unlimited, s =>
    commit s (Billing.tryReserveTokenQuota id quota unlimited s)
  | .increaseTokenQuota id quota, s => commitUnit s (Billing.increaseTokenQuota id quota s)
  | .decreaseTokenQuota id quota, s => commitUnit s (Billing.decreaseTokenQuota id quota s)
  | .tryReserveUserQuota id quota, s => commit s (Billing.tryReserveUserQuota id quota s)
  | .increaseUserQuota id quota, s => commitUnit s (Billing.increaseUserQuota id quota s)
  | .decreaseUserQuota id quota, s => commitUnit s (Billing.decreaseUserQuota id quota s)
  | .preConsumeUserSubscription rid userId amount now, s =>
    commit s (Billing.preConsumeUserSubscription cal rid userId amount now s)
  | .refundSubscriptionPreConsume rid, s =>
    commitUnit s (Billing.refundSubscriptionPreConsume rid s)
  | .postConsumeUserSubscriptionDelta id delta, s =>
    commitUnit s (Billing.postConsumeUserSubscriptionDelta id delta s)
  | .hasActiveUserSubscription userId now, s =>
    (s, Billing.hasActiveUserSubscription userId now s)
  | .subscriptionsAllowWalletOverflow userId now, s =>
    (s, userActiveSubscriptionsAllowWalletOverflow userId now s)

/-- The billing database. Any call may fail and then leaves no trace. -/
def database (cal : Calendar) : Machine Call Call.Answer Store where
  exec := Call.exec cal
  ready := fun _ _ => true
  fault := fun _ => some (.error .database)

abbrev Process (α : Type) := Program Call Call.Answer α

def onlyIf (cond : Bool) (p : Process (Except BillingError Unit)) :
    Process (Except BillingError Unit) :=
  if cond then p else return .ok ()

namespace Db

variable (rid : RequestID)

def findRecovery : Process (Except BillingError BillingRecovery) :=
  .call (.findRecovery rid) .done

def createRecovery (input : BillingRecoveryInput) :
    Process (Except BillingError BillingRecovery) :=
  .call (.createRecovery input) .done

def rebindRecovery (input : BillingRecoveryInput) :
    Process (Except BillingError BillingRecovery) :=
  .call (.rebindRecovery input) .done

def abortPrepared : Process (Except BillingError Unit) :=
  .call (.abortPrepared rid) .done

def updateAmounts (subscriptionID fundingAmount extraAmount tokenAmount : Int) :
    Process (Except BillingError Unit) :=
  .call (.updateAmounts rid subscriptionID fundingAmount extraAmount tokenAmount) .done

def writeSettlement (delta : Int) : Process (Except BillingError Nat) :=
  .call (.writeSettlement rid delta) .done

def markRefundPending : Process (Except BillingError Unit) :=
  .call (.markRefundPending rid) .done

def markSettled : Process (Except BillingError Unit) :=
  .call (.markSettled rid) .done

def markRefunded : Process (Except BillingError Unit) :=
  .call (.markRefunded rid) .done

def preConsumeWallet (quota : Int) (tokenUnlimited : Bool) : Process (Except BillingError Unit) :=
  .call (.preConsumeWallet rid quota tokenUnlimited) .done

def reserve (targetQuota delta : Int) (tokenUnlimited : Bool) : Process (Except BillingError Int) :=
  .call (.reserve rid targetQuota delta tokenUnlimited) .done

def applyAdjustment (component : Component) (operation : Operation) :
    Process (Except BillingError Unit) :=
  .call (.applyAdjustment rid component operation) .done

def getUserQuota (id : Int) : Process (Except BillingError Int) :=
  .call (.getUserQuota id) .done

variable (id quota : Int)

def tryReserveTokenQuota (unlimited : Bool) : Process (Except BillingError Bool) :=
  .call (.tryReserveTokenQuota id quota unlimited) .done

def increaseTokenQuota : Process (Except BillingError Unit) :=
  .call (.increaseTokenQuota id quota) .done

def decreaseTokenQuota : Process (Except BillingError Unit) :=
  .call (.decreaseTokenQuota id quota) .done

def tryReserveUserQuota : Process (Except BillingError Bool) :=
  .call (.tryReserveUserQuota id quota) .done

def increaseUserQuota : Process (Except BillingError Unit) :=
  .call (.increaseUserQuota id quota) .done

def decreaseUserQuota : Process (Except BillingError Unit) :=
  .call (.decreaseUserQuota id quota) .done

def preConsumeUserSubscription (userId amount now : Int) :
    Process (Except BillingError SubscriptionPreConsumeResult) :=
  .call (.preConsumeUserSubscription rid userId amount now) .done

def refundSubscriptionPreConsume : Process (Except BillingError Unit) :=
  .call (.refundSubscriptionPreConsume rid) .done

def postConsumeUserSubscriptionDelta (userSubscriptionId delta : Int) :
    Process (Except BillingError Unit) :=
  .call (.postConsumeUserSubscriptionDelta userSubscriptionId delta) .done

def hasActiveUserSubscription (userId now : Int) : Process (Except BillingError Bool) :=
  .call (.hasActiveUserSubscription userId now) .done

def subscriptionsAllowWalletOverflow (userId now : Int) : Process (Except BillingError Bool) :=
  .call (.subscriptionsAllowWalletOverflow userId now) .done

end Db

end Ren2Hub.Billing
