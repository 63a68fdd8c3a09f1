import Ren2Hub.Payment.Affiliate

namespace Ren2Hub.Payment
open Lib Lib.Transaction

inductive RedemptionStatus where
  | enabled
  | disabled
  | used
deriving DecidableEq, Repr

structure Redemption where
  status : RedemptionStatus := .enabled
  quota : Int := 100
  expiredTime : Int := 0
  redeemedTime : Int := 0
  usedUserId : Int := 0

structure ActivityClaim where
  userId : Int
  activityKey : String
  reward : Int
  createdAt : Int

structure Checkin where
  userId : Int
  checkinDate : String
  quotaAwarded : Int
  createdAt : Int
deriving DecidableEq, Repr

/-- All rows from which a wallet is filled. On SQLite a check-in is two statements. -/
structure Bank where
  store : Store := {}
  redemptions : String → Option Redemption := fun _ => none
  claims : List ActivityClaim := []
  checkins : List Checkin := []
  openCheckins : List Checkin := []

inductive GiftError where
  | keyMissing
  | invalidUserId
  | invalidKey
  | codeUsed
  | codeExpired
  | redeemFailed
  | invalidClaim
  | alreadyClaimed
  | recordNotFound
  | checkinDisabled
  | alreadyCheckedIn
  | checkinQuotaFailed
deriving DecidableEq, Repr

abbrev GiftTx := Transaction Bank GiftError

/-- `quota + ?` on the row of a user; no row is no error. -/
def Bank.addQuota (b : Bank) (userId amount : Int) : Bank :=
  match b.store.users userId with
  | none => b
  | some user =>
    { b with store := b.store.saveUser userId { user with quota := user.quota + amount } }

def redeem (now : Int) (key : String) (userId : Int) : GiftTx Int := do
  require (key ≠ "") .keyMissing
  require (userId ≠ 0) .invalidUserId
  let b ← get
  match b.redemptions key with
  | none => throw .invalidKey
  | some redemption => do
    require (redemption.status = .enabled) .codeUsed
    require (¬ (redemption.expiredTime ≠ 0 ∧ redemption.expiredTime < now)) .codeExpired
    modify fun b => { b with redemptions := Function.update b.redemptions key (some
      { redemption with redeemedTime := now, status := .used, usedUserId := userId }) }
    modify fun b => b.addQuota userId redemption.quota
    pure redemption.quota

/-- Whatever fails inside the transaction gets one answer. -/
def redeemAnswer (e : GiftError) : GiftError :=
  if e = .keyMissing ∨ e = .invalidUserId then e else .redeemFailed

def claimActivityReward (now userId : Int) (activityKey : String) (reward : Int) : GiftTx Unit := do
  require (¬ (userId ≤ 0 ∨ activityKey = "" ∨ reward ≤ 0)) .invalidClaim
  let b ← get
  require (∀ c ∈ b.claims, ¬ (c.userId = userId ∧ c.activityKey = activityKey)) .alreadyClaimed
  modify fun b =>
    { b with claims := b.claims ++ [{ userId, activityKey, reward, createdAt := now }] }
  require (b.store.users userId ≠ none) .recordNotFound
  modify fun b => b.addQuota userId reward

structure CheckinSetting where
  enabled : Bool := false
  minQuota : Int := 1000
  maxQuota : Int := 10000

section
variable (setting : CheckinSetting)

/-- `roll` stands for the number the generator gives. -/
def CheckinSetting.award (roll : Nat) : Int :=
  if setting.maxQuota > setting.minQuota then
    setting.minQuota + (roll : Int) % (setting.maxQuota - setting.minQuota + 1)
  else setting.minQuota

/-- The row of today; the table has one row for a user and a day. -/
def createCheckin (now userId : Int) (today : String) (roll : Nat) : GiftTx Checkin := do
  require setting.enabled .checkinDisabled
  let b ← get
  require (∀ c ∈ b.checkins, ¬ (c.userId = userId ∧ c.checkinDate = today)) .alreadyCheckedIn
  let checkin : Checkin :=
    { userId, checkinDate := today, quotaAwarded := setting.award roll, createdAt := now }
  modify fun b => { b with checkins := b.checkins ++ [checkin] }
  pure checkin

def userCheckinWithTransaction (now userId : Int) (today : String) (roll : Nat) : GiftTx Unit := do
  let checkin ← createCheckin setting now userId today roll
  modify fun b => b.addQuota userId checkin.quotaAwarded

/-- The first statement without a transaction. -/
def beginCheckin (now userId : Int) (today : String) (roll : Nat) : GiftTx Unit := do
  let checkin ← createCheckin setting now userId today roll
  modify fun b => { b with openCheckins := b.openCheckins ++ [checkin] }

end

/-- The second one; `IncreaseUserQuota` refuses a negative number, and the row goes
again. -/
def Bank.finishCheckin (b : Bank) (checkin : Checkin) : Except GiftError Unit × Bank :=
  if checkin ∈ b.openCheckins then
    let rest := { b with openCheckins := b.openCheckins.erase checkin }
    if checkin.quotaAwarded < 0 then
      (.error .checkinQuotaFailed, { rest with checkins := rest.checkins.erase checkin })
    else (.ok (), rest.addQuota checkin.userId checkin.quotaAwarded)
  else (.ok (), b)

inductive WalletOp where
  | topUp (c : Call)
  | transferAffiliateQuota (uuid : String) (userId amount : Int)
  | redeem (key : String) (userId : Int)
  | claimActivityReward (userId : Int) (activityKey : String) (reward : Int)
  | userCheckin (setting : CheckinSetting) (userId : Int) (today : String) (roll : Nat)
  | beginCheckin (setting : CheckinSetting) (userId : Int) (today : String) (roll : Nat)
  | finishCheckin (checkin : Checkin)

structure WalletCall where
  cfg : Settings := {}
  now : Int
  op : WalletOp

inductive WalletError where
  | topUp (e : TopUpError)
  | gift (e : GiftError)

/-- What the caller is told, and the rows afterwards. -/
def WalletCall.exec (c : WalletCall) (b : Bank) : Except WalletError Unit × Bank :=
  match c.op with
  | .topUp call =>
    let r := call.exec c.cfg c.now b.store
    ((r.1.map fun _ => ()).mapError .topUp, { b with store := r.2 })
  | .transferAffiliateQuota uuid userId amount =>
    let r := commit (Payment.transferAffiliateQuota c.cfg c.now uuid userId amount) b.store
    ((r.1.map fun _ => ()).mapError .topUp, { b with store := r.2 })
  | .redeem key userId =>
    let r := commit (Payment.redeem c.now key userId) b
    ((r.1.map fun _ => ()).mapError fun e => .gift (redeemAnswer e), r.2)
  | .claimActivityReward userId activityKey reward =>
    let r := commit (Payment.claimActivityReward c.now userId activityKey reward) b
    (r.1.mapError .gift, r.2)
  | .userCheckin setting userId today roll =>
    let r := commit (userCheckinWithTransaction setting c.now userId today roll) b
    (r.1.mapError .gift, r.2)
  | .beginCheckin setting userId today roll =>
    let r := commit (Payment.beginCheckin setting c.now userId today roll) b
    (r.1.mapError .gift, r.2)
  | .finishCheckin checkin =>
    let r := b.finishCheckin checkin
    (r.1.mapError .gift, r.2)

def Bank.on (b : Bank) (c : WalletCall) : Bank := (c.exec b).2

def Bank.run (b : Bank) (cs : List WalletCall) : Bank := cs.foldl Bank.on b

end Ren2Hub.Payment
