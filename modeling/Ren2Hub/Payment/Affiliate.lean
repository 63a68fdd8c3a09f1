import Ren2Hub.Payment.TopUp

namespace Ren2Hub.Payment
open Lib Lib.Transaction

/-- An accrual of the user whose freeze is over. -/
def AffiliateLedger.Due (userId now : Int) (row : AffiliateLedger) : Prop :=
  row.userId = userId ∧ row.action = .accrue ∧ row.frozenUntil > 0 ∧ row.frozenUntil ≤ now ∧
    row.thawedAt = 0

instance (userId now : Int) (row : AffiliateLedger) : Decidable (row.Due userId now) :=
  inferInstanceAs (Decidable (_ ∧ _))

/-- `UPDATE ... SET thawed_at` on the rows that were found. -/
def AffiliateLedger.thaw (userId now : Int) (row : AffiliateLedger) : AffiliateLedger :=
  if row.Due userId now then { row with thawedAt := now } else row

def dueReward (ledger : List AffiliateLedger) (userId now : Int) : Int :=
  ((ledger.filter fun row => row.Due userId now).map (·.rewardQuota)).sum

/-- What is frozen never goes below zero. -/
def User.thaw (thawed : Int) (user : User) : User :=
  { user with
    affQuota := user.affQuota + thawed
    affFrozenQuota := if user.affFrozenQuota ≥ thawed then user.affFrozenQuota - thawed else 0 }

/-- The answer is what was thawed. -/
def thawAffiliateQuota (now userId : Int) : Tx Int := do
  let s ← get
  match s.users userId with
  | none => throw .recordNotFound
  | some user =>
    let thawed := dueReward s.ledger userId now
    -- no row gives the sum zero
    if thawed ≤ 0 then pure 0
    else do
      modify fun s => { s with ledger := s.ledger.map (AffiliateLedger.thaw userId now) }
      modify fun s => s.saveUser userId (user.thaw thawed)
      pure thawed

def User.transfer (amount : Int) (user : User) : User :=
  { user with affQuota := user.affQuota - amount, quota := user.quota + amount }

/-- `float64(amount) < common.QuotaPerUnit` -/
def belowUnit (cfg : Settings) (amount : Int) : Prop :=
  amount * (10 ^ cfg.quotaPerUnit.scale : Nat) < cfg.quotaPerUnit.value

instance (cfg : Settings) (amount : Int) : Decidable (belowUnit cfg amount) :=
  inferInstanceAs (Decidable (_ < _))

/-- The answer is the amount and the new balance of the wallet. -/
def transferAffiliateQuota (cfg : Settings) (now : Int) (uuid : String) (userId amount : Int) :
    Tx (Int × Int) := do
  require cfg.paymentComplianceConfirmed .affiliateDisabled
  require (¬ (amount ≤ 0 ∨ belowUnit cfg amount)) .transferTooSmall
  let _ ← thawAffiliateQuota now userId
  let s ← get
  match s.users userId with
  | none => throw .recordNotFound
  | some user => do
    require (¬ user.affQuota < amount) .affiliateQuotaEmpty
    require (¬ user.quota + amount ≥ maxQuota) .topUpQuotaLimitExceeded
    let updated := user.transfer amount
    modify fun s => s.saveUser userId updated
    createAffiliateLedger
      { userId, inviteeId := 0, action := .transfer, sourceEventKey := .transfer uuid
        rewardQuota := amount, balanceAfter := some updated.quota
        availableQuotaAfter := some updated.affQuota
        frozenQuotaAfter := some updated.affFrozenQuota
        historyQuotaAfter := some updated.affHistoryQuota }
    pure (amount, updated.quota)

inductive AffiliateOp where
  | applyAffiliateReward (source : AffiliateRewardSource)
  | thawAffiliateQuota (userId : Int)
  | transferAffiliateQuota (uuid : String) (userId amount : Int)

/-- A transaction with the options and the time it finds. -/
structure AffiliateCall where
  cfg : Settings
  now : Int
  op : AffiliateOp

def AffiliateCall.transaction (c : AffiliateCall) : Tx Unit :=
  match c.op with
  | .applyAffiliateReward source => applyAffiliateReward c.cfg c.now source
  | .thawAffiliateQuota userId => do
    let _ ← thawAffiliateQuota c.now userId
    pure ()
  | .transferAffiliateQuota uuid userId amount => do
    let _ ← transferAffiliateQuota c.cfg c.now uuid userId amount
    pure ()

def Store.onAffiliate (s : Store) (c : AffiliateCall) : Store := (commit c.transaction s).2

def Store.runAffiliate (s : Store) (cs : List AffiliateCall) : Store := cs.foldl Store.onAffiliate s

end Ren2Hub.Payment
