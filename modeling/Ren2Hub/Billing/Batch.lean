import Mathlib.Data.List.AList
import Mathlib.Data.List.Destutter
import Ren2Hub.Billing.Calls

namespace Ren2Hub.Billing.Batch
open Lib

inductive BatchUpdateType where
  | userQuota
  | tokenQuota
  | usedQuota
  | channelUsedQuota
  | requestCount
deriving DecidableEq, Repr

/-- In the order of the constants. -/
def batchUpdateTypes : List BatchUpdateType :=
  [.userQuota, .tokenQuota, .usedQuota, .channelUsedQuota, .requestCount]

/-- `map[int]int`. -/
abbrev DeltaMap := AList fun _ : Int => Int

/-- A key that is not in the map reads as zero. -/
def valueAt (store : DeltaMap) (key : Int) : Int := (store.lookup key).getD 0

def addDelta (store : DeltaMap) (id value : Int) : DeltaMap :=
  match store.lookup id with
  | none => store.insert id value
  | some old => store.insert id (old + value)

def quotaMutationLockStripes : Nat := 257

def quotaMutationLockIndex (resourceType : Nat) (id : Int) : Nat :=
  (id.natAbs * 31 + resourceType) % quotaMutationLockStripes

/-- The stripes of a user and a token, ascending. A resource type is the position of its constant.
-/
def resourceStripes (userID tokenID : Int) : List Nat :=
  let indexes := (if userID > 0 then [quotaMutationLockIndex 0 userID] else []) ++
    (if tokenID > 0 then [quotaMutationLockIndex 1 tokenID] else [])
  (indexes.insertionSort (· ≤ ·)).destutter (· ≠ ·)

inductive Lock where
  | quotaMutation (stripe : Nat)
  | quotaBatchMutation
deriving DecidableEq, Repr

structure UserUsage where
  usedQuota : Int := 0
  requestCount : Int := 0

structure Channel where
  usedQuota : Int := 0

/-- Tables, queues and locks. The queues of `store` are sums of two maps, see `view`. No code reads
`added` and `applied`, the accepted deltas and the committed transactions. -/
structure BatchState where
  store : Store
  usage : Int → UserUsage := fun _ => {}
  channels : Int → Option Channel := fun _ => none
  batchUpdateStores : BatchUpdateType → DeltaMap := fun _ => ∅
  locked : Lock → Bool := fun _ => false
  added : BatchUpdateType → Int → Int := fun _ _ => 0
  applied : BatchUpdateType → Int → Int := fun _ _ => 0

/-- The balance column a recovery transaction can move. -/
def balance (type : BatchUpdateType) (id : Int) (store : Store) : Option Int :=
  match type with
  | .userQuota => (store.users id).map (·.quota)
  | .tokenQuota => (store.tokens id).map (·.remainQuota)
  | _ => none

namespace BatchState

variable (s : BatchState)

/-- The column the deltas of a queue are for, if the row is there. -/
def column (type : BatchUpdateType) (id : Int) : Option Int :=
  match type with
  | .userQuota | .tokenQuota => balance type id s.store
  | .usedQuota => (s.store.users id).map fun _ => (s.usage id).usedQuota
  | .requestCount => (s.store.users id).map fun _ => (s.usage id).requestCount
  | .channelUsedQuota => (s.channels id).map (·.usedQuota)

def queued (type : BatchUpdateType) (id : Int) : Int :=
  valueAt (s.batchUpdateStores type) id

/-- The store with its queues, as the billing transactions know it. -/
def view : Store :=
  { s.store with userPending := s.queued .userQuota, tokenPending := s.queued .tokenQuota }

def setStore (type : BatchUpdateType) (store : DeltaMap) : BatchState :=
  { s with batchUpdateStores := Function.update s.batchUpdateStores type store }

def setLock (l : Lock) (taken : Bool) : BatchState :=
  { s with locked := Function.update s.locked l taken }

end BatchState

inductive Table where
  | users
  | tokens
  | channels
deriving DecidableEq, Repr

def BatchUpdateType.table : BatchUpdateType → Table
  | .userQuota | .usedQuota | .requestCount => .users
  | .tokenQuota => .tokens
  | .channelUsedQuota => .channels

inductive RowUpdate where
  | increaseTokenQuota (id quota : Int)
  | updateChannelUsedQuota (id quota : Int)
  | updateUserQuotaUsedQuotaAndRequestCount (id quota usedQuota requestCount : Int)

namespace RowUpdate

def table : RowUpdate → Table
  | .increaseTokenQuota .. => .tokens
  | .updateChannelUsedQuota .. => .channels
  | .updateUserQuotaUsedQuotaAndRequestCount .. => .users

def id : RowUpdate → Int
  | .increaseTokenQuota id _ => id
  | .updateChannelUsedQuota id _ => id
  | .updateUserQuotaUsedQuotaAndRequestCount id _ _ _ => id

/-- The user update returns before its statement when nothing changes. -/
def skipped : RowUpdate → Bool
  | .updateUserQuotaUsedQuotaAndRequestCount _ quota usedQuota requestCount =>
    quota = 0 ∧ usedQuota = 0 ∧ requestCount = 0
  | _ => false

end RowUpdate

/-- A statement that matches no row changes nothing and reports no error. -/
def BatchState.update (s : BatchState) : RowUpdate → BatchState
  | .increaseTokenQuota id quota => { s with store := updateToken id quota s.store }
  | .updateChannelUsedQuota id quota =>
    { s with
      channels := Function.update s.channels id
        ((s.channels id).map fun c => { c with usedQuota := c.usedQuota + quota }) }
  | .updateUserQuotaUsedQuotaAndRequestCount id quota usedQuota requestCount =>
    match s.store.users id with
    | none => s
    | some _ =>
      { s with
        store := updateUser id quota s.store
        usage := Function.update s.usage id
          { usedQuota := (s.usage id).usedQuota + usedQuota
            requestCount := (s.usage id).requestCount + requestCount } }

inductive RecoveryTx where
  | preConsumeWallet (rid : RequestID) (quota : Int) (tokenUnlimited : Bool)
  | reserve (rid : RequestID) (targetQuota : Int) (tokenUnlimited : Bool)
  | applyAdjustment (rid : RequestID) (component : Component) (operation : Operation)

/-- What follows the pending deltas, with the delta a reservation applied. -/
def RecoveryTx.body : RecoveryTx → Store → Except BillingError (Int × Store)
  | .preConsumeWallet rid quota tokenUnlimited, s =>
    (preConsumeWalletTx rid quota tokenUnlimited s).map (0, ·)
  | .reserve rid targetQuota tokenUnlimited, s => reserveTx rid targetQuota tokenUnlimited s
  | .applyAdjustment rid component operation, s =>
    (applyAdjustmentTx rid component operation s).map (0, ·)

/-- The transaction on the tables: the store between its halves, the answer, the store it leaves. -/
def RecoveryTx.run (tx : RecoveryTx) (mutation : Option QuotaMutation) (s : Store) :
    Except BillingError (Store × Int × Store) := do
  let flushed ← match mutation with
    | some m => m.applyPendingDeltas s
    | none => .ok s
  let (delta, after) ← tx.body flushed
  return (flushed, delta, after)

def effect (type : BatchUpdateType) (id : Int) (before after : Store) : Int :=
  (balance type id after).getD 0 - (balance type id before).getD 0

def BatchState.transaction (s : BatchState) (mutation : Option QuotaMutation) (tx : RecoveryTx) :
    BatchState × Except BillingError Int :=
  match tx.run mutation s.view with
  | .error e => (s, .error e)
  | .ok (flushed, delta, after) =>
    ({ s with
       store := after
       applied := fun type id => s.applied type id + effect type id flushed after }, .ok delta)

/-- What goroutines ask of the state. `fresh`, for the history only: the delta was not put back. -/
inductive BatchCall where
  | lock (l : Lock)
  | unlock (l : Lock)
  | addNewRecord (type : BatchUpdateType) (id value : Int) (fresh : Bool)
  | takePendingQuotaDelta (type : BatchUpdateType) (id : Int)
  | hasData (type : BatchUpdateType)
  | swap (type : BatchUpdateType)
  | write (row : RowUpdate)
  | findRecovery (rid : RequestID)
  | findToken (id : Int)
  | invalidateUserQuotaCache (userID : Int)
  | invalidateTokenCache (tokenID : Int)
  | transaction (mutation : Option QuotaMutation) (tx : RecoveryTx)

abbrev BatchCall.Answer : BatchCall → Type
  | .lock _ | .unlock _ | .addNewRecord .. => Unit
  | .takePendingQuotaDelta .. => Int
  | .hasData _ => Bool
  | .swap _ => DeltaMap
  | .write _ | .findToken _ | .invalidateUserQuotaCache _ | .invalidateTokenCache _ =>
    Except BillingError Unit
  | .findRecovery _ => Except BillingError BillingRecovery
  | .transaction .. => Except BillingError Int

/-- `down` tells which statements of the flusher fail. -/
def BatchCall.exec (down : Table → Int → Bool) :
    (c : BatchCall) → BatchState → BatchState × c.Answer
  | .lock l, s => (s.setLock l true, ())
  | .unlock l, s => (s.setLock l false, ())
  | .addNewRecord type id value fresh, s =>
    ({ s.setStore type (addDelta (s.batchUpdateStores type) id value) with
       added := fun t k => s.added t k + if fresh ∧ t = type ∧ k = id then value else 0 }, ())
  | .takePendingQuotaDelta type id, s =>
    if id ≤ 0 then (s, (0 : Int))
    else (s.setStore type ((s.batchUpdateStores type).erase id), s.queued type id)
  | .hasData type, s => (s, !(s.batchUpdateStores type).entries.isEmpty)
  | .swap type, s => (s.setStore type ∅, s.batchUpdateStores type)
  | .write row, s =>
    if down row.table row.id then (s, .error .database) else (s.update row, .ok ())
  | .findRecovery rid, s => (s, s.store.recovery rid)
  | .findToken id, s =>
    (s, if (s.store.tokens id).isSome then .ok () else .error .recordNotFound)
  -- The caches are not part of this state.
  | .invalidateUserQuotaCache _, s => (s, .ok ())
  | .invalidateTokenCache _, s => (s, .ok ())
  | .transaction mutation tx, s => s.transaction mutation tx

def BatchCall.ready : BatchCall → BatchState → Bool
  | .lock l, s => !s.locked l
  | _, _ => true

/-- A failed transaction is one that was rolled back. -/
def BatchCall.fault : (c : BatchCall) → Option c.Answer
  | .findRecovery _ => some (.error .database)
  | .findToken _ => some (.error .database)
  | .invalidateUserQuotaCache _ => some (.error .database)
  | .invalidateTokenCache _ => some (.error .database)
  | .transaction .. => some (.error .database)
  | _ => none

def batchMachine (down : Table → Int → Bool) : Machine BatchCall BatchCall.Answer BatchState where
  exec := BatchCall.exec down
  ready := BatchCall.ready
  fault := BatchCall.fault

abbrev Routine (α : Type) := Program BatchCall BatchCall.Answer α

def ask (c : BatchCall) : Routine c.Answer := .call c .done

def lockStripes : List Nat → Routine Unit
  | [] => pure ()
  | i :: rest => do
    let _ ← ask (.lock (.quotaMutation i))
    lockStripes rest

def unlockStripes : List Nat → Routine Unit
  | [] => pure ()
  | i :: rest => do
    let _ ← ask (.unlock (.quotaMutation i))
    unlockStripes rest

def lockQuotaMutationResources (userID tokenID : Int) : Routine Unit :=
  lockStripes (resourceStripes userID tokenID)

def unlockQuotaMutationResources (userID tokenID : Int) : Routine Unit :=
  unlockStripes (resourceStripes userID tokenID).reverse

def queueUnderLock (userID tokenID : Int) (type : BatchUpdateType) (id value : Int) :
    Routine Unit := do
  lockQuotaMutationResources userID tokenID
  let _ ← ask (.addNewRecord type id value true)
  unlockQuotaMutationResources userID tokenID

def increaseUserQuota (id quota : Int) : Routine (Except BillingError Unit) :=
  if quota < 0 then pure (.error .negativeQuota)
  else do
    queueUnderLock id 0 .userQuota id quota
    pure (.ok ())

def decreaseUserQuota (id quota : Int) : Routine (Except BillingError Unit) :=
  if quota < 0 then pure (.error .negativeQuota)
  else do
    queueUnderLock id 0 .userQuota id (-quota)
    pure (.ok ())

def increaseTokenQuota (tokenId quota : Int) : Routine (Except BillingError Unit) :=
  if quota < 0 then pure (.error .negativeQuota)
  else do
    queueUnderLock 0 tokenId .tokenQuota tokenId quota
    pure (.ok ())

def decreaseTokenQuota (id quota : Int) : Routine (Except BillingError Unit) :=
  if quota < 0 then pure (.error .negativeQuota)
  else do
    queueUnderLock 0 id .tokenQuota id (-quota)
    pure (.ok ())

def updateUserUsedQuotaAndRequestCount (id quota : Int) : Routine Unit := do
  let _ ← ask (.addNewRecord .usedQuota id quota true)
  ask (.addNewRecord .requestCount id 1 true)

def updateUserUsedQuota (id quota : Int) : Routine Unit :=
  ask (.addNewRecord .usedQuota id quota true)

def updateChannelUsedQuota (id quota : Int) : Routine Unit :=
  ask (.addNewRecord .channelUsedQuota id quota true)

/-- The order in which `range` visits the keys of a map. -/
structure RangeOrder where
  keys : Table → List Int → List Int
  perm : ∀ table ks, (keys table ks).Perm ks

def anyData : List BatchUpdateType → Routine Bool
  | [] => pure false
  | type :: rest => do
    let found : Bool ← ask (.hasData type)
    if found then pure true else anyData rest

def swapStores : List BatchUpdateType → (BatchUpdateType → DeltaMap) →
    Routine (BatchUpdateType → DeltaMap)
  | [], stores => pure stores
  | type :: rest, stores => do
    let store : DeltaMap ← ask (.swap type)
    swapStores rest (Function.update stores type store)

def userIDs (stores : BatchUpdateType → DeltaMap) : List Int :=
  ((stores .userQuota).keys ++ (stores .usedQuota).keys ++ (stores .requestCount).keys).dedup

/-- The loops of `batchUpdate` over what it took: tokens, channels, then each user of three maps. -/
def rowUpdates (order : RangeOrder) (stores : BatchUpdateType → DeltaMap) : List RowUpdate :=
  (order.keys .tokens (stores .tokenQuota).keys).map (fun key =>
    .increaseTokenQuota key (valueAt (stores .tokenQuota) key)) ++
  (order.keys .channels (stores .channelUsedQuota).keys).map (fun key =>
    .updateChannelUsedQuota key (valueAt (stores .channelUsedQuota) key)) ++
  (order.keys .users (userIDs stores)).map (fun key =>
    .updateUserQuotaUsedQuotaAndRequestCount key (valueAt (stores .userQuota) key)
      (valueAt (stores .usedQuota) key) (valueAt (stores .requestCount) key))

/-- Errors are logged and not looked at again. -/
def writeRows : List RowUpdate → Routine Unit
  | [] => pure ()
  | row :: rest =>
    if row.skipped then writeRows rest
    else do
      let _ ← ask (.write row)
      writeRows rest

def batchUpdate (order : RangeOrder) : Routine Unit := do
  let _ ← ask (.lock .quotaBatchMutation)
  let hasData ← anyData batchUpdateTypes
  if hasData then do
    let stores ← swapStores batchUpdateTypes fun _ => ∅
    writeRows (rowUpdates order stores)
    ask (.unlock .quotaBatchMutation)
  else ask (.unlock .quotaBatchMutation)

def onlyWhen (cond : Bool) (p : Routine Unit) : Routine Unit :=
  if cond then p else pure ()

/-- Puts back what a transaction that failed did not use, and unlocks. -/
def release (m : QuotaMutation) (batchLocked committed : Bool) : Routine Unit := do
  onlyWhen (!committed && m.userPendingDelta ≠ 0)
    (ask (.addNewRecord .userQuota m.userID m.userPendingDelta false))
  onlyWhen (!committed && m.tokenPendingDelta ≠ 0)
    (ask (.addNewRecord .tokenQuota m.tokenID m.tokenPendingDelta false))
  onlyWhen batchLocked (ask (.unlock .quotaBatchMutation))
  unlockQuotaMutationResources m.userID m.tokenID

section
variable (redisEnabled : Bool)

def invalidateUserCache (userID : Int) : Routine (Except BillingError Unit) :=
  if redisEnabled && userID > 0 then ask (.invalidateUserQuotaCache userID) else pure (.ok ())

/-- The token row is read for its key. -/
def invalidateTokenCache (tokenID : Int) : Routine (Except BillingError Unit) :=
  if redisEnabled && tokenID > 0 then do
    let found : Except BillingError Unit ← ask (.findToken tokenID)
    match found with
    | .error e => pure (.error e)
    | .ok () => ask (.invalidateTokenCache tokenID)
  else pure (.ok ())

def invalidateCaches (userID tokenID : Int) : Routine (Except BillingError Unit) := do
  match ← invalidateUserCache redisEnabled userID with
  | .error e => pure (.error e)
  | .ok () => invalidateTokenCache redisEnabled tokenID

variable (rid : RequestID)

def beginBillingRecoveryQuotaMutation (fenceUser fenceToken : Bool) :
    Routine (Except BillingError QuotaMutation) := do
  let found : Except BillingError BillingRecovery ← ask (.findRecovery rid)
  match found with
  | .error e => pure (.error e)
  | .ok r => do
    let userID := if fenceUser ∧ r.source = .wallet then r.userID else 0
    let tokenID := if fenceToken ∧ r.tokenRequired ∧ r.tokenID > 0 then r.tokenID else 0
    lockQuotaMutationResources userID tokenID
    match ← invalidateCaches redisEnabled userID tokenID with
    | .error e => do
      release ⟨userID, tokenID, 0, 0⟩ false false
      pure (.error e)
    | .ok () => do
      let _ ← ask (.lock .quotaBatchMutation)
      let userPendingDelta : Int ← ask (.takePendingQuotaDelta .userQuota userID)
      let tokenPendingDelta : Int ← ask (.takePendingQuotaDelta .tokenQuota tokenID)
      pure (.ok ⟨userID, tokenID, userPendingDelta, tokenPendingDelta⟩)

/-- A transaction between `beginBillingRecoveryQuotaMutation` and `release`. -/
def mutate (fenceUser fenceToken : Bool) (tx : RecoveryTx) : Routine (Except BillingError Int) := do
  match ← beginBillingRecoveryQuotaMutation redisEnabled rid fenceUser fenceToken with
  | .error e => pure (.error e)
  | .ok m => do
    let result : Except BillingError Int ← ask (.transaction (some m) tx)
    release m true result.isOk
    pure result

def preConsumeWalletBillingRecovery (quota : Int) (tokenUnlimited : Bool) :
    Routine (Except BillingError Int) :=
  let tx := RecoveryTx.preConsumeWallet rid quota tokenUnlimited
  if quota < 0 then pure (.error .invalidWalletPreConsume)
  else if quota > 0 then mutate redisEnabled rid true true tx
  else ask (.transaction none tx)

def reserveBillingRecovery (targetQuota delta : Int) (tokenUnlimited : Bool) :
    Routine (Except BillingError Int) :=
  if targetQuota ≤ 0 ∨ delta ≤ 0 then pure (.error .invalidReservation)
  else mutate redisEnabled rid true true (.reserve rid targetQuota tokenUnlimited)

def applyBillingRecoveryAdjustment (component : Component) (operation : Operation) :
    Routine (Except BillingError Int) :=
  if component ≠ .funding ∧ component ≠ .extra ∧ component ≠ .token then
    pure (.error .invalidComponent)
  else if operation ≠ .settle ∧ operation ≠ .refund then pure (.error .invalidOperation)
  else mutate redisEnabled rid (component = .funding) (component = .token)
    (.applyAdjustment rid component operation)

end

inductive BatchJob where
  | addNewRecord (type : BatchUpdateType) (id value : Int)
  | increaseUserQuota (id quota : Int)
  | decreaseUserQuota (id quota : Int)
  | increaseTokenQuota (tokenId quota : Int)
  | decreaseTokenQuota (id quota : Int)
  | updateUserUsedQuotaAndRequestCount (id quota : Int)
  | updateUserUsedQuota (id quota : Int)
  | updateChannelUsedQuota (id quota : Int)
  | batchUpdate (order : RangeOrder)
  | preConsumeWallet (redisEnabled : Bool) (rid : RequestID) (quota : Int)
      (tokenUnlimited : Bool)
  | reserve (redisEnabled : Bool) (rid : RequestID) (targetQuota delta : Int)
      (tokenUnlimited : Bool)
  | applyAdjustment (redisEnabled : Bool) (rid : RequestID) (component : Component)
      (operation : Operation)

def BatchJob.program : BatchJob → Routine Unit
  | .addNewRecord type id value => ask (.addNewRecord type id value true)
  | .increaseUserQuota id quota => do
    let _ ← Batch.increaseUserQuota id quota
  | .decreaseUserQuota id quota => do
    let _ ← Batch.decreaseUserQuota id quota
  | .increaseTokenQuota tokenId quota => do
    let _ ← Batch.increaseTokenQuota tokenId quota
  | .decreaseTokenQuota id quota => do
    let _ ← Batch.decreaseTokenQuota id quota
  | .updateUserUsedQuotaAndRequestCount id quota =>
    Batch.updateUserUsedQuotaAndRequestCount id quota
  | .updateUserUsedQuota id quota => Batch.updateUserUsedQuota id quota
  | .updateChannelUsedQuota id quota => Batch.updateChannelUsedQuota id quota
  | .batchUpdate order => Batch.batchUpdate order
  | .preConsumeWallet redisEnabled rid quota tokenUnlimited => do
    let _ ← preConsumeWalletBillingRecovery redisEnabled rid quota tokenUnlimited
  | .reserve redisEnabled rid targetQuota delta tokenUnlimited => do
    let _ ← reserveBillingRecovery redisEnabled rid targetQuota delta tokenUnlimited
  | .applyAdjustment redisEnabled rid component operation => do
    let _ ← applyBillingRecoveryAdjustment redisEnabled rid component operation

end Ren2Hub.Billing.Batch
