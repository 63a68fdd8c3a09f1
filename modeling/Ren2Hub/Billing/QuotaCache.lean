import Mathlib.Data.List.Basic

namespace Ren2Hub.Billing.QuotaCache

inductive CacheQuotaResult where
  | insufficient
  | ok
  | miss
  | fenced

def quotaMutationFenceSeconds : Nat := 10

/-- What a reader has of the user row. `readAt` and `seen` are not in the source: the quota writes
and the committed recovery mutations before the read. -/
structure UserBase where
  authVersion : Int
  quota : Int
  readAt : Nat
  seen : Nat
deriving DecidableEq, Repr

/-- The user hash. Only `writeUserCache` makes one, with all fields, so scripts miss exactly when
there is none. -/
structure UserHash where
  authVersion : Int
  quota : Int
  seen : Nat
deriving DecidableEq, Repr

structure CacheState where
  now : Nat := 0
  authVersion : Int := 1
  quota : Int
  hash : Option UserHash := none
  fenceUntil : Nat := 0
  authFence : Option Int := none
  authFloor : Option Int := none
  writes : Nat := 0
  commits : Nat := 0

namespace CacheState

variable (s : CacheState)

def fenced : Bool := s.now < s.fenceUntil

def setHash (hash : Option UserHash) : CacheState := { s with hash }

def addQuota (delta : Int) : CacheState :=
  { s with quota := s.quota + delta, writes := s.writes + 1 }

def row : UserBase := ⟨s.authVersion, s.quota, s.writes, s.commits⟩

def userQuotaReserveScript (amount : Int) : CacheState × CacheQuotaResult :=
  if s.fenced then (s, .fenced)
  else match s.hash with
    | none => (s, .miss)
    | some h =>
      if h.quota < amount then (s, .insufficient)
      else (s.setHash (some { h with quota := h.quota - amount }), .ok)

def userQuotaDeltaScript (delta : Int) : CacheState × CacheQuotaResult :=
  if s.fenced then (s, .fenced)
  else match s.hash with
    | none => (s, .miss)
    | some h => (s.setHash (some { h with quota := h.quota + delta }), .ok)

/-- A pending fence, the committed floor or the hash is ahead of the version. -/
def newerThan (incoming : Int) : Bool :=
  s.authFence.getD 0 > incoming ∨ s.authFloor.getD 0 > incoming ∨
    (s.hash.map UserHash.authVersion).getD 0 > incoming

def publishVersion (incoming : Int) : CacheState :=
  { s with
    authFloor := if s.authFloor.getD 0 < incoming then some incoming else s.authFloor
    authFence :=
      if 0 < s.authFence.getD 0 ∧ s.authFence.getD 0 ≤ incoming then none else s.authFence }

/-- The script of `writeUserCache`, which does not look at the quota fence. -/
def writeUserCacheScript (user : UserBase) (includeQuota : Bool) : CacheState × Bool :=
  if s.newerThan user.authVersion then (s, false)
  else
    let s := s.publishVersion user.authVersion
    match s.hash with
    | some h => (s.setHash (some { h with authVersion := user.authVersion }), true)
    | none =>
      if includeQuota then
        (s.setHash (some ⟨user.authVersion, user.quota, user.seen⟩), true)
      else (s, true)

def getUserAuthVersionFloor : Int :=
  max 0 (max (s.authFence.getD 0) (s.authFloor.getD 0))

def reserveUserQuotaDB (quota : Int) : CacheState × Bool :=
  if quota ≤ s.quota then (s.addQuota (-quota), true) else (s, false)

def setFence : CacheState :=
  { s with fenceUntil := s.now + quotaMutationFenceSeconds * 1000 }

def commit (delta : Int) : CacheState :=
  { s.addQuota delta with commits := s.commits + 1 }

end CacheState

/-- What `writeUserCache` returns: `nil`, `ErrUserAuthCachePending` or another error. -/
inductive WriteResult where
  | ok
  | pending
  | failed
deriving DecidableEq, Repr

/-- `fails` is an error of Redis. -/
def writeUserCache (fails : Bool) (user : UserBase) (includeQuota : Bool) (s : CacheState) :
    CacheState × WriteResult :=
  if user.authVersion ≤ 0 ∨ fails then (s, .failed)
  else
    let (s, accepted) := s.writeUserCacheScript user includeQuota
    (s, if accepted then .ok else .pending)

inductive Reader where
  | lookingUp
  | judging (authVersion : Int)
  | loading
  | checking (user : UserBase)
  | publishing (user : UserBase)
  | finished (ok : Bool)
deriving DecidableEq, Repr

/-- `GetUserCache`, its first two steps being `cacheGetUserBase`. `fails` is an error of Redis or,
for `loading`, of the database. -/
def Reader.step (fails : Bool) (s : CacheState) : Reader → CacheState × Reader
  | .lookingUp =>
    match s.hash with
    | none => (s, .loading)
    | some h => (s, if fails ∨ h.authVersion ≤ 0 then .loading else .judging h.authVersion)
  | .judging authVersion =>
    (s, if fails ∨ s.getUserAuthVersionFloor > authVersion then .loading else .finished true)
  | .loading => (s, if fails then .finished false else .checking s.row)
  | .checking user =>
    -- an unreadable floor does not keep the snapshot back
    (s, if ¬ fails ∧ s.getUserAuthVersionFloor > user.authVersion then .finished false
      else .publishing user)
  | .publishing user =>
    let (s, result) := writeUserCache fails user true s
    (s, .finished (result ≠ .pending))
  | .finished ok => (s, .finished ok)

/-- The goroutine and the caller of `IncreaseUserQuota` and `DecreaseUserQuota` are tasks apart. -/
inductive Task where
  | read (reader : Reader)
  | reserving (quota : Int)
  | hydrating (quota : Int) (reader : Reader)
  | retrying (quota : Int)
  | persisting (quota : Int)
  | compensating (quota : Int)
  | fallingBack (quota : Int)
  | cacheDelta (delta : Int)
  | databaseDelta (delta : Int)
  | fencing (delta : Int)
  | deleting (delta : Int)
  | committing (delta : Int)
  | finished (ok : Bool)
deriving DecidableEq, Repr

namespace Task

def afterRead : Reader → Task
  | .finished ok => .finished ok
  | reader => .read reader

def afterHydrate (quota : Int) : Reader → Task
  | .finished ok => if ok then .retrying quota else .fallingBack quota
  | reader => .hydrating quota reader

/-- Where `TryReserveUserQuota` goes from the answer of its first script. -/
def afterReserve (quota : Int) : CacheQuotaResult → Task
  | .ok => .persisting quota
  | .insufficient => .finished false
  | .miss => .hydrating quota .lookingUp
  | .fenced => .fallingBack quota

/-- The same after hydration, where a miss is not tried again. -/
def afterRetry (quota : Int) : CacheQuotaResult → Task
  | .ok => .persisting quota
  | .insufficient => .finished false
  | .miss | .fenced => .fallingBack quota

/-- `fails` is an error of the command it sends, which has then done nothing. -/
def step (fails : Bool) (s : CacheState) : Task → CacheState × Task
  | .read reader =>
    let (s, reader) := reader.step fails s
    (s, afterRead reader)
  | .reserving quota =>
    if fails then (s, .fallingBack quota)
    else
      let (s, result) := s.userQuotaReserveScript quota
      (s, afterReserve quota result)
  | .hydrating quota reader =>
    let (s, reader) := reader.step fails s
    (s, afterHydrate quota reader)
  | .retrying quota =>
    if fails then (s, .fallingBack quota)
    else
      let (s, result) := s.userQuotaReserveScript quota
      (s, afterRetry quota result)
  | .persisting quota =>
    if fails then (s, .compensating quota) else (s.addQuota (-quota), .finished true)
  | .compensating quota =>
    (if fails then s else (s.userQuotaDeltaScript quota).1, .finished false)
  | .fallingBack quota =>
    if fails then (s, .finished false)
    else
      let (s, reserved) := s.reserveUserQuotaDB quota
      (s, .finished reserved)
  | .cacheDelta delta =>
    if fails then (s, .finished false) else ((s.userQuotaDeltaScript delta).1, .finished true)
  | .databaseDelta delta =>
    if fails then (s, .finished false) else (s.addQuota delta, .finished true)
  | .fencing delta => if fails then (s, .finished false) else (s.setFence, .deleting delta)
  | .deleting delta =>
    if fails then (s, .finished false) else (s.setHash none, .committing delta)
  | .committing delta =>
    if fails then (s, .finished false) else (s.commit delta, .finished true)
  | .finished ok => (s, .finished ok)

end Task

def getUserCache : List Task := [.read .lookingUp]

def tryReserveUserQuota (quota : Int) : List Task :=
  if quota ≤ 0 then [] else [.reserving quota]

def increaseUserQuota (quota : Int) : List Task :=
  if quota < 0 then [] else [.cacheDelta quota, .databaseDelta quota]

def decreaseUserQuota (quota : Int) : List Task :=
  if quota < 0 then [] else [.cacheDelta (-quota), .databaseDelta (-quota)]

/-- `invalidateUserQuotaCacheForMutation` and the transaction after it, which adds `delta`. -/
def mutation (delta : Int) : List Task := [.fencing delta]

structure World where
  state : CacheState
  tasks : List Task := []

/-- `authChanged` is any change of the auth version, `hashRemoved` its TTL or `invalidateUserCache`.
-/
inductive Event where
  | getUserCache
  | tryReserveUserQuota (quota : Int)
  | increaseUserQuota (quota : Int)
  | decreaseUserQuota (quota : Int)
  | mutation (delta : Int)
  | step (task : Nat) (fails : Bool)
  | tick (ms : Nat)
  | hashRemoved
  | authChanged (authVersion : Int) (authFence authFloor : Option Int)
  | updateUserCache (user : UserBase)

namespace World

def start (w : World) (tasks : List Task) : World := { w with tasks := w.tasks ++ tasks }

def stepTask (w : World) (i : Nat) (fails : Bool) : World :=
  match w.tasks[i]? with
  | none => w
  | some task => ⟨(task.step fails w.state).1, w.tasks.set i (task.step fails w.state).2⟩

def on (w : World) : Event → World
  | .getUserCache => w.start QuotaCache.getUserCache
  | .tryReserveUserQuota quota => w.start (QuotaCache.tryReserveUserQuota quota)
  | .increaseUserQuota quota => w.start (QuotaCache.increaseUserQuota quota)
  | .decreaseUserQuota quota => w.start (QuotaCache.decreaseUserQuota quota)
  | .mutation delta => w.start (QuotaCache.mutation delta)
  | .step i fails => w.stepTask i fails
  | .tick ms => { w with state := { w.state with now := w.state.now + ms } }
  | .hashRemoved => { w with state := w.state.setHash none }
  | .authChanged authVersion authFence authFloor =>
    { w with state := { w.state with authVersion, authFence, authFloor } }
  | .updateUserCache user => { w with state := (writeUserCache false user false w.state).1 }

def quiet (w : World) : Bool :=
  w.tasks.all fun t => match t with
    | .finished _ => true
    | _ => false

end World

end Ren2Hub.Billing.QuotaCache
