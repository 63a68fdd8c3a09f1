import Mathlib.Data.Rat.Defs
import Ren2Hub.Lib.ScoredSet
import Ren2Hub.Lib.Text

namespace Ren2Hub.Routing
open Lib

structure RouteLeaseResource where
  key : String
  capacity : Int

structure RouteLease where
  leaseID : String
  requestID : String
  resources : List RouteLeaseResource

def RouteLease.keys (lease : RouteLease) : List String := lease.resources.map (·.key)

inductive LeaseError where
  | unavailable
  | conflict
  | capacity
  | ownership

/-- `resources` stands for the fields `resource_count` and `resource:1`, `resource:2`, …; `deadline`
is when the key expires. -/
structure LeaseMeta where
  leaseID : String
  requestID : String
  expiresAt : Nat
  resources : List String
  deadline : Nat

structure LeaseOwner where
  leaseID : String
  deadline : Nat

/-- The millisecond clock, the sorted sets of lease ids, and the meta and request keys. -/
structure LeaseStore where
  now : Nat := 0
  sets : String → ScoredSet String := fun _ => .empty
  metas : String → Option LeaseMeta := fun _ => none
  requests : String → Option LeaseOwner := fun _ => none

namespace LeaseStore

section
variable (r : LeaseStore)

/-- A key is there up to its deadline. -/
def meta? (leaseID : String) : Option LeaseMeta :=
  (r.metas leaseID).filter fun m => r.now ≤ m.deadline

def request? (requestID : String) : Option LeaseOwner :=
  (r.requests requestID).filter fun q => r.now ≤ q.deadline

def modifySet (key : String) (f : ScoredSet String → ScoredSet String) : LeaseStore :=
  { r with sets := Function.update r.sets key (f (r.sets key)) }

def modifySets (keys : List String) (f : ScoredSet String → ScoredSet String) : LeaseStore :=
  keys.foldl (fun r key => r.modifySet key f) r

def setMeta (leaseID : String) (m : Option LeaseMeta) : LeaseStore :=
  { r with metas := Function.update r.metas leaseID m }

def setRequest (requestID : String) (q : Option LeaseOwner) : LeaseStore :=
  { r with requests := Function.update r.requests requestID q }

end

/-- The first loop: purge each set and see whether it has room, up to the first that has not. -/
def makeRoom : List RouteLeaseResource → LeaseStore → LeaseStore × Bool
  | [], r => (r, true)
  | resource :: rest, r =>
    let r := r.modifySet resource.key (.dropUpTo r.now)
    if (r.sets resource.key).card ≥ resource.capacity then (r, false) else makeRoom rest r

def owns (r : LeaseStore) (lease : RouteLease) : Bool :=
  match r.meta? lease.leaseID, r.request? lease.requestID with
  | some m, some q =>
    m.leaseID = lease.leaseID && m.requestID = lease.requestID && q.leaseID = lease.leaseID &&
      m.resources = lease.keys
  | _, _ => false

/-- Nothing is replied when a command of the script fails; what it wrote before stays. -/
def routeLeaseAcquireScript (leaseID requestID : String) (resources : List RouteLeaseResource)
    (ttl : Nat) (r : LeaseStore) : LeaseStore × Option Int :=
  if (r.meta? leaseID).isSome || (r.request? requestID).isSome then (r, some 0)
  else
    match r.makeRoom resources with
    | (r, false) => (r, some (-1))
    | (r, true) =>
      let keys := resources.map (·.key)
      let expiry := r.now + ttl
      let r := r.modifySets keys (.insert leaseID expiry)
      -- PEXPIRE with 0 deletes the key, and SET refuses PX 0.
      if ttl = 0 then (r.setMeta leaseID none, none)
      else
        ((r.setMeta leaseID (some ⟨leaseID, requestID, expiry, keys, expiry⟩)).setRequest requestID
          (some ⟨leaseID, expiry⟩), some 1)

def routeLeaseReleaseScript (lease : RouteLease) (r : LeaseStore) : LeaseStore × Option Int :=
  if !r.owns lease then (r, some 0)
  else
    let r := r.modifySets lease.keys (.remove lease.leaseID)
    ((r.setMeta lease.leaseID none).setRequest lease.requestID none, some 1)

def routeLeaseRenewScript (lease : RouteLease) (ttl : Nat) (r : LeaseStore) :
    LeaseStore × Option Int :=
  if !r.owns lease then (r, some 0)
  else
    let expiry := r.now + ttl
    -- PEXPIRE with 0 deletes the key.
    let r := r.setMeta lease.leaseID (if ttl = 0 then none
      else some ⟨lease.leaseID, lease.requestID, expiry, lease.keys, expiry⟩)
    let r := r.setRequest lease.requestID (if ttl = 0 then none else some ⟨lease.leaseID, expiry⟩)
    (r.modifySets lease.keys (.insert lease.leaseID expiry), some 1)

end LeaseStore

/-- `time.Duration.Milliseconds` of a positive number of nanoseconds. -/
def milliseconds (ttl : Int) : Nat := (ttl / 1000000).toNat

def acquirable (requestID leaseID : String) (ttl : Int) (resources : List RouteLeaseResource) :
    Bool :=
  !(blank requestID || blank leaseID || ttl ≤ 0 || resources.isEmpty) &&
    resources.all (fun resource => !(blank resource.key || resource.capacity ≤ 0)) &&
    (resources.map (·.key)).Nodup

def acquireRouteLease (requestID leaseID : String) (ttl : Int)
    (resources : List RouteLeaseResource) (r : LeaseStore) :
    LeaseStore × Except LeaseError RouteLease :=
  if !acquirable requestID leaseID ttl resources then (r, .error .unavailable)
  else
    match r.routeLeaseAcquireScript leaseID requestID resources (milliseconds ttl) with
    | (r, none) => (r, .error .unavailable)
    | (r, some 0) => (r, .error .conflict)
    | (r, some (-1)) => (r, .error .capacity)
    | (r, some _) => (r, .ok ⟨leaseID, requestID, resources⟩)

def releaseRouteLease (lease : RouteLease) (r : LeaseStore) : LeaseStore × Except LeaseError Unit :=
  if blank lease.leaseID || blank lease.requestID || lease.resources.isEmpty then
    (r, .error .unavailable)
  else
    match r.routeLeaseReleaseScript lease with
    | (r, none) => (r, .error .unavailable)
    | (r, some 0) => (r, .error .ownership)
    | (r, some _) => (r, .ok ())

def renewRouteLease (lease : RouteLease) (ttl : Int) (r : LeaseStore) :
    LeaseStore × Except LeaseError Unit :=
  if blank lease.leaseID || blank lease.requestID || ttl ≤ 0 then (r, .error .unavailable)
  else
    match r.routeLeaseRenewScript lease (milliseconds ttl) with
    | (r, none) => (r, .error .unavailable)
    | (r, some 0) => (r, .error .ownership)
    | (r, some _) => (r, .ok ())

structure RouteLeaseRuntimeState where
  channelEnabled : Bool
  healthEpoch : Int
  capabilityVersion : Int
  capacity : Int
  channelRatio : Rat

/-- Whether the route may still be used (`ErrRouteLeaseRuntime` otherwise). -/
def recheckRouteLeaseRuntime (expected current : RouteLeaseRuntimeState) : Bool :=
  !(!expected.channelEnabled || !current.channelEnabled ||
    expected.capacity ≤ 0 || expected.capacity ≠ current.capacity ||
    expected.channelRatio ≤ 0 || expected.channelRatio ≠ current.channelRatio ||
    expected.healthEpoch ≠ current.healthEpoch ||
    expected.capabilityVersion ≠ current.capabilityVersion)

/-- What happens to the store: the three calls, and time. -/
inductive LeaseOp where
  | acquire (requestID leaseID : String) (ttl : Int) (resources : List RouteLeaseResource)
  | renew (lease : RouteLease) (ttl : Int)
  | release (lease : RouteLease)
  | elapse (ms : Nat)

def LeaseStore.next (r : LeaseStore) : LeaseOp → LeaseStore
  | .acquire requestID leaseID ttl resources =>
    (acquireRouteLease requestID leaseID ttl resources r).1
  | .renew lease ttl => (renewRouteLease lease ttl r).1
  | .release lease => (releaseRouteLease lease r).1
  | .elapse ms => { r with now := r.now + ms }

end Ren2Hub.Routing
