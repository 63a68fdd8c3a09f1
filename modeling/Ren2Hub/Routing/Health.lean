import Ren2Hub.Routing.Lease

namespace Ren2Hub.Routing
open Lib

/-- A reading of the wall clock in nanoseconds, later than the first second of 1970. -/
structure Instant where
  nanos : Int
  modern : 0 < nanos / 1000000000

def Instant.unix (t : Instant) : Int := t.nanos / 1000000000

/-- `t.Add(d).Unix()` for a duration in nanoseconds. -/
def Instant.unixAfter (t : Instant) (d : Int) : Int := (t.nanos + d) / 1000000000

/-- `unset` is the empty string, which `Normalize` replaces. -/
inductive RouteHealthState where
  | unset
  | closed
  | opened
  | halfOpen
deriving DecidableEq, Repr

/-- One row of the health table, without the scope columns, which never change, and the time of the
last write, which nothing here reads. -/
structure ChannelHealth where
  state : RouteHealthState := .unset
  failureCount : Int := 0
  cooldownUntil : Int := 0
  healthEpoch : Int := 0
  lastLatencyMS : Int := 0
  firstTokenLatencyMS : Int := 0
deriving DecidableEq, Repr

def ChannelHealth.normalize (health : ChannelHealth) : ChannelHealth :=
  { health with
    state := if health.state = .unset then .closed else health.state
    healthEpoch := if health.healthEpoch ≤ 0 then 1 else health.healthEpoch }

/-- The cooldown is in nanoseconds. -/
structure RouteHealthPolicy where
  failureThreshold : Int
  cooldown : Int

def second : Int := 1000000000

def defaultRouteHealthPolicy : RouteHealthPolicy := ⟨3, 30 * second⟩

def routeKeyHealthPolicy : RouteHealthPolicy := ⟨1, 5 * 60 * second⟩

def RouteHealthPolicy.normalized (p : RouteHealthPolicy) : RouteHealthPolicy where
  failureThreshold := if p.failureThreshold ≤ 0 then 3 else p.failureThreshold
  cooldown := if p.cooldown ≤ 0 then 30 * second else p.cooldown

/-- The deadline a failure sets when it opens the breaker. -/
def RouteHealthPolicy.cooldownEnd (p : RouteHealthPolicy) (now : Instant) (retryAfter : Int) :
    Int :=
  if retryAfter > p.cooldown then now.unixAfter retryAfter else now.unixAfter p.cooldown

def observeRouteHealthFailureWithRetryAfter (health : ChannelHealth) (policy : RouteHealthPolicy)
    (now : Instant) (retryAfter : Int) : ChannelHealth :=
  let policy := policy.normalized
  let health := health.normalize
  let health := { health with failureCount := health.failureCount + 1 }
  if health.state = .halfOpen ∨ health.failureCount ≥ policy.failureThreshold ∨
      retryAfter > 0 then
    { health with
      state := .opened
      cooldownUntil := policy.cooldownEnd now retryAfter
      healthEpoch := health.healthEpoch + 1 }
  else health

def observeRouteHealthSuccess (health : ChannelHealth) : ChannelHealth :=
  let health := health.normalize
  let stateChanged := health.state ≠ .closed ∨ health.failureCount ≠ 0 ∨ health.cooldownUntil ≠ 0
  { health with
    state := .closed
    failureCount := 0
    cooldownUntil := 0
    healthEpoch := if stateChanged then health.healthEpoch + 1 else health.healthEpoch }

def canUseRouteHealth (health : ChannelHealth) (now : Instant) : Bool :=
  match health.state with
  | .unset | .closed => true
  | .halfOpen => false
  | .opened => 0 < health.cooldownUntil && health.cooldownUntil ≤ now.unix

/-- A row that is not there yet reads as a closed breaker. -/
def loadRouteHealthScope (row : Option ChannelHealth) : ChannelHealth :=
  row.getD { state := .closed, healthEpoch := 1 }

/-- A failure as `persistRouteHealthObservation` stores it, in one transaction. -/
def persistRouteHealthFailure (policy : RouteHealthPolicy) (now : Instant) (retryAfter : Int)
    (row : Option ChannelHealth) : ChannelHealth :=
  observeRouteHealthFailureWithRetryAfter (row.getD {}) policy now retryAfter

def persistRouteHealthSuccessWithMetrics (latencyMS ttftMS : Int) (row : Option ChannelHealth) :
    ChannelHealth :=
  let health := row.getD {}
  let health := if latencyMS ≥ 0 then { health with lastLatencyMS := latencyMS } else health
  let health := if ttftMS > 0 then { health with firstTokenLatencyMS := ttftMS } else health
  observeRouteHealthSuccess health

/-- A row in the state whose deadline has passed, as the conditional updates look for it. -/
def due (state : RouteHealthState) (now : Instant) (row : Option ChannelHealth) : Bool :=
  match row with
  | none => false
  | some health =>
    health.state = state && 0 < health.cooldownUntil && health.cooldownUntil ≤ now.unix

/-- The columns both conditional updates write. -/
def rewrite (state : RouteHealthState) (cooldownUntil : Int) (row : Option ChannelHealth) :
    Option ChannelHealth :=
  row.map fun health =>
    { health with
      state := state, cooldownUntil := cooldownUntil, healthEpoch := health.healthEpoch + 1 }

structure Admission where
  usable : Bool
  epoch : Int
  err : Bool := false
deriving DecidableEq, Repr

/-- Before the load of an attempt, before one of the two updates with the row it loaded, or done. -/
inductive Stage where
  | loading (attempt : Nat)
  | rearming (attempt : Nat) (health : ChannelHealth)
  | claiming (health : ChannelHealth)
  | returned (answer : Admission)

/-- What the loop decides on the loaded row. -/
def afterLoad (attempt : Nat) (now : Instant) (health : ChannelHealth) : Stage :=
  if health.state = .unset ∨ health.state = .closed then .returned ⟨true, health.healthEpoch, false⟩
  else if health.state = .halfOpen then
    if health.cooldownUntil > now.unix then .returned ⟨false, health.healthEpoch, false⟩
    else .rearming attempt health
  else if health.cooldownUntil ≤ 0 ∨ health.cooldownUntil > now.unix then
    .returned ⟨false, health.healthEpoch, false⟩
  else .claiming health

def nextAttempt (attempt : Nat) : Stage :=
  if attempt + 1 < 2 then .loading (attempt + 1) else .returned ⟨false, 0, false⟩

/-- One database statement of a call, and what it does next. -/
def Stage.step (now : Instant) (fails : Bool) (row : Option ChannelHealth) :
    Stage → Option ChannelHealth × Stage
  | .loading attempt =>
    if fails then (row, .returned ⟨false, 0, true⟩)
    else (row, afterLoad attempt now (loadRouteHealthScope row))
  | .rearming attempt health =>
    if fails then (row, .returned ⟨false, health.healthEpoch, true⟩)
    else if due .halfOpen now row then (rewrite .opened 0 row, nextAttempt attempt)
    else (row, .returned ⟨false, health.healthEpoch, false⟩)
  | .claiming health =>
    if fails then (row, .returned ⟨false, health.healthEpoch, true⟩)
    else if due .opened now row then
      (rewrite .halfOpen (now.unixAfter defaultRouteHealthPolicy.cooldown) row,
        .returned ⟨true, health.healthEpoch + 1, false⟩)
    else (row, .returned ⟨false, health.healthEpoch, false⟩)
  | .returned answer => (row, .returned answer)

/-- A call with nobody else at the row, for so many statements. -/
def Stage.finish (now : Instant) : Nat → Option ChannelHealth → Stage →
    Option ChannelHealth × Stage
  | 0, row, stage => (row, stage)
  | n + 1, row, stage =>
    let (row', stage') := stage.step now false row
    Stage.finish now n row' stage'

/-- `RouteHealthUsable` alone at the row. Two attempts of two statements each. -/
def routeHealthUsable (now : Instant) (row : Option ChannelHealth) :
    Option ChannelHealth × Stage :=
  Stage.finish now 4 row (.loading 0)

def routeKeyHealthUsable (key : String) (now : Instant) (row : Option ChannelHealth) :
    Option ChannelHealth × Stage :=
  if blank key then (row, .returned ⟨false, 0, false⟩) else routeHealthUsable now row

/-- `UnavailableRouteKeyIndexes` over the rows found for the keys of a channel. -/
def unavailableRouteKeyIndexes (rows : List (Option ChannelHealth)) (now : Instant) : List Nat :=
  rows.zipIdx.filterMap fun (row, index) =>
    match row with
    | none => none
    | some health => if canUseRouteHealth health now then none else some index

structure Caller where
  now : Instant
  stage : Stage

structure HealthRun where
  row : Option ChannelHealth := none
  callers : List Caller := []

inductive HealthEvent where
  | start (now : Instant)
  | step (caller : Nat) (fails : Bool)
  | failure (policy : RouteHealthPolicy) (now : Instant) (retryAfter : Int)
  | success (latencyMS ttftMS : Int)

def HealthRun.next (s : HealthRun) : HealthEvent → HealthRun
  | .start now => { s with callers := s.callers ++ [⟨now, .loading 0⟩] }
  | .step i fails =>
    match s.callers[i]? with
    | none => s
    | some c =>
      let (row, stage) := c.stage.step c.now fails s.row
      ⟨row, s.callers.set i ⟨c.now, stage⟩⟩
  | .failure policy now retryAfter =>
    { s with row := some (persistRouteHealthFailure policy now retryAfter s.row) }
  | .success latencyMS ttftMS =>
    { s with row := some (persistRouteHealthSuccessWithMetrics latencyMS ttftMS s.row) }

end Ren2Hub.Routing
