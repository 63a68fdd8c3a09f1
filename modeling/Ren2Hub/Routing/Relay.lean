import Ren2Hub.Routing.Attempts

namespace Ren2Hub.Relay
open Lib

structure NewAPIError where
  statusCode : Int
  errorCode : String
  message : String
  openAICode : String
  openAIParam : String := ""
  openAIMessage : String := ""

/-- `failed` is an error that is neither about capacity nor about the candidate. -/
inductive LeaseRefusal where
  | capacity
  | qualification (reason : FilterReason)
  | failed

def liveRouteQualificationAllowsFailover : LeaseRefusal → Bool
  | .capacity => true
  | .qualification reason =>
    match reason with
    | .snapshotUnavailable | .snapshotStale | .unknownCapability | .unsupported
    | .channelDisabled | .abilityDisabled | .pathUnsupported | .entitlementRevoked
    | .mappingConflict | .configurationStale | .groupDisabled | .entryMissing
    | .entryDisabled | .sourceUnsupported => true
    | _ => false
  | .failed => false

/-- Its status, whether its settings can be read, and its usable keys in the order of its key mode.
A channel with one key has key 0. -/
structure ChannelRow where
  enabled : Bool := true
  settingsFail : Bool := false
  keys : List Nat := [0]

structure Upstream where
  error : Option NewAPIError
  written : Bool := false
  validOutput : Bool := false
  hasSendResponse : Bool := false
  renewalFailed : Bool := false

structure Round where
  releaseFindsRenewalFailed : Bool := false
  requestDone : Bool := false
  channel : Int → Option ChannelRow := fun _ => some {}
  reselect : Option (LiveRouteSelection × Int) := none
  configureFails : Bool := false
  priceFails : Bool := false
  channelRatio : Option Rat := some 1
  lease : Option LeaseRefusal := none
  billingFails : Bool := false
  bodyFails : Bool := false
  upstream : Upstream
  backoffEnds : Bool := true

inductive CompactAttemptStage where
  | exact
  | base
deriving DecidableEq, Repr

structure CompactRetryState where
  stage : CompactAttemptStage
  exactBudget : Int
  baseBudget : Int
  exactAttempts : Int := 0
  baseAttempts : Int := 0
  attemptedKeys : CompactAttemptStage → List (Int × Nat) := fun _ => []

/-- `stage` is the stage of the request, if it has one. -/
def newCompactRetryState (stage : Option CompactAttemptStage) (gptCompactBaseModel : Bool) :
    CompactRetryState :=
  let totalAttempts := if defaultTotalAttempts < 1 then 1 else defaultTotalAttempts
  let stage := if gptCompactBaseModel then stage.getD .exact else .base
  let exactBudget := (2 * totalAttempts + 2) / 3
  let baseBudget := totalAttempts - (2 * totalAttempts + 2) / 3
  { stage, exactBudget
    baseBudget := if stage = .base then baseBudget + exactBudget else baseBudget }

namespace CompactRetryState

def recordAttempt (s : CompactRetryState) (channelID : Int) (keyIndex : Nat) :
    CompactRetryState :=
  let channels := (channelID, keyIndex) :: s.attemptedKeys s.stage
  let s := { s with attemptedKeys := Function.update s.attemptedKeys s.stage channels }
  match s.stage with
  | .exact => { s with exactAttempts := s.exactAttempts + 1 }
  | .base => { s with baseAttempts := s.baseAttempts + 1 }

def remainingAttempts (s : CompactRetryState) : Int :=
  match s.stage with
  | .exact => s.exactBudget - s.exactAttempts
  | .base => s.baseBudget - s.baseAttempts

def switchToBase (s : CompactRetryState) : Option CompactRetryState :=
  if s.stage ≠ .exact || s.baseBudget ≤ s.baseAttempts then none
  else
    let unusedExact := s.exactBudget - s.exactAttempts
    some { s with baseBudget := if 0 < unusedExact then s.baseBudget + unusedExact else s.baseBudget
                  stage := .base }

end CompactRetryState

def isCompactModelSemanticError (e : NewAPIError) : Bool :=
  let code := lower (trimSpace e.openAICode)
  let message := lower (e.openAIMessage ++ " " ++ e.message)
  if code ∈ ["model_not_found", "unsupported_model", "model_not_supported", "invalid_model",
      "unknown_model"] then true
  else if e.statusCode ≠ 400 && e.statusCode ≠ 404 && e.statusCode ≠ 422 then false
  else if lower (trimSpace e.openAIParam) = "model" then true
  else if !within "model" message then false
  else
    ["unknown model", "unsupported model", "invalid model", "no such model", "not found",
      "does not exist", "not available", "not supported", "unavailable"].any
        fun marker => within marker message

def CompactRetryState.advance (s : CompactRetryState) (e : NewAPIError) (retryable : Bool) :
    Option CompactRetryState :=
  if s.stage = .exact && isCompactModelSemanticError e then s.switchToBase
  else if !retryable then none
  else if 0 < s.remainingAttempts then some s
  else s.switchToBase

/-- The position in the attempt list, channel and key, and whether the client already had output. -/
structure Attempt where
  position : Nat
  channelID : Int
  keyIndex : Nat
  committed : Bool
deriving DecidableEq, Repr

/-- The loop's variables and what it keeps in the context. `history` are the calls, in order. -/
structure RelayState where
  realtime : Bool
  selection : LiveRouteSelection
  retry : Nat := 0
  counters : RouteRetryCounters := {}
  previous : Option (Int × Nat) := none
  contextChannelID : Int
  contextKeyIndex : Nat
  attemptedKeys : List (Int × Nat) := []
  compact : Option CompactRetryState := none
  lastError : Option NewAPIError := none
  renewalFailed : Bool := false
  written : Bool := false
  validOutput : Bool := false
  history : List Attempt := []

/-- An iteration ends with `continue`, or leaves the loop. -/
inductive Turn where
  | again (s : RelayState)
  | stop (s : RelayState)

def Turn.state : Turn → RelayState
  | .again s => s
  | .stop s => s

def Turn.stopped : Turn → Bool
  | .again _ => false
  | .stop _ => true

namespace RelayState

section
variable (s : RelayState)

def relayResponseCommitted : Bool := s.written || s.validOutput

def markLiveRouteCandidateFiltered (channelID : Int) (reason : FilterReason) : RelayState :=
  if channelID ≤ 0 then s
  else
    { s with selection := { s.selection with attempts := s.selection.attempts.map fun candidate =>
        if candidate.channelID = channelID then { candidate with filterReason := some reason }
        else candidate } }

def relayRetryLimit : Int :=
  if 0 < s.selection.attempts.length then (s.selection.attempts.length : Int) - 1
  else defaultTotalAttempts - 1

def nextLiveRouteCandidateIndex (round : Round) : Option Nat :=
  if round.requestDone then none
  else (s.selection.candidateAtOrAfter (s.retry + 1)).map (·.2)

def nextLiveRouteAttemptForError (round : Round) (channelID : Int) (c : RouteErrorClassification) :
    Option Nat :=
  if round.requestDone then none
  else (s.selection.nextCandidateForError (s.retry + 1) channelID c s.counters).map (·.2)

inductive Setup where
  | ok
  | noAvailableKey
  | failed

def excludedKeys : List (Int × Nat) :=
  match s.compact with
  | some compact => compact.attemptedKeys compact.stage
  | none => s.attemptedKeys

def setupContextForSelectedChannel (channelID : Int) (row : ChannelRow) : RelayState × Setup :=
  let s := { s with contextChannelID := channelID }
  if row.settingsFail then (s, .failed)
  else
    match row.keys.find? fun key => (channelID, key) ∉ s.excludedKeys with
    | none => (s, .noAvailableKey)
    | some key => ({ s with contextKeyIndex := key }, .ok)

end

/-- The loop of `getChannel`; `fuel` bounds its iterations. -/
def walkCandidates (round : Round) : Nat → RelayState → Nat → RelayState × Option Int
  | 0, s, _ => (s, none)
  | fuel + 1, s, candidateIndex =>
    match s.selection.candidateAtOrAfter candidateIndex with
    | none => (s, none)
    | some (candidate, actualIndex) =>
      match round.channel candidate.channelID with
      | none => (s, none)
      | some row =>
        if !row.enabled then
          walkCandidates round fuel
            (s.markLiveRouteCandidateFiltered candidate.channelID .channelDisabled)
            (actualIndex + 1)
        else
          let s := { s with retry := actualIndex }
          if actualIndex = 0 && s.contextChannelID = candidate.channelID then
            (s, some candidate.channelID)
          else
            match s.setupContextForSelectedChannel candidate.channelID row with
            | (s, .ok) => (s, some candidate.channelID)
            | (s, .noAvailableKey) =>
              walkCandidates round fuel
                (s.markLiveRouteCandidateFiltered candidate.channelID .keyUnavailable)
                (actualIndex + 1)
            | (s, .failed) => (s, none)

variable (s : RelayState)

variable (round : Round)

/-- `SelectRequestChannel`: a new selection, and the context set up for its first channel. -/
def selectRequestChannel : RelayState × Option Int :=
  match round.reselect with
  | none => (s, none)
  | some (selection, channelID) =>
    match round.channel channelID with
    | none => (s, none)
    | some row =>
      match { s with selection := selection }.setupContextForSelectedChannel channelID row with
      | (s, .ok) => (s, some channelID)
      | (s, _) => (s, none)

/-- `getChannel` for a compact request, which plans anew for every attempt. -/
def getCompactChannel (compact : CompactRetryState) (round : Round) : RelayState × Option Int :=
  match s.selectRequestChannel round with
  | (s, none) => ({ s with retry := 0 }, none)
  | (s, some channelID) =>
    let s := { s with retry := 0 }
    match s.lastError with
    | none => (s, some channelID)
    | some lastError =>
      if s.counters.totalAttempts ≤ 0 then (s, some channelID)
      else
        let c := classifyRouteError lastError.statusCode lastError.errorCode lastError.message false
        let c :=
          if compact.stage = .base && isCompactModelSemanticError lastError then
            { c with retryable := true }
          else c
        match s.selection.nextCandidateForError 0 ((s.previous.map (·.1)).getD 0) c s.counters with
        | none => (s, none)
        | some (candidate, index) =>
          let s := { s with retry := index }
          if candidate.channelID = channelID then (s, some channelID)
          else
            match round.channel candidate.channelID with
            | none => (s, none)
            | some row =>
              match s.setupContextForSelectedChannel candidate.channelID row with
              | (s, .ok) => (s, some candidate.channelID)
              | (s, _) => (s, none)

def getChannel : RelayState × Option Int :=
  match s.compact with
  | some compact => s.getCompactChannel compact round
  | none => walkCandidates round (s.selection.attempts.length + 1) s s.retry

section
variable (channelID : Int)

/-- Counts the attempt, remembers channel and key, and starts the call. -/
def beginLiveRouteUpstreamAttempt : RelayState :=
  let keyIndex := s.contextKeyIndex
  let counters :=
    match s.previous with
    | none => s.counters
    | some (previousChannelID, previousKeyIndex) =>
      if previousChannelID ≠ channelID then
        { s.counters with failoverAttempts := s.counters.failoverAttempts + 1 }
      else if previousKeyIndex = keyIndex then
        { s.counters with sameKeyAttempts := s.counters.sameKeyAttempts + 1 }
      else { s.counters with sameChannelAttempts := s.counters.sameChannelAttempts + 1 }
  { s with
    counters := { counters with totalAttempts := counters.totalAttempts + 1 }
    previous := some (channelID, keyIndex)
    attemptedKeys :=
      if channelID ≤ 0 then s.attemptedKeys else (channelID, keyIndex) :: s.attemptedKeys
    history := s.history ++
      [{ position := s.retry, channelID, keyIndex, committed := s.relayResponseCommitted }] }

/-- Of the upstream call, or that the lease was lost before the client had anything. -/
def attemptError (upstream : Upstream) : Option NewAPIError :=
  match upstream.error with
  | some e => some e
  | none =>
    if upstream.renewalFailed && !s.relayResponseCommitted then
      some { statusCode := 503, errorCode := "get_channel_failed"
             message := "route lease redis is unavailable", openAICode := "get_channel_failed"
             openAIMessage := "route lease redis is unavailable" }
    else none

/-- What the client has by the end of the upstream call stays with it. -/
def receive (upstream : Upstream) : RelayState :=
  { s with
    written := s.written || upstream.written, validOutput := s.validOutput || upstream.validOutput
    renewalFailed := s.renewalFailed || upstream.renewalFailed }

def liveClassification (e : NewAPIError) : RouteErrorClassification :=
  classifyRouteError e.statusCode e.errorCode e.message s.validOutput

def liveNextAttempt (e : NewAPIError) : Option Nat :=
  let streamCommitted := s.written || s.validOutput || s.realtime
  if canRouteFailover (s.liveClassification e) streamCommitted s.validOutput then
    s.nextLiveRouteAttemptForError round channelID (s.liveClassification e)
  else none

def afterError (e : NewAPIError) : Turn :=
  match s.compact with
  | some compact =>
    let c := s.liveClassification e
    let modelSemanticError := compact.stage = .exact && isCompactModelSemanticError e
    let retryable :=
      !s.relayResponseCommitted && (c.retryable || c.failoverable || modelSemanticError)
    match compact.advance e retryable with
    | some compact => .again { s with compact := some compact }
    | none => .stop s
  | none =>
    match s.liveNextAttempt round channelID e with
    | none => .stop s
    | some next => if round.backoffEnds then .again { s with retry := next } else .stop s

def afterAttempt : Turn :=
  let s := s.receive round.upstream
  match s.attemptError round.upstream with
  | none => .stop { s with lastError := none }
  | some e =>
    if round.upstream.hasSendResponse && s.renewalFailed then .stop { s with lastError := none }
    else { s with lastError := some e }.afterError round channelID e

def skip : Turn :=
  match s.nextLiveRouteCandidateIndex round with
  | some next => .again { s with retry := next }
  | none => .stop s

def leaseRefused (refusal : LeaseRefusal) : Turn :=
  let s :=
    match refusal with
    | .capacity => s.markLiveRouteCandidateFiltered channelID .capacityExhausted
    | .qualification reason => s.markLiveRouteCandidateFiltered channelID reason
    | .failed => s
  if liveRouteQualificationAllowsFailover refusal && !s.relayResponseCommitted &&
      (s.retry : Int) < s.relayRetryLimit then s.skip round
  else .stop s

def qualify : Turn :=
  if s.compact.isSome && round.configureFails then .stop s
  else if round.priceFails then .stop s
  else if !s.selection.allowsPriceRatio round.channelRatio then
    (s.markLiveRouteCandidateFiltered channelID .priceForbidden).skip round
  else
    match round.lease with
    | some refusal => s.leaseRefused round channelID refusal
    | none =>
      if round.billingFails then .stop s
      else
        let s := { s with compact := s.compact.map (·.recordAttempt channelID s.contextKeyIndex) }
        if round.bodyFails then .stop s
        else (s.beginLiveRouteUpstreamAttempt channelID).afterAttempt round channelID

end

/-- The lease of the last attempt is released at the head of the loop. -/
def releaseRouteAttemptLease : RelayState :=
  if 0 < s.counters.totalAttempts then
    { s with renewalFailed := s.renewalFailed || round.releaseFindsRenewalFailed }
  else s

def exhausted : Bool :=
  (0 < s.counters.totalAttempts && s.renewalFailed) ||
  defaultTotalAttempts ≤ s.counters.totalAttempts ||
  (s.compact.isNone && s.relayRetryLimit < s.retry)

def iterate : Turn :=
  let s := s.releaseRouteAttemptLease round
  if s.exhausted then .stop s
  else
    match s.getChannel round with
    | (s, some channelID) => s.qualify round channelID
    | (s, none) =>
      match s.compact.bind (·.switchToBase) with
      | some compact => .again { s with compact := some compact }
      | none => .stop s

def start (selection : LiveRouteSelection) (channelID : Int) (keyIndex : Nat) (realtime : Bool)
    (compact : Option CompactRetryState) : RelayState :=
  { realtime, selection, contextChannelID := channelID, contextKeyIndex := keyIndex, compact }

end RelayState

/-- The loop over the rounds. Once it is left the other rounds are not read. -/
def relay : RelayState → List Round → Turn
  | s, [] => .again s
  | s, round :: rounds =>
    match s.iterate round with
    | .again s => relay s rounds
    | .stop s => .stop s

end Ren2Hub.Relay
