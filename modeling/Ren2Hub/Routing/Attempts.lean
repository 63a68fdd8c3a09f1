import Mathlib.Data.Rat.Defs
import Ren2Hub.Lib.Spelling

namespace Ren2Hub.Relay
open Lib

inductive RouteErrorClass where
  | input
  | permission
  | key
  | transient
  | model
  | streamStarted
  | admission
  | unknown

structure RouteErrorClassification where
  errorClass : RouteErrorClass
  retryable : Bool := false
  failoverable : Bool := false
  markKey : Bool := false
  markCapability : Bool := false
  markChannelModel : Bool := false

def classifyRouteError (status : Int) (providerCode message : String) (streamStarted : Bool) :
    RouteErrorClassification :=
  let code := lower (trimSpace providerCode)
  let text := lower (trimSpace message)
  if streamStarted then { errorClass := .streamStarted }
  else if within "route_lease" code || within "route_admission" code ||
      within "route lease" text then { errorClass := .admission }
  else if within "invalid_api_key" code || within "invalid_credential" code ||
      within "authentication_error" code || within "invalid api key" text ||
      within "incorrect api key" text then
    { errorClass := .key, retryable := true, failoverable := true, markKey := true }
  else if within "model_not_found" code || within "unsupported_model" code ||
      within "model_not_supported" code || within "invalid_model" code ||
      within "model not found" text || within "unsupported model" text ||
      within "invalid model" text then
    { errorClass := .model, failoverable := true, markCapability := true }
  else if status = 400 || status = 422 || within "invalid_request" code then
    { errorClass := .input }
  else if status = 401 then
    { errorClass := .key, retryable := true, failoverable := true, markKey := true }
  else if status = 403 || within "permission" code then { errorClass := .permission }
  else if status = 408 || status = 409 || status = 425 || status = 429 || 500 ≤ status ||
      within "rate_limit" code || within "timeout" code then
    { errorClass := .transient, retryable := true, failoverable := true, markChannelModel := true }
  else
    { errorClass := .unknown, retryable := 500 ≤ status, failoverable := 500 ≤ status
      markChannelModel := 500 ≤ status }

def canRouteFailover (c : RouteErrorClassification) (streamStarted hasValidOutput : Bool) : Bool :=
  if streamStarted || hasValidOutput then false else c.failoverable

structure RouteRetryBudget where
  sameKeyAttempts : Int
  sameChannelAttempts : Int
  failoverAttempts : Int
  totalAttempts : Int

structure RouteRetryCounters where
  sameKeyAttempts : Int := 0
  sameChannelAttempts : Int := 0
  failoverAttempts : Int := 0
  totalAttempts : Int := 0

inductive RouteRetryRelation where
  | sameKey
  | sameChannel
  | failover
deriving DecidableEq, Repr

def defaultSameKeyAttempts : Int := 0

def defaultSameChannelAttempts : Int := 1

def defaultFailoverAttempts : Int := 2

def defaultTotalAttempts : Int := 3

def defaultRouteRetryBudget : RouteRetryBudget where
  sameKeyAttempts := defaultSameKeyAttempts
  sameChannelAttempts := defaultSameChannelAttempts
  failoverAttempts := defaultFailoverAttempts
  totalAttempts := defaultTotalAttempts

def RouteRetryBudget.allows (b : RouteRetryBudget) (c : RouteErrorClassification)
    (relation : RouteRetryRelation) (counters : RouteRetryCounters) : Bool :=
  if b.totalAttempts ≤ counters.totalAttempts then false
  else
    match relation with
    | .sameKey => c.retryable && counters.sameKeyAttempts < b.sameKeyAttempts
    | .sameChannel => c.retryable && counters.sameChannelAttempts < b.sameChannelAttempts
    | .failover => c.failoverable && counters.failoverAttempts < b.failoverAttempts

/-- The modes a manual policy may name, `auto`, and the empty string. -/
inductive RetryMode where
  | unset
  | none
  | sameChannel
  | nextChannel
  | sameThenNext
  | auto
deriving DecidableEq, Repr

structure RouteLiveRetryPolicy where
  mode : RetryMode
  maxSameResourceAttempts : Int
  maxFailoverAttempts : Int

/-- A number of attempts cut to what the system grants. -/
def clampAttempts (granted n : Int) : Int :=
  let n := if n < 0 then 0 else n
  if granted < n then granted else n

def RouteLiveRetryPolicy.budget (policy : RouteLiveRetryPolicy) : RouteRetryBudget :=
  if policy.mode = .unset then defaultRouteRetryBudget
  else
    { sameKeyAttempts := defaultSameKeyAttempts
      sameChannelAttempts := clampAttempts defaultSameChannelAttempts policy.maxSameResourceAttempts
      failoverAttempts := clampAttempts defaultFailoverAttempts policy.maxFailoverAttempts
      totalAttempts := defaultTotalAttempts }

inductive FilterReason where
  | snapshotUnavailable
  | snapshotStale
  | unknownCapability
  | unsupported
  | channelDisabled
  | abilityDisabled
  | tokenForbidden
  | pathUnsupported
  | priceForbidden
  | securityForbidden
  | entitlementRevoked
  | mappingConflict
  | keyUnavailable
  | healthUnavailable
  | capacityExhausted
  | configurationStale
  | groupDisabled
  | entryMissing
  | entryDisabled
  | sourceUnsupported
  | originChannelMismatch
  | profileMissing
  | profileDisabled
  | profileModeMismatch
  | activeGroupMissing
  | runtimeQualificationUnavailable
deriving DecidableEq, Repr

/-- One entry of the attempt list. No filter reason is the empty string of the source. -/
structure RouteDecisionCandidate where
  channelID : Int
  filterReason : Option FilterReason := none

/-- A request without a source never reaches the loop. -/
inductive RouteSource where
  | autoLab
  | manual
deriving DecidableEq, Repr

structure LiveRouteSelection where
  source : RouteSource
  attempts : List RouteDecisionCandidate
  maxRatio : Rat := 0
  retry : RouteLiveRetryPolicy

namespace LiveRouteSelection

variable (selection : LiveRouteSelection)

/-- The ratio is `none` for a float that is not a number or infinite. -/
def allowsPriceRatio (actualRatio : Option Rat) : Bool :=
  if selection.source ≠ .manual || selection.maxRatio ≤ 0 then true
  else
    match actualRatio with
    | none => false
    | some actual => if actual < 0 then false else actual ≤ selection.maxRatio

/-- The first entry of a suffix of the list that `p` accepts, with its position. -/
def scan (p : RouteDecisionCandidate → Bool) :
    List RouteDecisionCandidate → Nat → Option (RouteDecisionCandidate × Nat)
  | [], _ => none
  | candidate :: rest, index =>
    if p candidate then some (candidate, index) else scan p rest (index + 1)

def candidateAtOrAfter (attempt : Nat) : Option (RouteDecisionCandidate × Nat) :=
  scan (·.filterReason.isNone) (selection.attempts.drop attempt) attempt

/-- `start` is the position after the current attempt. -/
def nextCandidateForError (start : Nat) (currentChannelID : Int) (c : RouteErrorClassification)
    (counters : RouteRetryCounters) : Option (RouteDecisionCandidate × Nat) :=
  if selection.retry.mode = .none then none
  else
    scan
      (fun candidate =>
        let relation : RouteRetryRelation :=
          if candidate.channelID = currentChannelID then .sameChannel else .failover
        if candidate.filterReason.isSome then false
        else if selection.retry.mode = .sameChannel && relation ≠ .sameChannel then false
        else if selection.retry.mode = .nextChannel && relation ≠ .failover then false
        else selection.retry.budget.allows c relation counters)
      (selection.attempts.drop start) start

end LiveRouteSelection

/-- The choice in order, each channel once, and every candidate with the reason if refused. -/
structure RouteSelectionResult where
  candidates : List Int
  decision : List RouteDecisionCandidate
  distinct : candidates.Nodup

variable (result : RouteSelectionResult)

def availableRouteAttemptCandidates : List RouteDecisionCandidate :=
  result.candidates.filterMap fun channelID =>
    result.decision.find? fun d => d.channelID = channelID && d.filterReason.isNone

def selectedRouteAttemptCandidates : List RouteDecisionCandidate :=
  (availableRouteAttemptCandidates result).flatMap fun candidate =>
    if 0 < defaultSameChannelAttempts then [candidate, candidate] else [candidate]

def appendSameResource (policy : RouteLiveRetryPolicy) (candidate : RouteDecisionCandidate) :
    List RouteDecisionCandidate :=
  List.replicate
    ((clampAttempts defaultSameChannelAttempts policy.maxSameResourceAttempts).toNat + 1) candidate

def manualRouteAttemptCandidates (policy : RouteLiveRetryPolicy) : List RouteDecisionCandidate :=
  let failovers := (clampAttempts defaultFailoverAttempts policy.maxFailoverAttempts).toNat
  match availableRouteAttemptCandidates result with
  | [] => []
  | first :: rest =>
    match policy.mode with
    | .none => [first]
    | .sameChannel => appendSameResource policy first
    | .sameThenNext => ((first :: rest).take (failovers + 1)).flatMap (appendSameResource policy)
    | .nextChannel | .unset | .auto => (first :: rest).take (failovers + 1)

/-- What `SelectLiveTokenRoute` returns: the policy of a manual profile, or the automatic one. -/
def plannedSelection (maxRatio : Rat) : Option RouteLiveRetryPolicy → LiveRouteSelection
  | some policy =>
    { source := .manual, attempts := manualRouteAttemptCandidates result policy
      maxRatio := maxRatio, retry := policy }
  | none =>
    { source := .autoLab, attempts := selectedRouteAttemptCandidates result
      retry :=
        { mode := .auto, maxSameResourceAttempts := defaultSameChannelAttempts
          maxFailoverAttempts := defaultFailoverAttempts } }

end Ren2Hub.Relay
