import Ren2Hub.Lib.Checks
import Ren2Hub.Routing.Relay
import Ren2Hub.Routing.Snapshot

namespace Ren2Hub.Qualify
open Lib Relay
open Routing (CapabilityTables findActiveChannelCapabilities)

/-- Tables of the standard library: lower case, the normalization form KC, and matching a regular
expression (false if it does not compile). -/
structure Spelling where
  toLower : String → String
  nfkc : String → String
  regexMatch : String → String → Bool

def stripTags (value : String) : String :=
  [":free", ":thinking", ":low", ":medium", ":high"].foldl (fun value tag => dropEnd tag value)
    (dropEnd "@default" value)

/-- The loop of `normalize`. An iteration that changes the text makes it shorter. -/
def stripLoop : Nat → String → String
  | 0, value => value
  | fuel + 1, value => if stripTags value = value then value else stripLoop fuel (stripTags value)

variable (u : Spelling)

def normalizeModel (value : String) : String :=
  let value := u.nfkc (u.toLower (trimSpace value))
  stripLoop (value.length + 1) value

def compactModelSuffix : String := "-openai-compact"

def compactBaseModelName (modelName : String) : String := dropEnd compactModelSuffix modelName

def isGPTCompactBaseModel (modelName : String) : Bool :=
  let baseModel := compactBaseModelName modelName
  startsWith "gpt-" baseModel && "gpt-".length < baseModel.length

def withCompactModelSuffix (modelName : String) : String :=
  let baseModel := compactBaseModelName modelName
  if !isGPTCompactBaseModel baseModel then baseModel else baseModel ++ compactModelSuffix

def handleThinkingBudgetModel (name start wildcard : String) : String :=
  if startsWith start name && within "-thinking-" name then wildcard else name

def formatMatchingModelName (name : String) : String :=
  let hasCompactSuffix := endsWith compactModelSuffix name
  let name := if hasCompactSuffix then compactBaseModelName name else name
  let name :=
    if startsWith "gemini-2.5-flash-lite" name then
      handleThinkingBudgetModel name "gemini-2.5-flash-lite" "gemini-2.5-flash-lite-thinking-*"
    else if startsWith "gemini-2.5-flash" name then
      handleThinkingBudgetModel name "gemini-2.5-flash" "gemini-2.5-flash-thinking-*"
    else if startsWith "gemini-2.5-pro" name then
      handleThinkingBudgetModel name "gemini-2.5-pro" "gemini-2.5-pro-thinking-*"
    else name
  let name := if startsWith "gpt-4-gizmo" name then "gpt-4-gizmo-*" else name
  let name := if startsWith "gpt-4o-gizmo" name then "gpt-4o-gizmo-*" else name
  if hasCompactSuffix && isGPTCompactBaseModel name then withCompactModelSuffix name else name

/-- A limit is the set of names it allows. -/
def tokenAllowsRouteModel (limit : List String) (modelName : String) : Bool :=
  modelName ∈ limit || formatMatchingModelName modelName ∈ limit

inductive EndpointType where
  | openAI
  | openAIResponseCompact
  | openAIResponse
  | openAIAlphaSearch
  | anthropic
  | jinaRerank
  | imageGeneration
  | embeddings
  | midjourney
  | suno
  | openAIVideo
  | audio
  | realtime
  | gemini
deriving DecidableEq, Repr

def endpointTypeForRequestPath (requestPath : String) : Option EndpointType :=
  let path := trimSpace requestPath
  if startsWith "/v1/chat/completions" path || startsWith "/pg/chat/completions" path then
    some .openAI
  else if startsWith "/v1/responses/compact" path then some .openAIResponseCompact
  else if startsWith "/v1/responses" path then some .openAIResponse
  else if startsWith "/v1/alpha/search" path then some .openAIAlphaSearch
  else if startsWith "/v1/messages" path then some .anthropic
  else if startsWith "/v1/rerank" path then some .jinaRerank
  else if startsWith "/v1/images/generations" path || path = "/v1/images/edits" ||
      path = "/v1/edits" then some .imageGeneration
  else if startsWith "/v1/embeddings" path then some .embeddings
  else if within "/mj/" path then some .midjourney
  else if startsWith "/suno/" path then some .suno
  else if startsWith "/v1/videos" path || startsWith "/v1/video" path ||
      startsWith "/kling/" path || startsWith "/jimeng/" path then some .openAIVideo
  else if startsWith "/v1/audio/" path then some .audio
  else if startsWith "/v1/realtime" path then some .realtime
  else if path = "/v1/completions" || path = "/v1/moderations" then some .openAI
  else if startsWith "/v1beta/models" path || startsWith "/v1/models" path then some .gemini
  else none

/-- A route of an Advanced Custom channel, as far as matching reads it. -/
structure AdvancedCustomRoute where
  incomingPath : String
  models : List String

def advancedCustomModelPlaceholder : String := "\x7bmodel\x7d"

def matchAdvancedCustomIncomingPathTemplate (configuredPath requestPath : String) : Bool :=
  match cut advancedCustomModelPlaceholder configuredPath with
  | none => configuredPath = requestPath
  | some (before, after) =>
    if within advancedCustomModelPlaceholder after then false
    else if !startsWith before requestPath || !endsWith after requestPath then false
    else
      let model := dropEnd after (dropStart before requestPath)
      model ≠ "" && !within "/" model

def matchAdvancedCustomIncomingPath (configuredPath requestPath : String) : Bool :=
  if matchAdvancedCustomIncomingPathTemplate configuredPath requestPath then true
  else
    match cut ":generateContent" configuredPath with
    | none => false
    | some (before, after) =>
      matchAdvancedCustomIncomingPathTemplate (before ++ ":streamGenerateContent" ++ after)
        requestPath

def matchAdvancedCustomRouteModelRule (rule model : String) : Bool :=
  if !startsWith "re:" rule then rule = model
  else
    let pattern := dropStart "re:" rule
    if pattern = "" then false else u.regexMatch pattern model

def matchAdvancedCustomRouteModel (models : List String) (model : String) : Bool :=
  let normalizedModels := (models.map trimSpace).filter (· ≠ "")
  if normalizedModels.isEmpty then true
  else normalizedModels.any fun allowed => matchAdvancedCustomRouteModelRule u allowed model

def supportsPathForModel (routes : List AdvancedCustomRoute) (requestPath model : String) : Bool :=
  routes.any fun route =>
    matchAdvancedCustomIncomingPath (trimSpace route.incomingPath) requestPath &&
      matchAdvancedCustomRouteModel u route.models (trimSpace model)

/-- The decoded columns that the filter reads. `paths` is missing when the column holds no route. -/
structure CapabilityColumns where
  source : String := "catalog"
  confidence : Rat := 1
  abilityGroups : List String := ["default"]
  endpointTypes : List EndpointType
  paths : Option (List AdvancedCustomRoute) := none

abbrev Capability := Routing.ChannelModelCapability CapabilityColumns

inductive ChannelType where
  | advancedCustom
  | miniMax
  | volcEngine
  | other
deriving DecidableEq, Repr

structure FilterInput where
  capability : Capability
  snapshotVersion : Int
  channelEnabled : Bool
  channelType : ChannelType
  abilityEnabled : Bool
  rowLimitEnabled : Bool := false
  rowLimit : List String := []
  tokenLimitEnabled : Bool
  tokenLimit : List String
  requestModel : String
  normalizedModel : String
  requestPath : String
  endpointType : Option EndpointType
  entitled : Bool

section
variable (input : FilterInput)

/-- The name the token's limits are asked for. -/
def FilterInput.modelName : String :=
  if input.normalizedModel = "" then input.requestModel else input.normalizedModel

def FilterInput.limitAllows : Bool :=
  !(input.tokenLimitEnabled || input.rowLimitEnabled) ||
    tokenAllowsRouteModel input.tokenLimit input.modelName ||
    tokenAllowsRouteModel input.rowLimit input.modelName

def resolved (capability : Capability) : Bool :=
  capability.state = .eligible && !blank capability.labSlug &&
    lower (trimSpace capability.projection.source) ≠ "unknown" &&
      9 / 10 ≤ capability.projection.confidence

def unresolvedReason (capability : Capability) : FilterReason :=
  match capability.state with
  | .conflict => .mappingConflict
  | .unsupported | .disabled => .unsupported
  | _ => .unknownCapability

def FilterInput.endpointAllowed : Bool :=
  match input.endpointType with
  | none => false
  | some endpoint => endpoint ∈ input.capability.projection.endpointTypes

def FilterInput.audioAllowed : Bool :=
  !(input.endpointType = some .audio &&
    (input.channelType = .miniMax || input.channelType = .volcEngine) &&
    input.requestPath ≠ "/v1/audio/speech")

def FilterInput.routeAllowed : Bool :=
  if input.channelType = .advancedCustom then
    match input.capability.projection.paths with
    | none => false
    | some routes => supportsPathForModel u routes input.requestPath input.requestModel
  else true

/-- Both callers require a snapshot and an endpoint; none reports a failed price or security check.
-/
def filterRouteCapability : Except FilterReason Unit := do
  require input.channelEnabled .channelDisabled
  require (0 < input.snapshotVersion) .snapshotUnavailable
  require (input.capability.channelID ≠ 0) .unknownCapability
  require (input.capability.snapshotVersion = input.snapshotVersion) .snapshotStale
  require (resolved input.capability) (unresolvedReason input.capability)
  require input.abilityEnabled .abilityDisabled
  require input.limitAllows .tokenForbidden
  require input.endpointAllowed .pathUnsupported
  require input.audioAllowed .pathUnsupported
  require (input.routeAllowed u) .pathUnsupported
  require input.entitled .entitlementRevoked

end

/-- Its enabled keys, and whether it takes a native Responses request for a model or, given the
models of its enabled abilities, a compact stage. -/
structure Channel where
  enabled : Bool := true
  type : ChannelType := .other
  enabledKeys : List Nat := [0]
  nativeResponses : String → Bool := fun _ => true
  compactSupportsStage : List String → String → String → CompactAttemptStage → Bool :=
    fun _ _ _ _ => true

structure Ability where
  channelID : Int
  model : String
  enabled : Bool

structure Token where
  userID : Int
  enabled : Bool := true
  expiredTime : Int := -1
  modelLimitsEnabled : Bool := false
  modelLimits : List String := []

/-- The mode is missing if it names no source. -/
structure UserRouteProfile where
  profileID : Int
  mode : Option RouteSource
  activeGroupID : Option Int := none
  version : Int := 1
  enabled : Bool := true

structure UserRouteGroup where
  profileID : Int
  enabled : Bool := true

structure UserRouteEntry where
  enabled : Bool := true
  platform : Bool := true

structure Entitlement where
  enabled : Bool := true
  revokedAt : Int := 0
  expiresAt : Int := 0

/-- The database by unique columns, and the clock; `health` is the breaker of a channel and model.
-/
structure RouteState where
  tables : CapabilityTables CapabilityColumns
  channels : Int → Option Channel
  abilities : List Ability := []
  userEnabled : Int → Option Bool
  tokens : Int → Option Token := fun _ => none
  profiles : Int → Int → Option UserRouteProfile := fun _ _ => none
  groups : Int → Option UserRouteGroup := fun _ => none
  entries : Int → Int → Option UserRouteEntry := fun _ _ => none
  entitlements : Int → Int → Option Entitlement := fun _ _ => none
  health : Int → String → Bool := fun _ _ => true
  now : Int := 0

namespace RouteState

variable (st : RouteState)

/-- The pointer of a channel whose snapshot is active, else 0. -/
def activeVersion (channelID : Int) : Int :=
  match st.tables.snapshots channelID with
  | none => 0
  | some snapshot =>
    if 0 < snapshot.activeVersion && snapshot.refreshStatus = .active then snapshot.activeVersion
    else 0

/-- `RebuildRouteCapabilityIndex`: the rows the index holds for a model. -/
def byRequestModel (lookupModel : String) : List Capability :=
  st.tables.capabilities.filter fun row =>
    row.requestModel = lookupModel && st.activeVersion row.channelID = row.snapshotVersion &&
      (st.channels row.channelID).isSome

def entitlementIsActive (e : Entitlement) : Bool :=
  e.enabled && e.revokedAt = 0 && (e.expiresAt = 0 || st.now < e.expiresAt)

def entitled (userID channelID : Int) : Bool :=
  match st.entitlements userID channelID with
  | none => true
  | some e => st.entitlementIsActive e

def routeTokenUsable (token : Token) : Bool :=
  token.enabled && (token.expiredTime = -1 || st.now < token.expiredTime)

end RouteState

/-- `tokenID` 0 is a request without a token, `specificChannelID` 0 one not bound to a channel.
`billingModel` is the requested name unless a compact stage has another. -/
structure LiveRouteRequest where
  capabilityEnabled : Bool := true
  userID : Int
  tokenID : Nat
  isPlayground : Bool := false
  specificChannelID : Nat := 0
  requestModel : String
  billingModel : String
  requestPath : String
  compactStage : Option CompactAttemptStage := none
  nativeResponsesRequired : Bool := false
  tokenModelLimitEnabled : Bool := false
  tokenModelLimit : List String := []
  excludedKeyIndexes : Int → List Nat := fun _ => []
  excludedChannelIDs : Int → Option FilterReason := fun _ => none

structure RouteCandidate where
  channelID : Int
  requestModel : String
  snapshotVersion : Int
  catalogVersion : String
  filterReason : Option FilterReason
deriving DecidableEq, Repr

inductive SelectError where
  | profileUnavailable
  | selectionUnavailable
  | profileValidation
  | profileForbidden
deriving DecidableEq, Repr

structure RoutePlan where
  source : RouteSource
  configurationVersion : Int
  groupID : Option Int
deriving DecidableEq, Repr

structure SelectedRoute extends RoutePlan where
  candidates : List RouteCandidate
deriving DecidableEq, Repr

variable (st : RouteState)

variable (input : LiveRouteRequest)

def planRoute : Except SelectError RoutePlan := do
  require (input.capabilityEnabled && 0 < input.userID && (0 < input.tokenID || input.isPlayground))
    .profileUnavailable
  let profile :=
    if 0 < input.tokenID && input.specificChannelID = 0 then st.profiles input.userID input.tokenID
    else none
  match profile with
  | none => .ok ⟨.autoLab, 0, none⟩
  | some profile =>
    require profile.enabled .selectionUnavailable
    match profile.mode with
    | none => .error .profileValidation
    | some .autoLab => .ok ⟨.autoLab, profile.version, none⟩
    | some .manual =>
      require (0 < profile.profileID) .profileForbidden
      let groupID ← present profile.activeGroupID .selectionUnavailable
      let group ← present (st.groups groupID) .selectionUnavailable
      require (group.profileID = profile.profileID) .selectionUnavailable
      require group.enabled .selectionUnavailable
      .ok ⟨.manual, profile.version, some groupID⟩

def lookupModels : List String :=
  match input.compactStage with
  | none => [normalizeModel u input.requestModel]
  | some stage =>
    let base := compactBaseModelName input.requestModel
    match stage with
    | .exact => [normalizeModel u (withCompactModelSuffix base), normalizeModel u base]
    | .base => [normalizeModel u base]

def selectionInput (row : Capability) (channel : Channel) : FilterInput where
  capability := row
  snapshotVersion := row.snapshotVersion
  channelEnabled := channel.enabled
  channelType := channel.type
  abilityEnabled := !row.projection.abilityGroups.isEmpty
  tokenLimitEnabled := input.tokenModelLimitEnabled
  tokenLimit := input.tokenModelLimit
  requestModel := input.requestModel
  normalizedModel := normalizeModel u input.requestModel
  requestPath := input.requestPath
  endpointType := endpointTypeForRequestPath input.requestPath
  entitled := st.entitled input.userID row.channelID

def refusal : Except FilterReason Unit → Option FilterReason
  | .ok () => none
  | .error reason => some reason

/-- The filter, then the checks that overwrite its reason. -/
def candidateReason (plan : RoutePlan) (row : Capability) (channel : Channel) :
    Option FilterReason :=
  let reason := refusal (filterRouteCapability u (selectionInput u st input row channel))
  let reason :=
    match plan.groupID.bind fun groupID => st.entries groupID row.channelID with
    | none => reason
    | some entry => if !entry.enabled || !entry.platform then some .entryDisabled else reason
  let reason :=
    if input.nativeResponsesRequired && !channel.nativeResponses input.requestModel then
      some .pathUnsupported
    else reason
  let reason :=
    match input.compactStage with
    | none => reason
    | some stage =>
      let base := compactBaseModelName input.requestModel
      let abilities := (st.abilities.filter fun a => a.channelID = row.channelID && a.enabled).map
        (·.model)
      if channel.compactSupportsStage abilities base (withCompactModelSuffix base) stage then reason
      else some .pathUnsupported
  let reason :=
    if channel.enabledKeys.any fun key => key ∉ input.excludedKeyIndexes row.channelID then reason
    else some .keyUnavailable
  match input.excludedChannelIDs row.channelID with
  | some excluded => some excluded
  | none => reason

def routeCandidate (plan : RoutePlan) (row : Capability) (channel : Channel) : RouteCandidate where
  channelID := row.channelID
  requestModel := row.requestModel
  snapshotVersion := row.snapshotVersion
  catalogVersion := row.catalogVersion
  filterReason := candidateReason u st input plan row channel

/-- One indexed row in the loop of the planner. A channel it has is kept unless it was
refused. -/
def considerRow (plan : RoutePlan) (candidates : List RouteCandidate) (row : Capability) :
    List RouteCandidate :=
  if 0 < input.specificChannelID && row.channelID ≠ input.specificChannelID then candidates
  else if plan.groupID.any fun groupID => (st.entries groupID row.channelID).isNone then candidates
  else if candidates.any fun c => c.channelID = row.channelID && c.filterReason.isNone then
    candidates
  else
    match st.channels row.channelID with
    | none => candidates
    | some channel =>
      let candidate := routeCandidate u st input plan row channel
      if candidates.any fun c => c.channelID = row.channelID then
        candidates.map fun c => if c.channelID = row.channelID then candidate else c
      else candidates ++ [candidate]

/-- A candidate whose breaker is open is refused for that. -/
def RouteCandidate.withHealth (c : RouteCandidate) : RouteCandidate :=
  if c.filterReason.isNone && !st.health c.channelID c.requestModel then
    { c with filterReason := some .healthUnavailable }
  else c

/-- `SelectLiveTokenRoute` up to the order of its candidates. -/
def selectLiveTokenRoute : Except SelectError SelectedRoute := do
  let plan ← planRoute st input
  let rows := (lookupModels u input).flatMap st.byRequestModel
  let candidates := rows.foldl (considerRow u st input plan) []
  .ok { toRoutePlan := plan
        candidates := (candidates.map (·.withHealth st)).filter (0 < ·.channelID) }

structure QualificationRequest where
  isPlayground : Bool
  specificChannelID : Nat
  permissionModel : String
  routeSource : RouteSource
  userID : Int
  tokenID : Nat
  channelID : Int
  requestModel : String
  requestPath : String
  expectedSnapshotVersion : Int
  expectedCatalogVersion : String
  expectedProfileVersion : Int

def SelectedRoute.qualification (selection : SelectedRoute) (input : LiveRouteRequest)
    (c : RouteCandidate) : QualificationRequest where
  isPlayground := input.isPlayground
  specificChannelID := input.specificChannelID
  permissionModel := input.billingModel
  routeSource := selection.source
  userID := input.userID
  tokenID := input.tokenID
  channelID := c.channelID
  requestModel := c.requestModel
  requestPath := input.requestPath
  expectedSnapshotVersion := c.snapshotVersion
  expectedCatalogVersion := c.catalogVersion
  expectedProfileVersion := selection.configurationVersion

inductive RecheckError where
  | unavailable
  | database
  | refused (reason : FilterReason)
deriving DecidableEq, Repr

variable (input : QualificationRequest)

def recheckToken : Except RecheckError (Option Token) :=
  if 0 < input.tokenID then do
    let token ← present (st.tokens input.tokenID) (.refused .tokenForbidden)
    require (token.userID = input.userID) (.refused .tokenForbidden)
    require (st.routeTokenUsable token) (.refused .tokenForbidden)
    .ok (some token)
  else do
    require input.isPlayground (.refused .tokenForbidden)
    .ok none

def recheckProfile : Except RecheckError Unit :=
  if 0 < input.specificChannelID then
    require (input.channelID = input.specificChannelID) (.refused .originChannelMismatch)
  else if 0 < input.tokenID then
    match st.profiles input.userID input.tokenID with
    | none =>
      require (input.routeSource = .autoLab && input.expectedProfileVersion = 0)
        (.refused .profileMissing)
    | some profile => do
      require profile.enabled (.refused .profileDisabled)
      require (profile.version = input.expectedProfileVersion) (.refused .configurationStale)
      require (profile.mode = some input.routeSource) (.refused .profileModeMismatch)
      if input.routeSource = .manual then do
        let groupID ← present profile.activeGroupID (.refused .activeGroupMissing)
        let group ← present (st.groups groupID) (.refused .activeGroupMissing)
        require (group.profileID = profile.profileID) (.refused .activeGroupMissing)
        require group.enabled (.refused .groupDisabled)
        let entry ← present (st.entries groupID input.channelID) (.refused .entryMissing)
        require (entry.platform && entry.enabled) (.refused .entryDisabled)
      else .ok ()
  else .ok ()

def RouteState.activeRow (channelID : Int) (name : String) : Option Capability :=
  (findActiveChannelCapabilities [channelID] name "" st.tables).find? fun row =>
    row.channelID = channelID && row.requestModel = name

def RouteState.abilityEnabled (channelID : Int) (name : String) : Bool :=
  st.abilities.any fun a =>
    a.channelID = channelID && normalizeModel u a.model = name && a.enabled

/-- What the recheck hands to the filter, with the name under which the row was found. -/
def recheckInput (name : String) (row : Capability) (channel : Channel) (token : Option Token) :
    FilterInput where
  capability := row
  snapshotVersion := st.activeVersion input.channelID
  channelEnabled := channel.enabled
  channelType := channel.type
  abilityEnabled := st.abilityEnabled u input.channelID name
  rowLimitEnabled := token.any (·.modelLimitsEnabled)
  rowLimit := (token.map (·.modelLimits)).getD []
  tokenLimitEnabled := token.any (·.modelLimitsEnabled)
  tokenLimit := (token.map (·.modelLimits)).getD []
  requestModel := trimSpace input.requestModel
  normalizedModel :=
    if input.permissionModel = "" then name else normalizeModel u input.permissionModel
  requestPath := input.requestPath
  endpointType := endpointTypeForRequestPath input.requestPath
  entitled := st.entitled input.userID input.channelID

def recheckLiveRouteCandidate : Except RecheckError Unit := do
  require (0 < input.userID && 0 < input.channelID) .unavailable
  let name := normalizeModel u (trimSpace input.requestModel)
  require (name ≠ "") (.refused .unknownCapability)
  let channel ← present (st.channels input.channelID) (.refused .channelDisabled)
  require (0 < st.activeVersion input.channelID) (.refused .snapshotUnavailable)
  require (0 < input.expectedSnapshotVersion &&
    st.activeVersion input.channelID = input.expectedSnapshotVersion) (.refused .snapshotStale)
  let row ← present (st.activeRow input.channelID name) (.refused .unknownCapability)
  require (row.channelID ≠ 0) (.refused .unknownCapability)
  require (input.expectedCatalogVersion = "" || row.catalogVersion = input.expectedCatalogVersion)
    (.refused .snapshotStale)
  let enabled ← present (st.userEnabled input.userID) .database
  require enabled (.refused .tokenForbidden)
  let token ← recheckToken st input
  recheckProfile st input
  (filterRouteCapability u (recheckInput u st input name row channel token)).mapError .refused

end Ren2Hub.Qualify
