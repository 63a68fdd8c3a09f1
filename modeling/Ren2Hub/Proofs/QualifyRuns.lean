import Ren2Hub.Routing.Qualify

namespace Ren2Hub.Qualify
open Lib Relay List
open Routing (findActiveChannelCapabilities)

variable {u : Spelling} {st : RouteState} {input : LiveRouteRequest} {plan : RoutePlan}

/-- Where a candidate of the planner comes from. -/
structure Origin (u : Spelling) (st : RouteState) (input : LiveRouteRequest) (plan : RoutePlan)
    (row : Capability) (channel : Channel) (c : RouteCandidate) : Prop where
  active : st.activeVersion row.channelID = row.snapshotVersion
  found : st.channels row.channelID = some channel
  bound : 0 < input.specificChannelID → row.channelID = input.specificChannelID
  listed : ∀ groupID, plan.groupID = some groupID → (st.entries groupID row.channelID).isSome
  built : c = routeCandidate u st input plan row channel

theorem considerRow_origin (hrow : st.activeVersion row.channelID = row.snapshotVersion)
    (h : ∀ c ∈ candidates, ∃ row channel, Origin u st input plan row channel c) :
    ∀ c ∈ considerRow u st input plan candidates row,
      ∃ row channel, Origin u st input plan row channel c := by
  unfold considerRow
  split
  next => exact h
  next hbound =>
  split
  next => exact h
  next hlisted =>
  split
  next => exact h
  next =>
  split
  next => exact h
  next channel hfound =>
  have hnew : Origin u st input plan row channel (routeCandidate u st input plan row channel) := by
    refine ⟨hrow, hfound, ?_, ?_, rfl⟩
    · intro hs
      simpa [hs] using hbound
    · intro groupID hg
      simpa [hg, Option.isSome_iff_ne_none] using hlisted
  split
  next =>
    intro c hc
    obtain ⟨d, hd, rfl⟩ := mem_map.mp hc
    split
    · exact ⟨row, channel, hnew⟩
    · exact h d hd
  next =>
    intro c hc
    rcases mem_append.mp hc with hc | hc
    · exact h c hc
    · rw [mem_singleton.mp hc]
      exact ⟨row, channel, hnew⟩

theorem foldl_origin (rows : List Capability) (candidates : List RouteCandidate)
    (hrows : ∀ row ∈ rows, st.activeVersion row.channelID = row.snapshotVersion)
    (h : ∀ c ∈ candidates, ∃ row channel, Origin u st input plan row channel c) :
    ∀ c ∈ rows.foldl (considerRow u st input plan) candidates,
      ∃ row channel, Origin u st input plan row channel c := by
  induction rows generalizing candidates with
  | nil => exact h
  | cons row rows ih =>
    refine ih _ (fun r hr => hrows r (mem_cons_of_mem _ hr)) ?_
    exact considerRow_origin (hrows row mem_cons_self) h

theorem byRequestModel_active (h : row ∈ st.byRequestModel name) :
    st.activeVersion row.channelID = row.snapshotVersion := by
  have := (mem_filter.mp h).2
  simp only [Bool.and_eq_true, decide_eq_true_eq] at this
  exact this.1.2

theorem withHealth_usable {c : RouteCandidate} (h : (c.withHealth st).filterReason = none) :
    c.withHealth st = c := by
  unfold RouteCandidate.withHealth at h ⊢
  split
  next hu =>
    rw [if_pos hu] at h
    cases h
  next => rfl

theorem selected_origin {c : RouteCandidate} (h : selectLiveTokenRoute u st input = .ok selection)
    (hc : c ∈ selection.candidates) (hf : c.filterReason = none) :
    planRoute st input = .ok selection.toRoutePlan ∧ 0 < c.channelID ∧
      ∃ row channel, Origin u st input selection.toRoutePlan row channel c := by
  simp only [selectLiveTokenRoute, bind_ok] at h
  obtain ⟨plan, hplan, hs⟩ := h
  cases hs
  obtain ⟨hm, hpos⟩ := mem_filter.mp hc
  obtain ⟨d, hd, rfl⟩ := mem_map.mp hm
  rw [withHealth_usable hf] at hpos ⊢
  refine ⟨hplan, by simpa using hpos, ?_⟩
  refine foldl_origin _ [] (fun row hrow => ?_) (by simp) d hd
  obtain ⟨name, -, hn⟩ := mem_flatMap.mp hrow
  exact byRequestModel_active hn

theorem refusal_none : refusal x = none ↔ x = .ok () := by
  cases x <;> simp [refusal]

theorem compactStage_reason {supports : CompactAttemptStage → Bool} {reason : Option FilterReason}
    (h : (match stage with
      | none => reason
      | some stage => if supports stage then reason else some .pathUnsupported) = none) :
    reason = none := by
  cases stage with
  | none => exact h
  | some stage =>
    dsimp only at h
    split at h
    · exact h
    · cases h

theorem candidateReason_none {channel : Channel}
    (h : candidateReason u st input plan row channel = none) :
    filterRouteCapability u (selectionInput u st input row channel) = .ok () ∧
      ∀ groupID entry, plan.groupID = some groupID → st.entries groupID row.channelID = some entry →
        entry.enabled ∧ entry.platform := by
  unfold candidateReason at h
  dsimp only at h
  split at h
  next => cases h
  next =>
  split at h
  case isFalse => cases h
  case isTrue =>
  replace h := compactStage_reason h
  split at h
  next => cases h
  next =>
  split at h
  next hnone =>
    refine ⟨refusal_none.mp h, fun groupID entry hg he => ?_⟩
    rw [hg, Option.bind_some, he] at hnone
    cases hnone
  next entry hsome =>
    split at h
    next => cases h
    next hok =>
    refine ⟨refusal_none.mp h, fun groupID entry' hg he => ?_⟩
    rw [hg, Option.bind_some, he] at hsome
    cases hsome
    simpa using hok

theorem recheckProfile_ok {selection : SelectedRoute} {channel : Channel} {c : RouteCandidate}
    (hplan : planRoute st input = .ok selection.toRoutePlan)
    (ho : Origin u st input selection.toRoutePlan row channel c) (hf : c.filterReason = none) :
    recheckProfile st (selection.qualification input c) = .ok () := by
  obtain ⟨plan, candidates⟩ := selection
  have hc : c.channelID = row.channelID := by rw [ho.built]; rfl
  have hentry := (candidateReason_none (ho.built ▸ hf)).2
  have hlisted := ho.listed
  unfold recheckProfile
  simp only [SelectedRoute.qualification]
  by_cases hs : 0 < input.specificChannelID
  · simp only [hs, ↓reduceIte, require_ok, hc]
    exact ho.bound hs
  by_cases ht : 0 < input.tokenID
  case neg => simp only [hs, ht, ↓reduceIte]
  have hs0 : input.specificChannelID = 0 := by omega
  simp only [hs, ht, ↓reduceIte]
  simp only [planRoute, hs0, ht, decide_true, Bool.and_self, ↓reduceIte, bind_ok] at hplan
  obtain ⟨_, -, hplan⟩ := hplan
  cases hprof : st.profiles input.userID input.tokenID with
  | none =>
    rw [hprof] at hplan
    cases hplan
    simp
  | some profile =>
    simp only [hprof, bind_ok, require_ok] at hplan
    obtain ⟨_, hen, hplan⟩ := hplan
    simp only [bind_ok, require_ok, hen, true_and, exists_const]
    cases hmode : profile.mode with
    | none => simp [hmode] at hplan
    | some source =>
      cases source with
      | autoLab =>
        simp only [hmode, Except.ok.injEq] at hplan
        subst hplan
        simp
      | manual =>
        simp only [hmode, bind_ok, require_ok, present_ok, Except.ok.injEq] at hplan
        obtain ⟨_, -, groupID, hg, group, hgroup, _, hsame, _, hon, rfl⟩ := hplan
        obtain ⟨entry, he⟩ := Option.isSome_iff_exists.mp (hlisted groupID rfl)
        obtain ⟨hen, hpl⟩ := hentry groupID entry rfl he
        simp [hg, hgroup, hsame, hon, hc, he, hen, hpl]

theorem filterRouteCapability_ok :
    filterRouteCapability u x = .ok () ↔
      (x.channelEnabled ∧ 0 < x.snapshotVersion ∧ x.capability.channelID ≠ 0 ∧
        x.capability.snapshotVersion = x.snapshotVersion) ∧ resolved x.capability ∧
      x.abilityEnabled ∧ x.limitAllows ∧ (x.endpointAllowed ∧ x.audioAllowed ∧ x.routeAllowed u) ∧
      x.entitled := by
  simp [filterRouteCapability, and_assoc]

theorem activeRow_some (h : st.activeRow channelID name = some row) :
    row.channelID = channelID ∧ row.requestModel = name ∧
      st.activeVersion channelID = row.snapshotVersion := by
  have hm := mem_of_find?_eq_some h
  have hp := find?_some h
  simp only [Bool.and_eq_true, decide_eq_true_eq] at hp
  refine ⟨hp.1, hp.2, ?_⟩
  rw [findActiveChannelCapabilities, (perm_insertionSort _ _).mem_iff, mem_filter] at hm
  have ha : st.tables.isActive row = true := by
    simp only [Bool.and_eq_true] at hm
    exact hm.2.1.1.2
  rw [Routing.CapabilityTables.isActive, hp.1] at ha
  rw [RouteState.activeVersion]
  cases hs : st.tables.snapshots channelID with
  | none =>
    rw [hs] at ha
    cases ha
  | some snapshot =>
    rw [hs] at ha
    simp only [gt_iff_lt, Bool.and_eq_true, decide_eq_true_eq] at ha
    simp only [ha.1.1, ha.1.2, decide_true, Bool.and_self, ↓reduceIte]
    exact ha.2

/-- The token of the request is there, belongs to the user and may be used. -/
def TokenStands (st : RouteState) (q : QualificationRequest) (token : Option Token) : Prop :=
  if 0 < q.tokenID then
    ∃ t, token = some t ∧ st.tokens q.tokenID = some t ∧ t.userID = q.userID ∧
      st.routeTokenUsable t
  else token = none

theorem recheckToken_ok (hp : 0 < q.tokenID ∨ q.isPlayground) :
    recheckToken st q = .ok token ↔ TokenStands st q token := by
  unfold recheckToken TokenStands
  split
  next ht =>
    simp only [bind_ok, present_ok, require_ok, Except.ok.injEq]
    constructor
    · rintro ⟨t, hf, _, hu, _, hr, rfl⟩
      exact ⟨t, rfl, hf, hu, hr⟩
    · rintro ⟨t, rfl, hf, hu, hr⟩
      exact ⟨t, hf, (), hu, (), hr, rfl⟩
  next ht =>
    simp only [bind_ok, require_ok, Except.ok.injEq]
    constructor
    · rintro ⟨_, -, rfl⟩
      rfl
    · rintro rfl
      exact ⟨(), hp.resolve_left ht, rfl⟩

/-- The name the recheck asks the limits of the token for. -/
def permissionName (u : Spelling) (q : QualificationRequest) (name : String) : String :=
  let permission :=
    if q.permissionModel = "" then name else normalizeModel u q.permissionModel
  if permission = "" then trimSpace q.requestModel else permission

/-- What is left of the recheck for a candidate of the planner. In the database, under the normal
form of its name: user and token may still be used, an ability is enabled, and the row of that name
is resolved, serves the path, and is allowed by the limits of the token row. -/
def StillQualified (u : Spelling) (st : RouteState) (q : QualificationRequest)
    (channel : Channel) : Prop :=
  let name := normalizeModel u (trimSpace q.requestModel)
  name ≠ "" ∧ st.userEnabled q.userID = some true ∧ st.abilityEnabled u q.channelID name ∧
    ∃ row token, st.activeRow q.channelID name = some row ∧
      (q.expectedCatalogVersion = "" ∨ row.catalogVersion = q.expectedCatalogVersion) ∧
      resolved row ∧ TokenStands st q token ∧
      (token.any (·.modelLimitsEnabled) → tokenAllowsRouteModel
        ((token.map (·.modelLimits)).getD []) (permissionName u q name)) ∧
      (∃ endpoint ∈ row.projection.endpointTypes,
        endpointTypeForRequestPath q.requestPath = some endpoint) ∧
      (channel.type = .advancedCustom → ∃ routes, row.projection.paths = some routes ∧
        supportsPathForModel u routes q.requestPath (trimSpace q.requestModel))

theorem planRoute_guard (h : planRoute st input = .ok plan) :
    0 < input.userID ∧ (0 < input.tokenID ∨ input.isPlayground) := by
  simp only [planRoute, bind_ok, require_ok] at h
  obtain ⟨_, hg, -⟩ := h
  simp only [Bool.and_eq_true, Bool.or_eq_true, decide_eq_true_eq] at hg
  exact ⟨hg.1.2, hg.2⟩

theorem recheckLiveRouteCandidate_ok :
    recheckLiveRouteCandidate u st q = .ok () ↔
      (0 < q.userID ∧ 0 < q.channelID) ∧ normalizeModel u (trimSpace q.requestModel) ≠ "" ∧
      ∃ channel row token, st.channels q.channelID = some channel ∧
        (0 < st.activeVersion q.channelID ∧ 0 < q.expectedSnapshotVersion ∧
          st.activeVersion q.channelID = q.expectedSnapshotVersion) ∧
        st.activeRow q.channelID (normalizeModel u (trimSpace q.requestModel)) = some row ∧
        row.channelID ≠ 0 ∧
        (q.expectedCatalogVersion = "" ∨ row.catalogVersion = q.expectedCatalogVersion) ∧
        st.userEnabled q.userID = some true ∧ recheckToken st q = .ok token ∧
        recheckProfile st q = .ok () ∧
        filterRouteCapability u (recheckInput u st q (normalizeModel u (trimSpace q.requestModel))
          row channel token) = .ok () := by
  simp only [recheckLiveRouteCandidate, bind_ok, require_ok, present_ok, mapError_ok,
    Bool.and_eq_true, Bool.or_eq_true, decide_eq_true_eq]
  constructor
  · rintro ⟨_, hids, _, hname, channel, hch, _, hv, _, he, row, hrow, _, hrid, _, hcat, enabled,
      hu, _, hen, token, ht, _, hp, hf⟩
    subst hen
    exact ⟨hids, hname, channel, row, token, hch, ⟨hv, he⟩, hrow, hrid, hcat, hu, ht, hp, hf⟩
  · rintro ⟨hids, hname, channel, row, token, hch, ⟨hv, he⟩, hrow, hrid, hcat, hu, ht, hp, hf⟩
    exact ⟨(), hids, (), hname, channel, hch, (), hv, (), he, row, hrow, (), hrid, (), hcat, true,
      hu, (), rfl, token, ht, (), hp, hf⟩

section
variable {q : QualificationRequest} {name : String} {row : Capability} {channel : Channel}
  {token : Option Token}

theorem recheckInput_limit :
    (recheckInput u st q name row channel token).limitAllows ↔
      (token.any (·.modelLimitsEnabled) → tokenAllowsRouteModel
        ((token.map (·.modelLimits)).getD []) (permissionName u q name)) := by
  have hm : (recheckInput u st q name row channel token).modelName = permissionName u q name := rfl
  rw [FilterInput.limitAllows, hm]
  simp only [recheckInput, Bool.or_self, Bool.or_eq_true, Bool.not_eq_true']
  cases token.any (·.modelLimitsEnabled) <;> simp

theorem recheckInput_endpoint :
    (recheckInput u st q name row channel token).endpointAllowed ↔
      ∃ endpoint ∈ row.projection.endpointTypes,
        endpointTypeForRequestPath q.requestPath = some endpoint := by
  simp only [FilterInput.endpointAllowed, recheckInput]
  generalize endpointTypeForRequestPath q.requestPath = endpoint
  cases endpoint with
  | none => simp
  | some endpoint =>
    constructor
    · intro h
      exact ⟨endpoint, of_decide_eq_true h, rfl⟩
    rintro ⟨_, hm, he⟩
    cases he
    exact decide_eq_true hm

theorem recheckInput_route :
    (recheckInput u st q name row channel token).routeAllowed u ↔
      (channel.type = .advancedCustom → ∃ routes, row.projection.paths = some routes ∧
        supportsPathForModel u routes q.requestPath (trimSpace q.requestModel)) := by
  by_cases ht : channel.type = .advancedCustom
  · simp only [FilterInput.routeAllowed, recheckInput, ht, ↓reduceIte, true_implies]
    cases row.projection.paths <;> simp
  · simp [FilterInput.routeAllowed, recheckInput, ht]

end

theorem recheck_ok_iff (hids : 0 < q.userID ∧ 0 < q.channelID)
    (htok : 0 < q.tokenID ∨ q.isPlayground) (hchan : st.channels q.channelID = some channel)
    (hen : channel.enabled) (hver : 0 < q.expectedSnapshotVersion)
    (hact : st.activeVersion q.channelID = q.expectedSnapshotVersion)
    (hprof : recheckProfile st q = .ok ()) (hent : st.entitled q.userID q.channelID)
    (haudio : ∀ name row token, (recheckInput u st q name row channel token).audioAllowed) :
    recheckLiveRouteCandidate u st q = .ok () ↔ StillQualified u st q channel := by
  rw [recheckLiveRouteCandidate_ok]
  constructor
  · rintro ⟨-, hname, channel', row, token, hch, -, hrow, -, hcat, hu, ht, -, hfr⟩
    obtain rfl : channel = channel' := Option.some.inj (hchan.symm.trans hch)
    obtain ⟨-, hres, hab, hlim, ⟨hend, -, hroute⟩, -⟩ := filterRouteCapability_ok.mp hfr
    exact ⟨hname, hu, hab, row, token, hrow, hcat, hres, (recheckToken_ok htok).mp ht,
      recheckInput_limit.mp hlim, recheckInput_endpoint.mp hend, recheckInput_route.mp hroute⟩
  · rintro ⟨hname, hu, hab, row, token, hrow, hcat, hres, ht, hlim, hend, hroute⟩
    obtain ⟨hrid, -, hrv⟩ := activeRow_some hrow
    have hne : row.channelID ≠ 0 := by rw [hrid]; omega
    have hpos : 0 < st.activeVersion q.channelID := by rw [hact]; exact hver
    refine ⟨hids, hname, channel, row, token, hchan, ⟨hpos, hver, hact⟩, hrow, hne, hcat, hu,
      (recheckToken_ok htok).mpr ht, hprof, ?_⟩
    exact filterRouteCapability_ok.mpr ⟨⟨hen, hpos, hne, hrv.symm⟩, hres, hab,
      recheckInput_limit.mpr hlim, ⟨recheckInput_endpoint.mpr hend, haudio _ row token,
      recheckInput_route.mpr hroute⟩, hent⟩

/-- A selected candidate passes the recheck exactly if what the planner does not read allows it. -/
theorem selected_recheck_iff (h : selectLiveTokenRoute u st input = .ok selection)
    (hc : c ∈ selection.candidates) (hf : c.filterReason = none) :
    ∃ channel, st.channels c.channelID = some channel ∧
      (recheckLiveRouteCandidate u st (selection.qualification input c) = .ok () ↔
        StillQualified u st (selection.qualification input c) channel) := by
  obtain ⟨hplan, hpos, row, channel, ho⟩ := selected_origin h hc hf
  obtain ⟨huser, htok⟩ := planRoute_guard hplan
  have hfilter := filterRouteCapability_ok.mp (candidateReason_none (ho.built ▸ hf)).1
  obtain ⟨⟨hen, hver, -, -⟩, -, -, -, ⟨-, haudio, -⟩, hent⟩ := hfilter
  have hid : c.channelID = row.channelID := by rw [ho.built]; rfl
  have hsnap : c.snapshotVersion = row.snapshotVersion := by rw [ho.built]; rfl
  have hchan : st.channels c.channelID = some channel := hid ▸ ho.found
  refine ⟨channel, hchan, recheck_ok_iff ⟨huser, hpos⟩ htok hchan hen ?_ ?_
    (recheckProfile_ok hplan ho hf) ?_ (fun _ _ _ => haudio)⟩
  · change 0 < c.snapshotVersion
    rw [hsnap]; exact hver
  · change st.activeVersion c.channelID = c.snapshotVersion
    rw [hid, hsnap]; exact ho.active
  · change st.entitled input.userID c.channelID = true
    rw [hid]; exact hent

/-- The same question to the filter under another name for the limits. -/
def FilterInput.named (x : FilterInput) (name : String) : FilterInput :=
  { x with normalizedModel := name }

theorem filter_named_iff (h : filterRouteCapability u (x.named name) = .ok ()) :
    filterRouteCapability u x = .ok () ↔ x.limitAllows := by
  obtain ⟨hbase, hres, hab, -, hpath, hent⟩ := filterRouteCapability_ok.mp h
  rw [filterRouteCapability_ok]
  exact ⟨fun hs => hs.2.2.2.1, fun hl => ⟨hbase, hres, hab, hl, hpath, hent⟩⟩

/-- The planner's filter with the name the client sent in the place of its normal form. -/
def clientNamed (u : Spelling) (st : RouteState) (input : LiveRouteRequest) (row : Capability)
    (channel : Channel) : FilterInput :=
  (selectionInput u st input row channel).named input.requestModel

theorem selectionInput_limit :
    (selectionInput u st input row channel).limitAllows ↔
      (input.tokenModelLimitEnabled → tokenAllowsRouteModel input.tokenModelLimit
        (selectionInput u st input row channel).modelName) := by
  rw [FilterInput.limitAllows]
  generalize (selectionInput u st input row channel).modelName = name
  simp only [selectionInput, Bool.or_false, Bool.or_eq_true, Bool.not_eq_true']
  cases input.tokenModelLimitEnabled <;> simp [tokenAllowsRouteModel]

/-- Planner and recheck agree on a candidate exactly if the database still qualifies the normal
form of its name, and the planner refuses no row for its normal form exactly if the token's limits
allow that form. -/
theorem selection_recheck_agree_iff (u : Spelling) (st : RouteState) (input : LiveRouteRequest) :
    (∀ selection c, selectLiveTokenRoute u st input = .ok selection → c ∈ selection.candidates →
      c.filterReason = none → ∃ channel, st.channels c.channelID = some channel ∧
        (recheckLiveRouteCandidate u st (selection.qualification input c) = .ok () ↔
          StillQualified u st (selection.qualification input c) channel)) ∧
    (∀ row channel, filterRouteCapability u (clientNamed u st input row channel) = .ok () →
      (filterRouteCapability u (selectionInput u st input row channel) = .ok () ↔
        (input.tokenModelLimitEnabled → tokenAllowsRouteModel input.tokenModelLimit
          (selectionInput u st input row channel).modelName))) := by
  refine ⟨fun selection c h hc hf => ?_, fun row channel h => ?_⟩
  · exact selected_recheck_iff h hc hf
  · exact (filter_named_iff h).trans selectionInput_limit

def ascii : Spelling := ⟨lower, id, fun _ _ => false⟩

/-- One channel with one model, one user and a token with limits. -/
def oneChannel (type : ChannelType) (routes : Option (List AdvancedCustomRoute))
    (limits : List String) : RouteState where
  tables :=
    { snapshots := fun channelID =>
        if channelID = 3 then some { activeVersion := 1, refreshStatus := .active } else none
      capabilities :=
        [{ channelID := 3, snapshotVersion := 1, requestModel := "gpt-4o", labSlug := "openai"
           catalogVersion := "v1", state := .eligible
           projection := { endpointTypes := [.openAI], paths := routes } }] }
  channels channelID := if channelID = 3 then some { type := type } else none
  abilities := [⟨3, "GPT-4o", true⟩]
  userEnabled _ := some true
  tokens tokenID :=
    if tokenID = 5 then some { userID := 1, modelLimitsEnabled := true, modelLimits := limits }
    else none

def chatRequest (model : String) (limits : List String) : LiveRouteRequest :=
  { userID := 1, tokenID := 5, requestModel := model, billingModel := model
    requestPath := "/v1/chat/completions", tokenModelLimitEnabled := true
    tokenModelLimit := limits }

def chatCandidate (reason : Option FilterReason) : RouteCandidate :=
  ⟨3, "gpt-4o", 1, "v1", reason⟩

def chatSelection (reason : Option FilterReason) : SelectedRoute :=
  { source := .autoLab, configurationVersion := 0, groupID := none
    candidates := [chatCandidate reason] }

theorem lower_case_limit_qualifies :
    let st := oneChannel .other none ["gpt-4o"]
    ∃ channel, st.channels 3 = some channel ∧ StillQualified ascii st
      ((chatSelection none).qualification (chatRequest "gpt-4o" ["gpt-4o"]) (chatCandidate none))
      channel := by
  intro st
  obtain ⟨channel, hch, hiff⟩ := (selection_recheck_agree_iff ascii st
    (chatRequest "gpt-4o" ["gpt-4o"])).1 (chatSelection none) (chatCandidate none)
    (by decide +kernel) (by decide) rfl
  exact ⟨channel, hch, hiff.mp (by decide +kernel)⟩

def namedRoute : RouteState :=
  oneChannel .advancedCustom (some [⟨"/v1/chat/completions", ["GPT-4o"]⟩]) ["gpt-4o"]

/-- A token limited to the client's name is refused by the planner; a route with that name passes
the planner and fails the recheck. -/
theorem client_spelling_refused :
    tokenAllowsRouteModel ["GPT-4o"] "GPT-4o" ∧
    selectLiveTokenRoute ascii (oneChannel .other none ["GPT-4o"])
      (chatRequest "GPT-4o" ["GPT-4o"]) = .ok (chatSelection (some .tokenForbidden)) ∧
    selectLiveTokenRoute ascii namedRoute (chatRequest "GPT-4o" ["gpt-4o"]) =
      .ok (chatSelection none) ∧
    recheckLiveRouteCandidate ascii namedRoute ((chatSelection none).qualification
      (chatRequest "GPT-4o" ["gpt-4o"]) (chatCandidate none)) =
        .error (.refused .pathUnsupported) := by
  decide +kernel

end Ren2Hub.Qualify
