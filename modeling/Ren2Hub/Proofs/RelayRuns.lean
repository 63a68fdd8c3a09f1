import Ren2Hub.Lib.Changes
import Ren2Hub.Routing.Relay

namespace Ren2Hub.Relay
open Lib LiveRouteSelection List
open RelayState (start)

theorem scan_eq_some (h : scan p l k = some (c, i)) :
    ∃ j, i = k + j ∧ l[j]? = some c ∧ p c := by
  induction l generalizing k with
  | nil => cases h
  | cons a l ih =>
    rw [scan] at h
    split at h
    next hp =>
      cases h
      exact ⟨0, rfl, rfl, hp⟩
    next =>
      obtain ⟨j, rfl, hj, hc⟩ := ih h
      exact ⟨j + 1, by omega, by simpa using hj, hc⟩

theorem scan_drop {l : List RouteDecisionCandidate} {n i : Nat} {c : RouteDecisionCandidate}
    (h : scan p (l.drop n) n = some (c, i)) : n ≤ i ∧ l[i]? = some c ∧ p c := by
  obtain ⟨j, rfl, hj, hc⟩ := scan_eq_some h
  rw [getElem?_drop] at hj
  exact ⟨Nat.le_add_right _ _, hj, hc⟩

namespace RelayState

/-- The channels of the attempt list. Only filter reasons are ever written to it. -/
def channels (s : RelayState) : List Int := s.selection.attempts.map (·.channelID)

/-- Nothing that counts attempts or output differs. -/
structure Alike (s t : RelayState) : Prop where
  compact : t.compact = s.compact
  counters : t.counters = s.counters
  history : t.history = s.history
  committed : t.relayResponseCommitted = s.relayResponseCommitted
  policy : t.selection.retry = s.selection.retry
  channels : t.channels = s.channels

theorem Alike.rfl : Alike s s := ⟨.refl _, .refl _, .refl _, .refl _, .refl _, .refl _⟩

theorem Alike.trans (h : Alike s t) (k : Alike t u) : Alike s u where
  compact := k.compact.trans h.compact
  counters := k.counters.trans h.counters
  history := k.history.trans h.history
  committed := k.committed.trans h.committed
  policy := k.policy.trans h.policy
  channels := k.channels.trans h.channels

theorem alike_filtered (s : RelayState) (channelID : Int) (reason : FilterReason) :
    Alike s (s.markLiveRouteCandidateFiltered channelID reason) := by
  unfold markLiveRouteCandidateFiltered
  split
  · exact .rfl
  refine ⟨.refl _, .refl _, .refl _, .refl _, .refl _, ?_⟩
  simp only [channels, map_map]
  congr 1
  funext candidate
  simp only [Function.comp_apply]
  split <;> rfl

theorem filtered_retry (s : RelayState) (channelID : Int) (reason : FilterReason) :
    (s.markLiveRouteCandidateFiltered channelID reason).retry = s.retry := by
  unfold markLiveRouteCandidateFiltered
  split <;> rfl

theorem alike_setup (s : RelayState) (channelID : Int) (row : ChannelRow) :
    Alike s (s.setupContextForSelectedChannel channelID row).1 ∧
      (s.setupContextForSelectedChannel channelID row).1.retry = s.retry := by
  unfold setupContextForSelectedChannel
  dsimp only
  split
  · exact ⟨⟨.refl _, .refl _, .refl _, .refl _, .refl _, .refl _⟩, .refl _⟩
  · split <;> exact ⟨⟨.refl _, .refl _, .refl _, .refl _, .refl _, .refl _⟩, .refl _⟩

theorem candidate_channel {s : RelayState} {c : RouteDecisionCandidate}
    (h : s.selection.candidateAtOrAfter n = some (c, i)) :
    n ≤ i ∧ s.channels[i]? = some c.channelID := by
  obtain ⟨hn, hi, -⟩ := scan_drop h
  refine ⟨hn, ?_⟩
  rw [channels, getElem?_map, hi]
  rfl

theorem walkCandidates_spec (round : Round) (fuel : Nat) (s : RelayState) (n : Nat) :
    Alike s (walkCandidates round fuel s n).1 ∧
      ∀ channelID, (walkCandidates round fuel s n).2 = some channelID →
        n ≤ (walkCandidates round fuel s n).1.retry ∧
        s.channels[(walkCandidates round fuel s n).1.retry]? = some channelID := by
  induction fuel generalizing s n with
  | zero => exact ⟨.rfl, fun _ h => nomatch h⟩
  | succ fuel ih =>
    rw [walkCandidates]
    split
    next => exact ⟨.rfl, fun _ h => nomatch h⟩
    next candidate i hc =>
    obtain ⟨hn, hi⟩ := candidate_channel hc
    split
    next => exact ⟨.rfl, fun _ h => nomatch h⟩
    next row hrow =>
    split
    next =>
      have hf := alike_filtered s candidate.channelID .channelDisabled
      obtain ⟨ha, hp⟩ := ih (s.markLiveRouteCandidateFiltered candidate.channelID .channelDisabled)
        (i + 1)
      refine ⟨hf.trans ha, fun channelID h => ?_⟩
      obtain ⟨hle, hget⟩ := hp channelID h
      exact ⟨by omega, hf.channels ▸ hget⟩
    next =>
    dsimp only
    have hs : Alike s { s with retry := i } :=
      ⟨.refl _, .refl _, .refl _, .refl _, .refl _, .refl _⟩
    split
    next =>
      refine ⟨hs, fun channelID h => ?_⟩
      cases h
      exact ⟨hn, hi⟩
    next =>
    have hset := alike_setup { s with retry := i } candidate.channelID row
    revert hset
    generalize setupContextForSelectedChannel { s with retry := i } candidate.channelID row = r
    obtain ⟨t, out⟩ := r
    rintro ⟨ht, hr⟩
    cases out with
    | ok =>
      refine ⟨hs.trans ht, fun channelID h => ?_⟩
      cases h
      rw [hr]
      exact ⟨hn, hi⟩
    | noAvailableKey =>
      have hf := alike_filtered t candidate.channelID .keyUnavailable
      obtain ⟨ha, hp⟩ := ih (t.markLiveRouteCandidateFiltered candidate.channelID .keyUnavailable)
        (i + 1)
      refine ⟨((hs.trans ht).trans hf).trans ha, fun channelID h => ?_⟩
      obtain ⟨hle, hget⟩ := hp channelID h
      refine ⟨Nat.le_trans hn (Nat.le_trans (Nat.le_succ i) hle), ?_⟩
      exact ((hs.trans ht).trans hf).channels ▸ hget
    | failed => exact ⟨hs.trans ht, fun _ h => nomatch h⟩

theorem getChannel_spec (hc : s.compact = none) (round : Round) :
    Alike s (s.getChannel round).1 ∧
      ∀ channelID, (s.getChannel round).2 = some channelID →
        s.retry ≤ (s.getChannel round).1.retry ∧
        s.channels[(s.getChannel round).1.retry]? = some channelID := by
  have h : s.getChannel round =
      walkCandidates round (s.selection.attempts.length + 1) s s.retry := by
    rw [getChannel, hc]
  rw [h]
  exact walkCandidates_spec round _ s s.retry

end RelayState

/-- The calls started so far go through the list in order, each on its channel, none after output.
-/
structure Tried (base : List Int) (bound : Nat) (history : List Attempt) : Prop where
  increasing : (history.map (·.position)).Pairwise (· < ·)
  below : ∀ a ∈ history, a.position < bound
  placed : ∀ a ∈ history, base[a.position]? = some a.channelID
  clean : ∀ a ∈ history, a.committed = false

theorem Tried.nil (base : List Int) (bound : Nat) : Tried base bound [] :=
  ⟨.nil, by simp, by simp, by simp⟩

theorem Tried.mono (h : Tried base m history) (hmn : m ≤ n) : Tried base n history :=
  { h with below := fun a ha => Nat.lt_of_lt_of_le (h.below a ha) hmn }

theorem Tried.placed_below (h : Tried base bound history) : Tried base base.length history :=
  { h with below := fun a ha => (List.getElem?_eq_some_iff.mp (h.placed a ha)).1 }

theorem Tried.snoc (h : Tried base n history) (hn : n ≤ a.position)
    (hb : base[a.position]? = some a.channelID) (hc : a.committed = false) :
    Tried base (a.position + 1) (history ++ [a]) where
  increasing := by
    rw [map_append, pairwise_append]
    refine ⟨h.increasing, pairwise_singleton _ _, ?_⟩
    intro p hp q hq
    obtain ⟨b, hb, rfl⟩ := mem_map.mp hp
    rw [map_singleton, mem_singleton] at hq
    subst hq
    exact Nat.lt_of_lt_of_le (h.below b hb) hn
  below b hb := by
    rcases mem_append.mp hb with hb | hb
    · exact Nat.lt_succ_of_lt (Nat.lt_of_lt_of_le (h.below b hb) hn)
    · rw [mem_singleton.mp hb]
      exact Nat.lt_succ_self _
  placed b hb' := by
    rcases mem_append.mp hb' with hm | hm
    · exact h.placed b hm
    · rwa [mem_singleton.mp hm]
  clean b hb' := by
    rcases mem_append.mp hb' with hm | hm
    · exact h.clean b hm
    · rwa [mem_singleton.mp hm]

theorem Tried.sublist (h : Tried base bound history) :
    (history.map (·.channelID)).Sublist base := by
  have := map_sublist_drop base Attempt.position Attempt.channelID history h.increasing h.placed 0
    (fun _ _ => Nat.zero_le _)
  rwa [drop_zero] at this

namespace RelayState

/-- At the head of the loop of a request that is not a compact one. -/
structure Ready (base : List Int) (policy : RouteLiveRetryPolicy) (s : RelayState) : Prop where
  single : s.compact = none
  channels : s.channels = base
  retries : s.selection.retry = policy
  tried : Tried base s.retry s.history
  counted : s.counters.totalAttempts = s.history.length
  total : s.counters.totalAttempts ≤ defaultTotalAttempts
  uncommitted : s.relayResponseCommitted = false
  once : policy.mode = .none → s.history = []

/-- Whenever the loop is left. -/
structure Left (base : List Int) (policy : RouteLiveRetryPolicy) (s : RelayState) : Prop where
  tried : Tried base base.length s.history
  total : (s.history.length : Int) ≤ defaultTotalAttempts
  once : policy.mode = .none → s.history.length ≤ 1

end RelayState

/-- What one iteration leads to, from position `n`. -/
def Turn.Follows (base : List Int) (policy : RouteLiveRetryPolicy) (n : Nat) : Turn → Prop
  | .again t => t.Ready base policy ∧ n < t.retry ∧ t.retry < base.length
  | .stop t => t.Left base policy

theorem Turn.Follows.mono {policy : RouteLiveRetryPolicy} {m n : Nat} {turn : Turn}
    (h : turn.Follows base policy n) (hmn : m ≤ n) : turn.Follows base policy m := by
  cases turn with
  | again => exact ⟨h.1, Nat.lt_of_le_of_lt hmn h.2.1, h.2.2⟩
  | stop => exact h

namespace RelayState

variable {base : List Int} {policy : RouteLiveRetryPolicy} {s t : RelayState}

section
variable (h : s.Ready base policy)
include h

theorem Ready.alike (ha : Alike s t) (hr : s.retry ≤ t.retry) : t.Ready base policy where
  single := ha.compact.trans h.single
  channels := ha.channels.trans h.channels
  retries := ha.policy.trans h.retries
  tried := ha.history ▸ h.tried.mono hr
  counted := by rw [ha.counters, ha.history]; exact h.counted
  total := by rw [ha.counters]; exact h.total
  uncommitted := ha.committed.trans h.uncommitted
  once hm := by rw [ha.history]; exact h.once hm

theorem Ready.stop (ha : Alike s t) : t.Left base policy where
  tried := ha.history ▸ h.tried.placed_below
  total := by rw [ha.history]; exact h.counted ▸ h.total
  once hm := by rw [ha.history]; simp [h.once hm]

theorem Ready.skip (round : Round) : (s.skip round).Follows base policy s.retry := by
  rw [RelayState.skip]
  split
  next next hn =>
    rw [nextLiveRouteCandidateIndex] at hn
    split at hn
    · cases hn
    obtain ⟨⟨c, i⟩, hc, rfl⟩ := Option.map_eq_some_iff.mp hn
    obtain ⟨hle, hi⟩ := candidate_channel hc
    have hlt := (List.getElem?_eq_some_iff.mp hi).1
    rw [h.channels] at hlt
    refine ⟨h.alike ⟨.refl _, .refl _, .refl _, .refl _, .refl _, .refl _⟩ ?_, hle, hlt⟩
    exact Nat.le_of_succ_le hle
  next => exact h.stop .rfl

theorem Ready.filtered (channelID : Int) (reason : FilterReason) :
    (s.markLiveRouteCandidateFiltered channelID reason).Ready base policy :=
  h.alike (alike_filtered s channelID reason) (filtered_retry s channelID reason).ge

theorem Ready.filtered_skip (round : Round) (channelID : Int) (reason : FilterReason) :
    ((s.markLiveRouteCandidateFiltered channelID reason).skip round).Follows base policy
      s.retry := by
  have hs := (h.filtered channelID reason).skip round
  rwa [filtered_retry] at hs

theorem Ready.leaseRefused (round : Round) (channelID : Int) (refusal : LeaseRefusal) :
    (s.leaseRefused round channelID refusal).Follows base policy s.retry := by
  have hskip : ∀ reason, Turn.Follows base policy s.retry
      (if liveRouteQualificationAllowsFailover refusal &&
          !(s.markLiveRouteCandidateFiltered channelID reason).relayResponseCommitted &&
          ((s.markLiveRouteCandidateFiltered channelID reason).retry : Int) <
            (s.markLiveRouteCandidateFiltered channelID reason).relayRetryLimit then
        (s.markLiveRouteCandidateFiltered channelID reason).skip round
      else .stop (s.markLiveRouteCandidateFiltered channelID reason)) := by
    intro reason
    split
    · exact h.filtered_skip round channelID reason
    · exact h.stop (alike_filtered s channelID reason)
  cases refusal with
  | capacity => exact hskip .capacityExhausted
  | qualification reason => exact hskip reason
  | failed =>
    rw [RelayState.leaseRefused]
    split
    next hf => simp [liveRouteQualificationAllowsFailover] at hf
    next => exact h.stop .rfl

end

/-- The call that was started is one more attempt at the position of the state. -/
structure Begun (base : List Int) (policy : RouteLiveRetryPolicy) (s : RelayState) : Prop where
  single : s.compact = none
  channels : s.channels = base
  retries : s.selection.retry = policy
  tried : Tried base (s.retry + 1) s.history
  counted : s.counters.totalAttempts = s.history.length
  total : s.counters.totalAttempts ≤ defaultTotalAttempts
  once : policy.mode = .none → s.history.length = 1

theorem begin_total (s : RelayState) (channelID : Int) :
    (s.beginLiveRouteUpstreamAttempt channelID).counters.totalAttempts =
      s.counters.totalAttempts + 1 := by
  unfold beginLiveRouteUpstreamAttempt
  dsimp only
  split
  · rfl
  · split_ifs <;> rfl

theorem Ready.begin (h : s.Ready base policy) (hp : base[s.retry]? = some channelID)
    (ht : s.counters.totalAttempts < defaultTotalAttempts) :
    (s.beginLiveRouteUpstreamAttempt channelID).Begun base policy where
  single := h.single
  channels := h.channels
  retries := h.retries
  tried := h.tried.snoc (a := ⟨s.retry, channelID, s.contextKeyIndex, s.relayResponseCommitted⟩)
    (Nat.le_refl _) hp h.uncommitted
  counted := by
    rw [begin_total, h.counted]
    simp [beginLiveRouteUpstreamAttempt]
  total := by rw [begin_total]; omega
  once hm := by simp [beginLiveRouteUpstreamAttempt, h.once hm]

section
variable (h : s.Begun base policy)
include h

theorem Begun.left (hh : t.history = s.history) : t.Left base policy where
  tried := hh ▸ h.tried.placed_below
  total := by rw [hh]; exact h.counted ▸ h.total
  once hm := by rw [hh]; exact (h.once hm).le

/-- Only an error that allows failover, without output, leads to another attempt, at a later
position. -/
theorem Begun.liveNextAttempt {round : Round} {channelID : Int} {e : NewAPIError} {next : Nat}
    (hn : s.liveNextAttempt round channelID e = some next) :
    s.relayResponseCommitted = false ∧ policy.mode ≠ .none ∧ s.retry < next ∧
      next < base.length := by
  rw [RelayState.liveNextAttempt] at hn
  split at hn
  next hf =>
    rw [nextLiveRouteAttemptForError] at hn
    split at hn
    next => cases hn
    next =>
    obtain ⟨⟨c, i⟩, hc, rfl⟩ := Option.map_eq_some_iff.mp hn
    rw [nextCandidateForError, h.retries] at hc
    split at hc
    next => cases hc
    next hm =>
    obtain ⟨hle, hi, -⟩ := scan_drop hc
    have hlt := (List.getElem?_eq_some_iff.mp hi).1
    refine ⟨?_, hm, hle, ?_⟩
    · rw [canRouteFailover] at hf
      split at hf
      next => cases hf
      next ho =>
        simp only [Bool.or_eq_true, not_or, Bool.not_eq_true] at ho
        simp [relayResponseCommitted, ho.1.1]
    · rwa [← h.channels, RelayState.channels, length_map]
  next => cases hn

theorem Begun.afterError (round : Round) (channelID : Int) (e : NewAPIError) :
    (s.afterError round channelID e).Follows base policy s.retry := by
  rw [RelayState.afterError, h.single]
  dsimp only
  split
  next => exact h.left rfl
  next next hn =>
  split
  next =>
    obtain ⟨hc, hm, hlt, hb⟩ := h.liveNextAttempt hn
    refine ⟨?_, hlt, hb⟩
    exact
      { single := rfl, channels := h.channels, retries := h.retries
        tried := h.tried.mono hlt, counted := h.counted, total := h.total, uncommitted := hc
        once := fun hmode => absurd hmode hm }
  next => exact h.left rfl

theorem Begun.same (hc : t.compact = s.compact) (hs : t.selection = s.selection)
    (hr : t.retry = s.retry) (hn : t.counters = s.counters) (hh : t.history = s.history) :
    t.Begun base policy := by
  refine ⟨hc.trans h.single, ?_, ?_, ?_, ?_, ?_, ?_⟩
  · rw [RelayState.channels, hs]; exact h.channels
  · rw [hs]; exact h.retries
  · rw [hr, hh]; exact h.tried
  · rw [hn, hh]; exact h.counted
  · rw [hn]; exact h.total
  · rw [hh]; exact h.once

theorem Begun.afterAttempt (round : Round) (channelID : Int) :
    (s.afterAttempt round channelID).Follows base policy s.retry := by
  rw [RelayState.afterAttempt]
  split
  next => exact h.left rfl
  next e he =>
  split
  next => exact h.left rfl
  next =>
    have hs : ({ s.receive round.upstream with lastError := some e } : RelayState).Begun
        base policy := h.same rfl rfl rfl rfl rfl
    exact hs.afterError round channelID e

end

theorem Ready.qualify (h : s.Ready base policy) (round : Round)
    (hp : base[s.retry]? = some channelID) (ht : s.counters.totalAttempts < defaultTotalAttempts) :
    (s.qualify round channelID).Follows base policy s.retry := by
  have hs : ∀ compact, compact = none →
      ({ s with compact := compact } : RelayState).Ready base policy := by
    rintro _ rfl
    exact { h with single := .refl _, channels := h.channels, uncommitted := h.uncommitted }
  rw [RelayState.qualify]
  split
  next => exact h.stop .rfl
  next =>
  split
  next => exact h.stop .rfl
  next =>
  split
  next => exact h.filtered_skip round channelID _
  next =>
  split
  next => exact h.leaseRefused round channelID _
  next =>
  split
  next => exact h.stop .rfl
  next =>
  have hr := hs (s.compact.map (·.recordAttempt channelID s.contextKeyIndex))
    (by rw [h.single]; rfl)
  split
  next => exact hr.stop .rfl
  next => exact (hr.begin hp ht).afterAttempt round channelID

theorem Ready.release (h : s.Ready base policy) (round : Round) :
    (s.releaseRouteAttemptLease round).Ready base policy ∧
      (s.releaseRouteAttemptLease round).retry = s.retry := by
  rw [releaseRouteAttemptLease]
  split
  · exact ⟨h.alike ⟨.refl _, .refl _, .refl _, .refl _, .refl _, .refl _⟩ (Nat.le_refl _), .refl _⟩
  · exact ⟨h, .refl _⟩

theorem Ready.iterate (h : s.Ready base policy) (round : Round) :
    (s.iterate round).Follows base policy s.retry := by
  obtain ⟨hr, hret⟩ := h.release round
  rw [RelayState.iterate]
  generalize s.releaseRouteAttemptLease round = u at hr hret
  split
  next => exact hr.stop .rfl
  next he =>
  have ht : u.counters.totalAttempts < defaultTotalAttempts := by
    simp only [exhausted, Bool.or_eq_true, decide_eq_true_eq, not_or] at he
    omega
  obtain ⟨ha, hp⟩ := getChannel_spec hr.single round
  generalize hg : u.getChannel round = r at ha hp
  obtain ⟨v, out⟩ := r
  cases out with
  | some channelID =>
    obtain ⟨hle, hpos⟩ := hp channelID rfl
    have hv := hr.alike ha hle
    have hf := hv.qualify round (hr.channels ▸ hpos) (ha.counters ▸ ht)
    refine Turn.Follows.mono hf ?_
    exact hret ▸ hle
  | none =>
    have hc : v.compact = none := ha.compact.trans hr.single
    simp only [hc, Option.bind_none]
    exact hr.stop ha

end RelayState

theorem relay_follows (h : s.Ready base policy) (rounds : List Round) :
    (relay s rounds).state.Left base policy ∧
      (base.length - s.retry < rounds.length → (relay s rounds).stopped) := by
  induction rounds generalizing s with
  | nil => exact ⟨h.stop .rfl, fun hlt => absurd hlt (Nat.not_lt_zero _)⟩
  | cons round rounds ih =>
    have hi := h.iterate round
    rw [relay]
    generalize s.iterate round = turn at hi
    cases turn with
    | stop => exact ⟨hi, fun _ => rfl⟩
    | again =>
      obtain ⟨ht, hlt, hb⟩ := hi
      obtain ⟨hl, hs⟩ := ih ht
      refine ⟨hl, fun hlen => hs ?_⟩
      rw [length_cons] at hlen
      omega

theorem ready_start (selection : LiveRouteSelection) (channelID : Int) (keyIndex : Nat)
    (realtime : Bool) :
    (start selection channelID keyIndex realtime none).Ready
      (selection.attempts.map (·.channelID)) selection.retry :=
  ⟨rfl, rfl, rfl, .nil _ _, rfl, by simp [start, defaultTotalAttempts], rfl, fun _ => rfl⟩

variable (result : RouteSelectionResult)

theorem available_sublist :
    ((availableRouteAttemptCandidates result).map (·.channelID)).Sublist result.candidates := by
  unfold availableRouteAttemptCandidates
  induction result.candidates with
  | nil => exact .slnil
  | cons c l ih =>
    rw [filterMap_cons]
    split
    next => exact ih.cons _
    next d hd =>
      have hc := find?_some hd
      simp only [Bool.and_eq_true, decide_eq_true_eq] at hc
      rw [map_cons, hc.1]
      exact ih.cons_cons _

/-- Distinct channels, each as often as the budget for one channel says, within the failover budget.
-/
def Planned (b : RouteRetryBudget) (channels : List Int) : Prop :=
  ∃ (l : List Int) (k : Nat), l.Nodup ∧ channels = l.flatMap (List.replicate (k + 1)) ∧
    (k : Int) ≤ b.sameChannelAttempts ∧
    (defaultTotalAttempts ≤ b.failoverAttempts + 1 ∨ (l.length : Int) ≤ b.failoverAttempts + 1)

theorem clampAttempts_bounds (granted n : Int) (h : 0 ≤ granted) :
    0 ≤ clampAttempts granted n ∧ clampAttempts granted n ≤ granted := by
  unfold clampAttempts
  dsimp only
  split_ifs <;> omega

theorem map_flatMap_replicate (l : List RouteDecisionCandidate) (k : Nat) :
    (l.flatMap (List.replicate k)).map (·.channelID) =
      (l.map (·.channelID)).flatMap (List.replicate k) := by
  rw [map_flatMap, flatMap_map]
  simp only [map_replicate]

theorem budget_bounds (policy : RouteLiveRetryPolicy) :
    policy.budget.totalAttempts = defaultTotalAttempts ∧
      clampAttempts defaultSameChannelAttempts policy.maxSameResourceAttempts ≤
        policy.budget.sameChannelAttempts ∧
      clampAttempts defaultFailoverAttempts policy.maxFailoverAttempts ≤
        policy.budget.failoverAttempts ∧ 0 ≤ policy.budget.sameChannelAttempts ∧
      0 ≤ policy.budget.failoverAttempts := by
  have hs := clampAttempts_bounds defaultSameChannelAttempts policy.maxSameResourceAttempts
    (by decide)
  have hf := clampAttempts_bounds defaultFailoverAttempts policy.maxFailoverAttempts (by decide)
  rw [RouteLiveRetryPolicy.budget]
  split
  · exact ⟨rfl, hs.2, hf.2, by decide, by decide⟩
  · exact ⟨rfl, Int.le_refl _, Int.le_refl _, hs.1, hf.1⟩

theorem planned_manual (policy : RouteLiveRetryPolicy) : Planned policy.budget
      ((manualRouteAttemptCandidates result policy).map (·.channelID)) := by
  obtain ⟨-, hsame, hfail, hs0, hf0⟩ := budget_bounds policy
  have hnd := (available_sublist result).nodup result.distinct
  rw [manualRouteAttemptCandidates]
  split
  next => exact ⟨[], 0, .nil, rfl, hs0, .inr (by simpa using by omega)⟩
  next first rest hav =>
  rw [hav] at hnd
  have htake : ∀ n : Nat, (((first :: rest).take n).map (·.channelID)).Nodup :=
    fun n => hnd.sublist ((take_sublist n _).map _)
  have hone : (([first.channelID] : List Int).length : Int) ≤
      policy.budget.failoverAttempts + 1 := by
    rw [length_singleton]
    omega
  split
  next => exact ⟨[first.channelID], 0, by simp, rfl, hs0, .inr hone⟩
  next =>
    refine ⟨[first.channelID],
      (clampAttempts defaultSameChannelAttempts policy.maxSameResourceAttempts).toNat, by simp, ?_,
      ?_, .inr hone⟩
    · rw [appendSameResource, map_replicate, flatMap_singleton]
    · omega
  next =>
    refine ⟨_, _, htake _, map_flatMap_replicate _ _, by omega, .inr ?_⟩
    rw [length_map, length_take]
    omega
  all_goals
    refine ⟨_, 0,
      htake ((clampAttempts defaultFailoverAttempts policy.maxFailoverAttempts).toNat + 1), ?_, hs0,
      .inr ?_⟩
    · exact (flatMap_singleton' _).symm
    · rw [length_map, length_take]
      omega

theorem planned_selection (maxRatio : Rat) (policy : Option RouteLiveRetryPolicy) :
    Planned (plannedSelection result maxRatio policy).retry.budget
      ((plannedSelection result maxRatio policy).attempts.map (·.channelID)) := by
  cases policy with
  | some policy => exact planned_manual result policy
  | none =>
    refine ⟨_, 1, (available_sublist result).nodup result.distinct, ?_, ?_, .inl ?_⟩
    · exact map_flatMap_replicate (availableRouteAttemptCandidates result) 2
    · change (1 : Int) ≤ clampAttempts 1 1
      decide
    · change (3 : Int) ≤ clampAttempts 2 2 + 1
      decide

theorem repeats_le_of_count {l : List Int} (hl : l.length ≤ 3) (hc : ∀ a, l.count a ≤ k + 1) :
    repeats l ≤ k := by
  match l with
  | [] | [_] => exact Nat.zero_le _
  | [a, b] =>
    have ha := hc a
    by_cases hab : a = b <;> simp_all [repeats]
  | [a, b, c] =>
    have ha := hc b
    by_cases hab : a = b <;> by_cases hbc : b = c <;> simp_all [repeats, count_cons]
  | a :: b :: c :: d :: l =>
    simp only [length_cons] at hl
    omega

theorem planned_within {b : RouteRetryBudget} {bound : Nat} {history : List Attempt}
    (hp : Planned b base) (h : Tried base bound history)
    (ht : (history.length : Int) ≤ defaultTotalAttempts) (hf : 0 ≤ b.failoverAttempts) :
    (changes (history.map (·.channelID)) : Int) ≤ b.failoverAttempts ∧
      (repeats (history.map (·.channelID)) : Int) ≤ b.sameChannelAttempts := by
  obtain ⟨l, k, hn, rfl, hk, hl⟩ := hp
  have hsub := h.sublist
  have hlen : (history.map (·.channelID)).length = history.length := length_map _
  generalize history.map (·.channelID) = chs at hsub hlen
  simp only [defaultTotalAttempts] at ht hl
  constructor
  · cases chs with
    | nil => exact hf
    | cons c chs =>
      have h3 := changes_lt_length c chs
      have hm := changes_sublist hsub
      cases l with
      | nil => simp at hsub
      | cons a l =>
        have hb := changes_flatMap_replicate k a l
        simp only [length_cons] at *
        omega
  · have hr : repeats chs ≤ k := by
      refine repeats_le_of_count (by omega) fun a => ?_
      exact Nat.le_trans (hsub.count_le a) (count_flatMap_replicate_le (k + 1) hn a)
    omega

/-- The calls of a request, against the list and the budget of its selection. -/
structure WithinBudget (selection : LiveRouteSelection) (history : List Attempt) : Prop where
  failover : (changes (history.map (·.channelID)) : Int) ≤ selection.retry.budget.failoverAttempts
  sameChannel :
    (repeats (history.map (·.channelID)) : Int) ≤ selection.retry.budget.sameChannelAttempts

/-- The calls go through the list once, none after output, and no more of them than the total. -/
structure Orderly (selection : LiveRouteSelection) (history : List Attempt) : Prop where
  placed : ∀ a ∈ history, (selection.attempts.map (·.channelID))[a.position]? = some a.channelID
  increasing : (history.map (·.position)).Pairwise (· < ·)
  total : (history.length : Int) ≤ selection.retry.budget.totalAttempts
  uncommitted : ∀ a ∈ history, a.committed = false

/-- The first candidate, which the context is set up for, passes every check before the call. -/
structure Admitted (selection : LiveRouteSelection) (channelID : Int) (round : Round) : Prop where
  first : ∃ rest, selection.attempts = ⟨channelID, none⟩ :: rest
  enabled : ∃ row, round.channel channelID = some row ∧ row.enabled
  price : round.priceFails = false
  ratio : selection.allowsPriceRatio round.channelRatio
  lease : round.lease = none
  billing : round.billingFails = false
  body : round.bodyFails = false

theorem afterError_history (s : RelayState) (round : Round) (channelID : Int) (e : NewAPIError) :
    (s.afterError round channelID e).state.history = s.history := by
  rw [RelayState.afterError]
  split
  · dsimp only
    split <;> rfl
  split
  · rfl
  · split <;> rfl

theorem afterAttempt_history (s : RelayState) (round : Round) (channelID : Int) :
    (s.afterAttempt round channelID).state.history = s.history := by
  rw [RelayState.afterAttempt]
  split
  · rfl
  split
  · rfl
  · exact afterError_history _ round channelID _

theorem Admitted.iterate {round : Round} (h : Admitted selection channelID round)
    (hs : s = start selection channelID keyIndex realtime none) :
    s.iterate round = (s.beginLiveRouteUpstreamAttempt channelID).afterAttempt round channelID := by
  obtain ⟨rest, hf⟩ := h.first
  obtain ⟨row, hrow, hon⟩ := h.enabled
  have hlim : s.exhausted = false := by
    simp [hs, RelayState.exhausted, RelayState.relayRetryLimit, start, hf, defaultTotalAttempts]
  have hcand : selection.candidateAtOrAfter 0 = some (⟨channelID, none⟩, 0) := by
    simp [candidateAtOrAfter, scan, hf]
  have hget : s.getChannel round = (s, some channelID) := by
    simp [hs, RelayState.getChannel, start, RelayState.walkCandidates, hcand, hrow, hon]
  have hrel : s.releaseRouteAttemptLease round = s := by
    simp [hs, RelayState.releaseRouteAttemptLease, start]
  simp only [RelayState.iterate, hrel, hlim, hget, RelayState.qualify]
  simp [hs, start, h.price, h.ratio, h.lease, h.billing, h.body]

/-- For any attempts and any answers of the rest of the server, the loop ends, goes through the
list once and starts no call after output. With the planner's list it also keeps the failover and
same-channel budget. A policy without retries gives at most one call, and one if the first
candidate is admitted. -/
theorem relay_keeps_retry_budget (selection : LiveRouteSelection) (channelID : Int)
    (keyIndex : Nat) (realtime : Bool) (rounds : List Round) :
    let turn := relay (.start selection channelID keyIndex realtime none) rounds
    (selection.attempts.length < rounds.length → turn.stopped) ∧
      Orderly selection turn.state.history ∧
      (∀ result maxRatio policy, selection = plannedSelection result maxRatio policy →
        WithinBudget selection turn.state.history) ∧
      (selection.retry.mode = .none → turn.state.history.length ≤ 1 ∧
        ∀ first ∈ rounds.head?, Admitted selection channelID first →
          turn.state.history.length = 1) := by
  intro turn
  have hready := ready_start selection channelID keyIndex realtime
  obtain ⟨hleft, hstop⟩ := relay_follows hready rounds
  obtain ⟨htotal, -, -, -, hf0⟩ := budget_bounds selection.retry
  refine ⟨fun hlen => hstop ?_, ?_, ?_, fun hmode => ⟨hleft.once hmode, ?_⟩⟩
  · rw [length_map]
    exact Nat.lt_of_le_of_lt (Nat.sub_le _ _) hlen
  · exact ⟨hleft.tried.placed, hleft.tried.increasing, htotal ▸ hleft.total, hleft.tried.clean⟩
  · rintro result maxRatio policy rfl
    obtain ⟨hc, hr⟩ := planned_within (planned_selection result maxRatio policy) hleft.tried
      hleft.total hf0
    exact ⟨hc, hr⟩
  · intro first hfirst hadm
    cases rounds with
    | nil => cases hfirst
    | cons round rounds =>
      cases hfirst
      have hi := hready.iterate first
      have hfirst := hadm.iterate (.refl (start _ _ keyIndex realtime none))
      have hh := (congrArg (·.state.history) hfirst).trans (afterAttempt_history _ first channelID)
      change (relay _ (first :: rounds)).state.history.length = 1
      rw [relay]
      generalize RelayState.iterate _ first = next at hi hh
      cases next with
      | stop t =>
        change t.history = _ at hh
        change t.history.length = 1
        rw [hh]
        rfl
      | again t =>
        -- a policy without retries never continues after a call
        have hnone := hi.1.once hmode
        change t.history = _ at hh
        rw [hh] at hnone
        cases hnone

def twoChannels : RouteSelectionResult where
  candidates := [4, 5]
  decision := [⟨4, none⟩, ⟨5, none⟩]
  distinct := by decide

def overloaded : Upstream :=
  { error := some { statusCode := 503, errorCode := "bad_response_status_code"
                    message := "overloaded", openAICode := "bad_response_status_code" } }

theorem none_policy_calls_once :
    let selection := plannedSelection twoChannels 0 (some ⟨.none, 1, 2⟩)
    let turn := relay (.start selection 4 0 false none)
      [{ upstream := overloaded }, { upstream := overloaded }]
    turn.state.history.length = 1 ∧ turn.stopped ∧ WithinBudget selection turn.state.history := by
  intro selection turn
  obtain ⟨hstop, -, hplan, hnone⟩ := relay_keeps_retry_budget selection 4 0 false
    [{ upstream := overloaded }, { upstream := overloaded }]
  refine ⟨(hnone rfl).2 { upstream := overloaded } rfl ?_, hstop (by decide), hplan _ _ _ rfl⟩
  exact ⟨⟨[], rfl⟩, ⟨{}, rfl, rfl⟩, rfl, rfl, rfl, rfl, rfl⟩

def compactSelection : LiveRouteSelection := plannedSelection ⟨[7], [⟨7, none⟩], by decide⟩ 0 none

def unknownModel : Upstream :=
  { error := some { statusCode := 400, errorCode := "model_not_found"
                    message := "The requested model does not exist", openAICode := "model_not_found"
                    openAIMessage := "The requested model does not exist" } }

/-- Every call of a compact request plans anew, on a channel with two keys. -/
def compactRound (upstream : Upstream) : Round where
  channel := fun _ => some { keys := [0, 1] }
  reselect := some (compactSelection, 7)
  upstream := upstream

/-- The call for the base model repeats channel and key and is not charged, so a third call still
finds its budget. -/
theorem compact_repeats_channel_twice :
    let turn := relay
      (.start compactSelection 7 0 false (some (newCompactRetryState (some .exact) true)))
      [compactRound unknownModel, compactRound overloaded, compactRound overloaded]
    turn.state.history = [⟨0, 7, 0, false⟩, ⟨0, 7, 0, false⟩, ⟨0, 7, 1, false⟩] ∧
    turn.stopped ∧ compactSelection.retry.budget.sameChannelAttempts = 1 ∧
    ¬ WithinBudget compactSelection turn.state.history := by
  intro turn
  have hturn : turn.state.history = [⟨0, 7, 0, false⟩, ⟨0, 7, 0, false⟩, ⟨0, 7, 1, false⟩] ∧
      turn.stopped := by
    decide +kernel
  refine ⟨hturn.1, hturn.2, rfl, fun hwithin => ?_⟩
  have hsame := hwithin.sameChannel
  rw [hturn.1] at hsame
  revert hsame
  decide

end Ren2Hub.Relay
