import Mathlib.Algebra.Order.Ring.Int
import Ren2Hub.Lib.Inputs
import Ren2Hub.Routing.Health

namespace Ren2Hub.Proofs.HealthRuns
open Lib Routing Stage List

variable {s : HealthRun} {row : Option ChannelHealth} {health : ChannelHealth} {now : Instant}
  {stage : Stage} {i : Nat}

variable (events : List HealthEvent)

/-- The state after a list of events, from a missing row. -/
abbrev after : HealthRun := events.foldl HealthRun.next {}

theorem after_append (pre more : List HealthEvent) :
    after (pre ++ more) = more.foldl HealthRun.next (after pre) := foldl_append

/-- The caller's next statement moves an open row to half-open, and the row lets it. -/
def claims (s : HealthRun) (i : Nat) : Bool :=
  match s.callers[i]? with
  | some ⟨now, .claiming _⟩ => due .opened now s.row
  | _ => false

/-- The answer of the caller whose next statement is its last one. -/
def returns (s : HealthRun) (i : Nat) : Option Admission :=
  match s.callers[i]? with
  | some ⟨_, .returned _⟩ => none
  | some c =>
    match (c.stage.step c.now false s.row).2 with
    | .returned answer => some answer
    | _ => none
  | none => none

theorem due_iff : due state now row = true ↔
    ∃ h, row = some h ∧ h.state = state ∧ 0 < h.cooldownUntil ∧ h.cooldownUntil ≤ now.unix := by
  cases row with
  | none => simp [due]
  | some h => simp [due, and_assoc]

theorem load_some (health : ChannelHealth) : loadRouteHealthScope (some health) = health := rfl

/-- One statement of a caller: nothing, a probe that ran out re-armed, or a probe
claimed. -/
theorem stage_row (stage : Stage) (now : Instant) (fails : Bool) (row : Option ChannelHealth) :
    (stage.step now fails row).1 = row ∨
    (due .halfOpen now row = true ∧ (stage.step now fails row).1 = rewrite .opened 0 row) ∨
    (fails = false ∧ (∃ h, stage = .claiming h) ∧ due .opened now row = true ∧
      (stage.step now fails row).1 =
        rewrite .halfOpen (now.unixAfter defaultRouteHealthPolicy.cooldown) row) := by
  cases fails with
  | true => cases stage <;> exact .inl rfl
  | false =>
    cases stage with
    | loading | returned => exact .inl rfl
    | rearming =>
      cases hd : due .halfOpen now row with
      | false | true => simp [step, hd]
    | claiming =>
      cases hd : due .opened now row with
      | false | true => simp [step, hd]

theorem next_row (s : HealthRun) (e : HealthEvent) :
    (s.next e).row = s.row ∨
    (∃ now, due .halfOpen now s.row = true ∧ (s.next e).row = rewrite .opened 0 s.row) ∨
    (∃ i now, e = .step i false ∧ claims s i = true ∧ due .opened now s.row = true ∧
      (s.next e).row =
        rewrite .halfOpen (now.unixAfter defaultRouteHealthPolicy.cooldown) s.row) ∨
    (∃ policy now retryAfter, e = .failure policy now retryAfter ∧
      (s.next e).row = some (persistRouteHealthFailure policy now retryAfter s.row)) ∨
    (∃ latencyMS ttftMS, e = .success latencyMS ttftMS ∧
      (s.next e).row = some (persistRouteHealthSuccessWithMetrics latencyMS ttftMS s.row)) := by
  cases e with
  | start => exact .inl rfl
  | failure policy now retryAfter =>
    exact .inr (.inr (.inr (.inl ⟨policy, now, retryAfter, rfl, rfl⟩)))
  | success latencyMS ttftMS =>
    exact .inr (.inr (.inr (.inr ⟨latencyMS, ttftMS, rfl, rfl⟩)))
  | step i fails =>
    simp only [HealthRun.next]
    cases hc : s.callers[i]? with
    | none => exact .inl rfl
    | some c =>
      rcases stage_row c.stage c.now fails s.row with he | ⟨hd, he⟩ | ⟨rfl, ⟨h, hs⟩, hd, he⟩
      · exact .inl he
      · exact .inr (.inl ⟨c.now, hd, he⟩)
      refine .inr (.inr (.inl ⟨i, c.now, rfl, ?_, hd, he⟩))
      obtain ⟨now, stage⟩ := c
      cases hs
      simpa [claims, hc] using hd

theorem unixAfter_pos (now : Instant) (hd : 0 ≤ d) : 0 < now.unixAfter d := by
  have hnow := now.modern
  unfold Instant.unixAfter
  omega

theorem normalized_cooldown_pos (policy : RouteHealthPolicy) : 0 < policy.normalized.cooldown := by
  unfold RouteHealthPolicy.normalized second
  dsimp only
  split <;> omega

theorem cooldownEnd_pos (policy : RouteHealthPolicy) (now : Instant) (retryAfter : Int) :
    0 < policy.normalized.cooldownEnd now retryAfter := by
  have hc := normalized_cooldown_pos policy
  unfold RouteHealthPolicy.cooldownEnd
  split
  · exact unixAfter_pos now (by omega)
  · exact unixAfter_pos now hc.le

def base (row : Option ChannelHealth) : ChannelHealth := (row.getD {}).normalize

theorem failure_cases (policy : RouteHealthPolicy) (now : Instant) (retryAfter : Int)
    (row : Option ChannelHealth) :
    let h := persistRouteHealthFailure policy now retryAfter row
    (h.state = .opened ∧ h.cooldownUntil = policy.normalized.cooldownEnd now retryAfter ∧
      h.healthEpoch = (base row).healthEpoch + 1) ∨
    (h.state = (base row).state ∧ (base row).state ≠ .halfOpen ∧
      h.cooldownUntil = (base row).cooldownUntil ∧
      h.healthEpoch = (base row).healthEpoch) := by
  unfold persistRouteHealthFailure observeRouteHealthFailureWithRetryAfter
  dsimp only
  split
  · exact .inl ⟨rfl, rfl, rfl⟩
  · rename_i h
    exact .inr ⟨rfl, fun he => h (.inl he), rfl, rfl⟩

theorem observeSuccess_epoch (health : ChannelHealth) :
    (observeRouteHealthSuccess health).healthEpoch = (health.normalize).healthEpoch + 1 ∨
    (observeRouteHealthSuccess health).healthEpoch = (health.normalize).healthEpoch ∧
      (health.normalize).state = .closed ∧ (health.normalize).cooldownUntil = 0 := by
  by_cases hclean : (health.normalize).state ≠ .closed ∨
      (health.normalize).failureCount ≠ 0 ∨ (health.normalize).cooldownUntil ≠ 0
  · left
    exact if_pos hclean
  right
  refine ⟨if_neg hclean, ?_⟩
  simp only [not_or, not_not] at hclean
  exact ⟨hclean.1, hclean.2.2⟩

theorem success_cases (latencyMS ttftMS : Int) (row : Option ChannelHealth) :
    let h := persistRouteHealthSuccessWithMetrics latencyMS ttftMS row
    h.state = .closed ∧ h.cooldownUntil = 0 ∧
    (h.healthEpoch = (base row).healthEpoch + 1 ∨
      h.healthEpoch = (base row).healthEpoch ∧
      (base row).state = .closed ∧ (base row).cooldownUntil = 0) := by
  unfold persistRouteHealthSuccessWithMetrics
  dsimp only
  split <;> split <;> exact ⟨rfl, rfl, observeSuccess_epoch _⟩

/-- At some later time the row lets the route be used again; a key also passes the selection. -/
structure ComesBack (row : Option ChannelHealth) : Prop where
  route : ∀ t : Instant, ∃ now : Instant, t.nanos ≤ now.nanos ∧
    ∃ epoch, (routeHealthUsable now row).2 = .returned ⟨true, epoch, false⟩
  key : ∀ key, blank key = false → ∀ t : Instant, ∃ now : Instant, t.nanos ≤ now.nanos ∧
    unavailableRouteKeyIndexes [row] now = [] ∧
    ∃ epoch, (routeKeyHealthUsable key now row).2 = .returned ⟨true, epoch, false⟩
  opened : ∀ h, row = some h → h.state = .opened → 0 < h.cooldownUntil

/-- The row is missing, closed, or open until some time. -/
def Reopens (row : Option ChannelHealth) : Prop :=
  ∀ h, row = some h → h.state = .closed ∨ h.state = .opened ∧ 0 < h.cooldownUntil

@[simp] theorem finish_returned (now : Instant) (n : Nat) (row : Option ChannelHealth)
    (answer : Admission) :
    finish now n row (.returned answer) = (row, .returned answer) := by
  induction n with
  | zero => rfl
  | succ n ih => exact ih

theorem finish_succ (now : Instant) (n : Nat) (row : Option ChannelHealth) (stage : Stage) :
    finish now (n + 1) row stage =
      finish now n (stage.step now false row).1 (stage.step now false row).2 := rfl

theorem afterLoad_closed (h : health.state = .closed) (attempt : Nat) (now : Instant) :
    afterLoad attempt now health = .returned ⟨true, health.healthEpoch, false⟩ := by
  simp [afterLoad, h]

theorem afterLoad_opened (h : health.state = .opened) (attempt : Nat) (now : Instant) :
    afterLoad attempt now health =
      if health.cooldownUntil ≤ 0 ∨ health.cooldownUntil > now.unix then
        .returned ⟨false, health.healthEpoch, false⟩ else .claiming health := by
  simp [afterLoad, h]

theorem afterLoad_halfOpen (h : health.state = .halfOpen) (attempt : Nat) (now : Instant) :
    afterLoad attempt now health = if health.cooldownUntil > now.unix then
      .returned ⟨false, health.healthEpoch, false⟩ else .rearming attempt health := by
  simp [afterLoad, h]

theorem usable_of_closed (h : (loadRouteHealthScope row).state = .closed) (now : Instant) :
    (routeHealthUsable now row).2 =
      .returned ⟨true, (loadRouteHealthScope row).healthEpoch, false⟩ := by
  rw [routeHealthUsable, finish_succ]
  simp [step, afterLoad_closed h]

theorem usable_of_due (h : due .opened now row = true) :
    (routeHealthUsable now row).2 =
      .returned ⟨true, (loadRouteHealthScope row).healthEpoch + 1, false⟩ := by
  obtain ⟨health, rfl, hs, hpos, hle⟩ := due_iff.mp h
  have hload : afterLoad 0 now (loadRouteHealthScope (some health)) = .claiming health := by
    rw [load_some, afterLoad_opened hs,
      if_neg (by omega)]
  rw [routeHealthUsable, finish_succ]
  simp only [step, Bool.false_eq_true, if_false, hload, finish_succ, h, if_true]
  rfl

/-- A time after `t` at which a deadline has passed. -/
def atOrAfter (t : Instant) (deadline : Int) : Instant where
  nanos := max t.nanos (deadline * 1000000000)
  modern := lt_of_lt_of_le t.modern (Int.ediv_le_ediv (by decide) (le_max_left _ _))

theorem le_unix_atOrAfter (t : Instant) (deadline : Int) :
    deadline ≤ (atOrAfter t deadline).unix := by
  apply Int.le_ediv_of_mul_le (by decide)
  exact le_max_right _ _

theorem Reopens.comesBack (h : Reopens row) : ComesBack row := by
  have hback : ∀ t : Instant, ∃ now : Instant, t.nanos ≤ now.nanos ∧
      unavailableRouteKeyIndexes [row] now = [] ∧
      ∃ epoch, (routeHealthUsable now row).2 = .returned ⟨true, epoch, false⟩ := by
    intro t
    cases row with
    | none => exact ⟨t, le_rfl, rfl, _, usable_of_closed rfl t⟩
    | some health =>
      rcases h health rfl with hs | ⟨hs, hpos⟩
      · have hs' : (loadRouteHealthScope (some health)).state = .closed := hs
        refine ⟨t, le_rfl, ?_, _, usable_of_closed hs' t⟩
        simp [unavailableRouteKeyIndexes, canUseRouteHealth, hs]
      have hle := le_unix_atOrAfter t health.cooldownUntil
      have hdue : due .opened (atOrAfter t health.cooldownUntil) (some health) = true :=
        due_iff.mpr ⟨health, rfl, hs, hpos, hle⟩
      refine ⟨atOrAfter t health.cooldownUntil, le_max_left _ _, ?_, _, usable_of_due hdue⟩
      simp [unavailableRouteKeyIndexes, canUseRouteHealth, hs, hpos, hle]
  refine ⟨fun t => ?_, fun key hkey t => ?_, fun health he hs => ?_⟩
  · obtain ⟨now, hle, _, hu⟩ := hback t
    exact ⟨now, hle, hu⟩
  · obtain ⟨now, hle, hx, hu⟩ := hback t
    refine ⟨now, hle, hx, ?_⟩
    simpa [routeKeyHealthUsable, hkey] using hu
  rcases h health he with hc | hc
  · rw [hs] at hc
    cases hc
  · exact hc.2

theorem not_comesBack_of_halfOpen (hs : health.state = .halfOpen) : ¬ ComesBack (some health) := by
  intro h
  obtain ⟨now, _, epoch, hu⟩ := h.route ⟨1000000000, by decide⟩
  -- The call returns not usable, or re-arms the row and loads it again.
  rw [routeHealthUsable, finish_succ] at hu
  simp only [step, Bool.false_eq_true, if_false] at hu
  rw [load_some, afterLoad_halfOpen hs] at hu
  split at hu
  · simp at hu
  rw [finish_succ] at hu
  simp only [step, Bool.false_eq_true, if_false] at hu
  split at hu
  · have hload : ∀ attempt, afterLoad attempt now
        (loadRouteHealthScope (rewrite .opened 0 (some health))) =
          .returned ⟨false, health.healthEpoch + 1, false⟩ := fun attempt => by
      simp [loadRouteHealthScope, rewrite, afterLoad]
    simp [nextAttempt, finish_succ, step, hload] at hu
  · simp at hu

/-- No caller claims a probe. -/
def NeverProbes (s : HealthRun) : HealthEvent → Prop
  | .step i false => claims s i = false
  | _ => True

theorem base_state_of_reopens (h : Reopens row) :
    (base row).state = .closed ∨
      (base row).state = .opened ∧ 0 < (base row).cooldownUntil := by
  cases row with
  | none => exact .inl rfl
  | some health =>
    rcases h health rfl with hs | ⟨hs, hpos⟩
    · left
      simp [base, ChannelHealth.normalize, hs]
    · right
      simp [base, ChannelHealth.normalize, hs, hpos]

theorem Reopens.next (h : Reopens s.row) (e : HealthEvent) (hg : NeverProbes s e) :
    Reopens (s.next e).row := by
  rcases next_row s e with he | ⟨now, hd, _⟩ | ⟨i, now, rfl, hc, _⟩ | ⟨p, now, ra, _, he⟩ |
    ⟨l, f, _, he⟩
  · rw [he]
    exact h
  · -- Nothing to re-arm without a claim.
    obtain ⟨health, hrow, hs, _⟩ := due_iff.mp hd
    rcases h health hrow with hc | hc
    · rw [hs] at hc
      cases hc
    · rw [hs] at hc
      cases hc.1
  · exact absurd hc (Bool.eq_false_iff.mp hg)
  · rw [he]
    rintro _ ⟨⟩
    rcases failure_cases p now ra s.row with ⟨hs, hc, _⟩ | ⟨hs, _, hc, _⟩
    · exact .inr ⟨hs, hc ▸ cooldownEnd_pos p now ra⟩
    · rw [hs, hc]
      exact base_state_of_reopens h
  · rw [he]
    rintro _ ⟨⟩
    exact .inl (success_cases l f s.row).1

theorem claims_spec (h : claims s i = true) :
    ∃ now health, s.callers[i]? = some ⟨now, .claiming health⟩ ∧ due .opened now s.row = true := by
  unfold claims at h
  split at h
  · rename_i now health hc
    exact ⟨now, health, hc, h⟩
  · cases h

theorem next_claim (hc : s.callers[i]? = some ⟨now, .claiming health⟩)
    (hd : due .opened now s.row = true) :
    s.next (.step i false) =
      ⟨rewrite .halfOpen (now.unixAfter defaultRouteHealthPolicy.cooldown) s.row,
        s.callers.set i ⟨now, .returned ⟨true, health.healthEpoch + 1, false⟩⟩⟩ := by
  simp [HealthRun.next, hc, step, hd]

theorem not_comesBack_of_claim (e : HealthEvent) (hg : ¬ NeverProbes s e) :
    ¬ ComesBack (s.next e).row := by
  match e with
  | .start _ => exact absurd trivial hg
  | .failure _ _ _ => exact absurd trivial hg
  | .success _ _ => exact absurd trivial hg
  | .step _ true => exact absurd trivial hg
  | .step i false =>
    have hclaims : claims s i = true := by simpa [NeverProbes] using hg
    obtain ⟨now, health, hc, hd⟩ := claims_spec hclaims
    obtain ⟨stored, hrow, _⟩ := due_iff.mp hd
    rw [next_claim hc hd, hrow]
    exact not_comesBack_of_halfOpen rfl

theorem reopens_missing : Reopens none := by
  rintro _ ⟨⟩

/-- A route can come back in every state of a run exactly if the run never claims
a half-open probe. -/
theorem route_comes_back_iff_never_probed (events : List HealthEvent) :
    (∀ pre, pre <+: events → ComesBack (after pre).row) ↔
      Along HealthRun.next NeverProbes {} events :=
  along_iff (A := fun _ _ => True) (J := fun _ => True) (K := fun s : HealthRun => Reopens s.row)
    (P := fun s : HealthRun => ComesBack s.row) (fun _ _ _ _ => trivial)
    (fun _ e _ h hg => h.next e hg) (fun _ h => h.comesBack)
    (fun _ e _ _ hg => not_comesBack_of_claim e hg) trivial reopens_missing events
    (along_of_forall _ fun _ _ => trivial)

def atSecond (n : Nat) [NeZero n] : Instant :=
  ⟨n * 1000000000, by have := NeZero.ne n; omega⟩

/-- A failure opens the breaker until 1030. The probe claimed at 1040 never reports back, and the
call at 1100 re-arms the row without a deadline. -/
def abandonedProbe : List HealthEvent :=
  [.failure ⟨1, 30 * second⟩ (atSecond 1000) 0, .start (atSecond 1040), .step 0 false,
    .step 0 false, .start (atSecond 1100), .step 1 false, .step 1 false, .step 1 false]

theorem abandonedProbe_never_comes_back :
    (after abandonedProbe).row = some
      { state := .opened, failureCount := 1, cooldownUntil := 0, healthEpoch := 4 } ∧
    ¬ ComesBack (after abandonedProbe).row := by
  have hrow : (after abandonedProbe).row = some
      { state := .opened, failureCount := 1, cooldownUntil := 0, healthEpoch := 4 } := by decide
  refine ⟨hrow, fun h => ?_⟩
  exact absurd (h.opened _ hrow rfl) (by decide)

def IsObservation : HealthEvent → Bool
  | .failure _ _ _ | .success _ _ => true
  | _ => false

/-- The probe is out, or it ran out and the row was re-armed without a deadline. -/
def Probed (row : Option ChannelHealth) : Prop :=
  ∃ h, row = some h ∧ (h.state = .halfOpen ∨ h.state = .opened ∧ h.cooldownUntil = 0)

theorem Probed.not_due (h : Probed row) (now : Instant) : due .opened now row = false := by
  obtain ⟨health, rfl, hs | ⟨_, hc⟩⟩ := h
  · simp [due, hs]
  · simp [due, hc]

theorem Probed.next (h : Probed s.row) (e : HealthEvent) (he : IsObservation e = false) :
    Probed (s.next e).row := by
  rcases next_row s e with hr | ⟨now, hd, hr⟩ | ⟨i, now, rfl, _, hd, _⟩ | ⟨p, now, ra, rfl, _⟩ |
    ⟨l, f, rfl, _⟩
  · rw [hr]
    exact h
  · obtain ⟨health, hrow, _⟩ := due_iff.mp hd
    rw [hr, hrow]
    exact ⟨_, rfl, .inr ⟨rfl, rfl⟩⟩
  · rw [h.not_due now] at hd
    cases hd
  · cases he
  · cases he

theorem Probed.run (h : Probed s.row) (events : List HealthEvent)
    (he : ∀ e ∈ events, IsObservation e = false) : Probed (events.foldl HealthRun.next s).row := by
  induction events generalizing s with
  | nil => exact h
  | cons e events ih =>
    exact ih (h.next e (he e mem_cons_self)) fun e' hm => he e' (mem_cons_of_mem _ hm)

theorem returns_spec (h : returns s i = some answer) :
    ∃ c, s.callers[i]? = some c ∧ (∀ a, c.stage ≠ .returned a) ∧
      (c.stage.step c.now false s.row).2 = .returned answer := by
  unfold returns at h
  split at h
  · cases h
  · rename_i c hnot hc
    refine ⟨c, hc, fun a ha => ?_, ?_⟩
    · obtain ⟨now, stage⟩ := c
      cases ha
      exact hnot _ _ rfl
    split at h
    · cases h
      assumption
    · cases h
  · cases h

theorem step_usable (hnot : ∀ a, stage ≠ .returned a)
    (h : (stage.step now false row).2 = .returned answer) (hu : answer.usable = true) :
    (((loadRouteHealthScope row).state = .unset ∨ (loadRouteHealthScope row).state = .closed) ∧
      answer.epoch = (loadRouteHealthScope row).healthEpoch ∧ (stage.step now false row).1 = row) ∨
    ∃ loaded, stage = .claiming loaded ∧ due .opened now row = true ∧
      answer.epoch = loaded.healthEpoch + 1 := by
  cases stage with
  | returned a => exact absurd rfl (hnot a)
  | rearming =>
    simp only [step, Bool.false_eq_true, if_false, nextAttempt] at h
    split at h
    · split at h <;> cases h
      cases hu
    · cases h
      cases hu
  | loading =>
    simp only [step, Bool.false_eq_true, if_false, afterLoad] at h ⊢
    split at h
    · rename_i hs
      cases h
      exact .inl ⟨hs, rfl, trivial⟩
    split at h
    · split at h <;> cases h
      cases hu
    · split at h <;> cases h
      cases hu
  | claiming loaded =>
    simp only [step, Bool.false_eq_true, if_false] at h
    split at h
    · rename_i hd
      cases h
      exact .inr ⟨loaded, rfl, hd, rfl⟩
    · cases h
      cases hu

theorem Probed.refuses (h : Probed s.row) (hr : returns s i = some answer) :
    answer.usable = false := by
  obtain ⟨⟨now, stage⟩, _, hnot, hstep⟩ := returns_spec hr
  by_contra hu
  rcases step_usable hnot hstep (by simpa using hu) with ⟨hs, _⟩ | ⟨_, _, hd, _⟩
  · obtain ⟨health, hrow, hstate⟩ := h
    rw [hrow, load_some] at hs
    rcases hstate with he | ⟨he, _⟩ <;> simp [he] at hs
  · rw [h.not_due now] at hd
    cases hd

/-- The epoch of the row, one for a row that is not there. -/
def epoch (row : Option ChannelHealth) : Int := (loadRouteHealthScope row).healthEpoch

theorem epoch_some (health : ChannelHealth) : epoch (some health) = health.healthEpoch := rfl

/-- A failure sets a deadline after the clock of every caller that still means to claim a probe. -/
def OutlastsClaims (s : HealthRun) : HealthEvent → Prop
  | .failure policy now retryAfter => ∀ c ∈ s.callers, (∃ h, c.stage = .claiming h) →
      c.now.unix < policy.normalized.cooldownEnd now retryAfter
  | _ => True

/-- Rows as the code stores them. -/
def Stored (row : Option ChannelHealth) : Prop :=
  ∀ h, row = some h → h.state ≠ .unset ∧ 1 ≤ h.healthEpoch

theorem Stored.base (h : Stored row) :
    (base row).state = (loadRouteHealthScope row).state ∧
    (base row).cooldownUntil = (loadRouteHealthScope row).cooldownUntil ∧
    (base row).healthEpoch = epoch row := by
  cases row with
  | none => exact ⟨rfl, rfl, rfl⟩
  | some health =>
    obtain ⟨hs, he⟩ := h health rfl
    have hpos : ¬ health.healthEpoch ≤ 0 := by omega
    exact ⟨if_neg hs, rfl, if_neg hpos⟩

/-- The epoch does not fall, and while it stands still so do the state and the deadline. -/
def Fences (row row' : Option ChannelHealth) : Prop :=
  epoch row ≤ epoch row' ∧ (epoch row = epoch row' →
    (loadRouteHealthScope row').state = (loadRouteHealthScope row).state ∧
    (loadRouteHealthScope row').cooldownUntil = (loadRouteHealthScope row).cooldownUntil)

theorem Fences.refl (row : Option ChannelHealth) : Fences row row := ⟨le_rfl, fun _ => ⟨rfl, rfl⟩⟩

theorem Fences.trans (h : Fences a b) (h' : Fences b c) : Fences a c := by
  refine ⟨h.1.trans h'.1, fun he => ?_⟩
  have h1 := h.1
  have h2 := h'.1
  obtain ⟨hs, hc⟩ := h.2 (by omega)
  obtain ⟨hs', hc'⟩ := h'.2 (by omega)
  exact ⟨hs'.trans hs, hc'.trans hc⟩

theorem fences_of_lt (h : epoch row < epoch row') :
    Fences row row' := ⟨h.le, fun he => absurd he h.ne⟩

theorem epoch_rewrite (h : row = some health) :
    epoch (rewrite state cooldown row) = epoch row + 1 := by
  subst h
  rfl

/-- Every event keeps rows as the code stores them, and the epoch fences them. -/
theorem Stored.next (h : Stored s.row) (e : HealthEvent) :
    Stored (s.next e).row ∧ Fences s.row (s.next e).row := by
  have hrewrite : ∀ state cooldown now t, state ≠ .unset → due t now s.row = true →
      (s.next e).row = rewrite state cooldown s.row →
      Stored (s.next e).row ∧ Fences s.row (s.next e).row := by
    intro state cooldown now t hne hd hr
    obtain ⟨health, hrow, _⟩ := due_iff.mp hd
    rw [hr]
    refine ⟨?_, fences_of_lt (by rw [epoch_rewrite hrow]; omega)⟩
    rw [hrow]
    rintro _ ⟨⟩
    have := (h health hrow).2
    exact ⟨hne, by show 1 ≤ health.healthEpoch + 1; omega⟩
  have hpos : 1 ≤ epoch s.row := by
    cases hrow : s.row with
    | none => exact le_rfl
    | some health => exact (h health hrow).2
  rcases next_row s e with hr | ⟨now, hd, hr⟩ | ⟨i, now, _, _, hd, hr⟩ | ⟨p, now, ra, _, hr⟩ |
    ⟨l, f, _, hr⟩
  · rw [hr]
    exact ⟨h, .refl _⟩
  · exact hrewrite .opened _ now _ nofun hd hr
  · exact hrewrite .halfOpen _ now _ nofun hd hr
  · obtain ⟨hbs, hbc, hbe⟩ := h.base
    rw [hr]
    rcases failure_cases p now ra s.row with ⟨hs, _, he⟩ | ⟨hs, _, hc, he⟩
    · rw [hbe] at he
      refine ⟨?_, fences_of_lt (by rw [epoch_some]; omega)⟩
      rintro _ ⟨⟩
      exact ⟨by rw [hs]; nofun, by omega⟩
    · rw [hbe] at he
      rw [hbs] at hs
      rw [hbc] at hc
      refine ⟨?_, he.ge, fun _ => ⟨hs, hc⟩⟩
      rintro _ ⟨⟩
      refine ⟨?_, by omega⟩
      rw [hs]
      cases hrow : s.row with
      | none => nofun
      | some health => exact (h health hrow).1
  · obtain ⟨hbs, hbc, hbe⟩ := h.base
    rw [hr]
    obtain ⟨hs, hc, he | ⟨he, hbase, hzero⟩⟩ := success_cases l f s.row
    · rw [hbe] at he
      refine ⟨?_, fences_of_lt (by rw [epoch_some]; omega)⟩
      rintro _ ⟨⟩
      exact ⟨by rw [hs]; nofun, by omega⟩
    · rw [hbe] at he
      refine ⟨?_, he.ge, fun _ => ⟨?_, ?_⟩⟩
      · rintro _ ⟨⟩
        exact ⟨by rw [hs]; nofun, by omega⟩
      · rw [load_some, hs, ← hbs, hbase]
      · rw [load_some, hc, ← hbc, hzero]

theorem step_claiming (h : (stage.step now fails row).2 = .claiming health) :
    health = loadRouteHealthScope row ∧ (stage.step now fails row).1 = row := by
  cases fails with
  | true => cases stage <;> simp [step] at h
  | false =>
    cases stage with
    | returned => simp [step] at h
    | claiming =>
      simp only [step, Bool.false_eq_true, if_false] at h
      split at h <;> cases h
    | rearming =>
      simp only [step, Bool.false_eq_true, if_false, nextAttempt] at h
      split at h
      · split at h <;> cases h
      · cases h
    | loading =>
      refine ⟨?_, rfl⟩
      simp only [step, Bool.false_eq_true, if_false, afterLoad] at h
      split at h
      · cases h
      split at h
      · split at h <;> cases h
      · split at h <;> cases h
        rfl

theorem next_claiming (hc : c ∈ (s.next e).callers) (hs : c.stage = .claiming health) :
    c ∈ s.callers ∨ health = loadRouteHealthScope s.row ∧ (s.next e).row = s.row := by
  cases e with
  | failure | success => exact .inl hc
  | start =>
    rcases mem_append.mp hc with hc | hc
    · exact .inl hc
    · rw [mem_singleton.mp hc] at hs
      cases hs
  | step i =>
    simp only [HealthRun.next] at hc ⊢
    cases hi : s.callers[i]? with
    | none =>
      rw [hi] at hc
      exact .inl hc
    | some c0 =>
      rw [hi] at hc
      rcases mem_or_eq_of_mem_set hc with hc | rfl
      · exact .inl hc
      · exact .inr (step_claiming hs)

/-- What callers hold is no newer than the row. -/
structure Kept (s : HealthRun) : Prop where
  stored : Stored s.row
  loaded : ∀ c ∈ s.callers, ∀ h, c.stage = .claiming h → h.healthEpoch ≤ epoch s.row

theorem Kept.initial : Kept {} :=
  ⟨by rintro _ ⟨⟩, forall_mem_nil _⟩

theorem Kept.next (h : Kept s) (e : HealthEvent) : Kept (s.next e) := by
  obtain ⟨hstored, hfences⟩ := h.stored.next e
  refine ⟨hstored, fun c hc health hs => ?_⟩
  rcases next_claiming hc hs with hc | ⟨rfl, hrow⟩
  · exact (h.loaded c hc health hs).trans hfences.1
  · rw [hrow, epoch]

theorem run_kept : Kept (after events) :=
  foldl_keeps (I := Kept) (fun _ e h => h.next e) .initial events

theorem run_fences (h : Kept s) (events : List HealthEvent) :
    Fences s.row (events.foldl HealthRun.next s).row := by
  have hrun := foldl_keeps (I := fun t => Kept t ∧ Fences s.row t.row)
    (fun t e ht => ⟨ht.1.next e, ht.2.trans (ht.1.stored.next e).2⟩) ⟨h, .refl _⟩ events
  exact hrun.2

theorem returns_epoch (h : Kept s) (hr : returns s i = some answer) (hu : answer.usable = true) :
    answer.epoch ≤ epoch (s.next (.step i false)).row := by
  obtain ⟨⟨now, stage⟩, hc, hnot, hstep⟩ := returns_spec hr
  have hrow : (s.next (.step i false)).row = (stage.step now false s.row).1 := by
    simp [HealthRun.next, hc]
  rw [hrow]
  rcases step_usable hnot hstep hu with ⟨_, he, hsame⟩ | ⟨loaded, rfl, hd, he⟩
  · rw [he, hsame, epoch]
  have hle := h.loaded _ (mem_of_getElem? hc) loaded rfl
  obtain ⟨health, hsome, _⟩ := due_iff.mp hd
  simp only [step, Bool.false_eq_true, if_false, if_pos hd]
  rw [epoch_rewrite hsome, he]
  exact Int.add_le_add_right hle 1

/-- Equal epochs mean the same breaker, and a route that passes the recheck under the epoch it was
selected with finds the breaker as it was. -/
theorem health_epoch_fences_the_breaker (pre more : List HealthEvent) :
    (epoch (after pre).row = epoch (after (pre ++ more)).row →
      (loadRouteHealthScope (after (pre ++ more)).row).state =
        (loadRouteHealthScope (after pre).row).state ∧
      (loadRouteHealthScope (after (pre ++ more)).row).cooldownUntil =
        (loadRouteHealthScope (after pre).row).cooldownUntil) ∧
    ∀ i answer, returns (after pre) i = some answer → answer.usable = true →
      ∀ expected current : RouteLeaseRuntimeState, expected.healthEpoch = answer.epoch →
        current.healthEpoch =
          epoch (after (pre ++ .step i false :: more)).row →
        recheckRouteLeaseRuntime expected current = true →
        (loadRouteHealthScope (after (pre ++ .step i false :: more)).row).state =
          (loadRouteHealthScope (after (pre ++ [.step i false])).row).state ∧
        (loadRouteHealthScope (after (pre ++ .step i false :: more)).row).cooldownUntil =
          (loadRouteHealthScope (after (pre ++ [.step i false])).row).cooldownUntil := by
  have hkept := run_kept pre
  constructor
  · rw [after_append]
    exact (run_fences hkept more).2
  intro i answer hr hu expected current hsel hcur hok
  rw [after_append, foldl_cons] at hcur ⊢
  rw [after_append, foldl_cons, foldl_nil]
  have hepoch := returns_epoch hkept hr hu
  have hfences := run_fences (hkept.next (.step i false)) more
  have hsame : expected.healthEpoch = current.healthEpoch := by
    simp only [recheckRouteLeaseRuntime, Bool.not_eq_true', Bool.or_eq_false_iff,
      decide_eq_false_iff_not, not_not] at hok
    exact hok.1.2
  have hle := hfences.1
  exact hfences.2 (by omega)

/-- A row a caller may claim is the one it loaded. -/
def ClaimsCurrent (s : HealthRun) : Prop :=
  ∀ c ∈ s.callers, ∀ h, c.stage = .claiming h → due .opened c.now s.row = true →
    h.healthEpoch = epoch s.row

theorem ClaimsCurrent.next (h : ClaimsCurrent s) (hk : Kept s) (e : HealthEvent)
    (hg : OutlastsClaims s e) : ClaimsCurrent (s.next e) := by
  intro c hc health hs hd
  rcases next_claiming hc hs with hold | ⟨rfl, hrow⟩
  · obtain ⟨row', hrow', hopen, hpos, hle⟩ := due_iff.mp hd
    rcases next_row s e with hr | ⟨now, hdue, hr⟩ | ⟨i, now, _, _, hdue, hr⟩ |
      ⟨p, now, ra, rfl, hr⟩ | ⟨l, f, _, hr⟩
    · rw [hr] at hd ⊢
      exact h c hold health hs hd
    -- The other updates leave nothing to claim, and a failure nothing to claim yet.
    · obtain ⟨old, hsome, _⟩ := due_iff.mp hdue
      rw [hr, hsome] at hrow'
      cases hrow'
      exact absurd hpos (lt_irrefl 0)
    · obtain ⟨old, hsome, _⟩ := due_iff.mp hdue
      rw [hr, hsome] at hrow'
      cases hrow'
      cases hopen
    · rw [hr] at hrow'
      cases hrow'
      obtain ⟨hbs, hbc, hbe⟩ := hk.stored.base
      rcases failure_cases p now ra s.row with ⟨_, hcool, _⟩ | ⟨hstate, _, hcool, hepoch⟩
      · have hlate := hg c hold ⟨health, hs⟩
        omega
      rw [hr]
      have hold' : due .opened c.now s.row = true := by
        rw [hstate, hbs] at hopen
        rw [hcool, hbc] at hpos hle
        cases hsrow : s.row with
        | none =>
          rw [hsrow] at hopen
          cases hopen
        | some old =>
          rw [hsrow] at hopen hpos hle
          exact due_iff.mpr ⟨old, rfl, hopen, hpos, hle⟩
      rw [h c hold health hs hold', ← hbe, ← hepoch, epoch_some]
    · rw [hr] at hrow'
      cases hrow'
      cases hopen
  · rw [hrow, epoch]

theorem run_claimsCurrent (hg : Along HealthRun.next OutlastsClaims {} events) :
    ClaimsCurrent (after events) := by
  have hrun := hg.keeps (I := fun s => Kept s ∧ ClaimsCurrent s)
    (fun s e hs he => ⟨hs.1.next e, hs.2.next hs.1 e he⟩)
    ⟨.initial, forall_mem_nil _⟩
  exact hrun.2

/-- Where failures outlast the pending claims, a claim answers with the epoch of the row right after
it; and after any claim nobody is let through until the next observation. -/
theorem single_probe (pre : List HealthEvent) (hg : Along HealthRun.next OutlastsClaims {} pre)
    (i : Nat) (hclaim : claims (after pre) i = true) :
    (∃ answer, returns (after pre) i = some answer ∧ answer.usable = true ∧
      answer.epoch = epoch (after (pre ++ [.step i false])).row) ∧
    ∀ mid, (∀ e ∈ mid, IsObservation e = false) → ∀ j answer,
      returns (after (pre ++ .step i false :: mid)) j = some answer →
        answer.usable = false := by
  obtain ⟨now, health, hc, hd⟩ := claims_spec hclaim
  obtain ⟨old, hsome, _⟩ := due_iff.mp hd
  have hnext := next_claim hc hd
  constructor
  · refine ⟨⟨true, health.healthEpoch + 1, false⟩, ?_, rfl, ?_⟩
    · simp [returns, hc, step, hd]
    · have hcur := run_claimsCurrent pre hg _ (mem_of_getElem? hc) health rfl hd
      rw [after_append, foldl_cons, foldl_nil, hnext, epoch_rewrite hsome, ← hcur]
  · intro mid hmid j answer hr
    rw [after_append, foldl_cons] at hr
    have hprobed : Probed ((after pre).next (.step i false)).row := by
      rw [hnext, hsome]
      exact ⟨_, rfl, .inl rfl⟩
    exact (hprobed.run mid hmid).refuses hr

def pendingClaim : List HealthEvent :=
  [.failure ⟨1, 30 * second⟩ (atSecond 1000) 0, .start (atSecond 1036), .step 0 false]

theorem single_probe_of_pendingClaim :
    claims (after pendingClaim) 0 = true ∧
    (∃ answer, returns (after pendingClaim) 0 = some answer ∧ answer.usable = true ∧
      answer.epoch = epoch (after (pendingClaim ++ [.step 0 false])).row) ∧
    ∀ mid, (∀ e ∈ mid, IsObservation e = false) → ∀ j answer,
      returns (after (pendingClaim ++ .step 0 false :: mid)) j = some answer →
        answer.usable = false := by
  have hclaim : claims (after pendingClaim) 0 = true := by decide
  have hg : Along HealthRun.next OutlastsClaims {} pendingClaim :=
    ⟨forall_mem_nil _, trivial, trivial, trivial⟩
  exact ⟨hclaim, single_probe pendingClaim hg 0 hclaim⟩

/-- A failure seen at 1005 is stored between load and claim. Its deadline 1035 has passed for the
caller, whose update takes the row to epoch 4 while its answer says 3. -/
theorem late_failure_outdates_the_claim :
    claims (after (pendingClaim ++ [.failure ⟨1, 30 * second⟩ (atSecond 1005) 0])) 0 = true ∧
    returns (after (pendingClaim ++ [.failure ⟨1, 30 * second⟩ (atSecond 1005) 0])) 0 =
      some ⟨true, 3, false⟩ ∧
    epoch (after (pendingClaim ++ [.failure ⟨1, 30 * second⟩ (atSecond 1005) 0,
      .step 0 false])).row = 4 := by
  refine ⟨?_, ?_, ?_⟩ <;> decide

/-- The deadline of an open breaker does not move back exactly if the failure stays below the
threshold and asks for no wait, or the wait that is left, in nanoseconds, is within the longer of
the policy's cooldown and the `Retry-After`. -/
theorem cooldown_never_shortened_iff (policy : RouteHealthPolicy) (retryAfter : Int)
    (ho : health.state = .opened) :
    health.cooldownUntil ≤
        (observeRouteHealthFailureWithRetryAfter health policy now retryAfter).cooldownUntil ↔
      (health.failureCount + 1 < policy.normalized.failureThreshold ∧ retryAfter ≤ 0) ∨
        health.cooldownUntil * second - now.nanos ≤ max policy.normalized.cooldown retryAfter := by
  have hstate : health.normalize.state = .opened := by simp [ChannelHealth.normalize, ho]
  have hwait : health.cooldownUntil ≤ policy.normalized.cooldownEnd now retryAfter ↔
      health.cooldownUntil * second - now.nanos ≤ max policy.normalized.cooldown retryAfter := by
    unfold RouteHealthPolicy.cooldownEnd Instant.unixAfter second
    split <;> omega
  rw [← hwait]
  unfold observeRouteHealthFailureWithRetryAfter
  dsimp only
  split
  · rename_i hopens
    simp only [hstate, reduceCtorEq, false_or] at hopens
    constructor
    · exact .inr
    rintro (⟨hfew, hnone⟩ | hlater)
    · change health.failureCount + 1 ≥ _ ∨ _ at hopens
      omega
    · exact hlater
  · rename_i hkeeps
    simp only [not_or, not_le, not_lt, ge_iff_le, gt_iff_lt] at hkeeps
    exact ⟨fun _ => .inl hkeeps.2, fun _ => le_rfl⟩

def askedToWait : Option ChannelHealth :=
  (after [.failure defaultRouteHealthPolicy (atSecond 1000) (600 * second)]).row

theorem wait_kept_by_second_failure :
    ∃ health, askedToWait = some health ∧ health.cooldownUntil = 1600 ∧
      health.cooldownUntil ≤ (observeRouteHealthFailureWithRetryAfter health
        defaultRouteHealthPolicy (atSecond 1001) 0).cooldownUntil := by
  refine ⟨_, rfl, rfl, ?_⟩
  apply (cooldown_never_shortened_iff defaultRouteHealthPolicy 0 rfl).mpr
  exact .inl (by decide)

/-- The third failure, two seconds after the answer that asked for 600, lets callers in after 30. -/
theorem wait_cut_by_third_failure :
    (after [.failure defaultRouteHealthPolicy (atSecond 1000) (600 * second),
      .failure defaultRouteHealthPolicy (atSecond 1001) 0]).row.map
        (fun h => (h.state, h.cooldownUntil)) = some (.opened, 1600) ∧
    (after [.failure defaultRouteHealthPolicy (atSecond 1000) (600 * second),
      .failure defaultRouteHealthPolicy (atSecond 1001) 0,
      .failure defaultRouteHealthPolicy (atSecond 1002) 0]).row.map
        (fun h => (h.state, h.cooldownUntil)) = some (.opened, 1032) := by
  decide

end Ren2Hub.Proofs.HealthRuns
