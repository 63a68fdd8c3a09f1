import Ren2Hub.Proofs.UsageBound

namespace Ren2Hub.Proofs.ResetRuns
open Lib Billing Ledger CallSpec SubscriptionSpec SubscriptionCalls MembershipSpec List
  UsageBound

/-- The calendar moves forward. -/
structure Forward (cal : Calendar) : Prop where
  midnight : ∀ t, t < cal.nextMidnight t
  monday : ∀ t, t < cal.nextMonday t
  month : ∀ t, t < cal.nextMonth t

/-- Boundaries are computed from the start, from manual resets, and from boundaries. -/
inductive Base (cal : Calendar) (plan : SubscriptionPlan) (start stop : Int) (manual : List Int) :
    Int → Prop
  | start : Base cal plan start stop manual start
  | manual (ht : t ∈ manual) : Base cal plan start stop manual t
  | boundary (hb : Base cal plan start stop manual t)
      (hpos : 0 < calcNextResetTime cal t plan stop) :
      Base cal plan start stop manual (calcNextResetTime cal t plan stop)

def Boundary (cal : Calendar) (plan : SubscriptionPlan) (start stop : Int) (manual : List Int)
    (b : Int) : Prop :=
  0 < b ∧ ∃ t, Base cal plan start stop manual t ∧ calcNextResetTime cal t plan stop = b

/-- Where the next check starts to look for boundaries. -/
def resetBase (sub : UserSubscription) : Int :=
  if sub.lastResetTime ≤ 0 then sub.startTime else sub.lastResetTime

/-- Whether a check at `now` sets the used amount to 0, whatever it was. -/
def clears (cal : Calendar) (sub : UserSubscription) (plan : SubscriptionPlan) (now : Int) :
    Bool :=
  (maybeResetUserSubscriptionWithPlan cal { sub with amountUsed := 1 } plan now).amountUsed = 0

/-- The boundary after `base` has come. -/
def Due (cal : Calendar) (plan : SubscriptionPlan) (stop now base : Int) : Prop :=
  0 < calcNextResetTime cal base plan stop ∧ calcNextResetTime cal base plan stop ≤ now

instance : Decidable (Due cal plan stop now base) := inferInstanceAs (Decidable (_ ∧ _))

theorem calcNext_cases (hcal : Forward cal) (t : Int) (plan : SubscriptionPlan) (stop : Int) :
    calcNextResetTime cal t plan stop = 0 ∨ t < calcNextResetTime cal t plan stop := by
  have hd := hcal.midnight t
  have hw := hcal.monday t
  have hm := hcal.month t
  unfold calcNextResetTime
  split
  · exact .inl rfl
  · dsimp only
    split <;> omega
  · dsimp only
    split <;> omega
  · dsimp only
    split <;> omega
  split
  · exact .inl rfl
  · dsimp only
    split <;> omega

theorem calcNext_gt (hcal : Forward cal) (h : 0 < calcNextResetTime cal t plan stop) :
    t < calcNextResetTime cal t plan stop := by
  rcases calcNext_cases hcal t plan stop with h0 | hgt
  · omega
  · exact hgt

theorem calcNext_never (h : plan.quotaResetPeriod = .never) :
    calcNextResetTime cal t plan stop = 0 := by
  unfold calcNextResetTime
  rw [h]

theorem advanceReset_stop (cal : Calendar) (plan : SubscriptionPlan) (stop base : Int)
    (advanced : Bool) (n : Nat) (h : ¬ (0 < bound ∧ bound ≤ now)) :
    advanceReset cal plan stop now n base bound advanced = (base, bound, advanced) := by
  cases n with
  | zero => rfl
  | succ n => exact if_neg h

/-- Each round moves the base by a second at least, so there are enough rounds. -/
theorem advanceReset_walk {base now : Int} (hcal : Forward cal) (advanced : Bool) (n : Nat)
    (hn : now < base + n) (hb : Base cal plan start stop manual base) :
    ∃ last, advanceReset cal plan stop now n base (calcNextResetTime cal base plan stop) advanced =
        (last, calcNextResetTime cal last plan stop,
          advanced || decide (Due cal plan stop now base)) ∧
      Base cal plan start stop manual last ∧ base ≤ last ∧ ¬ Due cal plan stop now last := by
  induction n generalizing base advanced with
  | zero =>
    have hnot : ¬ Due cal plan stop now base := by
      intro h
      have := h.2
      have := calcNext_gt hcal h.1
      omega
    refine ⟨base, ?_, hb, le_refl base, hnot⟩
    simp [advanceReset, hnot]
  | succ n ih =>
    by_cases hdue : Due cal plan stop now base
    · have hgt := calcNext_gt hcal hdue.1
      have hn' : now < calcNextResetTime cal base plan stop + n := by
        omega
      obtain ⟨last, hwalk, hlast, hle, hdone⟩ := ih true hn' (.boundary hb hdue.1)
      refine ⟨last, ?_, hlast, by omega, hdone⟩
      simp only [advanceReset, hwalk]
      exact (if_pos hdue).trans (by simp [hdue])
    · refine ⟨base, ?_, hb, le_refl base, hdue⟩
      rw [advanceReset_stop cal plan stop base advanced _ hdue]
      simp [hdue]

theorem resetBase_pos (h : 0 < sub.startTime) : 0 < resetBase sub := by
  unfold resetBase
  split
  · exact h
  · omega

/-- A check keeps the base, or clears the row and moves the base to the last boundary that has
passed. -/
theorem maybeReset_outcome (hcal : Forward cal) (hstart : 0 < sub.startTime)
    (hb : Base cal plan start sub.endTime manual (resetBase sub)) (now : Int) :
    ((now < sub.nextResetTime ∨ ¬ Due cal plan sub.endTime now (resetBase sub)) ∧
      ∃ last next, resetBase { sub with lastResetTime := last } = resetBase sub ∧
        ∀ used, maybeResetUserSubscriptionWithPlan cal { sub with amountUsed := used } plan now =
          { sub with amountUsed := used, lastResetTime := last, nextResetTime := next }) ∨
    (Due cal plan sub.endTime now (resetBase sub) ∧
      ∃ last, Base cal plan start sub.endTime manual last ∧ 0 < last ∧
        ¬ Due cal plan sub.endTime now last ∧
        ∀ used, maybeResetUserSubscriptionWithPlan cal { sub with amountUsed := used } plan now =
          { sub with amountUsed := 0, lastResetTime := last
                     nextResetTime := calcNextResetTime cal last plan sub.endTime }) := by
  have hpos := resetBase_pos hstart
  by_cases hnext : sub.nextResetTime > 0 ∧ sub.nextResetTime > now
  · left
    refine ⟨.inl hnext.2, sub.lastResetTime, sub.nextResetTime, rfl, fun used => ?_⟩
    simp [maybeResetUserSubscriptionWithPlan, hnext]
  by_cases hnever : plan.quotaResetPeriod = .never
  · left
    refine ⟨.inr ?_, sub.lastResetTime, sub.nextResetTime, rfl, fun used => ?_⟩
    · rw [Due, calcNext_never hnever]
      omega
    · simp only [maybeResetUserSubscriptionWithPlan, if_neg hnext, if_pos hnever]
  by_cases hdue : Due cal plan sub.endTime now (resetBase sub)
  · right
    have hrounds : now < resetBase sub + ((now - resetBase sub).toNat + 1 : Nat) := by omega
    obtain ⟨last, hwalk, hlast, hle, hdone⟩ :=
      advanceReset_walk hcal false _ hrounds hb
    refine ⟨hdue, last, hlast, by omega, hdone, fun used => ?_⟩
    simp only [Due, resetBase] at hwalk hdue
    simp [maybeResetUserSubscriptionWithPlan, hnext, hnever, hwalk, hdue]
  · left
    have hstop := advanceReset_stop cal plan sub.endTime (resetBase sub) false
      ((now - resetBase sub).toNat + 1) hdue
    refine ⟨.inr hdue, ?_⟩
    by_cases hset : sub.nextResetTime = 0 ∧
        0 < calcNextResetTime cal (resetBase sub) plan sub.endTime
    · refine ⟨resetBase sub, calcNextResetTime cal (resetBase sub) plan sub.endTime, ?_,
        fun used => ?_⟩
      · exact if_neg (by simp only; omega)
      · simp only [resetBase] at hstop hset ⊢
        simp [maybeResetUserSubscriptionWithPlan, hnever, hstop, hset]
    · refine ⟨sub.lastResetTime, sub.nextResetTime, rfl, fun used => ?_⟩
      simp only [resetBase] at hstop hset
      simp [maybeResetUserSubscriptionWithPlan, hnext, hnever, hstop, hset]

/-- The accounts, and of each subscription its last reset (or purchase) and its manual resets. -/
structure Traced where
  accounts : Accounts
  clock : Int
  latest : Int → Int := fun _ => 0
  manual : Int → List Int := fun _ => []

abbrev Traced.store (t : Traced) : Store := t.accounts.store

/-- The candidates the loop of a pre-consume gets to. -/
def reached (cal : Calendar) (amount now : Int) (s : Store) : List UserSubscription → List Int
  | [] => []
  | candidate :: rest =>
    match getSubscriptionPlanById s candidate.planId with
    | .error _ => []
    | .ok plan =>
      let sub := maybeResetUserSubscriptionWithPlan cal candidate plan now
      if sub.amountTotal > 0 ∧ sub.amountTotal - sub.amountUsed < amount then
        candidate.id :: reached cal amount now s rest
      else [candidate.id]

section
variable (cal : Calendar)

/-- The rows an operation checks for a due reset, in a transaction that commits. -/
def checkedRows (s : Store) : SubscriptionOp → List Int
  | .call (.preConsumeUserSubscription rid userId amount now) =>
    match s.records rid, preConsumeUserSubscription cal rid userId amount now s with
    | none, .ok _ => reached cal amount now s (activeSubscriptions s userId now)
    | _, _ => []
  | .resetDue k now =>
    match s.subscriptions k with
    | some sub => if 0 < sub.nextResetTime ∧ sub.nextResetTime ≤ now then [k] else []
    | none => []
  | _ => []

def clearsRow (s : Store) (k now : Int) : Bool :=
  match s.subscriptions k with
  | none => false
  | some sub =>
    match getSubscriptionPlanById s sub.planId with
    | .error _ => false
    | .ok plan => clears cal sub plan now

/-- The rows an admin reset clears. -/
def manualRows (s : Store) : SubscriptionOp → List UserSubscription
  | .resetUserPlan userId planId now advance =>
    match adminResetUserSubscriptionsByPlan cal userId planId now advance s with
    | .ok _ => planSubscriptions s (some userId) planId now
    | .error _ => []
  | .resetPlan planId now advance =>
    match adminResetPlanSubscriptions cal planId now advance s with
    | .ok _ => planSubscriptions s none planId now
    | .error _ => []
  | _ => []

def createdRow (cal : PlanCalendar) (a : Accounts) : SubscriptionOp → Option Int
  | .create userId planId now =>
    match purchaseSubscription cal userId planId now a with
    | .ok (sub, _) => some sub.id
    | .error _ => none
  | _ => none

def Traced.next (cal : PlanCalendar) (t : Traced) (op : SubscriptionOp) : Traced :=
  let now := op.time.getD t.clock
  let manual := (manualRows cal.toCalendar t.store op).map (·.id)
  { accounts := t.accounts.exec cal op
    clock := now
    latest := fun k =>
      if createdRow cal t.accounts op = some k ∨ k ∈ manual ∨
        (k ∈ checkedRows cal.toCalendar t.store op ∧
          clearsRow cal.toCalendar t.store k now) then now
      else t.latest k
    manual := fun k =>
      if createdRow cal t.accounts op = some k then []
      else if k ∈ manual then now :: t.manual k
      else t.manual k }

/-- From now on only a boundary after the latest reset clears the used amount. -/
def OncePerBoundary (t : Traced) : Prop :=
  ∀ k sub plan now, t.store.subscriptions k = some sub →
    getSubscriptionPlanById t.store sub.planId = .ok plan → t.clock ≤ now →
    clears cal sub plan now = true →
    ∃ b, Boundary cal plan sub.startTime sub.endTime (t.manual k) b ∧ t.latest k < b ∧ b ≤ now

/-- Time does not go back, and admin resets advance the reset time. -/
def InRun (t : Traced) (op : SubscriptionOp) : Prop :=
  (∀ now, op.time = some now → t.clock ≤ now) ∧
    match op with
    | .resetUserPlan _ _ _ advance | .resetPlan _ _ advance => advance = true
    | _ => True

/-- No admin reset meets a subscription that has passed its first boundary and
has none left. -/
def SparesLastPeriod (t : Traced) (op : SubscriptionOp) : Prop :=
  ∀ sub ∈ manualRows cal t.store op, ∀ plan now,
    getSubscriptionPlanById t.store sub.planId = .ok plan → op.time = some now →
    ¬ (calcNextResetTime cal now plan sub.endTime = 0 ∧
      0 < calcNextResetTime cal sub.startTime plan sub.endTime ∧
      calcNextResetTime cal sub.startTime plan sub.endTime ≤ now)

end

/-- Only the used amount and the status may differ. -/
def Restated (sub sub' : UserSubscription) : Prop :=
  ∃ used status, sub' = { sub with amountUsed := used, status := status }

theorem Restated.refl (sub : UserSubscription) : Restated sub sub := ⟨_, _, rfl⟩

theorem Restated.trans (h : Restated a b) (h' : Restated b c) : Restated a c := by
  obtain ⟨u, st, rfl⟩ := h
  obtain ⟨u', st', rfl⟩ := h'
  exact ⟨u', st', rfl⟩

structure RowsRestated (s s' : Store) : Prop where
  rows : ∀ k sub', s'.subscriptions k = some sub' →
    ∃ sub, s.subscriptions k = some sub ∧ Restated sub sub'
  plans : s'.plans = s.plans

theorem RowsRestated.refl (s : Store) : RowsRestated s s :=
  ⟨fun _ sub h => ⟨sub, h, .refl sub⟩, rfl⟩

theorem RowsRestated.trans (h : RowsRestated s s') (h' : RowsRestated s' s'') :
    RowsRestated s s'' := by
  constructor
  · intro k sub'' hs
    obtain ⟨sub', hs', hr'⟩ := h'.rows k sub'' hs
    obtain ⟨sub, hs, hr⟩ := h.rows k sub' hs'
    exact ⟨sub, hs, hr.trans hr'⟩
  · rw [h'.plans, h.plans]

theorem RowsRestated.save (hs : s.subscriptions sub.id = some sub) (hr : Restated sub sub') :
    RowsRestated s (s.saveSubscription sub') := by
  constructor
  · intro k q hq
    have hid : sub'.id = sub.id := by
      obtain ⟨_, _, rfl⟩ := hr
      rfl
    by_cases hk : k = sub.id
    · rw [save_self s (hid.trans hk.symm)] at hq
      cases hq
      exact ⟨sub, hk ▸ hs, hr⟩
    · rw [save_of_ne s (by rw [hid]; exact hk)] at hq
      exact ⟨q, hq, .refl q⟩
  · rfl

theorem restated_steady (s0 : Store) : Steady fun s => Within s ∧ RowsRestated s0 s where
  same := by
    rintro s s' ⟨hw, hr⟩ hs hp
    refine ⟨hw.of_same hs, ?_, by rw [hp, hr.plans]⟩
    rw [hs]
    exact hr.rows
  delta := by
    rintro s s' k d ⟨hw, hr⟩ h
    refine ⟨postConsumeTx_within hw h, hr.trans ?_⟩
    obtain ⟨sub, hs, _, rfl⟩ := RecoverySpec.postConsumeTx_ok h
    rw [← hw.key k sub hs] at hs
    exact .save hs ⟨_, sub.status, rfl⟩

theorem consumeCandidate_rows (hplans : s.plans = s0.plans)
    (h : consumeCandidate cal rid userId amount now subs s = .ok (res, s')) :
    s'.plans = s0.plans ∧ ∀ k,
      (k ∉ reached cal amount now s0 subs → s'.subscriptions k = s.subscriptions k) ∧
      (k ∈ reached cal amount now s0 subs → ∃ sub ∈ subs, sub.id = k ∧ ∃ plan used,
        getSubscriptionPlanById s0 sub.planId = .ok plan ∧ s'.subscriptions k = some
          { maybeResetUserSubscriptionWithPlan cal sub plan now with amountUsed := used }) := by
  induction subs generalizing s with
  | nil => cases h
  | cons candidate rest ih =>
    have hget : getSubscriptionPlanById s candidate.planId =
        getSubscriptionPlanById s0 candidate.planId := by
      simp only [getSubscriptionPlanById, hplans]
    unfold consumeCandidate at h
    rw [hget] at h
    split at h
    · cases h
    rename_i plan hplan
    obtain ⟨_, _, _, _, heq⟩ := maybeReset_eq cal candidate plan now
    have hid : (maybeResetUserSubscriptionWithPlan cal candidate plan now).id = candidate.id := by
      rw [heq]
    simp only at h
    split at h
    · rename_i hfull
      obtain ⟨hp, hrows⟩ := ih (by exact hplans) h
      refine ⟨hp, fun k => ?_⟩
      obtain ⟨hout, hin⟩ := hrows k
      simp only [reached, hplan, if_pos hfull, mem_cons, not_or]
      constructor
      · rintro ⟨hk, hk'⟩
        rw [hout hk']
        exact save_of_ne s (by rw [hid]; exact hk)
      intro hk
      by_cases hk' : k ∈ reached cal amount now s0 rest
      · obtain ⟨sub, hm, hsub⟩ := hin hk'
        exact ⟨sub, .inr hm, hsub⟩
      obtain rfl : k = candidate.id := hk.resolve_right hk'
      refine ⟨candidate, .inl rfl, rfl, plan,
        (maybeResetUserSubscriptionWithPlan cal candidate plan now).amountUsed, hplan, ?_⟩
      rw [hout hk']
      exact save_self s hid
    · rename_i hroom
      cases h
      refine ⟨hplans, fun k => ?_⟩
      simp only [reached, hplan, if_neg hroom, mem_singleton]
      constructor
      · intro hk
        exact save_of_ne s (by rw [hid]; exact hk)
      · rintro rfl
        exact ⟨candidate, mem_cons_self, rfl, plan, _, hplan, save_self s hid⟩

/-- What an operation can do to the row under `k` and to its history. -/
inductive RowChange (cal : PlanCalendar) (t t' : Traced) (op : SubscriptionOp) (k : Int) : Prop
  | kept (hrow : ∀ sub', t'.store.subscriptions k = some sub' →
        ∃ sub, t.store.subscriptions k = some sub ∧ Restated sub sub')
      (hl : t'.latest k = t.latest k) (hm : t'.manual k = t.manual k)
  | checked (hs : t.store.subscriptions k = some sub)
      (hp : getSubscriptionPlanById t.store sub.planId = .ok plan)
      (hrow : t'.store.subscriptions k = some
        { maybeResetUserSubscriptionWithPlan cal.toCalendar sub plan t'.clock with
          amountUsed := used })
      (hl : t'.latest k =
        if clears cal.toCalendar sub plan t'.clock then t'.clock else t.latest k)
      (hm : t'.manual k = t.manual k)
  | reset (hs : t.store.subscriptions k = some sub)
      (hp : getSubscriptionPlanById t.store sub.planId = .ok plan)
      (hmem : sub ∈ manualRows cal.toCalendar t.store op) (ht : op.time = some t'.clock)
      (hrow : t'.store.subscriptions k =
        some (resetUserSubscription cal.toCalendar plan t'.clock true sub))
      (hl : t'.latest k = t'.clock) (hm : t'.manual k = t'.clock :: t.manual k)
  | created (hp : getSubscriptionPlanById t.store planId = .ok plan)
      (hrow : t'.store.subscriptions k =
        some (newSubscription cal.toCalendar k userId planId plan group t'.clock stop))
      (hl : t'.latest k = t'.clock) (hm : t'.manual k = [])

section Steps
variable {cal : PlanCalendar} {t : Traced} {op : SubscriptionOp} {k : Int}

theorem RowChange.of_restated (hc : createdRow cal t.accounts op = none)
    (hm : manualRows cal.toCalendar t.store op = [])
    (hk : k ∈ checkedRows cal.toCalendar t.store op →
      clearsRow cal.toCalendar t.store k (op.time.getD t.clock) = false)
    (hrow : ∀ sub', (t.next cal op).store.subscriptions k = some sub' →
      ∃ sub, t.store.subscriptions k = some sub ∧ Restated sub sub') :
    RowChange cal t (t.next cal op) op k := by
  apply RowChange.kept hrow
  · simp only [Traced.next, hc, hm, map_nil, not_mem_nil, false_or, reduceCtorEq]
    rw [if_neg]
    rintro ⟨hmem, hclear⟩
    rw [hk hmem] at hclear
    cases hclear
  · simp [Traced.next, hc, hm]

theorem RowChange.of_same (hc : createdRow cal t.accounts op = none)
    (hm : manualRows cal.toCalendar t.store op = [])
    (hk : k ∈ checkedRows cal.toCalendar t.store op →
      clearsRow cal.toCalendar t.store k (op.time.getD t.clock) = false)
    (hrow : (t.next cal op).store.subscriptions k = t.store.subscriptions k) :
    RowChange cal t (t.next cal op) op k :=
  .of_restated hc hm hk fun sub h => ⟨sub, hrow.symm.trans h, .refl sub⟩

theorem clearsRow_some {cal : Calendar} (hs : s.subscriptions k = some sub)
    (hp : getSubscriptionPlanById s sub.planId = .ok plan) :
    clearsRow cal s k now = clears cal sub plan now := by
  simp [clearsRow, hs, hp]

theorem RowChange.of_checked (hc : createdRow cal t.accounts op = none)
    (hm : manualRows cal.toCalendar t.store op = [])
    (hk : k ∈ checkedRows cal.toCalendar t.store op) (hs : t.store.subscriptions k = some sub)
    (hp : getSubscriptionPlanById t.store sub.planId = .ok plan)
    (hrow : (t.next cal op).store.subscriptions k = some
      { maybeResetUserSubscriptionWithPlan cal.toCalendar sub plan (t.next cal op).clock with
        amountUsed := used }) :
    RowChange cal t (t.next cal op) op k := by
  apply RowChange.checked hs hp hrow
  · simp only [Traced.next, hc, hm, hk, clearsRow_some hs hp, map_nil, not_mem_nil,
      false_or, true_and, reduceCtorEq]
  · simp [Traced.next, hc, hm]

theorem call_restated (hw : Within s) (cal : Calendar) (c : Call)
    (hc : ∀ rid userId amount now, c ≠ .preConsumeUserSubscription rid userId amount now) :
    RowsRestated s (c.exec cal s).1 := by
  have h := (restated_steady s).call cal c ⟨hw, .refl s⟩
    fun rid userId amount now _ _ he => absurd he (hc rid userId amount now)
  exact h.2

theorem preConsume_again {cal : Calendar} (hrec : s.records rid = some record)
    (h : preConsumeUserSubscription cal rid userId amount now s = .ok (res, s')) : s' = s := by
  unfold preConsumeUserSubscription at h
  split at h
  · cases h
  split at h
  · cases h
  simp only [hrec] at h
  split at h
  · cases h
  split at h <;> cases h
  rfl

theorem preConsume_change (hw : Within t.store) (rid : RequestID) (userId amount now : Int) :
    RowChange cal t (t.next cal (.call (.preConsumeUserSubscription rid userId amount now)))
      (.call (.preConsumeUserSubscription rid userId amount now)) k := by
  cases hrec : t.store.records rid with
  | some record =>
    have hsame : (t.next cal (.call (.preConsumeUserSubscription rid userId amount now))).store =
        t.store := by
      apply commit_keeps (J := fun s => s = t.store) rfl
      intro res s' h
      exact preConsume_again hrec h
    apply RowChange.of_same rfl rfl
    · intro hk
      simp [checkedRows, hrec] at hk
    · rw [hsame]
  | none =>
    cases h : preConsumeUserSubscription cal.toCalendar rid userId amount now t.store with
    | error e =>
      apply RowChange.of_same rfl rfl
      · intro hk
        simp [checkedRows, hrec, h] at hk
      · simp only [Traced.next, Accounts.exec, Call.exec, h, commit]
    | ok p =>
      obtain ⟨_, hloop⟩ := preConsumeSubscription_first hrec h
      obtain ⟨hout, hin⟩ := (consumeCandidate_rows rfl hloop).2 k
      have hstore : (t.next cal (.call (.preConsumeUserSubscription rid userId amount now))).store =
          p.2 := by
        simp only [Traced.next, Accounts.exec, Call.exec, h, commit]
      have hrows : checkedRows cal.toCalendar t.store
          (.call (.preConsumeUserSubscription rid userId amount now)) =
            reached cal.toCalendar amount now t.store (activeSubscriptions t.store userId now) := by
        simp [checkedRows, hrec, h]
      by_cases hk : k ∈ reached cal.toCalendar amount now t.store
          (activeSubscriptions t.store userId now)
      · obtain ⟨sub, hm, rfl, plan, used, hplan, hrow⟩ := hin hk
        have hs := activeSubscriptions_stored hm hw.keyed
        apply RowChange.of_checked rfl rfl (by rw [hrows]; exact hk) hs hplan
        rw [hstore]
        exact hrow
      · apply RowChange.of_same rfl rfl (fun hk' => absurd (hrows ▸ hk') hk)
        rw [hstore, hout hk]

theorem call_change (hw : Within t.store) (c : Call) :
    RowChange cal t (t.next cal (.call c)) (.call c) k := by
  by_cases hc : ∃ rid userId amount now, c = .preConsumeUserSubscription rid userId amount now
  · obtain ⟨rid, userId, amount, now, rfl⟩ := hc
    exact preConsume_change hw rid userId amount now
  have hc' : ∀ rid userId amount now, c ≠ .preConsumeUserSubscription rid userId amount now :=
    fun rid userId amount now he => hc ⟨rid, userId, amount, now, he⟩
  have hnone : checkedRows cal.toCalendar t.store (.call c) = [] := by
    cases c with
    | preConsumeUserSubscription => exact absurd rfl (hc' _ _ _ _)
    | _ => rfl
  apply RowChange.of_restated rfl rfl
  · intro hk
    rw [hnone] at hk
    cases hk
  · exact (call_restated hw cal.toCalendar c hc').rows k

theorem resetDue_change (hw : Within t.store) (id now : Int) :
    RowChange cal t (t.next cal (.resetDue id now)) (.resetDue id now) k := by
  have hstore : (t.next cal (.resetDue id now)).store =
      resetDueSubscription cal.toCalendar id now t.store := rfl
  cases hs : t.store.subscriptions id with
  | none =>
    apply RowChange.of_same rfl rfl
    · intro hk
      simp [checkedRows, hs] at hk
    · simp [hstore, resetDueSubscription, hs]
  | some sub =>
    by_cases hdue : 0 < sub.nextResetTime ∧ sub.nextResetTime ≤ now
    · have hrows : checkedRows cal.toCalendar t.store (.resetDue id now) = [id] := by
        simp [checkedRows, hs, hdue]
      cases hp : getSubscriptionPlanById t.store sub.planId with
      | error e =>
        -- Nothing happens without a plan.
        apply RowChange.of_same rfl rfl
        · intro hk
          rw [hrows, mem_singleton] at hk
          simp [clearsRow, hk, hs, hp]
        · simp [hstore, resetDueSubscription, hs, hp]
      | ok plan =>
        have hsave : (t.next cal (.resetDue id now)).store = t.store.saveSubscription
            (maybeResetUserSubscriptionWithPlan cal.toCalendar sub plan now) := by
          rw [hstore]
          simp [resetDueSubscription, hs, hp, hdue]
        obtain ⟨_, _, _, _, heq⟩ := maybeReset_eq cal.toCalendar sub plan now
        have hid : (maybeResetUserSubscriptionWithPlan cal.toCalendar sub plan now).id = id := by
          rw [heq]
          exact hw.key id sub hs
        by_cases hk : k = id
        · subst hk
          apply RowChange.of_checked rfl rfl (by simp [hrows]) hs hp
          rw [hsave]
          exact save_self t.store hid
        · apply RowChange.of_same rfl rfl (fun hk' => absurd (by simpa [hrows] using hk') hk)
          rw [hsave, save_of_ne t.store (by rw [hid]; exact hk)]
    · apply RowChange.of_same rfl rfl
      · intro hk
        simp [checkedRows, hs, hdue] at hk
      · simp only [hstore, resetDueSubscription, hs, if_neg hdue]
        split <;> rfl

/-- The operation resets its manual rows, which are rows of one plan. -/
structure ManualReset (cal : PlanCalendar) (t : Traced) (op : SubscriptionOp) (now : Int)
    (plan : SubscriptionPlan) : Prop where
  rows : ∀ sub ∈ manualRows cal.toCalendar t.store op,
    (∃ j, t.store.subscriptions j = some sub) ∧
      getSubscriptionPlanById t.store sub.planId = .ok plan
  store : (t.next cal op).store = resetUserSubscriptions cal.toCalendar plan now true
    (manualRows cal.toCalendar t.store op) t.store

theorem manualReset_of (outcome : Except SubscriptionError (SubscriptionResetResult × Store))
    (userId : Option Int)
    (hm : manualRows cal.toCalendar t.store op = match outcome with
      | .ok _ => planSubscriptions t.store userId planId now
      | .error _ => [])
    (hn : (t.next cal op).accounts = t.accounts.apply outcome)
    (hok : ∀ res s', outcome = .ok (res, s') →
      ∃ plan, getSubscriptionPlanById t.store planId = .ok plan ∧
        s' = resetUserSubscriptions cal.toCalendar plan now true
          (planSubscriptions t.store userId planId now) t.store) :
    ∃ plan, ManualReset cal t op now plan := by
  have hstore : (t.next cal op).store = (t.accounts.apply outcome).store := by
    rw [Traced.store, hn]
  cases outcome with
  | error e =>
    refine ⟨{}, ?_, ?_⟩
    · simp [hm]
    · rw [hstore, hm]
      rfl
  | ok p =>
    obtain ⟨plan, hp, hs⟩ := hok p.1 p.2 rfl
    refine ⟨plan, ?_, ?_⟩
    · intro sub hsub
      rw [hm] at hsub
      obtain ⟨hj, hid⟩ := planSubscriptions_spec hsub
      exact ⟨hj, hid ▸ hp⟩
    · rw [hstore, hm]
      exact hs

theorem manual_change (hw : Within t.store) (hc : createdRow cal t.accounts op = none)
    (hck : checkedRows cal.toCalendar t.store op = []) (htime : op.time = some now)
    (hmanual : ManualReset cal t op now plan) : RowChange cal t (t.next cal op) op k := by
  obtain ⟨hsubs, hstore⟩ := hmanual
  obtain ⟨hout, hin⟩ := resetAll_rows cal.toCalendar plan now true
    (manualRows cal.toCalendar t.store op) t.store k
  have hclock : (t.next cal op).clock = now := by simp [Traced.next, htime]
  by_cases hk : k ∈ (manualRows cal.toCalendar t.store op).map (·.id)
  · obtain ⟨sub, hm, hid, hrow⟩ := hin hk
    obtain ⟨⟨j, hj⟩, hp⟩ := hsubs sub hm
    have hjk : j = k := by rw [← hw.key j sub hj, hid]
    subst hjk
    apply RowChange.reset hj hp hm (by rw [hclock]; exact htime)
    · rw [hstore, hclock]
      exact hrow
    · rw [hclock]
      simp only [Traced.next, hk, true_or, or_true, if_true, htime, Option.getD_some]
    · rw [hclock]
      simp only [Traced.next, hc, hk, if_true, reduceCtorEq, if_false, htime, Option.getD_some]
  · apply RowChange.kept
    · rw [hstore, hout hk]
      exact (RowsRestated.refl t.store).rows k
    · simp only [Traced.next, hc, hk, hck, not_mem_nil, false_and, or_false, reduceCtorEq,
        if_false]
    · simp only [Traced.next, hc, hk, reduceCtorEq, if_false]

theorem create_change (userId planId now : Int) :
    RowChange cal t (t.next cal (.create userId planId now)) (.create userId planId now) k := by
  cases h : purchaseSubscription cal userId planId now t.accounts with
  | error e =>
    have hc : createdRow cal t.accounts (.create userId planId now) = none := by
      simp [createdRow, h]
    apply RowChange.of_same hc rfl (fun hk => absurd hk not_mem_nil)
    simp only [Traced.next, Accounts.exec, h]
  | ok p =>
    obtain ⟨plan, stop, hp, _, hsub, ha⟩ := purchase_ok h
    have hc : createdRow cal t.accounts (.create userId planId now) = some p.1.id := by
      simp [createdRow, h]
    have hstore : (t.next cal (.create userId planId now)).store =
        t.store.insertSubscription p.1 := by
      simp [Traced.next, Accounts.exec, h, ha]
    by_cases hk : k = p.1.id
    · subst hk
      apply RowChange.created hp
      · rw [hstore, hsub]
        exact Function.update_self ..
      · simp [Traced.next, hc]
      · simp [Traced.next, hc]
    · have hne : ¬ p.1.id = k := fun he => hk he.symm
      apply RowChange.kept
      · rw [hstore]
        have hrow : (t.store.insertSubscription p.1).subscriptions k = t.store.subscriptions k :=
          Function.update_of_ne hk ..
        rw [hrow]
        exact (RowsRestated.refl t.store).rows k
      · simp [Traced.next, hc, hne, manualRows, checkedRows]
      · simp [Traced.next, hc, hne, manualRows]

theorem expireUser_restated (s : Store) (userId now : Int) :
    RowsRestated s (s.expireUser userId now) := by
  constructor
  · intro k sub' h
    obtain ⟨sub, hs, rfl⟩ := Option.map_eq_some_iff.mp h
    refine ⟨sub, hs, ?_⟩
    split
    · exact ⟨_, .expired, rfl⟩
    · exact .refl sub
  · rfl

theorem expireDue_restated (a : Accounts) (limit now : Int) (order : List Int) :
    RowsRestated a.store (expireDueSubscriptions limit now order a).2.store := by
  apply expireDue_keeps (J := fun b => RowsRestated a.store b.store) limit now order _ (.refl _)
  intro b userId h
  rw [expireUserSubscriptions_store]
  exact h.trans (expireUser_restated b.store userId now)

theorem resetUserPlan_manual (cal : PlanCalendar)
    (hop : InRun t (.resetUserPlan userId planId now advance)) :
    ∃ plan, ManualReset cal t (.resetUserPlan userId planId now advance) now plan := by
  obtain rfl : advance = true := hop.2
  exact manualReset_of (adminResetUserSubscriptionsByPlan cal.toCalendar userId planId now true
    t.store) (some userId) rfl rfl fun _ _ h => resetUserPlan_ok h

theorem resetPlan_manual (cal : PlanCalendar) (hop : InRun t (.resetPlan planId now advance)) :
    ∃ plan, ManualReset cal t (.resetPlan planId now advance) now plan := by
  obtain rfl : advance = true := hop.2
  exact manualReset_of (adminResetPlanSubscriptions cal.toCalendar planId now true t.store) none
    rfl rfl fun _ _ h => resetPlan_ok h

theorem row_change (cal : PlanCalendar) (hw : Within t.store) (hop : InRun t op) (k : Int) :
    RowChange cal t (t.next cal op) op k := by
  cases op with
  | call c => exact call_change hw c
  | create userId planId now => exact create_change userId planId now
  | expireDue limit now order =>
    apply RowChange.of_restated rfl rfl (fun hk => absurd hk not_mem_nil)
    exact (expireDue_restated t.accounts limit now order).rows k
  | resetDue id now => exact resetDue_change hw id now
  | resetUserPlan =>
    obtain ⟨plan, hmanual⟩ := resetUserPlan_manual cal hop
    exact manual_change hw rfl rfl rfl hmanual
  | resetPlan =>
    obtain ⟨plan, hmanual⟩ := resetPlan_manual cal hop
    exact manual_change hw rfl rfl rfl hmanual

theorem plans_steady (s0 : Store) : Steady fun s => s.plans = s0.plans where
  same := fun _ _ h _ hp => hp.trans h
  delta := by
    intro s s' k d h hd
    obtain ⟨sub, _, _, rfl⟩ := RecoverySpec.postConsumeTx_ok hd
    exact h

theorem preConsume_plans {cal : Calendar}
    (h : preConsumeUserSubscription cal rid userId amount now s = .ok (res, s')) :
    s'.plans = s.plans := by
  cases hrec : s.records rid with
  | some record => rw [preConsume_again hrec h]
  | none => exact (consumeCandidate_rows rfl (preConsumeSubscription_first hrec h).2).1

theorem next_plans (hop : InRun t op) : (t.next cal op).store.plans = t.store.plans := by
  cases op with
  | call c =>
    exact (plans_steady t.store).call cal.toCalendar c rfl fun _ _ _ _ _ _ _ h => preConsume_plans h
  | create userId planId now =>
    simp only [Traced.next, Accounts.exec]
    split
    · rfl
    rename_i h
    obtain ⟨plan, stop, _, _, _, rfl⟩ := purchase_ok h
    rfl
  | expireDue limit now order => exact (expireDue_restated t.accounts limit now order).plans
  | resetDue =>
    simp only [Traced.next, Accounts.exec, resetDueSubscription]
    split
    · rfl
    split
    · rfl
    split <;> rfl
  | resetUserPlan =>
    obtain ⟨plan, hmanual⟩ := resetUserPlan_manual cal hop
    rw [hmanual.store]
    exact resetAll_plans ..
  | resetPlan =>
    obtain ⟨plan, hmanual⟩ := resetPlan_manual cal hop
    rw [hmanual.store]
    exact resetAll_plans ..

theorem next_plan (hop : InRun t op) (planId : Int) :
    getSubscriptionPlanById (t.next cal op).store planId =
      getSubscriptionPlanById t.store planId := by
  simp only [getSubscriptionPlanById, next_plans hop]

theorem next_clock (cal : PlanCalendar) (hop : InRun t op) : t.clock ≤ (t.next cal op).clock := by
  simp only [Traced.next]
  cases h : op.time with
  | none => exact le_refl _
  | some now => exact hop.1 now h

end Steps

structure Ahead (cal : Calendar) (plan : SubscriptionPlan) (sub : UserSubscription)
    (latest : Int) (manual : List Int) : Prop where
  start : 0 < sub.startTime
  base : Base cal plan sub.startTime sub.endTime manual (resetBase sub)
  ahead : 0 < calcNextResetTime cal (resetBase sub) plan sub.endTime →
    latest < calcNextResetTime cal (resetBase sub) plan sub.endTime

section Rows
variable {cal : Calendar} {plan : SubscriptionPlan} {sub : UserSubscription}

theorem Ahead.at (hstart : 0 < sub.startTime) (hbase : resetBase sub = b)
    (hb : Base cal plan sub.startTime sub.endTime manual b)
    (hnext : 0 < calcNextResetTime cal b plan sub.endTime →
      latest < calcNextResetTime cal b plan sub.endTime) : Ahead cal plan sub latest manual := by
  subst hbase
  exact ⟨hstart, hb, hnext⟩

section
variable (h : Ahead cal plan sub latest manual)
include h

theorem Ahead.of_base (hs : sub'.startTime = sub.startTime) (he : sub'.endTime = sub.endTime)
    (hb : resetBase sub' = resetBase sub) : Ahead cal plan sub' latest manual := by
  refine .at ?_ hb ?_ ?_
  · rw [hs]
    exact h.start
  · rw [hs, he]
    exact h.base
  · rw [he]
    exact h.ahead

theorem Ahead.restated (hr : Restated sub sub') :
    Ahead cal plan sub' latest manual := by
  obtain ⟨_, _, rfl⟩ := hr
  exact h.of_base rfl rfl rfl

theorem Ahead.checked (hcal : Forward cal) (now used : Int) :
    Ahead cal plan { maybeResetUserSubscriptionWithPlan cal sub plan now with amountUsed := used }
      (if clears cal sub plan now then now else latest) manual := by
  rcases maybeReset_outcome hcal h.start h.base now with
    ⟨_, last, next, hbase, heq⟩ | ⟨_, last, hlast, hpos, hdone, heq⟩
  · have hclears : clears cal sub plan now = false := by
      unfold clears
      rw [heq 1]
      rfl
    rw [hclears, show maybeResetUserSubscriptionWithPlan cal sub plan now = _ from
      heq sub.amountUsed]
    exact h.of_base rfl rfl hbase
  · have hclears : clears cal sub plan now = true := by
      unfold clears
      rw [heq 1]
      rfl
    have hbase : resetBase { sub with lastResetTime := last } = last :=
      if_neg (by dsimp only; omega)
    have hmoved : Ahead cal plan { sub with lastResetTime := last } now manual :=
      .at h.start hbase hlast fun hpos => lt_of_not_ge (not_and.mp hdone hpos)
    rw [hclears, if_pos rfl, show maybeResetUserSubscriptionWithPlan cal sub plan now = _ from
      heq sub.amountUsed]
    exact hmoved.of_base rfl rfl rfl

theorem Ahead.reset (hcal : Forward cal) (hnow : 0 < now)
    (hlast : ¬ (calcNextResetTime cal now plan sub.endTime = 0 ∧
      0 < calcNextResetTime cal sub.startTime plan sub.endTime ∧
      calcNextResetTime cal sub.startTime plan sub.endTime ≤ now)) :
    Ahead cal plan (resetUserSubscription cal plan now true sub) now (now :: manual) := by
  rcases calcNext_cases hcal now plan sub.endTime with h0 | hgt
  · -- No boundary left: the next check starts over from the start.
    have hbase : resetBase (resetUserSubscription cal plan now true sub) = sub.startTime := by
      simp [resetBase, resetUserSubscription, h0]
    refine .at h.start hbase .start fun hpos => ?_
    have hnot : ¬ calcNextResetTime cal sub.startTime plan sub.endTime ≤ now :=
      fun hle => hlast ⟨h0, hpos, hle⟩
    exact lt_of_not_ge hnot
  · have hbase : resetBase (resetUserSubscription cal plan now true sub) = now := by
      have hpos : 0 < calcNextResetTime cal now plan sub.endTime := by omega
      simp only [resetBase, resetUserSubscription, if_true, gt_iff_lt, hpos]
      exact if_neg (by omega)
    exact .at h.start hbase (.manual mem_cons_self) fun _ => hgt

end

theorem Ahead.created (hcal : Forward cal) (hnow : 0 < now) :
    Ahead cal plan (newSubscription cal k userId planId plan group now stop) now [] := by
  have hbase : resetBase (newSubscription cal k userId planId plan group now stop) = now := by
    simp only [resetBase, newSubscription]
    split <;> simp
  exact .at hnow hbase .start (calcNext_gt hcal)

end Rows

/-- Every row is ahead of its latest reset. -/
structure Regular (cal : Calendar) (t : Traced) : Prop where
  clock : 0 < t.clock
  within : Within t.store
  ahead : ∀ k sub plan, t.store.subscriptions k = some sub →
    getSubscriptionPlanById t.store sub.planId = .ok plan →
    Ahead cal plan sub (t.latest k) (t.manual k)

theorem Regular.once (hcal : Forward cal) (h : Regular cal t) : OncePerBoundary cal t := by
  intro k sub plan now hs hp _ hclears
  have hk := h.ahead k sub plan hs hp
  rcases maybeReset_outcome hcal hk.start hk.base now with
    ⟨_, last, next, _, heq⟩ | ⟨⟨hpos, hle⟩, _⟩
  · unfold clears at hclears
    rw [heq 1] at hclears
    cases hclears
  · exact ⟨_, ⟨hpos, resetBase sub, hk.base, rfl⟩, hk.ahead hpos, hle⟩

theorem Regular.next (hcal : Forward cal.toCalendar) (h : Regular cal.toCalendar t)
    (hop : InRun t op) (hg : SparesLastPeriod cal.toCalendar t op) :
    Regular cal.toCalendar (t.next cal op) := by
  have hclock : 0 < (t.next cal op).clock := by
    have := next_clock cal hop
    have := h.clock
    omega
  refine ⟨hclock, exec_within cal t.accounts op h.within, fun k sub' plan hs' hp' => ?_⟩
  rw [next_plan hop] at hp'
  cases row_change cal h.within hop k with
  | kept hrow hl hm =>
    obtain ⟨sub, hs, hr⟩ := hrow sub' hs'
    have hplan : sub'.planId = sub.planId := by
      obtain ⟨_, _, rfl⟩ := hr
      rfl
    rw [hl, hm]
    exact (h.ahead k sub plan hs (hplan ▸ hp')).restated hr
  | checked hs hp hrow hl hm =>
    rename_i sub plan0 used
    rw [hrow] at hs'
    cases hs'
    obtain ⟨_, _, _, _, heq⟩ := maybeReset_eq cal.toCalendar sub plan0 (t.next cal op).clock
    have hid : (maybeResetUserSubscriptionWithPlan cal.toCalendar sub plan0
        (t.next cal op).clock).planId = sub.planId := by
      rw [heq]
    simp only [hid, hp, Except.ok.injEq] at hp'
    subst hp'
    rw [hl, hm]
    exact (h.ahead k sub plan0 hs hp).checked hcal _ used
  | reset hs hp hmem ht hrow hl hm =>
    rename_i sub plan0
    rw [hrow] at hs'
    cases hs'
    have hid : (resetUserSubscription cal.toCalendar plan0 (t.next cal op).clock true sub).planId =
        sub.planId := rfl
    rw [hid, hp] at hp'
    cases hp'
    rw [hl, hm]
    exact (h.ahead k sub _ hs hp).reset hcal hclock (hg sub hmem _ _ hp ht)
  | created hp hrow hl hm =>
    rw [hrow] at hs'
    cases hs'
    simp only [newSubscription, hp, Except.ok.injEq] at hp'
    subst hp'
    rw [hl, hm]
    exact .created hcal hclock

def monthly : PlanCalendar where
  nextMidnight t := t + 1
  nextMonday t := (t / 7 + 1) * 7
  nextMonth t := (t / 30 + 1) * 30
  addYears t n := t + 360 * n
  addMonths t n := t + 30 * n

theorem monthly_forward : Forward monthly.toCalendar := by
  constructor <;> intro t <;> simp only [monthly] <;> omega

end Ren2Hub.Proofs.ResetRuns
