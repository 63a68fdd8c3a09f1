import Mathlib.Algebra.Group.Prod
import Ren2Hub.Lib.Custody
import Ren2Hub.Proofs.BatchSpec
import Ren2Hub.Proofs.RequestBook

namespace Ren2Hub.Proofs.BatchRuns
open Lib Lib.Machine Billing Billing.Batch BatchSpec BatchState Option

/-- What is in the column and in the queue beyond what history put there. -/
def level (q : BatchUpdateType) (k : Int) (s : BatchState) : Int :=
  (s.column q k).getD 0 + s.queued q k - s.added q k - s.applied q k

/-- What a call takes out of column and queue into the hands of its caller. -/
def taken (q : BatchUpdateType) (k : Int) : (c : BatchCall) → c.Answer → Int
  | .addNewRecord type id value fresh, _ => if fresh then 0 else -share q k type id value
  | .takePendingQuotaDelta type id, (r : Int) => share q k type id r
  | .swap type, (r : DeltaMap) => if type = q then valueAt r k else 0
  | .write row, (r : Except BillingError Unit) => if r.isOk then -rowDelta q k row else 0
  | .transaction mutation _, (r : Except BillingError Int) =>
    if r.isOk then -mutation.elim 0 (pendingDelta q k) else 0
  | _, _ => 0

theorem level_setStore (s : BatchState) (type : BatchUpdateType) (store : DeltaMap) :
    level q k (s.setStore type store) =
      level q k s + if type = q then valueAt store k - s.queued q k else 0 := by
  have hcolumn : (s.setStore type store).column q k = s.column q k := rfl
  simp only [level, hcolumn]
  by_cases ht : type = q
  · subst ht
    simp only [queued, setStore, Function.update_self, if_true]
    omega
  · have hne : q ≠ type := fun he => ht he.symm
    simp [queued, setStore, ht, hne]

/-- The row stays, and what leaves column and queue is in the caller's hands. -/
def Handed (q : BatchUpdateType) (k : Int) (s s' : BatchState) (d : Int) : Prop :=
  (s'.column q k).isSome ∧ level q k s' + d = level q k s

theorem handed_addNewRecord (hrow : (s.column q k).isSome) (type : BatchUpdateType)
    (id value : Int) (fresh : Bool) :
    Handed q k s (BatchCall.exec down (.addNewRecord type id value fresh) s).1
      (if fresh then 0 else -share q k type id value) := by
  refine ⟨hrow, ?_⟩
  -- The history first: a fresh delta is counted as added.
  have hadded : level q k (BatchCall.exec down (.addNewRecord type id value fresh) s).1 =
      level q k (s.setStore type (addDelta (s.batchUpdateStores type) id value)) -
        if fresh then share q k type id value else 0 := by
    have hshare : (if fresh ∧ q = type ∧ k = id then value else 0) =
        if fresh then share q k type id value else 0 := by
      cases fresh <;> simp [share, eq_comm]
    simp only [level, BatchCall.exec, column, queued, setStore, hshare]
    omega
  rw [hadded, level_setStore, valueAt_addDelta]
  by_cases ht : type = q
  · subst ht
    cases fresh <;> simp [share, queued, eq_comm]
  · simp [share, ht]

theorem handed_take (hrow : (s.column q k).isSome) (type : BatchUpdateType) (id : Int) :
    Handed q k s (BatchCall.exec down (.takePendingQuotaDelta type id) s).1
      (share q k type id (BatchCall.exec down (.takePendingQuotaDelta type id) s).2) := by
  simp only [BatchCall.exec]
  split
  · exact ⟨hrow, by simp⟩
  refine ⟨hrow, ?_⟩
  rw [level_setStore, valueAt_erase]
  by_cases ht : type = q
  · subst ht
    by_cases hk : id = k
    · simp [share, hk, queued]
    · have hne : k ≠ id := fun he => hk he.symm
      simp [share, hk, hne, queued]
  · simp [share, ht]

theorem handed_swap (hrow : (s.column q k).isSome) (type : BatchUpdateType) :
    Handed q k s (s.setStore type ∅)
      (if type = q then valueAt (s.batchUpdateStores type) k else 0) := by
  refine ⟨hrow, ?_⟩
  rw [level_setStore]
  by_cases ht : type = q
  · subst ht
    simp [queued]
  · simp [ht]

theorem handed_update (hrow : (s.column q k).isSome) (row : RowUpdate) :
    Handed q k s (s.update row) (-rowDelta q k row) := by
  obtain ⟨v, hv⟩ := isSome_iff_exists.mp hrow
  have hcolumn : (s.update row).column q k = some (v + rowDelta q k row) := by
    rw [column_update, hv]
    rfl
  refine ⟨by rw [hcolumn]; rfl, ?_⟩
  unfold level
  rw [hcolumn, hv]
  obtain ⟨store, usage, channels, he⟩ := update_frame s row
  simp only [he, queued, getD_some]
  omega

/-- A committed transaction moves a balance by what was pending and by its effect, no other column.
-/
theorem column_committed {s : BatchState} {tx : RecoveryTx}
    (h : tx.run mutation s.view = .ok (flushed, d, after))
    (hrow : s.column q k = some v) :
    ({ s with store := after } : BatchState).column q k =
      some (v + mutation.elim 0 (pendingDelta q k) + effect q k flushed after) := by
  have hrows : ∀ type key, (balance type key after).isSome = (balance type key s.view).isSome := by
    intro type key
    obtain ⟨hb, hm⟩ := run_ok (q := type) (k := key) h
    rw [hm.rows, hb, isSome_map]
  have husers : (after.users k).isSome = (s.store.users k).isSome := by
    simpa [balance, view] using hrows .userQuota k
  obtain ⟨hb, _⟩ := run_ok (q := q) (k := k) h
  have hbalance : balance q k s.view = some v → balance q k after =
      some (v + mutation.elim 0 (pendingDelta q k) + effect q k flushed after) := by
    intro hv
    obtain ⟨w, hw⟩ := isSome_iff_exists.mp ((hrows q k).trans (by rw [hv]; rfl))
    rw [hv] at hb
    simp only [effect, hw, hb, map_some, getD_some, Option.some.injEq]
    omega
  have hnone : q.table ≠ .tokens → q ≠ .userQuota →
      mutation.elim 0 (pendingDelta q k) + effect q k flushed after = 0 := by
    intro hq hu
    cases mutation <;> cases q <;> simp_all [pendingDelta, share, effect, balance,
      BatchUpdateType.table]
  cases q with
  | userQuota | tokenQuota => exact hbalance hrow
  | channelUsedQuota =>
    rw [add_assoc, hnone (by decide) (by decide), add_zero]
    exact hrow
  | _ =>
    rw [add_assoc, hnone (by decide) (by decide), add_zero, ← hrow]
    simp only [column]
    cases ha : after.users k <;> cases hs : s.store.users k <;> simp_all

theorem handed_transaction (hrow : (s.column q k).isSome) (mutation : Option QuotaMutation)
    (tx : RecoveryTx) :
    Handed q k s (s.transaction mutation tx).1
      (if (s.transaction mutation tx).2.isOk then -mutation.elim 0 (pendingDelta q k) else 0) := by
  unfold transaction
  cases h : tx.run mutation s.view with
  | error e => exact ⟨hrow, add_zero _⟩
  | ok result =>
    obtain ⟨flushed, delta, after⟩ := result
    obtain ⟨v, hv⟩ := isSome_iff_exists.mp hrow
    have hcolumn := column_committed h hv
    refine ⟨?_, ?_⟩
    · change (({ s with store := after } : BatchState).column q k).isSome = true
      rw [hcolumn]
      rfl
    change (({ s with store := after } : BatchState).column q k).getD 0 + s.queued q k -
      s.added q k - (s.applied q k + effect q k flushed after) + -_ = _
    rw [hcolumn]
    simp only [level, hv, getD_some]
    omega

theorem exec_handed (down : Table → Int → Bool) (c : BatchCall) (hrow : (s.column q k).isSome) :
    Handed q k s (c.exec down s).1 (taken q k c (c.exec down s).2) := by
  cases c with
  | addNewRecord type id value fresh => exact handed_addNewRecord hrow type id value fresh
  | takePendingQuotaDelta type id => exact handed_take hrow type id
  | swap type => exact handed_swap hrow type
  | write row =>
    simp only [BatchCall.exec]
    split
    · exact ⟨hrow, add_zero _⟩
    · exact handed_update hrow row
  | transaction mutation tx => exact handed_transaction hrow mutation tx
  | _ => exact ⟨hrow, add_zero _⟩

def batchLocked (s : BatchState) : Bool := s.locked .quotaBatchMutation

theorem update_locked (s : BatchState) (row : RowUpdate) : (s.update row).locked = s.locked := by
  obtain ⟨store, usage, channels, he⟩ := update_frame s row
  rw [he]

def Quiet (c : BatchCall) : Prop :=
  c ≠ .lock .quotaBatchMutation ∧ c ≠ .unlock .quotaBatchMutation

theorem exec_locked (hc : Quiet c) (down : Table → Int → Bool) (s : BatchState) :
    batchLocked (c.exec down s).1 = batchLocked s := by
  unfold batchLocked
  cases c with
  | lock l =>
    cases l with
    | quotaMutation => simp [BatchCall.exec, setLock]
    | quotaBatchMutation => exact absurd rfl hc.1
  | unlock l =>
    cases l with
    | quotaMutation => simp [BatchCall.exec, setLock]
    | quotaBatchMutation => exact absurd rfl hc.2
  | takePendingQuotaDelta =>
    simp only [BatchCall.exec]
    split <;> rfl
  | write =>
    simp only [BatchCall.exec]
    split
    · rfl
    · rw [update_locked]
  | transaction =>
    simp only [BatchCall.exec, transaction]
    split <;> rfl
  | _ => rfl

def load : Option Int → Int × Int
  | none => (0, 0)
  | some d => (d, 1)

def stock (q : BatchUpdateType) (k : Int) (s : BatchState) : Int × Int :=
  (level q k s, if batchLocked s then -1 else 0)

abbrev machine := batchMachine fun _ _ => false

abbrev HasRow (q : BatchUpdateType) (k : Int) (s : BatchState) : Prop := (s.column q k).isSome

/-- A process that carries something has the lock. -/
def Owner (φ : Option Int) (s : BatchState) : Prop := φ.isSome → batchLocked s = true

/-- From `φ` the process gets to a state in `Post`, carrying what it took. -/
abbrev Moves (q : BatchUpdateType) (k : Int) (Post : α → Option Int → Prop) (p : Routine α)
    (φ : Option Int) : Prop :=
  Carries machine (HasRow q k) Owner (stock q k) load Post p φ

theorem exec_stock (hc : Quiet c) (s : BatchState) (hrow : HasRow q k s) :
    HasRow q k (machine.exec c s).1 ∧
      stock q k (machine.exec c s).1 + (taken q k c (machine.exec c s).2, 0) = stock q k s := by
  obtain ⟨hrow', hlevel⟩ := exec_handed (fun _ _ => false) c hrow
  refine ⟨hrow', ?_⟩
  have hlocked : batchLocked (machine.exec c s).1 = batchLocked s := exec_locked hc _ s
  simp only [stock, hlocked, Prod.mk_add_mk, add_zero, Prod.mk.injEq, and_true]
  exact hlevel

theorem taken_fault (h : machine.fault c = some r) : taken q k c r =
    0 := by
  cases c <;> cases h <;> rfl

theorem moves_call (hc : Quiet c) (d : Int) :
    Moves q k (fun r φ => φ = some (d + taken q k c r)) (ask c) (some d) := by
  apply carries_call (fun r => some (d + taken q k c r))
  · intro s hrow _ _
    obtain ⟨hrow', hs⟩ := exec_stock hc s hrow
    refine ⟨hrow', ?_⟩
    rw [← hs, add_assoc]
    simp [load, add_comm]
  · intro r hr
    rw [taken_fault hr, add_zero]

def Idle (q : BatchUpdateType) (k : Int) (c : BatchCall) : Prop :=
  Quiet c ∧ ∀ r, taken q k c r = 0

theorem moves_idle (hp : p.Yields (Idle q k) V) (φ : Option Int) :
    Moves q k (fun a φ' => V a ∧ φ' = φ) p φ := by
  apply carries_of_yields hp
  intro c s hc hrow
  obtain ⟨hrow', hs⟩ := exec_stock hc.1 s hrow
  rw [hc.2] at hs
  exact ⟨hrow', (add_zero _).symm.trans hs⟩

theorem moves_lock : Moves q k (fun _ φ => φ = some 0) (ask (.lock .quotaBatchMutation)) none := by
  apply carries_call (fun _ => some 0)
  · intro s hrow _ hready
    refine ⟨hrow, ?_⟩
    have hfree : batchLocked s = false := by
      simpa [machine, batchMachine, BatchCall.ready, batchLocked] using hready
    have hheld : batchLocked (machine.exec (.lock .quotaBatchMutation) s).1 = true := by
      simp [batchLocked, machine, batchMachine, BatchCall.exec, setLock]
    simp only [stock, hfree, hheld, load]
    simp
    rfl
  · intro r hr
    cases hr

theorem moves_unlock :
    Moves q k (fun _ φ => φ = none) (ask (.unlock .quotaBatchMutation)) (some 0) := by
  apply carries_call (fun _ => none)
  · intro s hrow howner _
    refine ⟨hrow, ?_⟩
    have hheld : batchLocked s = true := howner rfl
    have hfree : batchLocked (machine.exec (.unlock .quotaBatchMutation) s).1 = false := by
      simp [batchLocked, machine, batchMachine, BatchCall.exec, setLock]
    simp only [stock, hfree, hheld, load]
    simp
    rfl
  · intro r hr
    cases hr

theorem idle_lockStripe (i : Nat) : Idle q k (.lock (.quotaMutation i)) := by
  simp [Idle, Quiet, taken]

theorem idle_unlockStripe (i : Nat) : Idle q k (.unlock (.quotaMutation i)) := by
  simp [Idle, Quiet, taken]

theorem idle_add (type : BatchUpdateType) (id value : Int) :
    Idle q k (.addNewRecord type id value true) := by
  simp [Idle, Quiet, taken]

theorem lockStripes_idle (stripes : List Nat) : (lockStripes stripes).Uses (Idle q k) := by
  induction stripes with
  | nil => trivial
  | cons i rest ih => exact ⟨idle_lockStripe i, fun _ => ih⟩

theorem unlockStripes_idle (stripes : List Nat) : (unlockStripes stripes).Uses (Idle q k) := by
  induction stripes with
  | nil => trivial
  | cons i rest ih => exact ⟨idle_unlockStripe i, fun _ => ih⟩

theorem queueUnderLock_idle (userID tokenID : Int) (type : BatchUpdateType) (id value : Int) :
    (queueUnderLock userID tokenID type id value).Uses (Idle q k) := by
  apply (lockStripes_idle _).bind
  intro _
  exact ⟨idle_add type id value, fun _ => unlockStripes_idle _⟩

theorem anyData_idle (types : List BatchUpdateType) : (anyData types).Uses (Idle q k) := by
  induction types with
  | nil => trivial
  | cons type rest ih =>
    refine ⟨by simp [Idle, Quiet, taken], fun found => ?_⟩
    cases found
    · exact ih
    · trivial

theorem moves_swapStores (types : List BatchUpdateType) (stores : BatchUpdateType → DeltaMap)
    (hnd : types.Nodup) (hempty : ∀ type ∈ types, stores type = ∅) :
    Moves q k (fun swapped φ => φ = some (valueAt (swapped q) k)) (swapStores types stores)
      (some (valueAt (stores q) k)) := by
  induction types generalizing stores with
  | nil => rfl
  | cons type rest ih =>
    obtain ⟨hnew, hnd⟩ := List.nodup_cons.mp hnd
    apply (moves_call (c := .swap type) (by simp [Quiet]) _).bind
    rintro (store : DeltaMap) φ rfl
    have hcarried : valueAt (stores q) k + taken q k (.swap type) store =
        valueAt (Function.update stores type store q) k := by
      by_cases ht : type = q
      · subst ht
        simp [taken, hempty type List.mem_cons_self]
      · have hne : q ≠ type := fun he => ht he.symm
        simp [taken, ht, hne]
    rw [hcarried]
    apply ih _ hnd
    intro other hother
    have hne : other ≠ type := fun he => hnew (he ▸ hother)
    rw [Function.update_of_ne hne]
    exact hempty other (List.mem_cons_of_mem _ hother)

theorem moves_write (row : RowUpdate) (d : Int) :
    Moves q k (fun _ φ => φ = some (d - rowDelta q k row)) (ask (.write row)) (some d) := by
  apply carries_call (fun _ => some (d - rowDelta q k row))
  · intro s hrow _ _
    obtain ⟨hrow', hs⟩ := exec_stock (c := .write row) (by simp [Quiet]) s hrow
    refine ⟨hrow', ?_⟩
    have htaken : taken q k (.write row) (machine.exec (.write row) s).2 = -rowDelta q k row := rfl
    rw [htaken] at hs
    rw [← hs, add_assoc]
    simp [load, sub_eq_add_neg, add_comm]
  · intro r hr
    cases hr

theorem moves_writeRows (rows : List RowUpdate) :
    Moves q k (fun _ φ => φ = some 0) (writeRows rows) (some (rows.map (rowDelta q k)).sum) := by
  induction rows with
  | nil => rfl
  | cons row rest ih =>
    unfold writeRows
    split
    · rename_i hskip
      simp only [List.map_cons, List.sum_cons, rowDelta_skipped hskip, zero_add]
      exact ih
    apply (moves_write row _).bind
    rintro _ φ rfl
    simpa using ih

theorem moves_batchUpdate (order : RangeOrder) :
    Moves q k (fun _ φ => φ = none) (batchUpdate order) none := by
  apply moves_lock.bind
  rintro _ φ rfl
  apply (moves_idle (anyData_idle batchUpdateTypes) (some 0)).bind
  rintro hasData φ ⟨_, rfl⟩
  cases hasData with
  | false => exact moves_unlock
  | true =>
    apply (moves_swapStores batchUpdateTypes (fun _ => ∅) (by decide) (fun _ _ => rfl)).bind
    rintro stores φ rfl
    rw [← sum_rowUpdates order stores]
    apply (moves_writeRows _).bind
    rintro _ φ rfl
    exact moves_unlock

theorem invalidateCaches_idle (redisEnabled : Bool) (userID tokenID : Int) :
    (invalidateCaches redisEnabled userID tokenID).Uses (Idle q k) := by
  have huser : (invalidateUserCache redisEnabled userID).Uses (Idle q k) := by
    unfold invalidateUserCache
    by_cases hc : (redisEnabled && decide (userID > 0)) = true
    · rw [if_pos hc]
      exact ⟨by simp [Idle, Quiet, taken], fun _ => trivial⟩
    · rw [if_neg hc]
      trivial
  apply huser.bindExcept
  · exact fun _ => trivial
  intro _
  unfold invalidateTokenCache
  by_cases hc : (redisEnabled && decide (tokenID > 0)) = true
  · rw [if_pos hc]
    refine ⟨by simp [Idle, Quiet, taken], fun found => ?_⟩
    cases found with
    | error e => trivial
    | ok _ => exact ⟨by simp [Idle, Quiet, taken], fun _ => trivial⟩
  · rw [if_neg hc]
    trivial

theorem release_idle (userID tokenID : Int) :
    (release ⟨userID, tokenID, 0, 0⟩ false false).Uses (Idle q k) :=
  unlockStripes_idle _

theorem moves_putBack (type : BatchUpdateType) (id d : Int) (committed : Bool) (carried : Int) :
    Moves q k (fun _ φ => φ = some (carried - if committed then 0 else share q k type id d))
      (onlyWhen (!committed && d ≠ 0) (ask (.addNewRecord type id d false))) (some carried) := by
  unfold onlyWhen
  cases committed with
  | true => simp [Carries, pure]
  | false =>
    by_cases hz : d = 0
    · simp [Carries, pure, hz]
    have hc : (!false && decide (d ≠ 0)) = true := by simp [hz]
    rw [if_pos hc]
    apply (moves_call (c := .addNewRecord type id d false) (by simp [Quiet]) carried).mono
    rintro _ φ rfl
    simp [taken, sub_eq_add_neg]

theorem moves_release (m : QuotaMutation) (committed : Bool) :
    Moves q k (fun _ φ => φ = none) (release m true committed)
      (some (if committed then 0 else pendingDelta q k m)) := by
  apply (moves_putBack .userQuota m.userID m.userPendingDelta committed _).bind
  rintro _ φ rfl
  apply (moves_putBack .tokenQuota m.tokenID m.tokenPendingDelta committed _).bind
  rintro _ φ rfl
  have hleft : ((if committed then 0 else pendingDelta q k m) -
      (if committed then 0 else share q k .userQuota m.userID m.userPendingDelta) -
      if committed then 0 else share q k .tokenQuota m.tokenID m.tokenPendingDelta) = 0 := by
    cases committed <;> simp [pendingDelta]
  rw [hleft]
  apply moves_unlock.bind
  rintro _ φ rfl
  exact (moves_idle (unlockStripes_idle _) none).mono fun _ _ h => h.2

theorem moves_begin (redisEnabled : Bool) (rid : RequestID) (fenceUser fenceToken : Bool) :
    Moves q k (fun result φ => φ = result.toOption.map (pendingDelta q k))
      (beginBillingRecoveryQuotaMutation redisEnabled rid fenceUser fenceToken) none := by
  have hfind : (ask (.findRecovery rid)).Uses (Idle q k) :=
    ⟨by simp [Idle, Quiet, taken], fun _ => trivial⟩
  apply (moves_idle hfind none).bind
  rintro (found : Except BillingError BillingRecovery) φ ⟨_, rfl⟩
  cases found with
  | error e => rfl
  | ok r =>
    apply (moves_idle (lockStripes_idle _) none).bind
    rintro _ φ ⟨_, rfl⟩
    apply (moves_idle (invalidateCaches_idle redisEnabled _ _) none).bind
    rintro fenced φ ⟨_, rfl⟩
    cases fenced with
    | error e =>
      apply (moves_idle (release_idle _ _) none).bind
      rintro _ φ ⟨_, rfl⟩
      rfl
    | ok _ =>
      apply moves_lock.bind
      rintro _ φ rfl
      apply (moves_call (c := .takePendingQuotaDelta .userQuota _) (by simp [Quiet]) _).bind
      rintro _ φ rfl
      apply (moves_call (c := .takePendingQuotaDelta .tokenQuota _) (by simp [Quiet]) _).bind
      rintro _ φ rfl
      simp [Carries, pure, taken, pendingDelta, Except.toOption]

theorem moves_mutate (redisEnabled : Bool) (rid : RequestID) (fenceUser fenceToken : Bool)
    (tx : RecoveryTx) :
    Moves q k (fun _ φ => φ = none) (mutate redisEnabled rid fenceUser fenceToken tx) none := by
  apply (moves_begin redisEnabled rid fenceUser fenceToken).bind
  rintro result φ rfl
  cases result with
  | error e => rfl
  | ok m =>
    apply (moves_call (c := .transaction (some m) tx) (by simp [Quiet]) _).bind
    rintro (result : Except BillingError Int) φ rfl
    have hleft : pendingDelta q k m + taken q k (.transaction (some m) tx) result =
        if result.isOk then 0 else pendingDelta q k m := by
      cases result <;> simp [taken, Except.isOk, Except.toBool]
    simp only [hleft]
    apply (moves_release m result.isOk).bind
    rintro _ φ rfl
    rfl

theorem moves_of_idle (h : p.Uses (Idle q k)) : Moves q k (fun _ φ => φ = none) p none :=
  (moves_idle h none).mono fun _ _ h => h.2

theorem moves_result (h : Moves q k (fun _ φ => φ = none) p none) :
    Moves q k (fun _ φ => φ = none) (do let _ ← p) none := by
  apply h.bind
  rintro _ φ rfl
  rfl

theorem moves_changeQuota (quota userID tokenID : Int) (type : BatchUpdateType) (id value : Int) :
    Moves q k (fun _ φ => φ = none) (if quota < 0 then pure (.error .negativeQuota)
      else do
        queueUnderLock userID tokenID type id value
        pure (.ok ()) : Routine (Except BillingError Unit)) none := by
  split
  · rfl
  · apply moves_of_idle
    exact (queueUnderLock_idle userID tokenID type id value).bind fun _ => trivial

theorem moves_program (job : BatchJob) :
    Moves q k (fun _ φ => φ = none) job.program none := by
  have hadd : ∀ type id value, (ask (.addNewRecord type id value true)).Uses (Idle q k) :=
    fun type id value => ⟨idle_add type id value, fun _ => trivial⟩
  cases job with
  | addNewRecord type id value => exact moves_of_idle (hadd type id value)
  | increaseUserQuota | decreaseUserQuota | increaseTokenQuota | decreaseTokenQuota =>
    exact moves_result (moves_changeQuota ..)
  | updateUserUsedQuotaAndRequestCount id quota =>
    exact moves_of_idle ((hadd .usedQuota id quota).bind fun _ => hadd .requestCount id 1)
  | updateUserUsedQuota id quota => exact moves_of_idle (hadd .usedQuota id quota)
  | updateChannelUsedQuota id quota => exact moves_of_idle (hadd .channelUsedQuota id quota)
  | batchUpdate order => exact moves_batchUpdate order
  | preConsumeWallet =>
    apply moves_result
    unfold Batch.preConsumeWalletBillingRecovery
    split
    · rfl
    split
    · exact moves_mutate ..
    · apply moves_of_idle
      exact ⟨by simp [Idle, Quiet, taken], fun _ => trivial⟩
  | reserve =>
    apply moves_result
    unfold Batch.reserveBillingRecovery
    split
    · rfl
    · exact moves_mutate ..
  | applyAdjustment =>
    apply moves_result
    unfold Batch.applyBillingRecoveryAdjustment
    split
    · rfl
    split
    · rfl
    · exact moves_mutate ..

abbrev Carriers := List (Routine Unit × Option Int)

def carried (ps : Carriers) : Int × Int := (ps.map fun x => load x.2).sum

theorem carried_count (ps : Carriers) : (carried ps).2 = ps.countP fun x => x.2.isSome := by
  induction ps with
  | nil => rfl
  | cons x ps ih =>
    obtain ⟨p, φ⟩ := x
    have hsum : (carried ((p, φ) :: ps)).2 = (load φ).2 + (carried ps).2 := rfl
    rw [hsum, ih]
    cases φ <;> simp [load, add_comm]

theorem carried_zero (h : ∀ x ∈ ps, x.2 = none) : carried ps = 0 := by
  apply List.sum_eq_zero
  intro y hy
  obtain ⟨x, hx, rfl⟩ := List.mem_map.mp hy
  rw [h x hx]
  rfl

theorem owner_of_total (h : (stock q k s + carried ps).2 = 0) : ∀ x ∈ ps, Owner x.2 s := by
  intro x hx hsome
  have hpos : 0 < ps.countP fun x => x.2.isSome := List.countP_pos_iff.mpr ⟨x, hx, hsome⟩
  rw [Prod.snd_add, carried_count] at h
  by_contra hfree
  have hz : (stock q k s).2 = 0 := by simp [stock, hfree]
  omega

theorem empty_of_total (h : (stock q k s + carried ps).2 = 0) (hfree : batchLocked s = false) :
    ∀ x ∈ ps, x.2 = none := by
  intro x hx
  by_contra hne
  have hheld := owner_of_total h x hx (isSome_iff_ne_none.mpr hne)
  rw [hfree] at hheld
  cases hheld

/-- With the batch lock free, or every goroutine done, a column with its queue is what it was at the
start, with every delta and every effect of a committed transaction in it once. -/
theorem queued_deltas_survive_recovery (jobs : List BatchJob) (s : BatchState)
    (hfree : s.locked .quotaBatchMutation = false) (q : BatchUpdateType) (k before : Int)
    (hrow : s.column q k = some before) (sched : List Choice) :
    let cfg := (batchMachine fun _ _ => false).run ⟨s, jobs.map BatchJob.program⟩ sched
    let t := cfg.state
    t.locked .quotaBatchMutation = false ∨ (∀ p ∈ cfg.pool, p = .done ()) →
    ∃ after, t.column q k = some after ∧
      after + t.queued q k = before + s.queued q k + (t.added q k - s.added q k) +
        (t.applied q k - s.applied q k) := by
  intro cfg t hquiet
  have hstart : Loaded machine (HasRow q k) Owner (stock q k) load (fun _ φ => φ = none)
      ⟨s, jobs.map BatchJob.program⟩ (jobs.map fun job => (job.program, none)) := by
    refine ⟨by simp [Function.comp_def], by rw [HasRow, hrow]; rfl, fun x hx => ?_⟩
    obtain ⟨job, _, rfl⟩ := List.mem_map.mp hx
    exact moves_program job
  have hnone : carried (jobs.map fun job => (job.program, none)) = 0 := by
    apply carried_zero
    intro x hx
    obtain ⟨job, _, rfl⟩ := List.mem_map.mp hx
    rfl
  have htotal : total (stock q k) load s (jobs.map fun job => (job.program, none)) =
      (level q k s, 0) := by
    change stock q k s + carried _ = _
    rw [hnone, add_zero]
    simp [stock, batchLocked, hfree]
  have howner : ∀ s' (qs : Carriers), total (stock q k) load s' qs =
      total (stock q k) load s (jobs.map fun job => (job.program, none)) →
      ∀ x ∈ qs, Owner x.2 s' := by
    intro s' qs h
    apply owner_of_total
    change (total (stock q k) load s' qs).2 = 0
    rw [h, htotal]
  obtain ⟨ps, hloaded, hsame⟩ := run_conserves hstart howner sched
  have htotal' : stock q k t + carried ps = (level q k s, 0) := hsame.trans htotal
  have hempty : ∀ x ∈ ps, x.2 = none := by
    rcases hquiet with hlock | hdone
    · exact empty_of_total (by rw [htotal']) hlock
    intro x hx
    have hp : x.1 = .done () := hdone x.1 (hloaded.pool ▸ List.mem_map_of_mem hx)
    have hcarries := hloaded.each x hx
    rw [hp] at hcarries
    exact hcarries
  rw [carried_zero hempty, add_zero] at htotal'
  have hlevel : level q k t = level q k s := congrArg Prod.fst htotal'
  obtain ⟨after, hafter⟩ := isSome_iff_exists.mp hloaded.shared
  refine ⟨after, hafter, ?_⟩
  simp only [level, hrow, getD_some] at hlevel
  rw [show t.column q k = some after from hafter, getD_some] at hlevel
  omega

def pendingRequest : BatchState where
  store := { RequestBook.sampleStore with
    recoveries := fun _ =>
      some { userID := 1, tokenID := 1, source := .wallet, tokenRequired := true } }

def keepOrder : RangeOrder := ⟨fun _ ks => ks, fun _ _ => .refl _⟩

def crowd : List BatchJob :=
  [.decreaseUserQuota 1 50, .preConsumeWallet false RequestBook.sampleRequest 40 false,
    .preConsumeWallet false RequestBook.sampleRequest 40 false, .batchUpdate keepOrder]

/-- The first try takes the queued delta and is rolled back, the flusher writes it, the second
commits. -/
def crowdSchedule : List Choice :=
  [.go 0, .go 1, .go 0, .go 0] ++ List.replicate 5 (.go 1) ++ [.fail 1] ++
    List.replicate 4 (.go 1) ++ List.replicate 9 (.go 3) ++ List.replicate 10 (.go 2)

def crowded : Config BatchCall BatchCall.Answer BatchState :=
  (batchMachine fun _ _ => false).run ⟨pendingRequest, crowd.map BatchJob.program⟩ crowdSchedule

theorem crowd_deltas_survive :
    crowded.state.locked .quotaBatchMutation = false ∧ crowded.state.queued .userQuota 1 = 0 ∧
    ∃ after, crowded.state.column .userQuota 1 = some after ∧
      after + crowded.state.queued .userQuota 1 = 100 + 0 + (-50 - 0) + (-40 - 0) := by
  have hfree : crowded.state.locked .quotaBatchMutation = false := by decide
  refine ⟨hfree, by decide, ?_⟩
  exact queued_deltas_survive_recovery crowd pendingRequest rfl .userQuota 1 100 rfl crowdSchedule
    (.inl hfree)

end Ren2Hub.Proofs.BatchRuns
