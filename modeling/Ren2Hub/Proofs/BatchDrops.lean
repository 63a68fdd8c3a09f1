import Ren2Hub.Lib.Alone
import Ren2Hub.Proofs.BatchSpec
import Ren2Hub.Proofs.RequestBook

namespace Ren2Hub.Proofs.BatchDrops
open Lib Billing Billing.Batch BatchSpec

variable {down : Table → Int → Bool}

@[simp] theorem queued_setLock (s : BatchState) (l : Lock) (taken : Bool) :
    (s.setLock l taken).queued = s.queued := rfl

@[simp] theorem column_setLock (s : BatchState) (l : Lock) (taken : Bool) :
    (s.setLock l taken).column = s.column := rfl

section
variable (s : BatchState)

theorem alone_anyData (types : List BatchUpdateType) :
    (batchMachine down).alone (anyData types) [] s =
      (types.any fun type => !(s.batchUpdateStores type).entries.isEmpty, s) := by
  induction types with
  | nil => rfl
  | cons type rest ih =>
    have hstep : (batchMachine down).alone (anyData (type :: rest)) [] s =
        (batchMachine down).alone (if !(s.batchUpdateStores type).entries.isEmpty then pure true
          else anyData rest) [] s := rfl
    rw [hstep]
    split
    · rename_i hfound
      simp [hfound]
    rename_i hfound
    rw [ih]
    simp [hfound]

theorem alone_swapStores :
    (batchMachine down).alone (swapStores batchUpdateTypes fun _ => ∅) [] s =
      (s.batchUpdateStores, { s with batchUpdateStores := fun _ => ∅ }) := by
  have hstores : ((batchMachine down).alone (swapStores batchUpdateTypes fun _ => ∅) [] s).1 =
      s.batchUpdateStores := by
    funext q
    cases q <;> rfl
  have hempty : ((batchMachine down).alone (swapStores batchUpdateTypes fun _ => ∅) [] s
      ).2.batchUpdateStores = fun _ => ∅ := by
    funext q
    cases q <;> rfl
  have hleft : ((batchMachine down).alone (swapStores batchUpdateTypes fun _ => ∅) [] s).2 =
      { s with batchUpdateStores := ((batchMachine down).alone
          (swapStores batchUpdateTypes fun _ => ∅) [] s).2.batchUpdateStores } := rfl
  rw [hempty] at hleft
  exact Prod.ext hstores hleft

/-- A statement that fails is logged, and that is all. -/
def attempt (down : Table → Int → Bool) (s : BatchState) (row : RowUpdate) : BatchState :=
  if row.skipped ∨ down row.table row.id then s else s.update row

theorem alone_writeRows (rows : List RowUpdate) :
    ((batchMachine down).alone (writeRows rows) [] s).2 = rows.foldl (attempt down) s := by
  induction rows generalizing s with
  | nil => rfl
  | cons row rest ih =>
    rw [List.foldl_cons, ← ih]
    by_cases hskip : row.skipped = true
    · have hrest : writeRows (row :: rest) = writeRows rest := by simp [writeRows, hskip]
      rw [hrest]
      simp [attempt, hskip]
    have hwrite : writeRows (row :: rest) = ask (.write row) >>= fun _ => writeRows rest := by
      simp [writeRows, hskip]
    have hexec : ((batchMachine down).exec (.write row) s).1 = attempt down s row := by
      by_cases hdown : down row.table row.id = true <;>
        simp [batchMachine, BatchCall.exec, attempt, hskip, hdown]
    rw [hwrite, ← hexec]
    rfl

theorem rowDelta_elsewhere (h : ¬(row.table = q.table ∧ row.id = k)) : rowDelta q k row = 0 := by
  cases row <;> cases q <;>
    simp_all [rowDelta, share, RowUpdate.table, RowUpdate.id, BatchUpdateType.table]

theorem column_attempt (row : RowUpdate) :
    (attempt down s row).column q k =
      (s.column q k).map (· + if down q.table k then 0 else rowDelta q k row) := by
  unfold attempt
  by_cases hrow : row.table = q.table ∧ row.id = k
  · rw [hrow.1, hrow.2]
    by_cases hskip : row.skipped = true
    · simp [hskip, rowDelta_skipped hskip]
    by_cases hdown : down q.table k = true
    · simp [hdown]
    · simp [hskip, hdown, column_update]
  · have hz := rowDelta_elsewhere hrow
    split
    · simp [hz]
    · simp [column_update, hz]

theorem column_attempts (rows : List RowUpdate) :
    (rows.foldl (attempt down) s).column q k = (s.column q k).map
      (· + if down q.table k then 0 else (rows.map (rowDelta q k)).sum) := by
  induction rows generalizing s with
  | nil => simp
  | cons row rest ih =>
    rw [List.foldl_cons, ih, column_attempt, Option.map_map]
    congr 1
    funext v
    by_cases hdown : down q.table k = true
    · simp [hdown]
    · simp [hdown, add_assoc]

theorem queued_attempts (rows : List RowUpdate) :
    (rows.foldl (attempt down) s).batchUpdateStores = s.batchUpdateStores := by
  induction rows generalizing s with
  | nil => rfl
  | cons row rest ih =>
    rw [List.foldl_cons, ih]
    unfold attempt
    split
    · rfl
    · obtain ⟨store, usage, channels, he⟩ := update_frame s row
      rw [he]

end

theorem queued_of_empty {s : BatchState} (h : (batchUpdateTypes.any fun type =>
      !(s.batchUpdateStores type).entries.isEmpty) = false) (q : BatchUpdateType) (k : Int) :
    s.queued q k = 0 := by
  have hq : q ∈ batchUpdateTypes := by cases q <;> decide
  have hnil : (s.batchUpdateStores q).entries = [] := by
    simpa using List.any_eq_false.mp h q hq
  have hempty : s.batchUpdateStores q = ∅ := AList.ext hnil
  simp [BatchState.queued, hempty]

/-- After the call every queue is empty, and a column has its delta unless the
statement for its row failed. -/
theorem batchUpdate_alone (down : Table → Int → Bool) (order : RangeOrder) (s : BatchState)
    (q : BatchUpdateType) (k : Int) :
    let t := ((batchMachine down).alone (batchUpdate order) [] s).2
    t.queued q k = 0 ∧ t.column q k =
      (s.column q k).map (· + if down q.table k then 0 else s.queued q k) := by
  intro t
  let s1 := s.setLock .quotaBatchMutation true
  have hlocked : t = ((batchMachine down).alone (anyData batchUpdateTypes >>= fun hasData =>
      if hasData then do
        let stores ← swapStores batchUpdateTypes fun _ => ∅
        writeRows (rowUpdates order stores)
        ask (.unlock .quotaBatchMutation)
      else ask (.unlock .quotaBatchMutation)) [] s1).2 := rfl
  rw [Machine.alone_bind, alone_anyData] at hlocked
  cases hany : batchUpdateTypes.any fun type => !(s1.batchUpdateStores type).entries.isEmpty with
  | false =>
    rw [hany] at hlocked
    have ht : t = s1.setLock .quotaBatchMutation false := hlocked
    have hz : s.queued q k = 0 := queued_of_empty hany q k
    rw [ht, hz]
    simp [s1, hz]
  | true =>
    rw [hany, if_pos rfl, Machine.alone_bind, alone_swapStores, Machine.alone_bind] at hlocked
    have ht : t = ((batchMachine down).alone (writeRows (rowUpdates order s1.batchUpdateStores)) []
        { s1 with batchUpdateStores := fun _ => ∅ }).2.setLock .quotaBatchMutation false := hlocked
    rw [alone_writeRows] at ht
    rw [ht, queued_setLock, column_setLock, column_attempts, sum_rowUpdates]
    refine ⟨?_, rfl⟩
    simp [BatchState.queued, queued_attempts]

/-- The delta of a key is in its column or still queued. -/
def Kept (s t : BatchState) (q : BatchUpdateType) (k : Int) : Prop :=
  (t.queued q k = 0 ∧ ∃ v, s.column q k = some v ∧ t.column q k = some (v + s.queued q k)) ∨
    (t.queued q k = s.queued q k ∧ t.column q k = s.column q k)

/-- A call keeps every delta exactly if each one finds its row and its statement
goes through. -/
theorem batchUpdate_keeps_deltas_iff (down : Table → Int → Bool) (order : RangeOrder)
    (s : BatchState) :
    (∀ q k, Kept s ((batchMachine down).alone (batchUpdate order) [] s).2 q k) ↔
      ∀ q k, s.queued q k ≠ 0 → (s.column q k).isSome ∧ down q.table k = false := by
  apply forall_congr'
  intro q
  apply forall_congr'
  intro k
  obtain ⟨hqueued, hcolumn⟩ := batchUpdate_alone down order s q k
  unfold Kept
  rw [hqueued, hcolumn]
  by_cases hz : s.queued q k = 0
  · simp [hz]
  have hne : (0 : Int) ≠ s.queued q k := fun he => hz he.symm
  -- The delta has left its queue, so it is kept only in its column.
  cases hc : s.column q k with
  | none => simp [hz, hne]
  | some v => cases hdown : down q.table k <;> simp [hz, hne]

def queuedCharge : BatchState where
  store := RequestBook.sampleStore
  batchUpdateStores := fun type =>
    if type = .userQuota then AList.singleton 1 (-50) else ∅

/-- The charge is gone from the queue and the balance is what it was. -/
theorem failed_write_drops_delta :
    let t := ((batchMachine fun table _ => table = .users).alone
      (batchUpdate ⟨fun _ ks => ks, fun _ _ => .refl _⟩) [] queuedCharge).2
    queuedCharge.queued .userQuota 1 = -50 ∧ queuedCharge.column .userQuota 1 = some 100 ∧
    t.queued .userQuota 1 = 0 ∧ t.column .userQuota 1 = some 100 ∧
    ¬ Kept queuedCharge t .userQuota 1 := by
  intro t
  have hqueued : t.queued .userQuota 1 = 0 := by decide
  have hcolumn : t.column .userQuota 1 = some 100 := by decide
  refine ⟨by decide, by decide, hqueued, hcolumn, ?_⟩
  rintro (⟨_, v, hv, hafter⟩ | ⟨hstill, _⟩)
  · rw [hcolumn] at hafter
    cases hv
    exact absurd hafter (by decide)
  · rw [hqueued] at hstill
    exact absurd hstill (by decide)

end Ren2Hub.Proofs.BatchDrops
