import Mathlib.Algebra.BigOperators.Group.List.Basic
import Mathlib.Algebra.Order.Group.Int
import Ren2Hub.Billing.Batch
import Ren2Hub.Proofs.RecoverySpec

namespace Ren2Hub.Proofs.BatchSpec
open Lib Billing Billing.Batch Ledger RecoverySpec Function

@[simp] theorem valueAt_empty (key : Int) : valueAt ∅ key = 0 := rfl

theorem valueAt_addDelta (store : DeltaMap) (id value key : Int) :
    valueAt (addDelta store id value) key = valueAt store key + if key = id then value else 0 := by
  unfold addDelta valueAt
  by_cases hk : key = id
  · subst hk
    cases h : store.lookup key <;> simp
  · cases h : store.lookup id <;> simp [hk, AList.lookup_insert_ne hk]

theorem valueAt_erase (store : DeltaMap) (id key : Int) :
    valueAt (store.erase id) key = if key = id then 0 else valueAt store key := by
  unfold valueAt
  by_cases hk : key = id
  · subst hk
    simp
  · simp [hk, AList.lookup_erase_ne hk]

theorem mem_keys_of_valueAt (h : valueAt store key ≠ 0) : key ∈ store.keys := by
  rw [← AList.mem_keys, ← AList.lookup_isSome]
  unfold valueAt at h
  cases hl : store.lookup key with
  | none => simp [hl] at h
  | some v => rfl

/-- What a change of `d` at a key of a queue means for the watched one. -/
def share (q : BatchUpdateType) (k : Int) (type : BatchUpdateType) (key d : Int) : Int :=
  if type = q ∧ key = k then d else 0

@[simp] theorem share_zero : share q k type key 0 = 0 := by simp [share]

/-- What a row update adds to the watched column. -/
def rowDelta (q : BatchUpdateType) (k : Int) : RowUpdate → Int
  | .increaseTokenQuota id quota => share q k .tokenQuota id quota
  | .updateChannelUsedQuota id quota => share q k .channelUsedQuota id quota
  | .updateUserQuotaUsedQuotaAndRequestCount id quota usedQuota requestCount =>
    share q k .userQuota id quota + share q k .usedQuota id usedQuota +
      share q k .requestCount id requestCount

/-- What a mutation holds of the watched delta. -/
def pendingDelta (q : BatchUpdateType) (k : Int) (m : QuotaMutation) : Int :=
  share q k .userQuota m.userID m.userPendingDelta +
    share q k .tokenQuota m.tokenID m.tokenPendingDelta

theorem rowDelta_skipped (h : row.skipped = true) : rowDelta q k row = 0 := by
  cases row with
  | increaseTokenQuota | updateChannelUsedQuota => cases h
  | updateUserQuotaUsedQuotaAndRequestCount =>
    simp only [RowUpdate.skipped, decide_eq_true_eq] at h
    simp [rowDelta, h.1, h.2.1, h.2.2]

theorem balance_updateUser (id d : Int) (s : Store) :
    balance q k (updateUser id d s) = (balance q k s).map (· + share q k .userQuota id d) := by
  unfold updateUser share
  by_cases hk : id = k
  · subst hk
    cases hu : s.users id <;> cases q <;> simp [balance, Store.setUser, hu, comp_def]
  · have hne : k ≠ id := fun he => hk he.symm
    cases s.users id <;> cases q <;> simp [balance, Store.setUser, hk, hne, comp_def]

theorem balance_updateToken (id d : Int) (s : Store) :
    balance q k (updateToken id d s) = (balance q k s).map (· + share q k .tokenQuota id d) := by
  unfold updateToken share
  by_cases hk : id = k
  · subst hk
    cases ht : s.tokens id <;> cases q <;> simp [balance, Store.setToken, ht, comp_def]
  · have hne : k ≠ id := fun he => hk he.symm
    cases s.tokens id <;> cases q <;> simp [balance, Store.setToken, hk, hne, comp_def]

theorem addUserQuota_eq (h : s.addUserQuota key d = .ok s') : s' = updateUser key d s := by
  unfold Store.addUserQuota at h
  unfold updateUser
  cases hu : s.users key <;> simp only [hu] at h ⊢ <;> cases h
  rfl

theorem addTokenQuota_eq (h : s.addTokenQuota key d = .ok s') : s' = updateToken key d s := by
  unfold Store.addTokenQuota at h
  unfold updateToken
  cases ht : s.tokens key <;> simp only [ht] at h ⊢ <;> cases h
  rfl

theorem column_updateUser (s : BatchState) (id quota usedQuota requestCount : Int) :
    (s.update
        (.updateUserQuotaUsedQuotaAndRequestCount id quota usedQuota requestCount)).column q k =
      (s.column q k).map (· + (share q k .userQuota id quota + share q k .usedQuota id usedQuota +
        share q k .requestCount id requestCount)) := by
  unfold BatchState.update share
  cases hu : s.store.users id with
  | none =>
    by_cases hk : id = k
    · subst hk
      cases q <;> simp [BatchState.column, balance, hu, comp_def]
    · cases q <;> simp [BatchState.column, balance, hu, hk, comp_def]
  | some u =>
    by_cases hk : id = k
    · subst hk
      cases q <;> simp [BatchState.column, balance, updateUser, Store.setUser, hu, comp_def]
    have hne : k ≠ id := fun he => hk he.symm
    cases q <;> simp [BatchState.column, balance, updateUser, Store.setUser, hu, hk, hne, comp_def]

theorem column_update (s : BatchState) (row : RowUpdate) :
    (s.update row).column q k = (s.column q k).map (· + rowDelta q k row) := by
  cases row with
  | increaseTokenQuota =>
    unfold BatchState.update rowDelta
    cases q with
    | userQuota | tokenQuota => simp only [BatchState.column, balance_updateToken]
    | _ => simp [BatchState.column, share, updateToken_users, comp_def]
  | updateChannelUsedQuota id =>
    unfold BatchState.update rowDelta share
    by_cases hk : id = k
    · subst hk
      cases q <;> simp [BatchState.column, comp_def]
    · have hne : k ≠ id := fun he => hk he.symm
      cases q <;> simp [BatchState.column, hk, hne, comp_def]
  | updateUserQuotaUsedQuotaAndRequestCount id quota usedQuota requestCount =>
    exact column_updateUser s id quota usedQuota requestCount

theorem update_frame (s : BatchState) (row : RowUpdate) :
    ∃ store usage channels,
      s.update row = { s with store := store, usage := usage, channels := channels } := by
  cases row with
  | updateUserQuotaUsedQuotaAndRequestCount id =>
    simp only [BatchState.update]
    cases s.store.users id with
    | none => exact ⟨s.store, s.usage, s.channels, rfl⟩
    | some u => exact ⟨_, _, s.channels, rfl⟩
  | increaseTokenQuota => exact ⟨_, s.usage, s.channels, rfl⟩
  | updateChannelUsedQuota => exact ⟨s.store, s.usage, _, rfl⟩

theorem map_ok {x : Except BillingError α} (h : x.map f = .ok b) : ∃ a, x = .ok a ∧ f a = b := by
  cases x with
  | error e => cases h
  | ok a => exact ⟨a, rfl, by cases h; rfl⟩

theorem balance_applyPendingDeltas (h : m.applyPendingDeltas s = .ok s') :
    balance q k s' = (balance q k s).map (· + pendingDelta q k m) := by
  obtain ⟨s1, h1, h2⟩ := bind_ok.mp h
  have huser : balance q k s1 =
      (balance q k s).map (· + share q k .userQuota m.userID m.userPendingDelta) := by
    split at h1
    · rw [addUserQuota_eq h1, balance_updateUser]
    rename_i hz
    cases h1
    simp [not_not.mp hz]
  have htoken : balance q k s' =
      (balance q k s1).map (· + share q k .tokenQuota m.tokenID m.tokenPendingDelta) := by
    split at h2
    · rw [addTokenQuota_eq h2, balance_updateToken]
    rename_i hz
    cases h2
    simp [not_not.mp hz]
  rw [htoken, huser, Option.map_map]
  simp [pendingDelta, comp_def, add_assoc]

/-- Balances moved, and no row of a balance table came or went. -/
def Moved (s s' : Store) : Prop := ∃ w t, Shift s s' w t

theorem Moved.refl (s : Store) : Moved s s := ⟨0, 0, .refl s⟩

theorem Moved.trans (h : Moved s s') (h' : Moved s' s'') : Moved s s'' := by
  obtain ⟨w, t, h⟩ := h
  obtain ⟨w', t', h'⟩ := h'
  exact ⟨_, _, h.trans h'⟩

theorem Moved.of_if [Decidable c] {x : Except BillingError Store}
    (h : (if c then x else .ok s) = .ok s') (hx : x = .ok s' → Moved s s') : Moved s s' := by
  split at h
  · exact hx h
  · cases h
    exact .refl s

theorem Moved.rows (h : Moved s s') : (balance q k s').isSome = (balance q k s).isSome := by
  obtain ⟨w, t, h⟩ := h
  cases q with
  | userQuota => simp [balance, h.userRows k]
  | tokenQuota => simp [balance, h.tokenRows k]
  | _ => rfl

theorem chargePreConsume_moved (h : chargePreConsume rid r quota tokenUnlimited s = .ok s') :
    Moved s s' := by
  obtain ⟨s1, h1, h⟩ := bind_ok.mp h
  obtain ⟨s2, h2, h⟩ := bind_ok.mp h
  cases h
  have htoken : Moved s s1 := .of_if h1 fun hx => ⟨_, _, (chargeToken_spec hx).1⟩
  have huser : Moved s1 s2 := .of_if h2 fun hx => ⟨_, _, (chargeUser_spec hx).1⟩
  exact (htoken.trans huser).trans ⟨_, _, setRecovery_shift s2 rid _⟩

theorem chargeReserve_moved
    (h : chargeReserve rid r targetQuota delta tokenUnlimited s = .ok (d, s')) : Moved s s' := by
  obtain ⟨s1, h1, h⟩ := bind_ok.mp h
  obtain ⟨s2, h2, h⟩ := bind_ok.mp h
  cases h
  have hfunding : Moved s s1 := ⟨_, _, (reserveFunding_ok h1).1⟩
  have htoken : Moved s1 s2 := .of_if h2 fun hx => ⟨_, _, (chargeToken_spec hx).1⟩
  exact (hfunding.trans htoken).trans
    ⟨_, _, (setRecovery_shift s2 rid _).trans (setAdjustment_shift _ rid _ _ _)⟩

theorem body_moved {tx : RecoveryTx} (h : tx.body s = .ok (d, s')) : Moved s s' := by
  cases tx with
  | preConsumeWallet =>
    obtain ⟨s1, h, he⟩ := map_ok h
    cases he
    obtain ⟨r, hr, h⟩ := bind_ok.mp h
    split at h
    · cases h
    split at h
    · split at h <;> cases h
      exact .refl s
    · exact chargePreConsume_moved h
  | reserve =>
    obtain ⟨r, hr, h⟩ := bind_ok.mp h
    split at h
    · cases h
    split at h
    · cases h
      exact .refl s
    split at h
    · split at h <;> cases h
      exact .refl s
    · exact chargeReserve_moved h
  | applyAdjustment rid =>
    obtain ⟨s1, h, he⟩ := map_ok h
    cases he
    obtain ⟨r, hr, h⟩ := bind_ok.mp h
    split at h
    · cases h
      exact .refl s
    split at h
    · cases h
      exact .refl s
    obtain ⟨admitted, _, h⟩ := bind_ok.mp h
    split at h
    · cases h
      exact .refl s
    obtain ⟨s2, h2, h⟩ := bind_ok.mp h
    cases h
    have heffect : Moved s s2 := ⟨_, _, (effect_spec h2).1⟩
    exact heffect.trans ⟨_, _, (setAdjustment_shift s2 rid _ _ _).trans (setRecovery_shift _ rid _)⟩

theorem run_ok {tx : RecoveryTx} (h : tx.run mutation s = .ok (flushed, d, after)) :
    balance q k flushed =
      (balance q k s).map (· + mutation.elim 0 (pendingDelta q k)) ∧ Moved flushed after := by
  cases mutation with
  | none =>
    obtain ⟨s1, h1, h⟩ := bind_ok.mp h
    obtain ⟨⟨d', s2⟩, h2, h⟩ := bind_ok.mp h
    cases h1
    cases h
    exact ⟨by simp, body_moved h2⟩
  | some m =>
    obtain ⟨s1, h1, h⟩ := bind_ok.mp h
    obtain ⟨⟨d', s2⟩, h2, h⟩ := bind_ok.mp h
    cases h
    exact ⟨balance_applyPendingDeltas h1, body_moved h2⟩

theorem sum_share (order : RangeOrder) (table : Table) (store : DeltaMap) (hnd : ks.Nodup)
    (hcover : valueAt store k ≠ 0 → k ∈ ks) :
    ((order.keys table ks).map fun key => share q k type key (valueAt store key)).sum =
      if type = q then valueAt store k else 0 := by
  rw [((order.perm table ks).map _).sum_eq]
  by_cases ht : type = q
  · simp only [share, ht, true_and, if_true]
    rw [List.sum_map_ite_eq ks (valueAt store) (fun _ => 0) k]
    by_cases hk : k ∈ ks
    · simp [List.count_eq_one_of_mem hnd hk]
    have hz : valueAt store k = 0 := by
      by_contra hne
      exact hk (hcover hne)
    simp [hz]
  · simp [share, ht]

theorem mem_userIDs (ht : type.table = .users) (h : valueAt (stores type) k ≠ 0) :
    k ∈ userIDs stores := by
  have hk := mem_keys_of_valueAt h
  cases type with
  | tokenQuota | channelUsedQuota => cases ht
  | _ => simp [userIDs, hk]

theorem sum_rowUpdates (order : RangeOrder) (stores : BatchUpdateType → DeltaMap) :
    ((rowUpdates order stores).map (rowDelta q k)).sum = valueAt (stores q) k := by
  have hids : (userIDs stores).Nodup := List.nodup_dedup _
  simp only [rowUpdates, List.map_append, List.map_map, comp_def, rowDelta,
    List.sum_append, List.sum_map_add]
  rw [sum_share order .tokens _ (AList.keys_nodup _) mem_keys_of_valueAt,
    sum_share order .channels _ (AList.keys_nodup _) mem_keys_of_valueAt,
    sum_share order .users _ hids (mem_userIDs rfl), sum_share order .users _ hids
      (mem_userIDs rfl),
    sum_share order .users _ hids (mem_userIDs rfl)]
  cases q <;> simp

end Ren2Hub.Proofs.BatchSpec
