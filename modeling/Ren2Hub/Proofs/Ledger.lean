import Mathlib.Algebra.Group.Pi.Basic
import Mathlib.Algebra.Ring.Int.Defs
import Ren2Hub.Billing.Calls
import Ren2Hub.Lib.Checks

namespace Ren2Hub.Proofs.Ledger
open Lib Billing Store

theorem recovery_ok {s : Store} : s.recovery rid = .ok r ↔ s.recoveries rid = some r := by
  unfold recovery
  cases s.recoveries rid <;> simp

section Tables
variable (s : Store) (rid : RequestID) (r : BillingRecovery) (c : Component) (op : Operation)
  (a : Int)

@[simp] theorem setRecovery_self : (s.setRecovery rid r).recoveries rid = some r := by
  simp [setRecovery]

theorem setRecovery_of_ne (h : rid' ≠ rid) :
    (s.setRecovery rid r).recoveries rid' = s.recoveries rid' := by
  simp [setRecovery, h]

@[simp] theorem setRecovery_adjustments : (s.setRecovery rid r).adjustments = s.adjustments := rfl

@[simp] theorem setRecovery_records : (s.setRecovery rid r).records = s.records := rfl

@[simp] theorem setRecovery_tokens : (s.setRecovery rid r).tokens = s.tokens := rfl

@[simp] theorem setAdjustment_recoveries :
    (s.setAdjustment rid c op a).recoveries = s.recoveries := rfl

@[simp] theorem setAdjustment_tokens : (s.setAdjustment rid c op a).tokens = s.tokens := rfl

theorem setAdjustment_self (c' : Component) (op' : Operation) :
    (s.setAdjustment rid c op a).adjustments rid c' op' =
      if c' = c ∧ op' = op then some a else s.adjustments rid c' op' := by
  simp [setAdjustment]

theorem setAdjustment_of_ne (h : rid' ≠ rid) :
    (s.setAdjustment rid c op a).adjustments rid' = s.adjustments rid' := by
  simp [setAdjustment, h]

end Tables

/-- A wallet as its owner sees it: what is stored and what is still queued. -/
def walletTotal (s : Store) (id : Int) : Int :=
  getUserQuota id s + s.userPending id

def remainQuota (id : Int) (s : Store) : Int := (s.tokens id).elim 0 Token.remainQuota

def usedQuota (id : Int) (s : Store) : Int := (s.tokens id).elim 0 Token.usedQuota

def tokenTotal (s : Store) (id : Int) : Int :=
  remainQuota id s + s.tokenPending id

def usedTotal (s : Store) (id : Int) : Int :=
  usedQuota id s - s.tokenPending id

def point (id d : Int) : Int → Int := fun i => if i = id then d else 0

@[simp] theorem point_zero (id : Int) : point id 0 = 0 := by
  funext i
  simp [point]

@[simp] theorem point_self (id d : Int) : point id d id = d := by simp [point]

theorem point_add (id a b : Int) : point id a + point id b = point id (a + b) := by
  funext i
  by_cases hi : i = id <;> simp [point, hi]

/-- All balances moved by the given amounts, no queue grew and no row came or
went. -/
structure Shift (s s' : Store) (w t : Int → Int) : Prop where
  wallet : ∀ id, walletTotal s' id = walletTotal s id + w id
  token : ∀ id, tokenTotal s' id = tokenTotal s id + t id
  used : ∀ id, usedTotal s' id = usedTotal s id - t id
  userQueue : ∀ id, s.userPending id = 0 → s'.userPending id = 0
  tokenQueue : ∀ id, s.tokenPending id = 0 → s'.tokenPending id = 0
  userRows : ∀ id, (s'.users id).isSome = (s.users id).isSome
  tokenRows : ∀ id, (s'.tokens id).isSome = (s.tokens id).isSome

/-- The part of the store a balance statement leaves alone. -/
structure SameRows (s s' : Store) : Prop where
  recoveries : s'.recoveries = s.recoveries
  adjustments : s'.adjustments = s.adjustments
  records : s'.records = s.records
  subscriptions : s'.subscriptions = s.subscriptions
  ids : s'.subscriptionIDs = s.subscriptionIDs
  plans : s'.plans = s.plans

theorem SameRows.refl (s : Store) : SameRows s s := ⟨rfl, rfl, rfl, rfl, rfl, rfl⟩

theorem SameRows.trans (h : SameRows s s') (h' : SameRows s' s'') : SameRows s s'' :=
  ⟨h'.recoveries.trans h.recoveries, h'.adjustments.trans h.adjustments,
    h'.records.trans h.records, h'.subscriptions.trans h.subscriptions, h'.ids.trans h.ids,
    h'.plans.trans h.plans⟩

/-- The tables on the subscription side. -/
structure SameSubscriptions (s s' : Store) : Prop where
  subscriptions : s'.subscriptions = s.subscriptions
  records : s'.records = s.records
  plans : s'.plans = s.plans

theorem SameRows.subscriptionSide (h : SameRows s s') : SameSubscriptions s s' :=
  ⟨h.subscriptions, h.records, h.plans⟩

theorem SameSubscriptions.trans (h : SameSubscriptions s s') (h' : SameSubscriptions s' s'') :
    SameSubscriptions s s'' :=
  ⟨h'.subscriptions.trans h.subscriptions, h'.records.trans h.records, h'.plans.trans h.plans⟩

theorem Shift.of_same (hu : s'.users = s.users) (ht : s'.tokens = s.tokens)
    (hp : s'.userPending = s.userPending) (hq : s'.tokenPending = s.tokenPending) :
    Shift s s' 0 0 := by
  refine ⟨?_, ?_, ?_, ?_, ?_, ?_, ?_⟩ <;> intro id <;>
    simp [walletTotal, tokenTotal, usedTotal, remainQuota, usedQuota, getUserQuota, hu, ht, hp, hq]

theorem Shift.refl (s : Store) : Shift s s 0 0 := .of_same rfl rfl rfl rfl

theorem Shift.trans (h : Shift s s' w t) (h' : Shift s' s'' w' t') :
    Shift s s'' (w + w') (t + t') := by
  refine ⟨?_, ?_, ?_, ?_, ?_, ?_, ?_⟩ <;> intro id
  · rw [h'.wallet, h.wallet, Pi.add_apply, add_assoc]
  · rw [h'.token, h.token, Pi.add_apply, add_assoc]
  · rw [h'.used, h.used, Pi.add_apply]
    omega
  · exact fun hz => h'.userQueue id (h.userQueue id hz)
  · exact fun hz => h'.tokenQueue id (h.tokenQueue id hz)
  · rw [h'.userRows, h.userRows]
  · rw [h'.tokenRows, h.tokenRows]

theorem Shift.trans_same (h : Shift s s' w t) (h' : Shift s' s'' 0 0) : Shift s s'' w t := by
  simpa using h.trans h'

theorem Shift.same_trans (h : Shift s s' 0 0) (h' : Shift s' s'' w t) : Shift s s'' w t := by
  simpa using h.trans h'

theorem setRecovery_shift (s : Store) (rid : RequestID) (r : BillingRecovery) :
    Shift s (s.setRecovery rid r) 0 0 := .of_same rfl rfl rfl rfl

theorem setAdjustment_shift (s : Store) (rid : RequestID) (c : Component) (op : Operation)
    (a : Int) : Shift s (s.setAdjustment rid c op a) 0 0 := .of_same rfl rfl rfl rfl

theorem walletTotal_setUser (s : Store) (k : Int) (u : User) (i : Int) :
    walletTotal (s.setUser k u) i =
      if i = k then u.quota + s.userPending i else walletTotal s i := by
  unfold walletTotal getUserQuota setUser
  by_cases hi : i = k <;> simp [hi]

theorem tokenTotal_setToken (s : Store) (k : Int) (t : Token) (i : Int) :
    tokenTotal (s.setToken k t) i =
      if i = k then t.remainQuota + s.tokenPending i else tokenTotal s i := by
  unfold tokenTotal remainQuota setToken
  by_cases hi : i = k <;> simp [hi]

theorem usedTotal_setToken (s : Store) (k : Int) (t : Token) (i : Int) :
    usedTotal (s.setToken k t) i =
      if i = k then t.usedQuota - s.tokenPending i else usedTotal s i := by
  unfold usedTotal usedQuota setToken
  by_cases hi : i = k <;> simp [hi]

theorem update_isSome {f : Int → Option α} (h : f k = some a) (a' : α) (i : Int) :
    (Function.update f k (some a') i).isSome = (f i).isSome := by
  by_cases hi : i = k
  · simp [hi, h]
  · simp [hi]

theorem setUser_shift (hu : s.users k = some u) (hq : u'.quota = u.quota + d) :
    Shift s (s.setUser k u') (point k d) 0 := by
  refine ⟨fun i => ?_, fun i => ?_, fun i => ?_, fun i h => h, fun i h => h, update_isSome hu u',
    fun i => rfl⟩
  · rw [walletTotal_setUser]
    by_cases hi : i = k
    · subst hi
      have hw : walletTotal s i = u.quota + s.userPending i := by
        simp [walletTotal, getUserQuota, hu]
      rw [if_pos rfl, point_self, hw]
      omega
    · simp [point, hi]
  · simp [tokenTotal, remainQuota, setUser]
  · simp [usedTotal, usedQuota, setUser]

theorem setToken_shift (ht : s.tokens k = some t) (hr : t'.remainQuota = t.remainQuota + d)
    (hu : t'.usedQuota = t.usedQuota - d) : Shift s (s.setToken k t') 0 (point k d) := by
  refine ⟨fun i => ?_, fun i => ?_, fun i => ?_, fun i h => h, fun i h => h, fun i => rfl,
    update_isSome ht t'⟩
  · simp [walletTotal, getUserQuota, setToken]
  · rw [tokenTotal_setToken]
    by_cases hi : i = k
    · subst hi
      have hw : tokenTotal s i = t.remainQuota + s.tokenPending i :=
        by simp [tokenTotal, remainQuota, ht]
      rw [if_pos rfl, point_self, hw]
      omega
    · simp [point, hi]
  · rw [usedTotal_setToken]
    by_cases hi : i = k
    · subst hi
      have hw : usedTotal s i = t.usedQuota - s.tokenPending i := by simp [usedTotal, usedQuota, ht]
      rw [if_pos rfl, point_self, hw]
      omega
    · simp [point, hi]

theorem addUserQuota_spec (h : s.addUserQuota k d = .ok s') :
    Shift s s' (point k d) 0 ∧ SameRows s s' ∧ s'.tokens = s.tokens := by
  unfold addUserQuota at h
  split at h
  · rename_i u hu
    cases h
    exact ⟨setUser_shift hu rfl, ⟨rfl, rfl, rfl, rfl, rfl, rfl⟩, rfl⟩
  · cases h

theorem addTokenQuota_spec (h : s.addTokenQuota k d = .ok s') :
    Shift s s' 0 (point k d) ∧ SameRows s s' := by
  unfold addTokenQuota at h
  split at h
  · rename_i t ht
    cases h
    exact ⟨setToken_shift ht rfl rfl, ⟨rfl, rfl, rfl, rfl, rfl, rfl⟩⟩
  · cases h

theorem chargeToken_spec (h : chargeToken k quota unlimited s = .ok s') :
    Shift s s' 0 (point k (-quota)) ∧ SameRows s s' := by
  unfold chargeToken at h
  split at h
  · rename_i t ht
    split at h
    · cases h
      exact ⟨setToken_shift ht Int.sub_eq_add_neg (Int.sub_neg _ _).symm,
        ⟨rfl, rfl, rfl, rfl, rfl, rfl⟩⟩
    · cases h
  · cases h

theorem chargeUser_spec (h : chargeUser k quota s = .ok s') :
    Shift s s' (point k (-quota)) 0 ∧ SameRows s s' ∧ s'.tokens = s.tokens := by
  unfold chargeUser at h
  split at h
  · rename_i u hu
    split at h
    · cases h
      exact ⟨setUser_shift hu Int.sub_eq_add_neg, ⟨rfl, rfl, rfl, rfl, rfl, rfl⟩, rfl⟩
    · cases h
  · cases h

theorem dropPending_self (queue : Int → Int) (k i : Int) :
    dropPendingQuotaDelta queue k i = queue i + point k (-pendingQuotaDelta queue k) i := by
  unfold dropPendingQuotaDelta pendingQuotaDelta
  by_cases hk : k ≤ 0
  · simp [hk]
  by_cases hi : i = k
  · subst hi
    simp only [if_neg hk, Function.update_self, point_self]
    omega
  · simp [hk, hi, point]

theorem dropPending_zero (hz : queue i = 0) : dropPendingQuotaDelta queue k i = 0 := by
  unfold dropPendingQuotaDelta
  split
  · exact hz
  · by_cases hi : i = k <;> simp [hi, hz]

theorem dropPending_shift (s : Store) (u t : Int) :
    Shift s { s with userPending := dropPendingQuotaDelta s.userPending u,
                     tokenPending := dropPendingQuotaDelta s.tokenPending t }
      (point u (-pendingQuotaDelta s.userPending u))
      (point t (-pendingQuotaDelta s.tokenPending t)) := by
  refine ⟨fun i => ?_, fun i => ?_, fun i => ?_, fun i => dropPending_zero,
    fun i => dropPending_zero, fun i => rfl, fun i => rfl⟩
  · simp only [walletTotal, getUserQuota, dropPending_self]
    omega
  · simp only [tokenTotal, remainQuota, dropPending_self]
    omega
  · simp only [usedTotal, usedQuota, dropPending_self]
    omega

theorem applyPendingDeltas_spec {m : QuotaMutation} (h : m.applyPendingDeltas s = .ok s') :
    Shift s s' (point m.userID m.userPendingDelta) (point m.tokenID m.tokenPendingDelta) ∧
      SameRows s s' ∧ (m.tokenPendingDelta = 0 → s'.tokens = s.tokens) := by
  -- The user half: afterwards only the wallet has moved.
  have huser : ∀ s1, (if m.userPendingDelta ≠ 0 then s.addUserQuota m.userID m.userPendingDelta
      else .ok s) = .ok s1 →
      Shift s s1 (point m.userID m.userPendingDelta) 0 ∧ SameRows s s1 ∧ s1.tokens = s.tokens := by
    intro s1 h1
    split at h1
    · exact addUserQuota_spec h1
    rename_i hz
    cases h1
    rw [not_not.mp hz, point_zero]
    exact ⟨.refl s, .refl s, rfl⟩
  obtain ⟨s1, h1, h⟩ := bind_ok.mp h
  obtain ⟨hs1, hrows1, htok1⟩ := huser s1 h1
  split at h
  · rename_i hz
    obtain ⟨hs2, hrows2⟩ := addTokenQuota_spec h
    exact ⟨by simpa using hs1.trans hs2, hrows1.trans hrows2, fun h0 => absurd h0 hz⟩
  rename_i hz
  cases h
  rw [not_not.mp hz, point_zero]
  exact ⟨hs1, hrows1, fun _ => htok1⟩

/-- A flush changes no total, and touches the token table only for requests with token billing. -/
theorem flushPendingDeltas_spec (h : flushPendingDeltas rid fenceUser fenceToken s = .ok s') :
    ∃ r, s.recoveries rid = some r ∧ Shift s s' 0 0 ∧ SameRows s s' ∧
      (r.tokenRequired = false → s'.tokens = s.tokens) := by
  obtain ⟨⟨m, s0⟩, hm, h⟩ := bind_ok.mp h
  obtain ⟨r, hr, hm⟩ := bind_ok.mp hm
  obtain ⟨hs, hrows, htok⟩ := applyPendingDeltas_spec h
  cases hm
  refine ⟨r, recovery_ok.mp hr, ?_, ?_, ?_⟩
  · have hz := (dropPending_shift s _ _).trans hs
    simp only [point_add, neg_add_cancel, point_zero] at hz
    exact hz
  · exact ⟨hrows.recoveries, hrows.adjustments, hrows.records, hrows.subscriptions, hrows.ids,
      hrows.plans⟩
  · intro hreq
    exact htok (by simp [hreq, pendingQuotaDelta])

end Ren2Hub.Proofs.Ledger
