import Ren2Hub.Proofs.CallSpec

namespace Ren2Hub.Proofs.SubscriptionSpec
open Billing Ledger RecoverySpec CallSpec

def usedAmount (s : Store) (k : Int) : Int :=
  (s.subscriptions k).elim 0 UserSubscription.amountUsed

/-- Subscriptions are stored under their own id and never went below zero. -/
structure Keyed (s : Store) : Prop where
  key : ∀ k sub, s.subscriptions k = some sub → sub.id = k
  used : ∀ k sub, s.subscriptions k = some sub → 0 ≤ sub.amountUsed

theorem Keyed.of_same (h : Keyed s) (he : s'.subscriptions = s.subscriptions) : Keyed s' := by
  refine ⟨?_, ?_⟩ <;> rw [he]
  · exact h.key
  · exact h.used

theorem saveSubscription_cases {s : Store} (h : (s.saveSubscription sub).subscriptions k = some q) :
    k = sub.id ∧ q = sub ∨ s.subscriptions k = some q := by
  simp only [Store.saveSubscription] at h
  by_cases hk : k = sub.id
  · subst hk
    rw [Function.update_self] at h
    exact .inl ⟨rfl, (Option.some.inj h).symm⟩
  · rw [Function.update_of_ne hk] at h
    exact .inr h

theorem Keyed.save (h : Keyed s) (hu : 0 ≤ sub.amountUsed) : Keyed (s.saveSubscription sub) := by
  constructor
  all_goals
    intro k q hq
    rcases saveSubscription_cases hq with ⟨rfl, rfl⟩ | hold
  · rfl
  · exact h.key k q hold
  · exact hu
  · exact h.used k q hold

theorem usedAmount_save (s : Store) (sub : UserSubscription) (k : Int) :
    usedAmount (s.saveSubscription sub) k = if k = sub.id then sub.amountUsed
      else usedAmount s k := by
  unfold usedAmount Store.saveSubscription
  by_cases hk : k = sub.id <;> simp [hk]

theorem usedAmount_setRecord (s : Store) (rid : RequestID) (record : SubscriptionPreConsumeRecord)
    (k : Int) : usedAmount (s.setRecord rid record) k = usedAmount s k := rfl

theorem usedAmount_some (h : s.subscriptions k = some sub) : usedAmount s k = sub.amountUsed := by
  simp [usedAmount, h]

theorem Keyed.usedAmount_nonneg (h : Keyed s) (k : Int) : 0 ≤ usedAmount s k := by
  unfold usedAmount
  cases hs : s.subscriptions k with
  | none => exact le_refl 0
  | some sub => exact h.used k sub hs

theorem usedAmount_same (h : s'.subscriptions = s.subscriptions) (k : Int) :
    usedAmount s' k = usedAmount s k := by
  simp only [usedAmount, h]

/-- The used amounts moved as given, the rest of the subscription side stayed. -/
structure Consumed (s s' : Store) (u : Int → Int) : Prop where
  used : ∀ k, usedAmount s' k = usedAmount s k + u k
  rows : ∀ k, (s'.subscriptions k).isSome = (s.subscriptions k).isSome
  keyed : Keyed s'
  records : s'.records = s.records

theorem Consumed.of_same (h : Keyed s) (hs : SameSubscriptions s s') : Consumed s s' 0 := by
  refine ⟨fun k => ?_, fun k => ?_, h.of_same hs.subscriptions, hs.records⟩
  · simp [usedAmount_same hs.subscriptions]
  · rw [hs.subscriptions]

theorem Consumed.trans_same (h : Consumed s s' u) (hs : SameSubscriptions s' s'') :
    Consumed s s'' u := by
  refine ⟨fun k => ?_, fun k => ?_, h.keyed.of_same hs.subscriptions, ?_⟩
  · rw [usedAmount_same hs.subscriptions, h.used]
  · rw [hs.subscriptions, h.rows]
  · rw [hs.records, h.records]

theorem Consumed.same_trans (hs : SameSubscriptions s s') (h : Consumed s' s'' u) :
    Consumed s s'' u := by
  refine ⟨fun k => ?_, fun k => ?_, h.keyed, ?_⟩
  · rw [h.used, usedAmount_same hs.subscriptions]
  · rw [h.rows, hs.subscriptions]
  · rw [h.records, hs.records]

theorem postConsumeTx_consumed (h : postConsumeUserSubscriptionDeltaTx k delta s = .ok s')
    (hk : Keyed s) (h0 : 0 ≤ usedAmount s k + delta) : Consumed s s' (point k delta) := by
  obtain ⟨sub, hs, _, rfl⟩ := postConsumeTx_ok h
  have hid := hk.key k sub hs
  rw [usedAmount_some hs] at h0
  refine ⟨fun j => ?_, fun j => ?_, hk.save (by simp), rfl⟩
  · rw [usedAmount_save]
    by_cases hj : j = k
    · subst hj
      rw [if_pos hid.symm, usedAmount_some hs, point_self]
      exact max_eq_right h0
    have hne : j ≠ sub.id := by rw [hid]; exact hj
    rw [if_neg hne]
    simp [point, hj]
  · rw [← hid] at hs
    exact update_isSome hs _ j

theorem postConsumeTx_keyed (h : postConsumeUserSubscriptionDeltaTx k delta s = .ok s')
    (hk : Keyed s) : Keyed s' := by
  obtain ⟨sub, _, _, rfl⟩ := postConsumeTx_ok h
  exact hk.save (by simp)

theorem applySubscriptionDelta_consumed (h : applySubscriptionDeltaTx sub delta s = .ok s')
    (hk : Keyed s) (h0 : 0 < sub → 0 ≤ usedAmount s sub + delta) :
    Consumed s s' (point sub (if 0 < sub then delta else 0)) := by
  unfold applySubscriptionDeltaTx at h
  split at h
  · rename_i hc
    cases h
    have hz : (if 0 < sub then delta else 0) = 0 := by
      split <;> omega
    rw [hz, point_zero]
    exact .of_same hk ⟨rfl, rfl, rfl⟩
  · rename_i hc
    have hpos : 0 < sub := by omega
    rw [if_pos hpos]
    exact postConsumeTx_consumed h hk (h0 hpos)

theorem applySubscriptionDelta_keyed (h : applySubscriptionDeltaTx sub delta s = .ok s')
    (hk : Keyed s) : Keyed s' := by
  unfold applySubscriptionDeltaTx at h
  split at h
  · cases h
    exact hk
  · exact postConsumeTx_keyed h hk

theorem Reserved.consumed (h : Reserved r delta s s') (hk : Keyed s)
    (hsrc : r.source = .subscription) (h0 : 0 ≤ usedAmount s r.subscriptionID + delta) :
    Consumed s s' (point r.subscriptionID (if 0 < r.subscriptionID then delta else 0)) := by
  obtain ⟨sa, sb, hsa, hf, hsb⟩ := h
  simp only [reserveFunding, hsrc] at hf
  rw [← usedAmount_same hsa.subscriptions] at h0
  have hc := applySubscriptionDelta_consumed hf (hk.of_same hsa.subscriptions) fun _ => h0
  exact (Consumed.same_trans hsa hc).trans_same hsb

theorem effect_token_side (h : applyBillingRecoveryEffect rid r .token op a s = .ok s') :
    SameSubscriptions s s' := by
  unfold applyBillingRecoveryEffect at h
  split at h
  · cases h
    exact ⟨rfl, rfl, rfl⟩
  split at h
  · cases h
    exact ⟨rfl, rfl, rfl⟩
  · exact (addTokenQuota_spec h).2.subscriptionSide

theorem effect_extra_eq (rid : RequestID) (r : BillingRecovery) (op : Operation) (a : Int)
    (s : Store) :
    applyBillingRecoveryEffect rid r .extra op a s = applySubscriptionDeltaTx r.subscriptionID
      (-a) s := by
  unfold applyBillingRecoveryEffect
  rw [if_neg (by simp)]
  split
  · rename_i hz
    simp [applySubscriptionDeltaTx, hz]
  · rfl

theorem effect_funding_consumed (h : applyBillingRecoveryEffect rid r .funding .refund a s = .ok s')
    (hsrc : r.source = .subscription) (ha : a ≠ 0) (hrec : s.records rid = some record)
    (hst : record.status = .consumed) (hpos : 0 < record.preConsumed)
    (hsub : (s.subscriptions record.userSubscriptionId).isSome) :
    ∃ s1, postConsumeUserSubscriptionDeltaTx record.userSubscriptionId (-record.preConsumed) s =
        .ok s1 ∧ s' = s1.setRecord rid { record with status := .refunded } := by
  unfold applyBillingRecoveryEffect at h
  rw [if_neg (by simp), if_neg ha] at h
  have hcons : ¬ record.status = .refunded := by rw [hst]; simp
  simp only [hsrc, if_true, refundBillingRecoverySubscriptionPreConsumeTx, hrec, if_neg hcons,
    if_pos hpos] at h
  cases hpost : postConsumeUserSubscriptionDeltaTx record.userSubscriptionId
      (-record.preConsumed) s with
  | ok s1 =>
    rw [hpost] at h
    cases h
    exact ⟨s1, rfl, rfl⟩
  | error e =>
    rw [hpost] at h
    cases e <;> cases h
    rw [postConsumeTx_missing hpost] at hsub
    cases hsub

theorem effect_zero (h : applyBillingRecoveryEffect rid r c op 0 s = .ok s') : s' = s := by
  unfold applyBillingRecoveryEffect at h
  split at h
  · cases h
    rfl
  rw [if_pos rfl] at h
  cases h
  rfl

theorem effect_settle_keyed (h : applyBillingRecoveryEffect rid r c .settle a s = .ok s')
    (hk : Keyed s) : Keyed s' := by
  cases c with
  | token => exact hk.of_same (effect_token_side h).subscriptions
  | extra => exact applySubscriptionDelta_keyed (effect_extra_eq rid r .settle a s ▸ h) hk
  | reserve =>
    unfold applyBillingRecoveryEffect at h
    split at h
    · cases h
      exact hk
    split at h <;> cases h <;> exact hk
  | funding =>
    unfold applyBillingRecoveryEffect at h
    rw [if_neg (by simp)] at h
    split at h
    · cases h
      exact hk
    cases hsrc : r.source with
    | wallet =>
      simp only [hsrc] at h
      exact hk.of_same (addUserQuota_spec h).2.1.subscriptions
    | subscription =>
      simp only [hsrc] at h
      exact applySubscriptionDelta_keyed h hk

theorem maybeReset_eq (cal : Calendar) (sub : UserSubscription) (plan : SubscriptionPlan)
    (now : Int) : ∃ used last next, (used = sub.amountUsed ∨ used = 0) ∧
      maybeResetUserSubscriptionWithPlan cal sub plan now =
        { sub with amountUsed := used, lastResetTime := last, nextResetTime := next } := by
  unfold maybeResetUserSubscriptionWithPlan
  split
  · exact ⟨_, _, _, .inl rfl, rfl⟩
  split
  · exact ⟨_, _, _, .inl rfl, rfl⟩
  dsimp only
  generalize (if sub.lastResetTime ≤ 0 then sub.startTime else sub.lastResetTime) = baseUnix
  generalize advanceReset cal plan sub.endTime now ((now - baseUnix).toNat + 1) baseUnix
    (calcNextResetTime cal baseUnix plan sub.endTime) false = walk
  split
  · split
    · exact ⟨_, _, _, .inl rfl, rfl⟩
    · exact ⟨_, _, _, .inl rfl, rfl⟩
  · exact ⟨_, _, _, .inr rfl, rfl⟩

/-- What a subscription of `s0` has used, give or take a reset that was due. -/
def Baseline (cal : Calendar) (now : Int) (s0 : Store) (k used : Int) : Prop :=
  used = usedAmount s0 k ∨ ∃ sub plan, s0.subscriptions k = some sub ∧
    s0.plans sub.planId = some plan ∧
    used = (maybeResetUserSubscriptionWithPlan cal sub plan now).amountUsed

/-- The subscriptions hold `f` on top of what they had used at `s0`. -/
def UsedBeyond (cal : Calendar) (now : Int) (s0 : Store) (f : Int → Int) (s : Store) : Prop :=
  ∃ base : Int → Int, (∀ k, 0 ≤ base k ∧ Baseline cal now s0 k (base k)) ∧
    ∀ k, usedAmount s k = base k + f k

theorem UsedBeyond.consumed (h : UsedBeyond cal now s0 f s) (hc : Consumed s s' u) :
    UsedBeyond cal now s0 (f + u) s' := by
  obtain ⟨base, hb, hu⟩ := h
  refine ⟨base, hb, fun k => ?_⟩
  rw [hc.used, hu, Pi.add_apply]
  omega

theorem UsedBeyond.le (h : UsedBeyond cal now s0 f s) (k : Int) : f k ≤ usedAmount s k := by
  obtain ⟨base, hb, hu⟩ := h
  have h0 := (hb k).1
  have he := hu k
  omega

theorem UsedBeyond.none (h : UsedBeyond cal now s0 0 s) (k : Int) :
    Baseline cal now s0 k (usedAmount s k) := by
  obtain ⟨base, hb, hu⟩ := h
  have he := hu k
  simp only [Pi.zero_apply, add_zero] at he
  rw [he]
  exact (hb k).2

theorem UsedBeyond.start (hk : Keyed s) (h : s.subscriptions = s0.subscriptions) :
    UsedBeyond cal now s0 0 s :=
  ⟨usedAmount s, fun k => ⟨hk.usedAmount_nonneg k, .inl (usedAmount_same h k)⟩, fun k => by simp⟩

theorem activeSubscriptions_stored (h : sub ∈ activeSubscriptions s userId now) (hk : Keyed s) :
    s.subscriptions sub.id = some sub := by
  simp only [activeSubscriptions, List.mem_insertionSort, List.mem_filter, List.mem_filterMap] at h
  obtain ⟨⟨k, _, hs⟩, _⟩ := h
  rw [hk.key k sub hs]
  exact hs

theorem getPlan_ok (h : getSubscriptionPlanById s k = .ok plan) : s.plans k = some plan := by
  unfold getSubscriptionPlanById at h
  split at h
  · cases h
  split at h
  · rename_i hp
    cases h
    exact hp
  · cases h

/-- A candidate passed over may be reset, the one that is taken gets the amount on top. -/
theorem consumeCandidate_spec (hk : Keyed s) (hplans : s.plans = s0.plans)
    (hrows : ∀ k, (s.subscriptions k).isSome = (s0.subscriptions k).isSome)
    (hbase : ∀ k, Baseline cal now s0 k (usedAmount s k))
    (hsubs : ∀ sub ∈ subs, s0.subscriptions sub.id = some sub ∧ 0 ≤ sub.amountUsed)
    (hpos : 0 < amount)
    (h : consumeCandidate cal rid userId amount now subs s = .ok (res, s')) :
    res.preConsumed = amount ∧
    s'.records rid = some { userId := userId, userSubscriptionId := res.userSubscriptionId,
                            preConsumed := amount, status := .consumed } ∧
    Keyed s' ∧ (s'.subscriptions res.userSubscriptionId).isSome ∧
    UsedBeyond cal now s0 (point res.userSubscriptionId amount) s' := by
  induction subs generalizing s with
  | nil => cases h
  | cons candidate rest ih =>
    unfold consumeCandidate at h
    obtain ⟨hstored, hused⟩ := hsubs candidate (by simp)
    split at h
    · cases h
    rename_i plan hplan
    have hplan' : s0.plans candidate.planId = some plan := by
      rw [← hplans]
      exact getPlan_ok hplan
    set sub := maybeResetUserSubscriptionWithPlan cal candidate plan now with hsub
    obtain ⟨used, _, _, hu, heq⟩ := maybeReset_eq cal candidate plan now
    have hid : sub.id = candidate.id := by rw [hsub, heq]
    have hnn : 0 ≤ sub.amountUsed := by
      rw [hsub, heq]
      rcases hu with rfl | rfl
      · exact hused
      · exact le_refl 0
    have hreset : Baseline cal now s0 candidate.id sub.amountUsed :=
      .inr ⟨candidate, plan, hstored, hplan', rfl⟩
    have hnow : (s.subscriptions candidate.id).isSome := by
      rw [hrows, hstored]
      rfl
    obtain ⟨old, hold⟩ := Option.isSome_iff_exists.mp hnow
    simp only at h
    split at h
    · -- Not enough left: only the reset stays.
      refine ih (hk.save hnn) hplans (fun k => ?_) (fun k => ?_)
        (fun q hq => hsubs q (by simp [hq])) h
      · rw [← hrows]
        rw [← hid] at hold
        exact update_isSome hold _ k
      rw [usedAmount_save]
      split
      · rename_i hkk
        rw [hkk, hid]
        exact hreset
      · exact hbase k
    · cases h
      have hnn' : 0 ≤ sub.amountUsed + amount := by omega
      refine ⟨rfl, by simp [Store.setRecord], Keyed.of_same (hk.save hnn') rfl,
        by simp [Store.setRecord, Store.saveSubscription],
        Function.update (usedAmount s) candidate.id sub.amountUsed, fun k => ?_, fun k => ?_⟩
      · by_cases hkk : k = candidate.id
        · subst hkk
          simp only [Function.update_self]
          exact ⟨hnn, hreset⟩
        · rw [Function.update_of_ne hkk]
          exact ⟨hk.usedAmount_nonneg k, hbase k⟩
      · rw [usedAmount_setRecord, usedAmount_save]
        by_cases hkk : k = candidate.id
        · subst hkk
          simp [hid]
        · have hne : k ≠ sub.id := by rw [hid]; exact hkk
          simp [hkk, hne, point]

theorem consumeCandidate_amount
    (h : consumeCandidate cal rid userId amount now subs s = .ok (res, s')) :
    res.preConsumed = amount := by
  induction subs generalizing s with
  | nil => cases h
  | cons candidate rest ih =>
    unfold consumeCandidate at h
    split at h
    · cases h
    simp only at h
    split at h
    · exact ih h
    · cases h
      rfl

theorem consumeCandidate_taken (hused : ∀ sub ∈ subs, 0 ≤ sub.amountUsed)
    (h : consumeCandidate cal rid userId amount now subs s = .ok (res, s')) :
    (∃ sub ∈ subs, sub.id = res.userSubscriptionId) ∧
    s'.records rid = some { userId := userId, userSubscriptionId := res.userSubscriptionId,
                            preConsumed := amount, status := .consumed } ∧
    ∃ sub, s'.subscriptions res.userSubscriptionId = some sub ∧
      sub.id = res.userSubscriptionId ∧ amount ≤ sub.amountUsed ∧
      (0 < sub.amountTotal → sub.amountUsed ≤ sub.amountTotal) := by
  induction subs generalizing s with
  | nil => cases h
  | cons candidate rest ih =>
    unfold consumeCandidate at h
    split at h
    · cases h
    rename_i plan _
    obtain ⟨used, last, next, hu, heq⟩ := maybeReset_eq cal candidate plan now
    have hnn : 0 ≤ used := by
      have hc := hused candidate (by simp)
      rcases hu with rfl | rfl
      · exact hc
      · exact le_refl 0
    simp only [heq] at h
    split at h
    · obtain ⟨⟨sub, hm, hid⟩, hrec⟩ := ih (fun q hq => hused q (by simp [hq])) h
      exact ⟨⟨sub, by simp [hm], hid⟩, hrec⟩
    rename_i hfits
    cases h
    refine ⟨⟨candidate, by simp, rfl⟩, Function.update_self _ _ _, _,
      Function.update_self _ _ _, rfl, ?_, ?_⟩
    · show amount ≤ used + amount
      omega
    intro htotal
    show used + amount ≤ candidate.amountTotal
    simp only [not_and] at hfits
    have := hfits htotal
    omega

theorem preConsumeSubscription_first (hrec : s.records rid = none)
    (h : preConsumeUserSubscription cal rid userId amount now s = .ok (res, s')) :
    0 < amount ∧ consumeCandidate cal rid userId amount now (activeSubscriptions s userId now) s =
      .ok (res, s') := by
  unfold preConsumeUserSubscription at h
  split at h
  · cases h
  split at h
  · cases h
  refine ⟨by omega, ?_⟩
  simp only [hrec] at h
  split at h
  · cases h
  · exact h

theorem preConsumeSubscription_spec (hk : Keyed s) (hsubs : s.subscriptions = s0.subscriptions)
    (hplans : s.plans = s0.plans) (hrec : s.records rid = none)
    (h : preConsumeUserSubscription cal rid userId amount now s = .ok (res, s')) :
    0 < amount ∧ res.preConsumed = amount ∧
    s'.records rid = some { userId := userId, userSubscriptionId := res.userSubscriptionId,
                            preConsumed := amount, status := .consumed } ∧
    Keyed s' ∧ (s'.subscriptions res.userSubscriptionId).isSome ∧
    UsedBeyond cal now s0 (point res.userSubscriptionId amount) s' := by
  obtain ⟨hpos, h⟩ := preConsumeSubscription_first hrec h
  refine ⟨hpos, consumeCandidate_spec hk hplans (fun k => by rw [hsubs]) (fun k => ?_)
    (fun sub hm => ?_) hpos h⟩
  · exact .inl (usedAmount_same hsubs k)
  · have hs := activeSubscriptions_stored hm hk
    exact ⟨hsubs ▸ hs, hk.used _ sub hs⟩

theorem preConsumeSubscription_taken (hk : Keyed s) (hrec : s.records rid = none)
    (h : preConsumeUserSubscription cal rid userId amount now s = .ok (res, s')) :
    (s.subscriptions res.userSubscriptionId).isSome ∧
    s'.records rid = some { userId := userId, userSubscriptionId := res.userSubscriptionId,
                            preConsumed := amount, status := .consumed } ∧
    ∃ sub, s'.subscriptions res.userSubscriptionId = some sub ∧
      sub.id = res.userSubscriptionId ∧ amount ≤ sub.amountUsed ∧
      (0 < sub.amountTotal → sub.amountUsed ≤ sub.amountTotal) := by
  obtain ⟨_, h⟩ := preConsumeSubscription_first hrec h
  obtain ⟨⟨sub, hm, hid⟩, hrest⟩ := consumeCandidate_taken
    (fun sub hm => hk.used _ sub (activeSubscriptions_stored hm hk)) h
  refine ⟨?_, hrest⟩
  rw [← hid, activeSubscriptions_stored hm hk]
  rfl

end Ren2Hub.Proofs.SubscriptionSpec
