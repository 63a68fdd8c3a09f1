import Ren2Hub.Lib.Checks
import Ren2Hub.Lib.Inputs
import Ren2Hub.Payment.TopUp

namespace Ren2Hub.Proofs.TopUpRuns
open Lib Lib.Transaction Payment

variable {s s' : Store} {t u : String} {o : TopUp} {w : World}

/-- The orders and every wallet are as before. -/
def Untouched (s s' : Store) : Prop := s'.topUps = s.topUps ∧ ∀ u, s'.wallet u = s.wallet u

theorem Untouched.refl (s : Store) : Untouched s s := ⟨rfl, fun _ => rfl⟩

theorem wallet_saveUser (s : Store) (userId : Int) (user : User) (u : Int) :
    (s.saveUser userId user).wallet u = if u = userId then user.quota else s.wallet u := by
  unfold Store.wallet Store.saveUser
  by_cases hu : u = userId
  · simp [hu]
  · simp [hu]

theorem wallet_of_user (h : s.users userId = some user) : s.wallet userId = user.quota := by
  simp [Store.wallet, h]

theorem creditTopUpQuota_leaves (userId quota : Int) (updates : UserUpdates) (s : Store) :
    (creditTopUpQuota userId quota updates).Leaves s fun _ s' => 0 < quota ∧
      s'.topUps = s.topUps ∧
      ∀ u, s'.wallet u = if u = userId then s.wallet u + quota else s.wallet u := by
  unfold creditTopUpQuota
  simp only [leaves_bind, leaves_get, leaves_lift]
  intro maxCurrent hmax
  have hpos : 0 < quota := by
    unfold topUpQuotaMaxCurrent at hmax
    split at hmax
    · cases hmax
    · omega
  cases huser : s.users userId with
  | none => simp
  | some user =>
    simp only [leaves_ite, leaves_modify, leaves_throw, implies_true, and_true]
    intro _
    refine ⟨hpos, rfl, fun u => ?_⟩
    rw [wallet_saveUser]
    split
    · rename_i hu
      rw [hu, wallet_of_user huser]
    · rfl

theorem createAffiliateLedger_leaves (row : AffiliateLedger) (s : Store) :
    (createAffiliateLedger row).Leaves s fun _ s' => Untouched s s' := by
  simp only [createAffiliateLedger, leaves_bind, leaves_get, leaves_require, leaves_modify]
  intro _
  exact ⟨rfl, fun _ => rfl⟩

theorem reward_quota (cfg : Settings) (reward : Int) (user : User) :
    (user.reward cfg reward).quota = user.quota := by
  unfold User.reward
  split <;> rfl

theorem accrueAffiliateReward_leaves (h : s.users inviterId = some inviter) :
    (accrueAffiliateReward cfg now source inviterId inviter rateBps reward).Leaves s
      fun _ s' => Untouched s s' := by
  simp only [accrueAffiliateReward, leaves_bind, leaves_lift, leaves_modify]
  intro _ _
  refine (createAffiliateLedger_leaves _ _).mono fun _ s' hs => ?_
  refine ⟨hs.1, fun u => ?_⟩
  rw [hs.2 u, wallet_saveUser, reward_quota]
  split
  · rename_i hu
    rw [hu, wallet_of_user h]
  · rfl

theorem affiliateRewardWithin_accrue
    (h : affiliateRewardWithin i user bps full accrued cap =
      .accrue inviterId inviter rateBps reward)
    (hfull : 0 < full) :
    inviterId = i ∧ inviter = user ∧ 0 < reward ∧ ∀ k, cap = some k → accrued + reward ≤ k := by
  unfold affiliateRewardWithin at h
  split at h
  · cases h
  rename_i hroom
  dsimp only at h
  split at h
  · cases h
  cases h
  cases cap with
  | none => exact ⟨rfl, rfl, hfull, nofun⟩
  | some k =>
    simp only [Option.any_some, decide_eq_true_eq, ge_iff_le, Int.not_le] at hroom
    refine ⟨rfl, rfl, ?_, ?_⟩
    · simp only [Option.elim_some]
      omega
    rintro k' ⟨⟩
    simp only [Option.elim_some]
    omega

theorem affiliateOutcome_accrue
    (h : affiliateOutcome cfg source invitee s = .ok (.accrue inviterId inviter rateBps reward)) :
    s.users inviterId = some inviter ∧ 0 < reward ∧
      ∀ k, affiliateCap cfg = .ok (some k) →
        accruedReward s.ledger inviterId source.inviteeId + reward ≤ k := by
  unfold affiliateOutcome at h
  split at h
  · cases h
  split at h
  · cases h
  split at h
  · cases h
  cases huser : s.users invitee.inviterId with
  | none =>
    rw [huser] at h
    cases h
  | some user =>
    simp only [huser] at h
    split at h
    · cases h
    obtain ⟨expired, _, h⟩ := bind_ok.mp h
    split at h
    · cases h
    split at h
    · cases h
    rename_i hfull
    obtain ⟨cap, hc, h⟩ := bind_ok.mp h
    obtain ⟨rfl, rfl, hpos, hcap⟩ :=
      affiliateRewardWithin_accrue (Except.ok.inj h) (Int.not_le.mp hfull)
    exact ⟨huser, hpos, fun k hk => hcap k (Except.ok.inj (hc.symm.trans hk))⟩

theorem applyAffiliateReward_leaves (cfg : Settings) (now : Int) (source : AffiliateRewardSource)
    (s : Store) : (applyAffiliateReward cfg now source).Leaves s fun _ s' => Untouched s s' := by
  simp only [applyAffiliateReward, leaves_bind, leaves_get, leaves_ite, leaves_pure]
  refine ⟨fun _ => .refl s, fun _ => ⟨fun _ => .refl s, fun _ => ?_⟩⟩
  cases s.users source.inviteeId with
  | none => simp
  | some invitee =>
    simp only [leaves_bind, leaves_lift]
    intro outcome ho
    cases outcome with
    | skip => exact createAffiliateLedger_leaves _ s
    | accrue =>
      exact accrueAffiliateReward_leaves (affiliateOutcome_accrue ho).1

theorem applyTopUpAffiliateReward_leaves (cfg : Settings) (now : Int) (t : String) (o : TopUp)
    (s : Store) : (applyTopUpAffiliateReward cfg now t o).Leaves s fun _ s' => Untouched s s' := by
  simp only [applyTopUpAffiliateReward, leaves_ite, leaves_pure]
  exact ⟨fun _ => .refl s, fun _ => applyAffiliateReward_leaves cfg now _ s⟩

/-- The order is complete, with a positive amount on the wallet of its buyer. -/
def Paid (t : String) (o : TopUp) (s s' : Store) : Prop :=
  ∃ o' quota, s'.topUps = Function.update s.topUps t (some o') ∧ o'.status = .success ∧
    o'.paymentProvider = o.paymentProvider ∧ 0 < quota ∧
    ∀ u, s'.wallet u = if u = o.userId then s.wallet u + quota else s.wallet u

theorem paid_of_saved (o' : TopUp) (quota : Int) (updates : UserUpdates)
    (hs : o'.status = .success) (hp : o'.paymentProvider = o.paymentProvider) :
    Leaves (do creditTopUpQuota o.userId quota updates
               applyTopUpAffiliateReward cfg now t o') (s.saveTopUp t o')
      fun _ s' => Paid t o s s' := by
  simp only [leaves_bind]
  refine (creditTopUpQuota_leaves _ _ _ _).mono fun _ s1 hcredit => ?_
  obtain ⟨hpos, htop, hwallet⟩ := hcredit
  refine (applyTopUpAffiliateReward_leaves _ _ _ _ _).mono fun _ s2 hreward => ?_
  obtain ⟨htop', hwallet'⟩ := hreward
  refine ⟨o', quota, htop'.trans htop, hs, hp, hpos, fun u => ?_⟩
  rw [hwallet' u, hwallet u]
  rfl

theorem lockTopUp_leaves : (lockTopUp t e).Leaves s Q ↔ ∀ o, s.topUps t = some o → Q o s := by
  simp only [lockTopUp, leaves_bind, leaves_get]
  cases s.topUps t with
  | none | some => simp

theorem requireQuota_leaves :
    (requireQuota quota).Leaves s Q ↔ ∀ q, quota = some q → 0 < q → Q q s := by
  cases quota with
  | none => simp [requireQuota]
  | some q => simp only [requireQuota, leaves_bind, leaves_require, leaves_pure,
      Option.some.injEq, forall_eq']

theorem saveTopUp_leaves :
    (saveTopUp t o).Leaves s Q ↔ Q () (s.saveTopUp t o) := leaves_modify

/-- The status a caller wants to see on the order. -/
def asked : Call → Option TopUpStatus
  | .updatePendingTopUpStatus _ _ target => some target
  | _ => none

/-- All a call can do: nothing, or something to a pending order of its provider. -/
def Step (c : Call) (s s' : Store) : Prop :=
  s' = s ∨ ∃ o, s.topUps c.tradeNo = some o ∧ o.status = .pending ∧
    (∀ p, c.provider = some p → o.paymentProvider = some p) ∧
    (Paid c.tradeNo o s s' ∨
      ∃ target, asked c = some target ∧ s' = s.saveTopUp c.tradeNo { o with status := target })

section Calls
variable {c : Call} {cfg : Settings} {now : Int}

theorem Step.of_paid (ho : s.topUps c.tradeNo = some o) (hs : o.status = .pending)
    (hp : ∀ p, c.provider = some p → o.paymentProvider = some p)
    (h : Paid c.tradeNo o s s') : Step c s s' :=
  .inr ⟨o, ho, hs, hp, .inl h⟩

theorem completeOrder_leaves (quota : Int) (s : Store) :
    (completeOrder cfg now t o quota).Leaves s fun _ s' => Paid t o s s' := by
  exact paid_of_saved _ _ _ rfl rfl

theorem Paid.of_method (h : Paid t { o with paymentMethod := method } s s') : Paid t o s s' := h

theorem updatePendingTopUpStatus_step (p : Option PaymentProvider) (target : TopUpStatus) :
    (updatePendingTopUpStatus t p target).Leaves s
      fun _ s' => Step (.updatePendingTopUpStatus t p target) s s' := by
  simp only [updatePendingTopUpStatus, leaves_bind, leaves_require, lockTopUp_leaves,
    saveTopUp_leaves]
  intro _ o ho hp hs
  refine .inr ⟨o, ho, hs, fun q hq => ?_, .inr ⟨target, rfl, rfl⟩⟩
  cases (hq : p = some q)
  exact hp.resolve_left (by simp)

theorem rechargeEpay_step (method : String) :
    (rechargeEpay cfg now t method).Leaves s fun _ s' => Step (.rechargeEpay t method) s s' := by
  simp only [rechargeEpay, leaves_bind, leaves_require, lockTopUp_leaves, leaves_ite, leaves_pure,
    requireQuota_leaves]
  intro _ o ho hp
  refine ⟨fun _ => .inl rfl, fun _ hs q _ _ => ?_⟩
  refine (completeOrder_leaves q s).mono fun _ s' h => ?_
  refine .of_paid ho hs (fun p hq => by cases hq; exact hp) ?_
  split at h
  · exact h.of_method
  · exact h

theorem recharge_step (customer : String) :
    (recharge cfg now t customer).Leaves s fun _ s' => Step (.recharge t customer) s s' := by
  unfold recharge
  simp only [leaves_bind (t := require _ _), leaves_bind (t := lockTopUp _ _),
    leaves_bind (t := saveTopUp _ _), leaves_bind (t := requireQuota _), leaves_require,
    lockTopUp_leaves, saveTopUp_leaves, requireQuota_leaves]
  intro _ o ho hp hs q _ _
  refine Leaves.mono (paid_of_saved _ _ _ rfl rfl) fun _ s' h => ?_
  exact .of_paid ho hs (fun p hq => by cases hq; exact hp) h

theorem manualCompleteTopUp_step :
    (manualCompleteTopUp cfg now t).Leaves s fun _ s' => Step (.manualCompleteTopUp t) s s' := by
  simp only [manualCompleteTopUp, leaves_bind, leaves_require, lockTopUp_leaves, leaves_ite,
    leaves_pure, requireQuota_leaves]
  intro _ o ho
  refine ⟨fun _ => .inl rfl, fun _ hs q _ _ => ?_⟩
  refine (completeOrder_leaves q s).mono fun _ s' h => .of_paid ho hs (fun p hq => ?_) h
  cases hq

theorem creemUpdates_leaves (userId : Int) (email : String) (s : Store) :
    (creemUpdates userId email).Leaves s fun _ s' => s' = s := by
  simp only [creemUpdates, leaves_ite, leaves_pure, leaves_bind, leaves_get, implies_true, true_and]
  intro _
  cases s.users userId with
  | none | some => simp

theorem rechargeCreem_step (email : String) :
    (rechargeCreem cfg now t email).Leaves s fun _ s' => Step (.rechargeCreem t email) s s' := by
  unfold rechargeCreem
  simp only [leaves_bind (t := require _ _), leaves_bind (t := lockTopUp _ _),
    leaves_bind (t := saveTopUp _ _), leaves_bind (t := requireQuota _),
    leaves_bind (t := creemUpdates _ _), leaves_require, lockTopUp_leaves, saveTopUp_leaves,
    requireQuota_leaves]
  intro _ o ho hp hs q _ _
  refine (creemUpdates_leaves _ _ _).mono fun updates s1 hs1 => ?_
  subst hs1
  refine Leaves.mono (paid_of_saved _ _ _ rfl rfl) fun _ s' h => ?_
  exact .of_paid ho hs (fun p hq => by cases hq; exact hp) h

theorem rechargeIdempotent_step (ht : c.tradeNo = t) (hc : c.provider = some provider) :
    (rechargeIdempotent provider cfg now t).Leaves s fun _ s' => Step c s s' := by
  simp only [rechargeIdempotent, leaves_bind, leaves_require, lockTopUp_leaves, leaves_ite,
    leaves_pure, requireQuota_leaves]
  intro _ o ho hp
  refine ⟨fun _ => .inl rfl, fun _ hs q _ _ => ?_⟩
  refine (completeOrder_leaves q s).mono fun _ s' h => ?_
  subst ht
  refine .of_paid ho hs (fun p hq => ?_) h
  rw [hc] at hq
  cases hq
  exact hp

theorem transactionOf_step (cfg : Settings) (now : Int) (c : Call) (s : Store) :
    (transactionOf cfg now c).Leaves s fun _ s' => Step c s s' := by
  cases c with
  | rechargeEpay t method => exact rechargeEpay_step method
  | updatePendingTopUpStatus t p target =>
    simpa only [transactionOf, leaves_bind, leaves_pure] using
      updatePendingTopUpStatus_step p target
  | recharge t customer =>
    simpa only [transactionOf, leaves_bind, leaves_pure] using recharge_step customer
  | manualCompleteTopUp =>
    simpa only [transactionOf, leaves_bind, leaves_pure] using manualCompleteTopUp_step
  | rechargeCreem t email =>
    simpa only [transactionOf, leaves_bind, leaves_pure] using rechargeCreem_step email
  | rechargeWaffo t =>
    simp only [transactionOf, leaves_bind, leaves_pure]
    exact rechargeIdempotent_step (c := .rechargeWaffo t) rfl rfl
  | rechargeWaffoPancake t =>
    simp only [transactionOf, leaves_bind, leaves_pure]
    exact rechargeIdempotent_step (c := .rechargeWaffoPancake t) rfl rfl

theorem exec_step (cfg : Settings) (now : Int) (c : Call) (s : Store) :
    Step c s (c.exec cfg now s).2 := by
  rcases commit_cases (transactionOf_step cfg now c s) with ⟨e, h⟩ | ⟨a, s', h, hs⟩
  · simp only [Call.exec, h]
    exact .inl rfl
  · simp only [Call.exec, h]
    exact hs

end Calls

theorem moved_eq_nil_iff : moved t a b = [] ↔ b = a := by
  unfold moved
  split <;> simp [*]

theorem moved_length_le (t : String) (a b : Int) : (moved t a b).length ≤ 1 := by
  unfold moved
  split <;> simp

theorem filter_moved_self (t : String) (a b : Int) :
    (moved t a b).filter (fun c => c.1 = t) = moved t a b := by
  unfold moved
  split <;> simp

theorem filter_moved_of_ne (h : u ≠ t) : (moved u a b).filter (fun c => c.1 = t) = [] := by
  unfold moved
  split <;> simp [h]

/-- What the journals hold of an order, and its row. -/
structure View where
  row : Option TopUp
  credits : List (String × Int)
  rewards : List (String × Int)

def view (w : World) (t : String) : View := ⟨w.store.topUps t, w.creditsOf t, w.rewardsOf t⟩

theorem Step.other (h : Step c s s') (ht : t ≠ c.tradeNo) : s'.topUps t = s.topUps t := by
  rcases h with rfl | ⟨o, _, _, _, ⟨_, _, htop, _⟩ | ⟨target, _, rfl⟩⟩
  · rfl
  · rw [htop, Function.update_of_ne ht]
  · simp [Store.saveTopUp, ht]

theorem view_called_of_ne (w : World) (ht : t ≠ c.tradeNo) : view (w.called c) t = view w t := by
  have hrow := (exec_step w.settings w.now c w.store).other ht
  unfold World.called
  cases w.store.topUps c.tradeNo with
  | none => simp [view, hrow, World.creditsOf, World.rewardsOf]
  | some o =>
    simp [view, hrow, World.creditsOf, World.rewardsOf, filter_moved_of_ne (Ne.symm ht)]

theorem called_of_eq (h : (c.exec w.settings w.now w.store).2 = w.store) : w.called c = w := by
  unfold World.called
  rw [h]
  cases w.store.topUps c.tradeNo with
  | none => rfl
  | some o => simp [moved_eq_nil_iff.mpr]

theorem view_called_self (ho : w.store.topUps c.tradeNo = some o) :
    view (w.called c) c.tradeNo =
      { row := (c.exec w.settings w.now w.store).2.topUps c.tradeNo
        credits := w.creditsOf c.tradeNo ++ moved c.tradeNo (w.store.wallet o.userId)
          ((c.exec w.settings w.now w.store).2.wallet o.userId)
        rewards := w.rewardsOf c.tradeNo ++ moved c.tradeNo (w.store.earned o.userId)
          ((c.exec w.settings w.now w.store).2.earned o.userId) } := by
  simp [view, World.called, ho, World.creditsOf, World.rewardsOf, filter_moved_self]

/-- All an event can do to what is known of an order. -/
inductive Moves (t : String) : Event → View → View → Prop
  | still : Moves t e v v
  | paid {o o' : TopUp} : o.status = .pending → o'.status = .success →
      o'.paymentProvider = o.paymentProvider → credit.length = 1 → reward.length ≤ 1 →
      Moves t e ⟨some o, cs, rs⟩ ⟨some o', cs ++ credit, rs ++ reward⟩
  | marked {o : TopUp} : o.status = .pending → asked c = some target → c.tradeNo = t →
      Moves t (.call c) ⟨some o, cs, rs⟩ ⟨some { o with status := target }, cs, rs⟩

theorem moves_called (w : World) (c : Call) (t : String) :
    Moves t (.call c) (view w t) (view (w.called c) t) := by
  by_cases ht : t = c.tradeNo
  · subst ht
    rcases exec_step w.settings w.now c w.store with h | ⟨o, ho, hs, _, h⟩
    · rw [called_of_eq h]
      exact .still
    rw [view_called_self ho]
    have hv : view w c.tradeNo = ⟨some o, w.creditsOf c.tradeNo, w.rewardsOf c.tradeNo⟩ := by
      simp [view, ho]
    rw [hv]
    rcases h with ⟨o', quota, htop, hs', hp, hpos, hwallet⟩ | ⟨target, ha, h⟩
    · rw [htop, Function.update_self]
      refine .paid hs hs' hp ?_ (moved_length_le _ _ _)
      have hne : ¬ w.store.wallet o.userId + quota = w.store.wallet o.userId := by omega
      simp [hwallet, moved, hne]
    · rw [h]
      have hc : moved c.tradeNo (w.store.wallet o.userId)
          ((w.store.saveTopUp c.tradeNo { o with status := target }).wallet o.userId) = [] :=
        moved_eq_nil_iff.mpr rfl
      have hr : moved c.tradeNo (w.store.earned o.userId)
          ((w.store.saveTopUp c.tradeNo { o with status := target }).earned o.userId) = [] :=
        moved_eq_nil_iff.mpr rfl
      rw [hc, hr, List.append_nil, List.append_nil]
      simp only [Store.saveTopUp, Function.update_self]
      exact .marked hs ha rfl
  · rw [view_called_of_ne w ht]
    exact .still

theorem moves_on (w : World) (e : Event) (t : String) : Moves t e (view w t) (view (w.on e) t) := by
  cases e with
  | call c => exact moves_called w c t
  | lost | outside => exact .still

/-- Nothing is booked on a pending order, one credit at most on any other, and only if it succeeded.
-/
structure Booked (p : Option PaymentProvider) (v : View) : Prop where
  row : ∃ o, v.row = some o ∧ o.paymentProvider = p ∧
    (o.status = .pending → v.credits = [] ∧ v.rewards = []) ∧
    (v.credits ≠ [] → o.status = .success)
  credits : v.credits.length ≤ 1
  rewards : v.rewards.length ≤ 1

theorem Booked.moves (h : Booked p v) (hm : Moves t e v v') : Booked p v' := by
  cases hm with
  | still => exact h
  | paid hs hs' hp hc hr =>
    obtain ⟨⟨o, ho, hprov, hpend, _⟩, _, _⟩ := h
    cases ho
    obtain ⟨rfl, rfl⟩ := hpend hs
    exact ⟨⟨_, rfl, hp.trans hprov, fun hpending => by simp [hs'] at hpending, fun _ => hs'⟩,
      by simp [hc], by simpa using hr⟩
  | marked hs =>
    obtain ⟨⟨o, ho, hprov, hpend, _⟩, _, _⟩ := h
    cases ho
    obtain ⟨rfl, rfl⟩ := hpend hs
    exact ⟨⟨_, rfl, hprov, fun _ => ⟨rfl, rfl⟩, fun hne => absurd rfl hne⟩, Nat.zero_le _,
      Nat.zero_le _⟩

theorem booked_run (h : Booked p (view w t)) (events : List Event) :
    Booked p (view (w.run events) t) :=
  foldl_keeps (I := fun w => Booked p (view w t)) (fun w e h => h.moves (moves_on w e t)) h events

/-- An order that is not pending any more keeps its status. -/
def Closed (status : TopUpStatus) (v : View) : Prop :=
  status ≠ .pending ∧ v.row.map (·.status) = some status

theorem Closed.moves (h : Closed status v) (hm : Moves t e v v') : Closed status v' := by
  obtain ⟨hne, hrow⟩ := h
  cases hm with
  | still => exact ⟨hne, hrow⟩
  | paid hs _ _ _ _ | marked hs _ _ =>
    simp only [Option.map_some, Option.some.injEq] at hrow
    exact absurd (hrow.symm.trans hs) hne

/-- Success means a credit. -/
def Earned (v : View) : Prop := ∀ o, v.row = some o → o.status = .success → v.credits ≠ []

/-- The event asks to mark the order as paid. -/
def MarksPaid (t : String) : Event → Prop
  | .call c => asked c = some .success ∧ c.tradeNo = t
  | _ => False

instance (t : String) : DecidablePred (MarksPaid t)
  | .call _ => inferInstanceAs (Decidable (_ ∧ _))
  | .lost _ => inferInstanceAs (Decidable False)
  | .outside .. => inferInstanceAs (Decidable False)

theorem Earned.moves (h : Earned v) (he : ¬ MarksPaid t e) (hm : Moves t e v v') : Earned v' := by
  cases hm with
  | still => exact h
  | paid _ _ _ hc =>
    intro _ _ _ hnil
    rw [List.append_eq_nil_iff] at hnil
    simp [hnil.2] at hc
  | marked hs ha ht =>
    intro o' ho' hs'
    cases ho'
    subst hs'
    exact absurd ⟨ha, ht⟩ he

theorem earned_run (h : Earned (view w t)) (hes : ∀ e ∈ events, ¬ MarksPaid t e) :
    Earned (view (w.run events) t) :=
  Along.keeps (I := fun w => Earned (view w t)) (fun w e h he => h.moves he (moves_on w e t)) h
    (along_of_forall w hes)

theorem closed_run (h : Closed status (view w t)) (events : List Event) :
    Closed status (view (w.run events) t) :=
  foldl_keeps (I := fun w => Closed status (view w t))
    (fun w e h => h.moves (moves_on w e t)) h events

theorem foreign_callback (ho : w.store.topUps c.tradeNo = some o) (hp : c.provider = some p)
    (hne : o.paymentProvider ≠ some p) : w.called c = w := by
  apply called_of_eq
  rcases exec_step w.settings w.now c w.store with h | ⟨o', ho', _, hprov, _⟩
  · exact h
  · cases ho.symm.trans ho'
    exact absurd (hprov p hp) hne

/-- For a new order: one credit and one reward at most, none after it failed or expired, nothing for
the callback of another provider, and success exactly with a credit unless a caller asks
`UpdatePendingTopUpStatus` for success. -/
theorem topUp_credited_at_most_once (ho : w.store.topUps t = some o) (hs : o.status = .pending)
    (hc : w.creditsOf t = []) (hr : w.rewardsOf t = []) (events : List Event) :
    ((w.run events).creditsOf t).length ≤ 1 ∧ ((w.run events).rewardsOf t).length ≤ 1 ∧
    ((∀ e ∈ events, ¬ MarksPaid t e) →
      ((w.run events).status? t = some .success ↔ (w.run events).creditsOf t ≠ [])) ∧
    (∀ status, status = .failed ∨ status = .expired → (w.run events).status? t = some status →
      ∀ later, ((w.run events).run later).creditsOf t = []) ∧
    (∀ c p, c.tradeNo = t → c.provider = some p → o.paymentProvider ≠ some p →
      (w.run events).on (.call c) = w.run events) := by
  have hnew : Booked o.paymentProvider (view w t) := by
    refine ⟨⟨o, ho, rfl, fun _ => ⟨hc, hr⟩, fun hne => absurd hc hne⟩, ?_, ?_⟩
    · simp [view, hc]
    · simp [view, hr]
  have hend := booked_run hnew events
  obtain ⟨o', ho', hprov, hpend, hcredit⟩ := hend.row
  refine ⟨hend.credits, hend.rewards, fun hes => ?_, fun status hst hstat later => ?_,
    fun c p ht hp hne => ?_⟩
  · have hearned := earned_run (w := w) (t := t)
      (fun o₁ ho₁ hs₁ => by cases ho.symm.trans ho₁; simp [hs] at hs₁) hes
    constructor
    · intro hsuccess
      obtain ⟨o₁, ho₁, hs₁⟩ := Option.map_eq_some_iff.mp hsuccess
      exact hearned o₁ ho₁ hs₁
    · intro hne
      exact Option.map_eq_some_iff.mpr ⟨o', ho', hcredit hne⟩
  · have hclosed : Closed status (view (w.run events) t) :=
      ⟨by rcases hst with rfl | rfl <;> simp, hstat⟩
    obtain ⟨_, hlater⟩ := closed_run hclosed later
    obtain ⟨o₁, ho₁, _, _, hcredit₁⟩ := (booked_run hend later).row
    by_contra hne
    have hsuccess := hcredit₁ hne
    rw [ho₁] at hlater
    cases hlater
    rcases hst with h | h <;> simp [h] at hsuccess
  · subst ht
    exact foreign_callback ho' hp (by rw [hprov]; exact hne)

def shop : World where
  store :=
    { topUps := Function.update (fun _ => none) "T1" (some
        { id := 1, userId := 7, amount := 2, money := ⟨20, 1⟩, paymentMethod := "waffo"
          paymentProvider := some .waffo, createTime := 50, affiliateBaseQuota := 1000000 })
      users := Function.update (Function.update (fun _ => none)
        7 (some { quota := 100, inviterId := 3 })) 3 (some { quota := 5 }) }
  settings :=
    { affiliateEnabled := true, affiliateActivatedAt := 10, paymentComplianceConfirmed := true
      affiliateRebateRateBps := 1000 }
  now := 60

theorem shop_credited_at_most_once :
    ((shop.run [.call (.rechargeWaffo "T1"), .call (.manualCompleteTopUp "T1")]).status? "T1" =
      some .success ↔
    (shop.run [.call (.rechargeWaffo "T1"), .call (.manualCompleteTopUp "T1")]).creditsOf "T1" ≠
      []) :=
  (topUp_credited_at_most_once rfl rfl rfl rfl _).2.2.1 (by decide)

/-- The caller of `UpdatePendingTopUpStatus` chooses the status, success included. -/
theorem marked_success_without_credit :
    (shop.run [.call (.updatePendingTopUpStatus "T1" (some .waffo) .success)]).status? "T1" =
      some .success ∧
    (shop.run [.call (.updatePendingTopUpStatus "T1" (some .waffo) .success)]).creditsOf "T1" =
      [] := by
  decide +kernel

example : (shop.run [.call (.rechargeWaffo "T1"), .call (.rechargeWaffo "T1")]).rewards =
    [("T1", 100000)] := by decide +kernel

end Ren2Hub.Proofs.TopUpRuns
