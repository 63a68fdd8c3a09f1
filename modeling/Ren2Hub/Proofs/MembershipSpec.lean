import Ren2Hub.Billing.Reset
import Ren2Hub.Lib.Inputs

namespace Ren2Hub.Proofs.MembershipSpec
open Lib Billing

theorem planById_ok :
    planById s planId = .ok plan ↔ getSubscriptionPlanById s planId = .ok plan := by
  unfold planById
  cases getSubscriptionPlanById s planId <;> simp [Except.mapError]

/-- The group a user has after buying a plan. -/
def groupsAfter (a : Accounts) (userId : Int) (sub : UserSubscription) : Int → Option String :=
  if sub.upgradeGroup ≠ "" ∧ getUserGroupById a userId ≠ sub.upgradeGroup then
    (a.setGroup userId sub.upgradeGroup).groups
  else a.groups

theorem create_ok
    (h : createUserSubscriptionFromPlan cal userId planId plan now a = .ok (sub, a')) :
    ∃ stop, calcPlanEndTime cal now plan = .ok stop ∧
      sub = newSubscription cal.toCalendar a.store.nextSubscriptionID userId planId plan
        (getUserGroupById a userId) now stop ∧
      a' = ⟨a.store.insertSubscription sub, groupsAfter a userId sub⟩ := by
  unfold createUserSubscriptionFromPlan at h
  split at h
  · cases h
  split at h
  · cases h
  split at h
  · cases h
  split at h
  · cases h
  rename_i stop hstop
  cases h
  refine ⟨stop, hstop, rfl, ?_⟩
  unfold groupsAfter
  split <;> rfl

theorem purchase_ok (h : purchaseSubscription cal userId planId now a = .ok (sub, a')) :
    ∃ plan stop, getSubscriptionPlanById a.store planId = .ok plan ∧
      calcPlanEndTime cal now plan = .ok stop ∧
      sub = newSubscription cal.toCalendar a.store.nextSubscriptionID userId planId plan
        (getUserGroupById a userId) now stop ∧
      a' = ⟨a.store.insertSubscription sub, groupsAfter a userId sub⟩ := by
  unfold purchaseSubscription at h
  split at h
  · cases h
  rename_i plan hplan
  obtain ⟨stop, hstop, hsub, ha'⟩ := create_ok h
  exact ⟨plan, stop, planById_ok.mp hplan, hstop, hsub, ha'⟩

theorem expireUserSubscriptions_store (userId now : Int) (a : Accounts) :
    (expireUserSubscriptions userId now a).2.store = a.store.expireUser userId now := by
  unfold expireUserSubscriptions
  dsimp only
  split
  · rfl
  split
  · rfl
  split <;> rfl

section Expiry
variable {a : Accounts} {userId now : Int}

/-- Whether the user keeps an active upgraded row beyond `now`. -/
def keepsUpgrade (s : Store) (userId now : Int) : Bool :=
  s.subscriptionRows.any fun sub => sub.userId = userId ∧ sub.status = .active ∧
    sub.endTime > now ∧ sub.upgradeGroup ≠ ""

/-- Where the last expired row sends the user. -/
def expiryGroup (s : Store) (userId : Int) (group : String) : Option String :=
  (lastExpired s userId).bind (expiryTarget · group)

theorem expire_kept (h : keepsUpgrade (a.store.expireUser userId now) userId now = true) :
    (expireUserSubscriptions userId now a).2 = ⟨a.store.expireUser userId now, a.groups⟩ := by
  unfold keepsUpgrade at h
  simp only [expireUserSubscriptions, if_pos h]

variable (h : keepsUpgrade (a.store.expireUser userId now) userId now = false)
include h

theorem expire_stays
    (hg : expiryGroup (a.store.expireUser userId now) userId (getUserGroupById a userId) = none) :
    (expireUserSubscriptions userId now a).2 = ⟨a.store.expireUser userId now, a.groups⟩ := by
  unfold keepsUpgrade at h
  change expiryGroup _ userId
    (getUserGroupById ⟨a.store.expireUser userId now, a.groups⟩ userId) = none at hg
  unfold expiryGroup at hg
  simp only [expireUserSubscriptions, h, hg, Bool.false_eq_true, if_false]

theorem expire_moves
    (hg : expiryGroup (a.store.expireUser userId now) userId (getUserGroupById a userId) =
      some target) (hne : target ≠ getUserGroupById a userId) :
    (expireUserSubscriptions userId now a).2 =
      ⟨a.store.expireUser userId now, (a.setGroup userId target).groups⟩ := by
  unfold keepsUpgrade at h
  change expiryGroup _ userId
    (getUserGroupById ⟨a.store.expireUser userId now, a.groups⟩ userId) = some target at hg
  change target ≠ getUserGroupById ⟨a.store.expireUser userId now, a.groups⟩ userId at hne
  unfold expiryGroup at hg
  simp only [expireUserSubscriptions, h, hg, hne, Bool.false_eq_true, if_false]
  rfl

end Expiry

theorem expireDue_keeps {J : Accounts → Prop} (limit now : Int) (order : List Int)
    (h : ∀ a userId, J a → J (expireUserSubscriptions userId now a).2) (ha : J a) :
    J (expireDueSubscriptions limit now order a).2 := by
  refine foldl_keeps (I := fun p : Nat × Accounts => J p.2) (x := (0, a)) ?_ ha _
  intro p userId hp
  exact h p.2 userId hp

theorem resetUserPlan_ok
    (h : adminResetUserSubscriptionsByPlan cal userId planId now advance s = .ok (res, s')) :
    ∃ plan, getSubscriptionPlanById s planId = .ok plan ∧
      s' = resetUserSubscriptions cal plan now advance
        (planSubscriptions s (some userId) planId now) s := by
  unfold adminResetUserSubscriptionsByPlan at h
  split at h
  · cases h
  split at h
  · cases h
  rename_i plan hplan
  dsimp only at h
  split at h
  · cases h
  · cases h
    exact ⟨plan, planById_ok.mp hplan, rfl⟩

theorem resetPlan_ok (h : adminResetPlanSubscriptions cal planId now advance s = .ok (res, s')) :
    ∃ plan, getSubscriptionPlanById s planId = .ok plan ∧
      s' = resetUserSubscriptions cal plan now advance (planSubscriptions s none planId now) s := by
  unfold adminResetPlanSubscriptions at h
  split at h
  · cases h
  split at h
  · cases h
  rename_i plan hplan
  cases h
  exact ⟨plan, planById_ok.mp hplan, rfl⟩

theorem planSubscriptions_spec (h : sub ∈ planSubscriptions s userId planId now) :
    (∃ k, s.subscriptions k = some sub) ∧ sub.planId = planId := by
  simp only [planSubscriptions, List.mem_insertionSort, List.mem_filter, decide_eq_true_eq] at h
  obtain ⟨k, _, hk⟩ := List.mem_filterMap.mp h.1
  exact ⟨⟨k, hk⟩, h.2.1⟩

theorem save_self (s : Store) (h : sub.id = k) :
    (s.saveSubscription sub).subscriptions k = some sub := by
  subst h
  exact Function.update_self ..

theorem save_of_ne (s : Store) (h : k ≠ sub.id) :
    (s.saveSubscription sub).subscriptions k = s.subscriptions k :=
  Function.update_of_ne h ..

theorem resetUserSubscription_id (cal : Calendar) (plan : SubscriptionPlan) (now : Int)
    (advance : Bool) (sub : UserSubscription) :
    (resetUserSubscription cal plan now advance sub).id = sub.id := by
  unfold resetUserSubscription
  split <;> rfl

theorem resetAll_rows (cal : Calendar) (plan : SubscriptionPlan) (now : Int) (advance : Bool)
    (subs : List UserSubscription) (s : Store) (k : Int) :
    (k ∉ subs.map (·.id) →
      (resetUserSubscriptions cal plan now advance subs s).subscriptions k = s.subscriptions k) ∧
    (k ∈ subs.map (·.id) → ∃ sub ∈ subs, sub.id = k ∧
      (resetUserSubscriptions cal plan now advance subs s).subscriptions k =
        some (resetUserSubscription cal plan now advance sub)) := by
  induction subs generalizing s with
  | nil => exact ⟨fun _ => rfl, nofun⟩
  | cons sub rest ih =>
    have hid := resetUserSubscription_id cal plan now advance sub
    obtain ⟨hout, hin⟩ := ih (s.saveSubscription (resetUserSubscription cal plan now advance sub))
    simp only [resetUserSubscriptions, List.foldl_cons, List.map_cons, List.mem_cons, not_or] at *
    constructor
    · rintro ⟨hne, hk⟩
      rw [hout hk]
      exact save_of_ne s (by rw [hid]; exact hne)
    intro hk
    by_cases hrest : k ∈ rest.map (·.id)
    · obtain ⟨q, hq, hqk, hrow⟩ := hin hrest
      exact ⟨q, .inr hq, hqk, hrow⟩
    obtain rfl : k = sub.id := hk.resolve_right hrest
    refine ⟨sub, .inl rfl, rfl, ?_⟩
    rw [hout hrest]
    exact save_self s hid

theorem resetAll_plans (cal : Calendar) (plan : SubscriptionPlan) (now : Int) (advance : Bool)
    (subs : List UserSubscription) (s : Store) :
    (resetUserSubscriptions cal plan now advance subs s).plans = s.plans := by
  induction subs generalizing s with
  | nil => rfl
  | cons sub rest ih => exact ih _

end Ren2Hub.Proofs.MembershipSpec
