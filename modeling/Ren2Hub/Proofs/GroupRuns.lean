import Ren2Hub.Proofs.MembershipSpec
import Ren2Hub.Proofs.RequestBook

namespace Ren2Hub.Proofs.GroupRuns
open Lib Billing MembershipSpec List

theorem insert_rows {s : Store} (h : sub.id ∉ s.subscriptionIDs) :
    (s.insertSubscription sub).subscriptionRows = sub :: s.subscriptionRows := by
  have hold : s.subscriptionIDs.filterMap (Function.update s.subscriptions sub.id (some sub)) =
      s.subscriptionIDs.filterMap s.subscriptions := by
    apply filterMap_congr
    intro k hk
    have hne : k ≠ sub.id := fun he => h (he ▸ hk)
    exact Function.update_of_ne hne ..
  simp only [Store.insertSubscription, Store.subscriptionRows, filterMap_cons,
    Function.update_self, hold]

theorem expireUser_rows (s : Store) (userId now : Int) :
    (s.expireUser userId now).subscriptionRows = s.subscriptionRows.map fun sub =>
      if sub.userId = userId ∧ sub.expires now then { sub with status := .expired } else sub := by
  simp only [Store.expireUser, Store.subscriptionRows, map_filterMap]

theorem foldl_max_ge (l : List Int) (m : Int) : m ≤ l.foldl max m ∧ ∀ k ∈ l, k ≤ l.foldl max m := by
  induction l generalizing m with
  | nil => exact ⟨le_refl m, nofun⟩
  | cons x l ih =>
    obtain ⟨hm, hl⟩ := ih (max m x)
    simp only [foldl_cons, mem_cons, forall_eq_or_imp]
    exact ⟨by omega, by omega, hl⟩

theorem nextSubscriptionID_gt (s : Store) (h : k ∈ s.subscriptionIDs) :
    k < s.nextSubscriptionID := by
  have := (foldl_max_ge s.subscriptionIDs 0).2 k h
  unfold Store.nextSubscriptionID
  omega

instance : IsTrans UserSubscription latestFirst where
  trans a b c hab hbc := by
    unfold latestFirst at *
    omega

instance : Std.Total latestFirst where
  total a b := by
    unfold latestFirst
    omega

theorem lastExpired_spec (h : lastExpired s userId = some sub) :
    sub ∈ s.subscriptionRows ∧ sub.userId = userId ∧ sub.status = .expired ∧
      ∀ q ∈ s.subscriptionRows, q.userId = userId → q.status = .expired → q.upgradeGroup ≠ "" →
        latestFirst sub q := by
  set rows := s.subscriptionRows.filter (fun sub => sub.userId = userId ∧ sub.status = .expired ∧
    (sub.downgradeGroup ≠ "" ∨ sub.upgradeGroup ≠ "")) with hrows
  obtain ⟨rest, hsort⟩ := head?_eq_some_iff.mp h
  have hpair := pairwise_insertionSort latestFirst rows
  rw [hsort] at hpair
  have hmem : ∀ q, q ∈ rows ↔ q = sub ∨ q ∈ rest := by
    intro q
    rw [← mem_insertionSort latestFirst, hsort, mem_cons]
  have hsub := (hmem sub).mpr (.inl rfl)
  simp only [hrows, mem_filter, decide_eq_true_eq] at hsub
  refine ⟨hsub.1, hsub.2.1, hsub.2.2.1, fun q hq hu hst hup => ?_⟩
  have hin : q ∈ rows := by
    simp only [hrows, mem_filter, decide_eq_true_eq]
    exact ⟨hq, hu, hst, .inr hup⟩
  rcases (hmem q).mp hin with rfl | hrest
  · exact .inr ⟨rfl, le_refl _⟩
  · exact (pairwise_cons.mp hpair).1 q hrest

theorem lastExpired_none (h : lastExpired s userId = none) (hq : q ∈ s.subscriptionRows)
    (hu : q.userId = userId) (hst : q.status = .expired) : q.upgradeGroup = "" := by
  unfold lastExpired at h
  by_contra hup
  rw [head?_eq_none_iff] at h
  have hin : q ∈ (s.subscriptionRows.filter (fun sub => sub.userId = userId ∧
      sub.status = .expired ∧ (sub.downgradeGroup ≠ "" ∨ sub.upgradeGroup ≠ ""))).insertionSort
        latestFirst := by
    simp only [mem_insertionSort, mem_filter, decide_eq_true_eq]
    exact ⟨hq, hu, hst, .inr hup⟩
  rw [h] at hin
  cases hin

structure EndsLater (cal : PlanCalendar) : Prop where
  years : ∀ t n, 0 < n → t < cal.addYears t n
  months : ∀ t n, 0 < n → t < cal.addMonths t n

theorem calcPlanEndTime_gt (hcal : EndsLater cal) (h : calcPlanEndTime cal now plan = .ok stop) :
    now < stop := by
  unfold calcPlanEndTime at h
  split at h
  · cases h
  rename_i hunit
  have hpos : plan.durationUnit ≠ .custom → 0 < plan.durationValue := by
    intro hne
    by_contra hle
    exact hunit ⟨by omega, hne⟩
  cases hu : plan.durationUnit with
  | year =>
    simp only [hu] at h
    cases h
    exact hcal.years now _ (hpos (by simp [hu]))
  | month =>
    simp only [hu] at h
    cases h
    exact hcal.months now _ (hpos (by simp [hu]))
  | day | hour =>
    simp only [hu] at h
    cases h
    have := hpos (by simp [hu])
    omega
  | custom =>
    simp only [hu] at h
    split at h <;> cases h
    omega
  | other =>
    simp only [hu] at h
    cases h

def Owns (a : Accounts) (u : Int) (sub : UserSubscription) : Prop :=
  sub ∈ a.store.subscriptionRows ∧ sub.userId = u

def Active (a : Accounts) (u : Int) (sub : UserSubscription) : Prop :=
  Owns a u sub ∧ sub.status = .active

def Expired (a : Accounts) (u : Int) (sub : UserSubscription) : Prop :=
  Owns a u sub ∧ sub.status = .expired

/-- A row with an upgrade and no downgrade group. If it keeps a group held before,
that is `g`. -/
structure Terms (g : String) (sub : UserSubscription) : Prop where
  up : sub.upgradeGroup ≠ ""
  trimmed : trimSpace sub.upgradeGroup = sub.upgradeGroup
  down : sub.downgradeGroup = ""
  ends : 0 < sub.endTime
  prev : sub.prevUserGroup = "" ∨
    (sub.prevUserGroup = g ∧ sub.upgradeGroup ≠ g ∧ trimSpace g = g)

/-- The user has the group `g` and no active row keeps one held before. -/
def Plain (g : String) (u : Int) (a : Accounts) : Prop :=
  getUserGroupById a u = g ∧ ∀ s, Active a u s → s.prevUserGroup = ""

/-- The user has the group of the active row that ends last, and that row keeps the old one. -/
def Raised (u : Int) (a : Accounts) : Prop :=
  ∃ m, Active a u m ∧ m.prevUserGroup ≠ "" ∧ getUserGroupById a u = m.upgradeGroup ∧
    ∀ s, Active a u s → latestFirst m s

structure WayBack (g : String) (u clock : Int) (a : Accounts) : Prop where
  user : (a.groups u).isSome
  key : ∀ k sub, a.store.subscriptions k = some sub → sub.id = k
  terms : ∀ sub, Owns a u sub → Terms g sub
  past : ∀ e, Expired a u e → e.endTime ≤ clock
  later : ∀ e s, Expired a u e → Active a u s → e.endTime < s.endTime
  group : Plain g u a ∨ Raised u a

theorem WayBack.mono (h : WayBack g u clock a) (hle : clock ≤ clock') : WayBack g u clock' a :=
  { h with past := fun e he => (h.past e he).trans hle }

theorem WayBack.same_id (h : WayBack g u clock a) (hp : Owns a u p) (hq : Owns a u q)
    (hid : p.id = q.id) : p = q := by
  obtain ⟨j, _, hj⟩ := mem_filterMap.mp hp.1
  obtain ⟨k, _, hk⟩ := mem_filterMap.mp hq.1
  have hjk : j = k := by rw [← h.key j p hj, ← h.key k q hk, hid]
  rw [hjk, hk] at hj
  exact (Option.some.inj hj).symm

theorem WayBack.congr (h : WayBack g u clock a) (hrows : ∀ sub, Owns a' u sub ↔ Owns a u sub)
    (hgroup : a'.groups u = a.groups u)
    (hkey : ∀ k sub, a'.store.subscriptions k = some sub → sub.id = k) :
    WayBack g u clock a' := by
  have hactive : ∀ s, Active a' u s ↔ Active a u s := fun s => by
    simp only [Active, hrows]
  have hexpired : ∀ s, Expired a' u s ↔ Expired a u s := fun s => by
    simp only [Expired, hrows]
  have hget : getUserGroupById a' u = getUserGroupById a u := by
    simp only [getUserGroupById, hgroup]
  refine ⟨?_, hkey, ?_, ?_, ?_, ?_⟩
  · rw [hgroup]
    exact h.user
  · simpa only [hrows] using h.terms
  · simpa only [hexpired] using h.past
  · simpa only [hexpired, hactive] using h.later
  · simpa only [Plain, Raised, hactive, hget] using h.group

theorem trimSpace_empty : trimSpace "" = "" := by decide

section Target
variable {g : String} {sub : UserSubscription}

theorem Terms.target_plain (h : Terms g sub) (hp : sub.prevUserGroup = "") (group : String) :
    expiryTarget sub group = none := by
  simp [expiryTarget, h.down, hp, trimSpace_empty]

theorem Terms.target_other (h : Terms g sub) (hne : group ≠ sub.upgradeGroup) :
    expiryTarget sub group = none := by
  simp [expiryTarget, h.down, h.trimmed, trimSpace_empty, hne]

theorem Terms.target_own (h : Terms g sub) : expiryTarget sub g = none := by
  rcases h.prev with hp | ⟨_, hne, _⟩
  · exact h.target_plain hp g
  · exact h.target_other hne.symm

theorem Terms.target_back (h : Terms g sub) (hp : sub.prevUserGroup ≠ "") :
    expiryTarget sub sub.upgradeGroup = some g ∧ g ≠ sub.upgradeGroup := by
  obtain ⟨hprev, hne, htrim⟩ := h.prev.resolve_left hp
  rw [hprev] at hp
  refine ⟨?_, hne.symm⟩
  simp [expiryTarget, h.down, h.trimmed, h.up, hprev, htrim, hp, trimSpace_empty]

end Target

theorem expireUser_key {s : Store} (h : ∀ k sub, s.subscriptions k = some sub → sub.id = k)
    (v now : Int) :
    ∀ k sub, (s.expireUser v now).subscriptions k = some sub → sub.id = k := by
  intro k sub hs
  obtain ⟨old, ho, rfl⟩ := Option.map_eq_some_iff.mp hs
  have hk := h k old ho
  split <;> exact hk

theorem owns_expireUser (hs : b.store = a.store.expireUser v now) :
    Owns b u sub ↔ ∃ q, Owns a u q ∧ sub =
      if q.userId = v ∧ q.expires now then { q with status := .expired } else q := by
  simp only [Owns, hs, expireUser_rows, mem_map]
  constructor
  · rintro ⟨⟨q, hq, rfl⟩, hu⟩
    refine ⟨q, ⟨hq, ?_⟩, rfl⟩
    split at hu <;> exact hu
  rintro ⟨q, ⟨hq, hu⟩, rfl⟩
  refine ⟨⟨q, hq, rfl⟩, ?_⟩
  split <;> exact hu

theorem setGroup_of_ne (a : Accounts) (hne : u ≠ v) (group : String) :
    (a.setGroup v group).groups u = a.groups u :=
  Function.update_of_ne hne ..

theorem expire_groups_of_ne (a : Accounts) (hne : u ≠ v) (now : Int) :
    (expireUserSubscriptions v now a).2.groups u = a.groups u := by
  unfold expireUserSubscriptions
  dsimp only
  split
  · rfl
  split
  · rfl
  split
  · rfl
  · exact setGroup_of_ne _ hne _

theorem WayBack.expire_other (h : WayBack g u clock a) (hne : u ≠ v) (now : Int) :
    WayBack g u clock (expireUserSubscriptions v now a).2 := by
  have hs := expireUserSubscriptions_store v now a
  apply h.congr
  · intro sub
    rw [owns_expireUser hs]
    constructor
    · rintro ⟨q, hq, rfl⟩
      rw [if_neg (fun hc => hne (hq.2.symm.trans hc.1))]
      exact hq
    · intro hq
      exact ⟨sub, hq, (if_neg (fun hc => hne (hq.2.symm.trans hc.1))).symm⟩
  · exact expire_groups_of_ne a hne now
  · rw [hs]
    exact expireUser_key h.key v now

theorem expires_iff (h : Terms g s) (hs : s.status = .active) :
    s.expires now = true ↔ s.endTime ≤ now := by
  simp [UserSubscription.expires, hs, h.ends]

section ExpireSelf
variable {a b : Accounts} {g : String} {u now : Int}

section
variable (h : WayBack g u now a)
include h

section
variable (hs : b.store = a.store.expireUser u now)
include hs

theorem active_after : Active b u s ↔ Active a u s ∧ now < s.endTime := by
  constructor
  · rintro ⟨ho, hst⟩
    obtain ⟨q, hq, rfl⟩ := (owns_expireUser hs).mp ho
    split at hst
    · cases hst
    rename_i hnot
    rw [if_neg hnot]
    have hdue := mt (expires_iff (h.terms q hq) hst).mpr fun hd => hnot ⟨hq.2, hd⟩
    exact ⟨⟨hq, hst⟩, by omega⟩
  · rintro ⟨⟨ho, hst⟩, hlt⟩
    have hnot : ¬ s.expires now = true := by
      rw [expires_iff (h.terms s ho) hst]
      omega
    exact ⟨(owns_expireUser hs).mpr ⟨s, ho, (if_neg fun hc => hnot hc.2).symm⟩, hst⟩

theorem expired_after (he : Expired b u e) : Expired a u e ∨
      ∃ q, Active a u q ∧ q.endTime ≤ now ∧ e = { q with status := .expired } := by
  obtain ⟨ho, hst⟩ := he
  obtain ⟨q, hq, rfl⟩ := (owns_expireUser hs).mp ho
  by_cases hc : q.userId = u ∧ q.expires now = true
  · have hact : q.status = .active := by
      have := hc.2
      simp only [UserSubscription.expires, decide_eq_true_eq] at this
      exact this.1
    rw [if_pos hc]
    exact .inr ⟨q, ⟨hq, hact⟩, (expires_iff (h.terms q hq) hact).mp hc.2, rfl⟩
  · rw [if_neg hc] at hst ⊢
    exact .inl ⟨hq, hst⟩

theorem expired_of_due (hq : Active a u q) (hle : q.endTime ≤ now) :
    Expired b u { q with status := .expired } := by
  have hd := (expires_iff (h.terms q hq.1) hq.2).mpr hle
  exact ⟨(owns_expireUser hs).mpr ⟨q, hq.1, (if_pos ⟨hq.1.2, hd⟩).symm⟩, rfl⟩

theorem lastExpired_raised (hm : Active a u m) (hmax : ∀ s, Active a u s → latestFirst m s)
    (hle : m.endTime ≤ now) : lastExpired b.store u = some { m with status := .expired } := by
  have hm' := expired_of_due h hs hm hle
  have hup := (h.terms m hm.1).up
  cases hl : lastExpired b.store u with
  | none => exact absurd (lastExpired_none hl hm'.1.1 hm'.1.2 hm'.2) hup
  | some e =>
    obtain ⟨hrow, hu, hst, hfirst⟩ := lastExpired_spec hl
    have hbefore : latestFirst e { m with status := .expired } :=
      hfirst _ hm'.1.1 hm'.1.2 hm'.2 hup
    rcases expired_after h hs ⟨⟨hrow, hu⟩, hst⟩ with hold | ⟨q, hq, _, rfl⟩
    · -- A row that expired earlier ended before every active one.
      have hlt := h.later e m hold hm
      simp only [latestFirst] at hbefore
      omega
    · have hafter := hmax q hq
      simp only [latestFirst] at hbefore hafter
      obtain rfl : q = m := h.same_id hq.1 hm.1 (by omega)
      rfl

theorem owned_terms (ho : Owns b u sub) : Terms g sub := by
  obtain ⟨q, hq, rfl⟩ := (owns_expireUser hs).mp ho
  have ht := h.terms q hq
  split
  · exact ⟨ht.up, ht.trimmed, ht.down, ht.ends, ht.prev⟩
  · exact ht

theorem keepsUpgrade_iff : keepsUpgrade b.store u now = true ↔ ∃ s, Active b u s := by
  unfold keepsUpgrade
  rw [any_eq_true]
  constructor
  · rintro ⟨s, hrow, hc⟩
    simp only [decide_eq_true_eq] at hc
    exact ⟨s, ⟨hrow, hc.1⟩, hc.2.1⟩
  rintro ⟨s, hact⟩
  have hlt := ((active_after h hs).mp hact).2
  have hup := (owned_terms h hs hact.1).up
  exact ⟨s, hact.1.1, by simp [hact.1.2, hact.2, hlt, hup]⟩

theorem group_kept (hg : b.groups = a.groups) (hleft : Active b u s) :
    Plain g u b ∨ Raised u b := by
  have hget : getUserGroupById b u = getUserGroupById a u := by simp only [getUserGroupById, hg]
  rcases h.group with ⟨hgroup, hplain⟩ | ⟨m, hm, hprev, hgroup, hmax⟩
  · exact .inl ⟨hget.trans hgroup, fun q hq => hplain q ((active_after h hs).mp hq).1⟩
  obtain ⟨hact, hlt⟩ := (active_after h hs).mp hleft
  have hfirst := hmax s hact
  simp only [latestFirst] at hfirst
  have hmleft : Active b u m := (active_after h hs).mpr ⟨hm, by omega⟩
  exact .inr ⟨m, hmleft, hprev, hget.trans hgroup, fun q hq => hmax q ((active_after h hs).mp hq).1⟩

end

theorem group_after (hb : b = (expireUserSubscriptions u now a).2) : Plain g u b ∨ Raised u b := by
  have hs : b.store = a.store.expireUser u now := by rw [hb, expireUserSubscriptions_store]
  by_cases hleft : ∃ s, Active b u s
  · have hkeeps := (keepsUpgrade_iff h hs).mpr hleft
    rw [hs] at hkeeps
    obtain ⟨s, hact⟩ := hleft
    exact group_kept h hs (by rw [hb, expire_kept hkeeps]) hact
  have hkeeps : keepsUpgrade (a.store.expireUser u now) u now = false := by
    rw [← hs, ← Bool.not_eq_true, keepsUpgrade_iff h hs]
    exact hleft
  refine .inl ⟨?_, fun s hact => absurd ⟨s, hact⟩ hleft⟩
  rcases h.group with ⟨hgroup, _⟩ | ⟨m, hm, hprev, hgroup, hmax⟩
  · have hstay : expiryGroup (a.store.expireUser u now) u (getUserGroupById a u) = none := by
      unfold expiryGroup
      rw [← hs, hgroup]
      cases hl : lastExpired b.store u with
      | none => rfl
      | some e =>
        obtain ⟨hrow, hu, _⟩ := lastExpired_spec hl
        simp [(owned_terms h hs ⟨hrow, hu⟩).target_own]
    have hgroups : b.groups = a.groups := by rw [hb, expire_stays hkeeps hstay]
    simp only [getUserGroupById, hgroups]
    exact hgroup
  · have hle : m.endTime ≤ now := by
      by_contra hlt
      exact hleft ⟨m, (active_after h hs).mpr ⟨hm, by omega⟩⟩
    obtain ⟨htarget, hne⟩ := (h.terms m hm.1).target_back hprev
    have hback : expiryGroup (a.store.expireUser u now) u (getUserGroupById a u) = some g := by
      unfold expiryGroup
      rw [← hs, lastExpired_raised h hs hm hmax hle, hgroup, Option.bind_some]
      exact htarget
    have hgroups : b.groups = (a.setGroup u g).groups := by
      rw [hb, expire_moves hkeeps hback (by rw [hgroup]; exact hne)]
    obtain ⟨old, hold⟩ := Option.isSome_iff_exists.mp h.user
    simp [getUserGroupById, hgroups, Accounts.setGroup, hold]

end

theorem groups_isSome (a : Accounts) (v : Int) (group : String) (h : (a.groups u).isSome) :
    ((a.setGroup v group).groups u).isSome := by
  unfold Accounts.setGroup
  by_cases huv : u = v
  · subst huv
    simpa using h
  · simpa [huv] using h

theorem expire_user (a : Accounts) (now : Int) (h : (a.groups u).isSome) :
    ((expireUserSubscriptions u now a).2.groups u).isSome := by
  unfold expireUserSubscriptions
  dsimp only
  split
  · exact h
  split
  · exact h
  split
  · exact h
  · exact groups_isSome ⟨a.store.expireUser u now, a.groups⟩ u _ h

theorem WayBack.expire_self (h : WayBack g u now a) :
    WayBack g u now (expireUserSubscriptions u now a).2 := by
  have huser := expire_user a now h.user
  obtain ⟨b, hb⟩ : ∃ b, b = (expireUserSubscriptions u now a).2 := ⟨_, rfl⟩
  have hs : b.store = a.store.expireUser u now := by rw [hb, expireUserSubscriptions_store]
  rw [← hb] at huser ⊢
  refine ⟨huser, ?_, fun sub ho => owned_terms h hs ho, fun e he => ?_, fun e s he hact => ?_,
    group_after h hb⟩
  · rw [hs]
    exact expireUser_key h.key u now
  · rcases expired_after h hs he with hold | ⟨q, _, hle, rfl⟩
    · exact h.past e hold
    · exact hle
  obtain ⟨hact, hlt⟩ := (active_after h hs).mp hact
  rcases expired_after h hs he with hold | ⟨q, _, hle, rfl⟩
  · exact h.later e s hold hact
  · exact lt_of_le_of_lt hle hlt

theorem WayBack.expireDue (h : WayBack g u now a) (limit : Int) (order : List Int) :
    WayBack g u now (expireDueSubscriptions limit now order a).2 := by
  apply expireDue_keeps limit now order _ h
  intro b v hb
  by_cases hv : u = v
  · subst hv
    exact hb.expire_self
  · exact hb.expire_other hv now

end ExpireSelf

section Purchase
variable {cal : PlanCalendar} {a a' : Accounts} {g : String} {u now clock : Int}

theorem newID_fresh (s : Store) : s.nextSubscriptionID ∉ s.subscriptionIDs := by
  intro h
  have := nextSubscriptionID_gt s h
  omega

theorem owns_insert (hid : sub.id = a.store.nextSubscriptionID)
    (hs : a'.store = a.store.insertSubscription sub) :
    Owns a' u q ↔ (q = sub ∧ sub.userId = u) ∨ Owns a u q := by
  have hfresh : sub.id ∉ a.store.subscriptionIDs := hid ▸ newID_fresh a.store
  simp only [Owns, hs, insert_rows hfresh, mem_cons]
  constructor
  · rintro ⟨rfl | hq, hu⟩
    · exact .inl ⟨rfl, hu⟩
    · exact .inr ⟨hq, hu⟩
  rintro (⟨rfl, hu⟩ | ⟨hq, hu⟩)
  · exact ⟨.inl rfl, hu⟩
  · exact ⟨.inr hq, hu⟩

theorem insert_key {s : Store} (h : ∀ k sub, s.subscriptions k = some sub → sub.id = k)
    (new : UserSubscription) :
    ∀ k sub, (s.insertSubscription new).subscriptions k = some sub → sub.id = k := by
  intro k sub hs
  by_cases hk : k = new.id
  · subst hk
    simp only [Store.insertSubscription, Function.update_self, Option.some.injEq] at hs
    rw [← hs]
  · simp only [Store.insertSubscription, Function.update_of_ne hk] at hs
    exact h k sub hs

theorem WayBack.id_lt (h : WayBack g u clock a) (hq : Owns a u q) :
    q.id < a.store.nextSubscriptionID := by
  obtain ⟨k, hk, hs⟩ := mem_filterMap.mp hq.1
  rw [h.key k q hs]
  exact nextSubscriptionID_gt a.store hk

theorem WayBack.buy_other (h : WayBack g u clock a) (hne : u ≠ v)
    (hp : purchaseSubscription cal v planId now a = .ok (sub, a')) : WayBack g u clock a' := by
  obtain ⟨plan, stop, _, _, hsub, rfl⟩ := purchase_ok hp
  have hid : sub.id = a.store.nextSubscriptionID := by rw [hsub]; rfl
  have huser : sub.userId = v := by rw [hsub]; rfl
  apply h.congr
  · intro q
    rw [owns_insert hid rfl, huser]
    exact ⟨fun hq => hq.resolve_left fun he => hne he.2.symm, .inr⟩
  · unfold groupsAfter
    split
    · exact setGroup_of_ne a hne _
    · rfl
  · exact insert_key h.key sub

/-- The new row keeps the user's group and does not end last among rows that may keep another, or
keeps the group held before and ends last among rows that keep none. -/
def KeepsWayBack (a : Accounts) (u : Int) (plan : SubscriptionPlan) (stop : Int) : Prop :=
  let group := getUserGroupById a u
  (trimSpace plan.upgradeGroup = group ∧
    ((∀ s, Active a u s → s.prevUserGroup = "") ∨ ∃ s, Active a u s ∧ stop < s.endTime)) ∨
  (trimSpace plan.upgradeGroup ≠ group ∧ group ≠ "" ∧ trimSpace group = group ∧
    ∀ s, Active a u s → s.prevUserGroup = "" ∧ s.endTime ≤ stop)

theorem Plain.of_unkept (h : Plain g u a ∨ Raised u a)
    (hnone : ∀ s, Active a u s → s.prevUserGroup = "") : getUserGroupById a u = g := by
  rcases h with ⟨hg, _⟩ | ⟨m, hm, hprev, _⟩
  · exact hg
  · exact absurd (hnone m hm) hprev

/-- A purchase of an elevating plan, as far as the group depends on it. -/
structure Bought (a : Accounts) (u stop : Int) (tier : String) (new : UserSubscription)
    (b : Accounts) : Prop where
  store : b.store = a.store.insertSubscription new
  groups : b.groups = groupsAfter a u new
  id : new.id = a.store.nextSubscriptionID
  user : new.userId = u
  ends : new.endTime = stop
  active : new.status = .active
  up : new.upgradeGroup = tier
  elevates : tier ≠ ""
  down : new.downgradeGroup = ""
  prev : new.prevUserGroup = if getUserGroupById a u ≠ tier then getUserGroupById a u else ""

theorem bought (hp : purchaseSubscription cal u planId now a = .ok (sub, a'))
    (hplan : ∀ plan, getSubscriptionPlanById a.store planId = .ok plan →
      trimSpace plan.upgradeGroup ≠ "" ∧ trimSpace plan.downgradeGroup = "") :
    ∃ plan stop, getSubscriptionPlanById a.store planId = .ok plan ∧
      calcPlanEndTime cal now plan = .ok stop ∧
      Bought a u stop (trimSpace plan.upgradeGroup) sub a' := by
  obtain ⟨plan, stop, hget, hstop, rfl, rfl⟩ := purchase_ok hp
  obtain ⟨hup, hdown⟩ := hplan plan hget
  refine ⟨plan, stop, hget, hstop, rfl, rfl, rfl, rfl, rfl, rfl, rfl, hup, hdown, ?_⟩
  simp [newSubscription, hup]

namespace Bought
variable {b : Accounts} {new : UserSubscription} {stop : Int} {tier : String}

variable (hb : Bought a u stop tier new b)
include hb

theorem owns : Owns b u q ↔ q = new ∨ Owns a u q := by
  rw [owns_insert hb.id hb.store]
  simp [hb.user]

theorem active_iff : Active b u q ↔ q = new ∨ Active a u q := by
  simp only [Active, hb.owns]
  constructor
  · rintro ⟨rfl | hq, hst⟩
    · exact .inl rfl
    · exact .inr ⟨hq, hst⟩
  rintro (rfl | ⟨hq, hst⟩)
  · exact ⟨.inl rfl, hb.active⟩
  · exact ⟨.inr hq, hst⟩

theorem expired (he : Expired b u e) : Expired a u e := by
  obtain ⟨ho, hst⟩ := he
  rcases hb.owns.mp ho with rfl | hq
  · rw [hb.active] at hst
    cases hst
  · exact ⟨hq, hst⟩

theorem group (huser : (a.groups u).isSome) :
    (b.groups u).isSome ∧ getUserGroupById b u = tier := by
  obtain ⟨old, hold⟩ := Option.isSome_iff_exists.mp huser
  by_cases hc : getUserGroupById a u = tier
  · have hgroups : b.groups = a.groups := by
      rw [hb.groups]
      exact if_neg fun h => h.2 (by rw [hb.up]; exact hc)
    constructor
    · rw [hgroups]
      exact huser
    · simp only [getUserGroupById, hgroups]
      exact hc
  · have hgroups : b.groups = (a.setGroup u tier).groups := by
      rw [hb.groups]
      unfold groupsAfter
      rw [hb.up, if_pos ⟨hb.elevates, hc⟩]
    simp [getUserGroupById, hgroups, Accounts.setGroup, hold]

end Bought

theorem WayBack.buy_self (h : WayBack g u clock a) (hcal : EndsLater cal) (hpos : 0 < now)
    (hnow : clock ≤ now) (hstop : calcPlanEndTime cal now plan = .ok stop)
    (hb : Bought a u stop (trimSpace plan.upgradeGroup) new b)
    (hkeep : KeepsWayBack a u plan stop) : WayBack g u now b := by
  have hlater := calcPlanEndTime_gt hcal hstop
  obtain ⟨huser, hgroup⟩ := hb.group h.user
  -- The new row, whatever it keeps.
  have hterms : (new.prevUserGroup = "" ∨
      (new.prevUserGroup = g ∧ new.upgradeGroup ≠ g ∧ trimSpace g = g)) → Terms g new := by
    intro hprev
    refine ⟨?_, ?_, hb.down, ?_, hprev⟩
    · rw [hb.up]
      exact hb.elevates
    · rw [hb.up, trimSpace_trimSpace]
    · rw [hb.ends]
      omega
  have hrest : Terms g new → (Plain g u b ∨ Raised u b) → WayBack g u now b := by
    intro hnew hg
    refine ⟨huser, ?_, fun q hq => ?_, fun e he => ?_, fun e s he hs => ?_, hg⟩
    · rw [hb.store]
      exact insert_key h.key new
    · rcases hb.owns.mp hq with rfl | hq
      · exact hnew
      · exact h.terms q hq
    · exact (h.past e (hb.expired he)).trans hnow
    have hpast := h.past e (hb.expired he)
    rcases hb.active_iff.mp hs with rfl | hs
    · rw [hb.ends]
      omega
    · exact h.later e s (hb.expired he) hs
  rcases hkeep with ⟨hsame, hends⟩ | ⟨hdiff, hne, htrim, hends⟩
  · -- The group does not change, and the new row keeps none.
    have hprev : new.prevUserGroup = "" := by
      rw [hb.prev, if_neg (not_not.mpr hsame.symm)]
    apply hrest (hterms (.inl hprev))
    rcases h.group with ⟨hg, hplain⟩ | ⟨m, hm, hmprev, hmup, hmax⟩
    · refine .inl ⟨by rw [hgroup, hsame, hg], fun s hs => ?_⟩
      rcases hb.active_iff.mp hs with rfl | hs
      · exact hprev
      · exact hplain s hs
    · have hlast : latestFirst m new := by
        rcases hends with hnone | ⟨s, hs, hlt⟩
        · exact absurd (hnone m hm) hmprev
        have hfirst := hmax s hs
        have hend := hb.ends
        simp only [latestFirst] at hfirst ⊢
        omega
      refine .inr ⟨m, hb.active_iff.mpr (.inr hm), hmprev, by rw [hgroup, hsame, hmup], ?_⟩
      intro s hs
      rcases hb.active_iff.mp hs with rfl | hs
      · exact hlast
      · exact hmax s hs
  · -- The group was the user's own, and the new row keeps it.
    have hg : getUserGroupById a u = g := Plain.of_unkept h.group fun s hs => (hends s hs).1
    have hprev : new.prevUserGroup = g := by
      rw [hb.prev, if_pos hdiff.symm, hg]
    have hup : new.upgradeGroup ≠ g := by
      rw [hb.up, ← hg]
      exact hdiff
    rw [hg] at hne htrim
    apply hrest (hterms (.inr ⟨hprev, hup, htrim⟩))
    refine .inr ⟨new, hb.active_iff.mpr (.inl rfl), by rw [hprev]; exact hne,
      by rw [hgroup, hb.up], fun s hs => ?_⟩
    rcases hb.active_iff.mp hs with rfl | hs
    · exact .inr ⟨rfl, le_refl _⟩
    have hle := (hends s hs).2
    have hlt := h.id_lt hs.1
    have hend := hb.ends
    have hid := hb.id
    unfold latestFirst
    omega

end Purchase

structure Timed where
  accounts : Accounts
  clock : Int

def Timed.next (cal : PlanCalendar) (t : Timed) (op : SubscriptionOp) : Timed :=
  ⟨t.accounts.exec cal op, op.time.getD t.clock⟩

/-- In the order of time. The user only buys plans with an upgrade group and no downgrade group. -/
def InRun (u : Int) (t : Timed) : SubscriptionOp → Prop
  | .create v planId now => t.clock ≤ now ∧ (v = u → ∀ plan,
      getSubscriptionPlanById t.accounts.store planId = .ok plan →
        trimSpace plan.upgradeGroup ≠ "" ∧ trimSpace plan.downgradeGroup = "")
  | .expireDue _ now _ => t.clock ≤ now
  | _ => False

/-- What the user buys keeps the way back. -/
def BuysInOrder (cal : PlanCalendar) (u : Int) (t : Timed) : SubscriptionOp → Prop
  | .create v planId now => v = u → ∀ plan stop,
      getSubscriptionPlanById t.accounts.store planId = .ok plan →
      calcPlanEndTime cal now plan = .ok stop → KeepsWayBack t.accounts u plan stop
  | _ => True

theorem WayBack.next (hcal : EndsLater cal) (hpos : 0 < t.clock)
    (h : WayBack g u t.clock t.accounts) (hop : InRun u t op) (hg : BuysInOrder cal u t op) :
    0 < (t.next cal op).clock ∧ WayBack g u (t.next cal op).clock (t.next cal op).accounts := by
  cases op with
  | expireDue limit now order =>
    have hle : t.clock ≤ now := hop
    have hnext : t.next cal (.expireDue limit now order) =
        ⟨(expireDueSubscriptions limit now order t.accounts).2, now⟩ := rfl
    exact ⟨lt_of_lt_of_le hpos hle, (h.mono hle).expireDue limit order⟩
  | create v planId now =>
    obtain ⟨hle, hplan⟩ := hop
    have hnow : 0 < now := lt_of_lt_of_le hpos hle
    refine ⟨hnow, ?_⟩
    simp only [Timed.next, Accounts.exec, SubscriptionOp.time, Option.getD_some]
    split
    · exact h.mono hle
    rename_i sub a' hp
    by_cases hv : u = v
    · subst hv
      obtain ⟨plan, stop, hget, hstop, hb⟩ := bought hp (hplan rfl)
      exact h.buy_self hcal hnow hle hstop hb (hg rfl plan stop hget hstop)
    · exact (h.buy_other hv hp).mono hle
  | _ => exact hop.elim

def twoPlans : Accounts where
  store := { RequestBook.sampleStore with
    plans := fun id =>
      if id = 1 then some { durationUnit := .custom, customSeconds := 10, upgradeGroup := "vip" }
      else if id = 2 then
        some { durationUnit := .custom, customSeconds := 20, upgradeGroup := "vip" }
      else none }
  groups := Function.update (fun _ => none) 1 (some "default")

def secondsCalendar : PlanCalendar :=
  { RequestBook.sampleCalendar with addYears := fun t n => t + n, addMonths := fun t n => t + n }

def after (ops : List SubscriptionOp) : Accounts :=
  (ops.foldl (Timed.next secondsCalendar) ⟨twoPlans, 1⟩).accounts

end Ren2Hub.Proofs.GroupRuns
