import Ren2Hub.Lib.Inputs
import Ren2Hub.Routing.Lease

namespace Ren2Hub.Proofs.LeaseRuns
open Lib Routing LeaseStore ScoredSet Function

variable {r r' : LeaseStore} {C : String → Nat} {L : String} {m : LeaseMeta}
  {resources : List RouteLeaseResource} {lease : RouteLease}

@[simp] theorem modifySets_now (keys : List String) (f : ScoredSet String → ScoredSet String) :
    (r.modifySets keys f).now = r.now := by
  induction keys generalizing r with
  | nil => rfl
  | cons key keys ih => exact ih

theorem modifySets_eq (hf : ∀ z, f (f z) = f z) (keys : List String) :
    r.modifySets keys f =
      { r with sets := fun k => if k ∈ keys then f (r.sets k) else r.sets k } := by
  unfold modifySets
  induction keys generalizing r with
  | nil => simp
  | cons key keys ih =>
    rw [List.foldl_cons, ih]
    unfold modifySet
    congr 1
    funext k
    by_cases hk : k = key
    · subst hk
      simp [hf]
    · simp [hk]

theorem dropUpTo_dropUpTo (t : Nat) (z : ScoredSet String) :
    (z.dropUpTo t).dropUpTo t = z.dropUpTo t := by
  simp [dropUpTo, filter]

theorem remove_remove (z : ScoredSet String) : (z.remove L).remove L = z.remove L := by
  simp [remove, filter]

/-- After the purge the set has room for one more. -/
def HasRoom (r : LeaseStore) (resource : RouteLeaseResource) : Prop :=
  (((r.sets resource.key).dropUpTo r.now).card : Int) < resource.capacity

instance (r : LeaseStore) (resource : RouteLeaseResource) : Decidable (HasRoom r resource) :=
  inferInstanceAs (Decidable (_ < _))

/-- The resources an acquire looks at: up to the first one without room. -/
def reached (r : LeaseStore) : List RouteLeaseResource → List RouteLeaseResource
  | [] => []
  | resource :: rest => resource :: if HasRoom r resource then reached r rest else []

theorem reached_of_room (h : ∀ x ∈ resources, HasRoom r x) : reached r resources = resources := by
  induction resources with
  | nil => rfl
  | cons resource rest ih =>
    unfold reached
    rw [if_pos (h resource List.mem_cons_self), ih fun x hx => h x (List.mem_cons_of_mem _ hx)]

theorem hasRoom_purged (r : LeaseStore) (key : String) (x : RouteLeaseResource) :
    HasRoom (r.modifySet key (.dropUpTo r.now)) x ↔ HasRoom r x := by
  unfold HasRoom modifySet
  by_cases hx : x.key = key
  · simp [hx, dropUpTo_dropUpTo]
  · simp [hx]

theorem reached_purged (r : LeaseStore) (key : String) (resources : List RouteLeaseResource) :
    reached (r.modifySet key (.dropUpTo r.now)) resources = reached r resources := by
  induction resources with
  | nil => rfl
  | cons x rest ih =>
    unfold reached
    simp only [hasRoom_purged, ih]

section
variable (resources : List RouteLeaseResource)

/-- The first loop of an acquire purges what it reaches, and gets through when
all the sets have room. -/
theorem makeRoom_spec (r : LeaseStore) :
    r.makeRoom resources = (r.modifySets ((reached r resources).map (·.key)) (.dropUpTo r.now),
      decide (∀ x ∈ resources, HasRoom r x)) := by
  induction resources generalizing r with
  | nil => simp [makeRoom, reached, modifySets]
  | cons x rest ih =>
    have hcard : ((r.modifySet x.key (.dropUpTo r.now)).sets x.key).card =
        ((r.sets x.key).dropUpTo r.now).card := by simp [modifySet]
    unfold makeRoom reached
    simp only [hcard]
    by_cases hx : HasRoom r x
    · rw [if_neg (by simpa [HasRoom] using hx), ih, if_pos hx, reached_purged]
      simp only [hasRoom_purged, List.forall_mem_cons, hx, true_and]
      rfl
    rw [if_pos (by simpa [HasRoom] using hx), if_neg hx]
    simp only [List.forall_mem_cons, hx, false_and, decide_false]
    rfl

/-- The meta hash lists the sets that hold the lease with its expiry, every other trace has expired,
and its request key names it for as long. -/
structure Settled (r : LeaseStore) (L : String) : Prop where
  listed : ∀ m, r.meta? L = some m → ∀ k, k ∈ m.resources ↔ (r.sets k).score? L = some m.expiresAt
  current : ∀ k s, (r.sets k).score? L = some s →
    s ≤ r.now ∨ ∃ m, r.meta? L = some m ∧ s = m.expiresAt
  owner : ∀ m, r.meta? L = some m →
    m.leaseID = L ∧ m.deadline = m.expiresAt ∧ r.request? m.requestID = some ⟨L, m.deadline⟩

/-- Members that expire now still count: their lease can be renewed. -/
structure Ordered (C : String → Nat) (r : LeaseStore) : Prop where
  room : ∀ k, (r.sets k).countFrom r.now ≤ C k
  settled : ∀ L, Settled r L

theorem meta?_some : r.meta? L = some m ↔ r.metas L = some m ∧ r.now ≤ m.deadline := by
  simp [meta?, Option.filter_eq_some_iff]

theorem request?_some :
    r.request? request = some q ↔ r.requests request = some q ∧ r.now ≤ q.deadline := by
  simp [request?, Option.filter_eq_some_iff]

theorem Ordered.initial : Ordered C {} :=
  ⟨fun _ => Nat.zero_le _, fun _ => ⟨nofun, nofun, nofun⟩⟩

theorem Ordered.elapse (h : Ordered C r) (ms : Nat) : Ordered C { r with now := r.now + ms } := by
  have hlive : ∀ {L m}, meta? { r with now := r.now + ms } L = some m → r.meta? L = some m := by
    intro L m hm
    rw [meta?_some] at hm ⊢
    exact ⟨hm.1, (Nat.le_add_right _ _).trans hm.2⟩
  refine ⟨fun k => (countFrom_anti (Nat.le_add_right _ _)).trans (h.room k),
    fun L => ⟨fun m hm => (h.settled L).listed m (hlive hm), fun k s hs => ?_, fun m hm => ?_⟩⟩
  · rcases (h.settled L).current k s hs with hle | ⟨m, hm, he⟩
    · exact .inl (hle.trans (Nat.le_add_right _ _))
    · by_cases hd : r.now + ms ≤ m.deadline
      · exact .inr ⟨m, meta?_some.mpr ⟨(meta?_some.mp hm).1, hd⟩, he⟩
      · left
        have hdl := ((h.settled L).owner m hm).2.1
        show s ≤ r.now + ms
        omega
  · obtain ⟨h1, h2, h3⟩ := (h.settled L).owner m (hlive hm)
    exact ⟨h1, h2, request?_some.mpr ⟨(request?_some.mp h3).1, (meta?_some.mp hm).2⟩⟩

/-- No lease that expires this very millisecond lists the key. -/
def NoneExpiring (r : LeaseStore) (key : String) : Prop :=
  ∀ L m, r.meta? L = some m → m.expiresAt = r.now → key ∉ m.resources

theorem Ordered.purge (h : Ordered C r) (hkeys : ∀ key ∈ keys, NoneExpiring r key) :
    Ordered C (r.modifySets keys (.dropUpTo r.now)) := by
  rw [modifySets_eq (dropUpTo_dropUpTo r.now)]
  have hback : ∀ {k L s}, score? (if k ∈ keys then (r.sets k).dropUpTo r.now
      else r.sets k) L = some s → (r.sets k).score? L = some s := by
    intro k L s hs
    split at hs
    · exact (score?_dropUpTo.mp hs).1
    · exact hs
  refine ⟨fun k => ?_, fun L => ⟨fun m hm k => ⟨fun hk => ?_, fun hs => ?_⟩, fun k s hs => ?_,
    (h.settled L).owner⟩⟩
  · show countFrom r.now (if _ then _ else _) ≤ C k
    split
    · exact countFrom_filter_le.trans (h.room k)
    · exact h.room k
  · have hs := ((h.settled L).listed m hm k).mp hk
    show score? (if _ then _ else _) L = _
    split
    · rename_i hpurged
      have hne : m.expiresAt ≠ r.now := fun he => hkeys k hpurged L m hm he hk
      have hdl := ((h.settled L).owner m hm).2.1
      have hlive : r.now ≤ m.deadline := (meta?_some.mp hm).2
      exact score?_dropUpTo.mpr ⟨hs, by omega⟩
    · exact hs
  · exact ((h.settled L).listed m hm k).mpr (hback hs)
  · exact (h.settled L).current k s (hback hs)

/-- A script for one lease edits its members in some of the sets, its meta hash and its request key.
-/
def rewritten (r : LeaseStore) (keys : List String) (f : ScoredSet String → ScoredSet String)
    (writer : String) (m : Option LeaseMeta) (request : String) (q : Option LeaseOwner) :
    LeaseStore where
  now := r.now
  sets k := if k ∈ keys then f (r.sets k) else r.sets k
  metas := Function.update r.metas writer m
  requests := Function.update r.requests request q

theorem rewritten_sets (k : String) : (rewritten r keys f writer entry request q).sets k =
    if k ∈ keys then f (r.sets k) else r.sets k := rfl

theorem rewritten_score? (hother : ∀ z L, L ≠ writer → (f z).score? L = z.score? L)
    (hL : L ≠ writer) (k : String) :
    ((rewritten r keys f writer entry request q).sets k).score? L = (r.sets k).score? L := by
  rw [rewritten_sets]
  split
  · exact hother _ L hL
  · rfl

theorem rewritten_meta? (hL : L ≠ writer) :
    (rewritten r keys f writer entry request q).meta? L = r.meta? L := by
  show (Function.update r.metas writer entry L).filter _ = _
  rw [update_of_ne hL]
  rfl

theorem score?_insert_other (score : Nat) (z : ScoredSet String) (L : String) (hL : L ≠ writer) :
    (z.insert writer score).score? L = z.score? L := by
  rw [score?_insert, if_neg hL]

section
variable (h : Ordered C r)
include h

theorem Ordered.written (hother : ∀ z L, L ≠ writer → (f z).score? L = z.score? L)
    (hroom : ∀ k ∈ keys, (f (r.sets k)).countFrom r.now ≤ C k)
    (hkey : ∀ q, r.request? request = some q → q.leaseID = writer)
    (hself : Settled (rewritten r keys f writer entry request q) writer) :
    Ordered C (rewritten r keys f writer entry request q) := by
  have hroom' : ∀ k, ((rewritten r keys f writer entry request q).sets k).countFrom r.now ≤
      C k := by
    intro k
    rw [rewritten_sets]
    split
    · exact hroom k ‹_›
    · exact h.room k
  refine ⟨hroom', fun L => ?_⟩
  by_cases hL : L = writer
  · exact hL ▸ hself
  have hmeta : (rewritten r keys f writer entry request q).meta? L = r.meta? L :=
    rewritten_meta? hL
  refine ⟨fun m hm k => ?_, fun k s hs => ?_, fun m hm => ?_⟩
  · rw [rewritten_score? hother hL]
    exact (h.settled L).listed m (hmeta ▸ hm) k
  · rw [rewritten_score? hother hL] at hs
    rw [hmeta]
    exact (h.settled L).current k s hs
  rw [hmeta] at hm
  have howner := (h.settled L).owner m hm
  have hreq : m.requestID ≠ request := fun he => hL (hkey _ (he ▸ howner.2.2))
  refine ⟨howner.1, howner.2.1, ?_⟩
  show (Function.update r.requests request q _).filter _ = _
  rw [update_of_ne hreq]
  exact howner.2.2

theorem Ordered.granted (hpos : 0 < ttl)
    (hroom : ∀ k ∈ keys, ((r.sets k).insert L (r.now + ttl)).countFrom r.now ≤ C k)
    (hkey : ∀ q, r.request? request = some q → q.leaseID = L)
    (hstale : ∀ k, k ∉ keys → ∀ s, (r.sets k).score? L = some s → s ≤ r.now) :
    Ordered C (rewritten r keys (.insert L (r.now + ttl)) L
      (some ⟨L, request, r.now + ttl, keys, r.now + ttl⟩) request (some ⟨L, r.now + ttl⟩)) := by
  have hm' : (rewritten r keys (.insert L (r.now + ttl)) L
      (some ⟨L, request, r.now + ttl, keys, r.now + ttl⟩) request
        (some ⟨L, r.now + ttl⟩)).meta? L = some ⟨L, request, r.now + ttl, keys, r.now + ttl⟩ := by
    simp [rewritten, meta?]
  refine h.written (score?_insert_other _) hroom hkey
    ⟨fun m hm k => ?_, fun k s hs => ?_, fun m hm => ?_⟩
  · rw [hm'] at hm
    cases hm
    by_cases hk : k ∈ keys
    · simp [rewritten, hk]
    have hne : (r.sets k).score? L ≠ some (r.now + ttl) := fun hs => by
      have := hstale k hk _ hs
      omega
    simp [rewritten, hk, hne]
  · rw [rewritten_sets] at hs
    split at hs
    · rw [score?_insert_self] at hs
      cases hs
      exact .inr ⟨_, hm', rfl⟩
    · exact .inl (hstale k ‹_› s hs)
  · rw [hm'] at hm
    cases hm
    simp [rewritten, request?]

theorem Ordered.emptied (q : Option LeaseOwner)
    (hother : ∀ z L', L' ≠ L → (f z).score? L' = z.score? L')
    (hroom : ∀ k ∈ keys, (f (r.sets k)).countFrom r.now ≤ C k)
    (hkey : ∀ q, r.request? request = some q → q.leaseID = L)
    (hgone : ∀ z s, (f z).score? L = some s → s ≤ r.now)
    (hstale : ∀ k, k ∉ keys → ∀ s, (r.sets k).score? L = some s → s ≤ r.now) :
    Ordered C (rewritten r keys f L none request q) := by
  have hm' : (rewritten r keys f L none request q).meta? L = none := by
    simp [rewritten, meta?]
  refine h.written hother hroom hkey ⟨fun m hm => ?_, fun k s hs => .inl ?_, fun m hm => ?_⟩
  · rw [hm'] at hm
    cases hm
  · rw [rewritten_sets] at hs
    split at hs
    · exact hgone _ s hs
    · exact hstale k ‹_› s hs
  · rw [hm'] at hm
    cases hm

theorem Ordered.grantedNothing (q : Option LeaseOwner)
    (hroom : ∀ k ∈ keys, ((r.sets k).insert L r.now).countFrom r.now ≤ C k)
    (hkey : ∀ q, r.request? request = some q → q.leaseID = L)
    (hstale : ∀ k, k ∉ keys → ∀ s, (r.sets k).score? L = some s → s ≤ r.now) :
    Ordered C (rewritten r keys (.insert L r.now) L none request q) := by
  refine h.emptied q (score?_insert_other _) hroom hkey (fun z s hs => ?_) hstale
  rw [score?_insert_self] at hs
  exact (Option.some.inj hs).ge

theorem Ordered.stale (hmeta : r.meta? L = none)
    (hs : (r.sets k).score? L = some s) : s ≤ r.now := by
  rcases (h.settled L).current k s hs with hle | ⟨m, hm, _⟩
  · exact hle
  · rw [hmeta] at hm
    cases hm

/-- The request key of an owned lease names it, its keys hold it, and nothing else lasts of it. -/
theorem Ordered.owned (ho : r.owns lease = true) :
    (∀ q, r.request? lease.requestID = some q → q.leaseID = lease.leaseID) ∧
      (∀ k ∈ lease.keys, ∃ s, (r.sets k).score? lease.leaseID = some s ∧ r.now ≤ s) ∧
      ∀ k, k ∉ lease.keys → ∀ s, (r.sets k).score? lease.leaseID = some s → s ≤ r.now := by
  have hown := h.settled lease.leaseID
  unfold owns at ho
  split at ho
  · rename_i m q hm hq
    simp only [Bool.and_eq_true, decide_eq_true_eq] at ho
    refine ⟨fun q' hq' => ?_, fun k hk => ?_, fun k hk s hs => ?_⟩
    · rw [hq] at hq'
      cases hq'
      exact ho.1.2
    · have hdl := (hown.owner m hm).2.1
      exact ⟨_, (hown.listed m hm k).mp (ho.2 ▸ hk), hdl ▸ (meta?_some.mp hm).2⟩
    rcases hown.current k s hs with hle | ⟨m', hm', he⟩
    · exact hle
    rw [hm] at hm'
    cases hm'
    exact absurd (ho.2 ▸ (hown.listed m hm k).mpr (he ▸ hs)) hk
  · cases ho

theorem Ordered.renew (ttl : Nat) :
    Ordered C (r.routeLeaseRenewScript lease ttl).1 := by
  unfold routeLeaseRenewScript
  by_cases ho : r.owns lease = true
  · obtain ⟨hkey, hheld, hstale⟩ := h.owned ho
    -- The member is there and counts already, so the set stays within its bound.
    have hfits : ∀ k ∈ lease.keys,
        ((r.sets k).insert lease.leaseID (r.now + ttl)).countFrom r.now ≤ C k := by
      intro k hk
      obtain ⟨s, hs, hlive⟩ := hheld k hk
      exact (countFrom_insert_le hs hlive).trans (h.room k)
    simp only [ho, Bool.not_true, Bool.false_eq_true, if_false]
    rw [modifySets_eq fun _ => insert_insert]
    rcases Nat.eq_zero_or_pos ttl with rfl | hpos
    · exact h.grantedNothing none hfits hkey hstale
    · rw [if_neg hpos.ne', if_neg hpos.ne']
      exact h.granted hpos hfits hkey hstale
  · simpa [ho] using h

theorem Ordered.release : Ordered C (r.routeLeaseReleaseScript lease).1 := by
  unfold routeLeaseReleaseScript
  by_cases ho : r.owns lease = true
  · obtain ⟨hkey, _, hstale⟩ := h.owned ho
    simp only [ho, Bool.not_true, Bool.false_eq_true, if_false]
    rw [modifySets_eq remove_remove]
    refine h.emptied none (fun z L hne => ?_) (fun k _ => ?_) hkey (fun z s hs => ?_) hstale
    · rw [score?_remove, if_neg hne]
    · exact countFrom_filter_le.trans (h.room k)
    · rw [score?_remove, if_pos rfl] at hs
      cases hs
  · simpa [ho] using h

end

/-- The store after the first loop of an acquire. -/
def purged (r : LeaseStore) (resources : List RouteLeaseResource) : LeaseStore :=
  r.modifySets ((reached r resources).map (·.key)) (.dropUpTo r.now)

theorem purged_eq :
    purged r resources = { r with
      sets := fun k => if k ∈ (reached r resources).map (·.key) then (r.sets k).dropUpTo r.now
        else r.sets k } :=
  modifySets_eq (dropUpTo_dropUpTo r.now) _

@[simp] theorem purged_now : (purged r resources).now = r.now := modifySets_now _ _

end

/-- An acquire finds one of its keys, finds a set full, or adds its members, which last or not. -/
theorem acquireScript_cases (leaseID requestID : String) (resources : List RouteLeaseResource)
    (ttl : Nat) (r : LeaseStore) :
    ((r.meta? leaseID ≠ none ∨ r.request? requestID ≠ none) ∧
      r.routeLeaseAcquireScript leaseID requestID resources ttl = (r, some 0)) ∨
    (r.meta? leaseID = none ∧ r.request? requestID = none ∧
      (r.routeLeaseAcquireScript leaseID requestID resources ttl =
          (purged r resources, some (-1)) ∨
        (∀ x ∈ resources, HasRoom r x) ∧
          (ttl = 0 ∧ r.routeLeaseAcquireScript leaseID requestID resources ttl =
            (rewritten (purged r resources) (resources.map (·.key)) (.insert leaseID r.now) leaseID
              none requestID (r.requests requestID), none) ∨
          0 < ttl ∧ r.routeLeaseAcquireScript leaseID requestID resources ttl =
            (rewritten (purged r resources) (resources.map (·.key)) (.insert leaseID (r.now + ttl))
              leaseID (some ⟨leaseID, requestID, r.now + ttl, resources.map (·.key), r.now + ttl⟩)
                requestID (some ⟨leaseID, r.now + ttl⟩), some 1)))) := by
  unfold routeLeaseAcquireScript
  rw [makeRoom_spec]
  cases hmeta : r.meta? leaseID with
  | some m => exact .inl ⟨.inl nofun, rfl⟩
  | none =>
    cases hreq : r.request? requestID with
    | some q => exact .inl ⟨.inr nofun, rfl⟩
    | none =>
      refine .inr ⟨rfl, rfl, ?_⟩
      by_cases hroom : ∀ x ∈ resources, HasRoom r x
      · rw [decide_eq_true hroom, ← purged, purged_eq]
        refine .inr ⟨hroom, ?_⟩
        rcases Nat.eq_zero_or_pos ttl with rfl | hpos
        · left
          simp [modifySets_eq fun _ => insert_insert, rewritten, setMeta]
        right
        simp [modifySets_eq fun _ => insert_insert, rewritten, setMeta, setRequest, hpos, hpos.ne']
      · rw [decide_eq_false hroom]
        exact .inl rfl

theorem Ordered.acquire (h : Ordered C r) (hC : ∀ x ∈ resources, x.capacity = C x.key)
    (hnone : r.meta? leaseID = none → r.request? requestID = none →
      ∀ x ∈ reached r resources, NoneExpiring r x.key) (ttl : Nat) :
    Ordered C (r.routeLeaseAcquireScript leaseID requestID resources ttl).1 := by
  rcases acquireScript_cases leaseID requestID resources ttl r with ⟨_, he⟩ | ⟨hmeta, hreq, hcases⟩
  · rw [he]
    exact h
  have hp : Ordered C (purged r resources) := by
    apply h.purge
    intro k hk
    obtain ⟨x, hx, rfl⟩ := List.mem_map.mp hk
    exact hnone hmeta hreq x hx
  rcases hcases with he | ⟨hroom, hcases⟩
  · rw [he]
    exact hp
  have hcard : ∀ k ∈ resources.map (·.key), ((purged r resources).sets k).card < C k := by
    intro k hk
    rw [purged_eq, reached_of_room hroom]
    show card (if _ then _ else _) < _
    rw [if_pos hk]
    obtain ⟨x, hx, rfl⟩ := List.mem_map.mp hk
    have hlt := hroom x hx
    rw [HasRoom, hC x hx] at hlt
    exact Int.ofNat_lt.mp hlt
  have hfits : ∀ expiry, ∀ k ∈ resources.map (·.key),
      (((purged r resources).sets k).insert leaseID expiry).countFrom r.now ≤ C k :=
    fun _ k hk => countFrom_le_card.trans (card_insert_le.trans (hcard k hk))
  have hkey : ∀ q, (purged r resources).request? requestID = some q → q.leaseID = leaseID := by
    rw [purged_eq]
    exact fun q hq => nomatch hreq.symm.trans hq
  have hstale : ∀ k, k ∉ resources.map (·.key) → ∀ s,
      ((purged r resources).sets k).score? leaseID = some s → s ≤ r.now := by
    intro k _ s hs
    rw [← purged_now (r := r) resources]
    exact hp.stale (by rw [purged_eq]; exact hmeta) hs
  rw [← purged_now (r := r) resources] at hfits hstale
  rcases hcases with ⟨_, he⟩ | ⟨hpos, he⟩ <;> rw [he, ← purged_now (r := r) resources]
  · exact hp.grantedNothing _ (hfits _) hkey hstale
  · exact hp.granted hpos (hfits _) hkey hstale

theorem acquireRouteLease_store (requestID leaseID : String) (ttl : Int)
    (resources : List RouteLeaseResource) (r : LeaseStore) :
    (acquireRouteLease requestID leaseID ttl resources r).1 =
      if acquirable requestID leaseID ttl resources then
        (r.routeLeaseAcquireScript leaseID requestID resources (milliseconds ttl)).1
      else r := by
  unfold acquireRouteLease
  cases acquirable requestID leaseID ttl resources with
  | false => rfl
  | true =>
    simp only [Bool.not_true, Bool.false_eq_true, if_false, if_true]
    split <;> rename_i he <;> rw [he]

theorem next_release (r : LeaseStore) (lease : RouteLease) :
    r.next (.release lease) = r ∨
      r.next (.release lease) = (r.routeLeaseReleaseScript lease).1 := by
  simp only [next, releaseRouteLease]
  split
  · exact .inl rfl
  · right
    split <;> rename_i he <;> rw [he]

theorem next_renew (r : LeaseStore) (lease : RouteLease) (ttl : Int) :
    r.next (.renew lease ttl) = r ∨
      r.next (.renew lease ttl) = (r.routeLeaseRenewScript lease (milliseconds ttl)).1 := by
  simp only [next, renewRouteLease]
  split
  · exact .inl rfl
  · right
    split <;> rename_i he <;> rw [he]

/-- Each resource key is always used with its own capacity. -/
def UsesCapacities (C : String → Nat) : LeaseOp → Prop
  | .acquire _ _ _ resources => ∀ x ∈ resources, x.capacity = C x.key
  | _ => True

/-- An acquire does not look at a set in the millisecond in which a lease that lists it expires. -/
def SparesExpiring (r : LeaseStore) : LeaseOp → Prop
  | .acquire requestID leaseID ttl resources =>
    acquirable requestID leaseID ttl resources = true → r.meta? leaseID = none →
      r.request? requestID = none → ∀ x ∈ reached r resources, NoneExpiring r x.key
  | _ => True

/-- An acquire that is refused adds no member anywhere. -/
def RefusalsAddNothing (r : LeaseStore) : Prop :=
  ∀ requestID leaseID ttl resources e,
    (acquireRouteLease requestID leaseID ttl resources r).2 = .error e →
      e = .conflict ∨ e = .capacity → ∀ k L s,
        ((acquireRouteLease requestID leaseID ttl resources r).1.sets k).score? L = some s →
          (r.sets k).score? L = some s

structure LeaseSafety (C : String → Nat) (r : LeaseStore) : Prop where
  capacity : ∀ k, (r.sets k).countAbove r.now ≤ C k
  refusals : RefusalsAddNothing r
  unique : ∀ L L' m m', r.meta? L = some m → r.meta? L' = some m' →
    m.requestID = m'.requestID → L = L'
  listed : ∀ L m, r.meta? L = some m →
    ∀ k, k ∈ m.resources ↔ (r.sets k).score? L = some m.expiresAt

theorem purged_subset (h : ((purged r resources).sets k).score? L = some s) :
    (r.sets k).score? L = some s := by
  rw [purged_eq] at h
  change score? (if _ then _ else _) L = some s at h
  split at h
  · exact (score?_dropUpTo.mp h).1
  · exact h

theorem refusalsAddNothing (r : LeaseStore) : RefusalsAddNothing r := by
  intro requestID leaseID ttl resources e hres he k L s hs
  have hstore := acquireRouteLease_store requestID leaseID ttl resources r
  cases hok : acquirable requestID leaseID ttl resources with
  | false =>
    rw [hstore, hok] at hs
    exact hs
  | true =>
    rw [hstore, hok, if_pos rfl] at hs
    unfold acquireRouteLease at hres
    rcases acquireScript_cases leaseID requestID resources (milliseconds ttl) r with
      ⟨_, hx⟩ | ⟨_, _, hx | ⟨_, ⟨_, hx⟩ | ⟨_, hx⟩⟩⟩
    all_goals rw [hx] at hs
    · exact hs
    · exact purged_subset hs
    -- With room in all the sets the script answers neither 0 nor -1.
    · rw [hok, hx] at hres
      cases hres
      rcases he with he | he <;> cases he
    · rw [hok, hx] at hres
      cases hres

theorem Ordered.safe (h : Ordered C r) : LeaseSafety C r := by
  refine ⟨fun k => countAbove_le_countFrom.trans (h.room k), refusalsAddNothing r, ?_,
    fun L => (h.settled L).listed⟩
  intro L L' m m' hm hm' he
  have hq := ((h.settled L).owner m hm).2.2
  have hq' := ((h.settled L').owner m' hm').2.2
  rw [he, hq'] at hq
  exact (congrArg LeaseOwner.leaseID (Option.some.inj hq)).symm

theorem Ordered.next (h : Ordered C r) (op : LeaseOp) (hC : UsesCapacities C op)
    (hg : SparesExpiring r op) : Ordered C (r.next op) := by
  cases op with
  | acquire requestID leaseID ttl resources =>
    show Ordered C (acquireRouteLease requestID leaseID ttl resources r).1
    rw [acquireRouteLease_store]
    split
    · exact h.acquire hC (hg ‹_›) _
    · exact h
  | renew lease ttl =>
    rcases next_renew r lease ttl with he | he <;> rw [he]
    · exact h
    · exact h.renew _
  | release lease =>
    rcases next_release r lease with he | he <;> rw [he]
    · exact h
    · exact h.release
  | elapse ms => exact h.elapse ms

theorem unlisted_of_tie (hmeta : r.meta? leaseID = none) (hreq : r.request? requestID = none)
    (hx : x ∈ reached r resources) (hm : r.meta? L = some m) (hnow : m.expiresAt = r.now)
    (ttl : Nat) :
    (r.routeLeaseAcquireScript leaseID requestID resources ttl).1.meta? L = some m ∧
      ((r.routeLeaseAcquireScript leaseID requestID resources ttl).1.sets x.key).score? L ≠
        some m.expiresAt := by
  have hne : L ≠ leaseID := by
    rintro rfl
    rw [hmeta] at hm
    cases hm
  have hgone : ((purged r resources).sets x.key).score? L ≠ some m.expiresAt := by
    rw [purged_eq]
    show score? (if _ then _ else _) L ≠ _
    rw [if_pos (List.mem_map.mpr ⟨x, hx, rfl⟩), hnow]
    exact fun hs => absurd (score?_dropUpTo.mp hs).2 (lt_irrefl _)
  have hkept : (purged r resources).meta? L = some m := by
    rw [purged_eq]
    exact hm
  rcases acquireScript_cases leaseID requestID resources ttl r with
    ⟨hfound, _⟩ | ⟨_, _, he | ⟨_, ⟨_, he⟩ | ⟨_, he⟩⟩⟩
  · rcases hfound with hfound | hfound
    · exact absurd hmeta hfound
    · exact absurd hreq hfound
  all_goals rw [he]
  · exact ⟨hkept, hgone⟩
  all_goals rw [rewritten_meta? hne, rewritten_score? (score?_insert_other _) hne]
  · exact ⟨hkept, hgone⟩
  · exact ⟨hkept, hgone⟩

theorem unsafe_of_tie (h : ¬ SparesExpiring r op) : ¬ LeaseSafety C (r.next op) := by
  cases op with
  | acquire requestID leaseID ttl resources =>
    simp only [SparesExpiring, NoneExpiring, not_forall, not_not] at h
    obtain ⟨hok, hmeta, hreq, x, hx, L, m, hm, hnow, hk⟩ := h
    intro hsafe
    have hstore := acquireRouteLease_store requestID leaseID ttl resources r
    rw [if_pos hok] at hstore
    obtain ⟨hm', hs⟩ := unlisted_of_tie hmeta hreq hx hm hnow (milliseconds ttl)
    rw [← hstore] at hm' hs
    exact hs ((hsafe.listed L m hm' x.key).mp hk)
  | renew | release | elapse => exact absurd trivial h

/-- Leases stay within capacity, one for a request and with hashes that list their sets, exactly if
no acquire purges a set in the last millisecond of a lease in it. -/
theorem leases_within_capacity_iff (C : String → Nat) (ops : List LeaseOp)
    (hC : ∀ op ∈ ops, UsesCapacities C op) :
    (∀ pre, pre <+: ops → LeaseSafety C (pre.foldl next {})) ↔ Along next SparesExpiring {} ops :=
  along_iff (J := fun _ => True) (K := Ordered C) (fun _ _ _ _ => trivial)
    (fun _ op hop h hg => h.next op hop hg) (fun _ h => h.safe)
    (fun _ _ _ _ hg => unsafe_of_tie hg) trivial .initial ops (along_of_forall _ hC)

def inTurn : List LeaseOp :=
  [.acquire "a" "lease a" 10000000 [⟨"channel", 1⟩], .elapse 11,
    .acquire "b" "lease b" 10000000 [⟨"channel", 1⟩]]

theorem leases_within_capacity_in_turn :
    (∀ op ∈ inTurn, UsesCapacities (fun _ => 1) op) ∧
      ∀ pre, pre <+: inTurn → LeaseSafety (fun _ => 1) (pre.foldl next {}) := by
  have hC : ∀ op ∈ inTurn, UsesCapacities (fun _ => 1) op := by
    intro op hop
    simp only [inTurn, List.mem_cons, List.not_mem_nil, or_false] at hop
    rcases hop with rfl | rfl | rfl <;> simp [UsesCapacities]
  refine ⟨hC, (leases_within_capacity_iff _ _ hC).mpr ⟨?_, trivial, ?_, trivial⟩⟩
  · exact fun _ _ _ _ _ _ _ hm => nomatch hm
  intro _ _ _ _ _ L m hm
  obtain ⟨hm, hlive⟩ := meta?_some.mp hm
  change Function.update (fun _ => (none : Option LeaseMeta)) "lease a" _ L = some m at hm
  by_cases hL : L = "lease a"
  · rw [hL, update_self] at hm
    cases hm
    exact absurd hlive (by decide)
  · rw [update_of_ne hL] at hm
    cases hm

/-- One slot: the second lease comes while the first can still be renewed, and both count until 20.
-/
theorem renewal_in_the_last_millisecond_exceeds_capacity :
    let r := [LeaseOp.acquire "a" "lease a" 10000000 [⟨"channel", 1⟩], .elapse 10,
      .acquire "b" "lease b" 10000000 [⟨"channel", 1⟩],
      .renew ⟨"lease a", "a", [⟨"channel", 1⟩]⟩ 10000000].foldl next {}
    r.now = 10 ∧ (r.sets "channel").score? "lease a" = some 20 ∧
      (r.sets "channel").score? "lease b" = some 20 ∧ (r.sets "channel").countAbove r.now = 2 ∧
      ¬ LeaseSafety (fun _ => 1) r := by
  refine ⟨by decide, by decide, by decide, by decide, fun h => ?_⟩
  exact absurd (h.capacity "channel") (by decide)

end Ren2Hub.Proofs.LeaseRuns
