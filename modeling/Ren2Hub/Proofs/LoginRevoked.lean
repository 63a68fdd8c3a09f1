import Ren2Hub.Lib.Rules
import Ren2Hub.Proofs.LoginCalls

namespace Ren2Hub.Proofs.LoginRevoked
open Lib Lib.Machine Auth.Session LoginSpec LoginCalls SessionState List

variable {site : SessionSite} {s t : SessionState} {u : UserSession} {c : SessionCall}

/-- The latest deadline a copy of the active row can have. -/
def horizon (site : SessionSite) (s : SessionState) : Int := s.revokedSince.getD s.now + site.ttl

/-- The hash denies until no copy can be cached any more, or that time has come. -/
def Sealed (site : SessionSite) (s : SessionState) : Prop :=
  ∀ u ∈ s.rows,
    (∃ e w, s.hash = some (e, w) ∧ Denies e.status ∧ min (horizon site s) (sessionEnd u) ≤ w) ∨
      min (horizon site s) (sessionEnd u) ≤ s.now

structure Shut (site : SessionSite) (s : SessionState) : Prop where
  since : ∀ r, s.revokedSince = some r → r ≤ s.now
  snapshots : ∀ x ∈ s.snapshots, x.2 ≤ horizon site s
  hash : ∀ e w, s.hash = some (e, w) → e.status = .active →
    w ≤ horizon site s ∧ ∃ u ∈ s.rows, w ≤ sessionEnd u
  tombstone : s.tombstoned = true → s.revokedSince.isSome = true ∧ Sealed site s
  returned : s.revocationReturned = true → s.tombstoned = true
  observed : ∀ x ∈ s.observed, x.1.revoked = false
  served : ∀ x ∈ s.served, x.1.revoked = false

/-- A tombstone finds no higher version in the hash. -/
def TombstoneTaken : SessionCall → SessionState → Prop
  | .eval entry _, s => entry.status = .revoked → s.revokedSince.isSome = true →
      ∀ current ∈ s.live, current.version ≤ entry.version
  | _, _ => True

instance (c : SessionCall) (s : SessionState) : Decidable (TombstoneTaken c s) := by
  cases c <;> dsimp only [TombstoneTaken] <;> infer_instance

theorem Shut.not_live (h : Shut site s) (ht : s.tombstoned = true) (hl : s.live = some e) :
    e.status ≠ .active := by
  intro ha
  obtain ⟨w, hh, hw⟩ := live_eq_some hl
  obtain ⟨hhor, u, hu, hend⟩ := h.hash e w hh ha
  rcases (h.tombstone ht).2 u hu with ⟨e', w', hh', hd, _⟩ | hover
  · rw [hh] at hh'
    cases hh'
    exact hd.not_active ha
  · omega

theorem Shut.of_open (h : Shut site s) (hn : s.revokedSince = none)
    (hsince : t.revokedSince = none ∨ t.revokedSince = some s.now) (hnow : t.now = s.now)
    (hhash : t.hash = s.hash) (htomb : t.tombstoned = s.tombstoned)
    (hret : t.revocationReturned = s.revocationReturned) (hserved : t.served = s.served)
    (hrows : s.rows ⊆ t.rows)
    (hsnap : ∀ x ∈ t.snapshots, x ∈ s.snapshots ∨ x.2 ≤ s.now + site.ttl)
    (hobs : ∀ x ∈ t.observed, x ∈ s.observed ∨ x.1.revoked = false) : Shut site t := by
  have hor : horizon site t = horizon site s := by
    unfold horizon
    rw [hn, hnow]
    rcases hsince with he | he
    · rw [he]
    · rw [he]
      rfl
  have hno : s.tombstoned = false := by
    by_contra hne
    have := (h.tombstone (by simpa using hne)).1
    rw [hn] at this
    cases this
  constructor
  · intro r hr
    rcases hsince with he | he <;> rw [he] at hr <;> cases hr
    exact Int.le_of_eq hnow.symm
  · intro x hx
    rw [hor]
    rcases hsnap x hx with hx | hx
    · exact h.snapshots x hx
    unfold horizon
    rw [hn]
    exact hx
  · intro e w hw ha
    rw [hhash] at hw
    obtain ⟨hle, u, hu, hend⟩ := h.hash e w hw ha
    exact ⟨hor ▸ hle, u, hrows hu, hend⟩
  · intro ht
    rw [htomb, hno] at ht
    cases ht
  · intro hr
    rw [hret] at hr
    rw [htomb]
    exact h.returned hr
  · intro x hx
    rcases hobs x hx with hx | hx
    · exact h.observed x hx
    · exact hx
  · rw [hserved]
    exact h.served

theorem Shut.mark_open (h : Shut site s) (hn : s.revokedSince = none) (hm : Marked s mark) :
    mark.revoked = false := by
  by_contra hne
  have := (h.tombstone (h.returned (hm.1 (by simpa using hne)))).1
  rw [hn] at this
  cases this

theorem sealed_store (hk : Kept s) (hr : s.revokedSince = some r) (hle : r ≤ s.now)
    {entry : UserSessionCacheEntry} {redisExpiration : Int} (hd : Denies entry.status)
    (hu : u ∈ s.rows) (hexp : site.ttl ≤ redisExpiration ∨ sessionEnd u ≤ s.now + redisExpiration) :
    Sealed site (s.store entry redisExpiration) := by
  intro v hv
  have hend : sessionEnd v = sessionEnd u := sessionEnd_eq hk hv hu
  have hor : horizon site (s.store entry redisExpiration) = r + site.ttl := by
    simp [horizon, store, hr]
  have hbound : min (r + site.ttl) (sessionEnd u) ≤ s.now + redisExpiration := by
    rcases hexp with h | h <;> omega
  rw [hor, hend]
  simp only [store, expiryOf, if_neg hd.not_active]
  split
  · exact .inr (by omega)
  · exact .inl ⟨entry, _, rfl, hd, hbound⟩

theorem accepts_denial {entry : UserSessionCacheEntry} (hd : Denies entry.status)
    (hpos : 0 ≤ entry.version) (hv : ∀ current ∈ s.live, current.version ≤ entry.version) :
    s.accepts entry = true := by
  unfold accepts
  split
  · simpa using hpos
  · rename_i current hl
    simp [hd.not_active, hv current hl]

theorem accepts_active (ha : entry.status = .active) (hl : s.live = some current)
    (hd : Denies current.status) : s.accepts entry = false := by
  unfold accepts
  rw [hl]
  rcases hd with h | h <;> simp [ha, h]

theorem Shut.eval_active (h : Shut site s) (ha : entry.status = .active)
    (hmem : (u, d) ∈ s.snapshots) (hk : Kept s) :
    Shut site (s.evalScript entry (min d (sessionEnd u))) := by
  have htomb : (s.tombstoned || (entry.status = .revoked && s.revokedSince.isSome)) =
      s.tombstoned := by simp [ha]
  cases hacc : s.accepts entry with
  | false =>
    rw [evalScript_refused hacc, htomb]
    exact h
  | true =>
    simp only [evalScript, hacc, if_true, htomb, store, expiryOf, if_pos ha]
    refine ⟨h.since, h.snapshots, fun e w hw _ => ?_, fun ht => ?_, h.returned, h.observed,
      h.served⟩
    · simp only at hw
      split at hw
      · cases hw
      cases hw
      have := h.snapshots _ hmem
      exact ⟨Int.le_trans (min_le_left _ _) this, u, hk.snapshots _ hmem, min_le_right _ _⟩
    · refine ⟨(h.tombstone ht).1, fun v hv => .inr ?_⟩
      rcases (h.tombstone ht).2 v hv with ⟨e, w, hh, hd, hle⟩ | hover
      · -- a denial that still lives would have refused the entry
        by_contra hlt
        have hw : s.now < w := by
          simp only [horizon] at hle hlt
          omega
        rw [accepts_active ha (live_of_lt hh hw) hd] at hacc
        cases hacc
      · exact hover

theorem Shut.eval_denial (h : Shut site s) (hk : Kept s) {entry : UserSessionCacheEntry}
    {redisExpiration : Int} (hd : Denies entry.status) (hu : u ∈ s.rows) (habout : About entry u)
    (hexp : site.ttl ≤ redisExpiration ∨ sessionEnd u ≤ s.now + redisExpiration)
    (hg : TombstoneTaken (.eval entry redisExpiration) s) :
    Shut site (s.evalScript entry redisExpiration) := by
  have hpos : 0 ≤ entry.version := by
    rw [habout.1]
    exact hk.versions u hu
  cases hacc : s.accepts entry with
  | false =>
    rw [evalScript_refused hacc]
    refine ⟨h.since, h.snapshots, h.hash, fun ht => ?_, fun hr => ?_, h.observed, h.served⟩
    · simp only [Bool.or_eq_true, Bool.and_eq_true, decide_eq_true_eq] at ht
      rcases ht with ht | ⟨hrev, hs⟩
      · exact h.tombstone ht
      · rw [accepts_denial hd hpos (hg hrev hs)] at hacc
        cases hacc
    · simp [h.returned hr]
  | true =>
    simp only [evalScript, hacc, if_true]
    refine ⟨h.since, h.snapshots, fun e w hw ha => ?_, fun ht => ?_, fun hr => ?_, h.observed,
      h.served⟩
    · simp only [store] at hw
      split at hw
      · cases hw
      · cases hw
        exact absurd ha hd.not_active
    · have hs : s.revokedSince.isSome = true := by
        simp only [Bool.or_eq_true, Bool.and_eq_true, decide_eq_true_eq] at ht
        rcases ht with ht | ⟨_, hs⟩
        · exact (h.tombstone ht).1
        · exact hs
      obtain ⟨r, hr⟩ := Option.isSome_iff_exists.mp hs
      exact ⟨hs, sealed_store hk hr (h.since r hr) hd hu hexp⟩
    · simp [h.returned hr]

theorem Shut.noteRead (h : Shut site s) (hn : s.revokedSince = none)
    (hd : ∀ d ∈ deadline, d ≤ s.now + site.ttl) (hm : ∀ k ∈ mark, Marked s k) :
    Shut site (s.noteRead u deadline mark) := by
  obtain ⟨_, _, he⟩ := noteRead_eq s u deadline mark
  rw [he]
  refine h.of_open hn (.inl hn) rfl rfl rfl rfl rfl (List.Subset.refl _) (fun x hx => ?_)
    fun x hx => ?_
  · rcases mem_noteRead_snapshots (he ▸ hx) with hx | ⟨d, hmem, rfl⟩
    · exact .inl hx
    · exact .inr (hd d hmem)
  rcases mem_noteRead_observed (he ▸ hx) with hx | ⟨k, hmem, rfl⟩
  · exact .inl hx
  · exact .inr (h.mark_open hn (hm k hmem))

theorem Shut.setRow (h : Shut site s) (hn : s.revokedSince = none) (v : UserSession) :
    Shut site (s.setRow v) :=
  h.of_open hn (.inl hn) rfl rfl rfl rfl rfl (subset_cons_self _ _) (fun _ hx => .inl hx)
    fun _ hx => .inl hx

theorem Shut.revokeRow (h : Shut site s) (hn : s.revokedSince = none) (v : UserSession)
    (now : Int) (reason : String) : Shut site (s.revokeRow v now reason) :=
  h.of_open hn (.inr rfl) rfl rfl rfl rfl rfl (subset_cons_self _ _) (fun _ hx => .inl hx)
    fun _ hx => .inl hx

theorem Shut.pass (h : Shut site s) (time : Nat) :
    Shut site { s with now := s.now + time } := by
  have hor : horizon site s ≤ horizon site { s with now := s.now + time } := by
    unfold horizon
    cases s.revokedSince with
    | none => exact Int.add_le_add_right (Int.le_add_of_nonneg_right (Int.natCast_nonneg time)) _
    | some r => exact Int.le_refl _
  refine ⟨fun r hr => ?_, fun x hx => ?_, fun e w hw ha => ?_, fun ht => ?_, h.returned, h.observed,
    h.served⟩
  · have := h.since r hr
    simp only
    omega
  · exact Int.le_trans (h.snapshots x hx) hor
  · exact ⟨Int.le_trans (h.hash e w hw ha).1 hor, (h.hash e w hw ha).2⟩
  obtain ⟨hs, hseal⟩ := h.tombstone ht
  obtain ⟨r, hr⟩ := Option.isSome_iff_exists.mp hs
  refine ⟨hs, fun u hu => ?_⟩
  rcases hseal u hu with hdeny | hover
  · exact .inl (by simpa [horizon, hr] using hdeny)
  refine .inr ?_
  simp only [horizon, hr, Option.getD_some] at hover ⊢
  omega

theorem Shut.exec (h : Shut site s) (hk : Kept s) (hc : License site c s)
    (hg : TombstoneTaken c s) : Shut site (c.exec s).1 := by
  have he := exec_effect c s
  generalize (c.exec s).1 = t at he
  cases he with
  | same => exact h
  | passed time => exact h.pass time
  | @saw entry mark hl ha =>
    refine ⟨h.since, h.snapshots, h.hash, h.tombstone, h.returned, fun x hx => ?_, h.served⟩
    rcases mem_cons.mp hx with rfl | hx
    · by_contra hne
      exact h.not_live (h.returned (hc.1 (by simpa using hne))) hl ha
    · exact h.observed x hx
  | @evaluated entry redisExpiration =>
    simp only [License] at hc
    split at hc
    · obtain ⟨u, d, hmem, _, rfl⟩ := hc
      exact h.eval_active ‹_› hmem hk
    · obtain ⟨hd, u, hu, habout, hexp⟩ := hc
      exact h.eval_denial hk hd hu habout hexp hg
  | found hr ha => exact h.noteRead (hk.since_none hr ha) hc.1 hc.2
  | inserted hr =>
    have hn : s.revokedSince = none := by
      by_contra hne
      obtain ⟨r, hr', _⟩ := hk.revoked.mp (Option.isSome_iff_ne_none.mpr hne)
      rw [hr] at hr'
      cases hr'
    refine (h.setRow hn _).noteRead hn (fun d hd => ?_) fun _ hm => by cases hm
    cases hd
    exact hc.2.2.2
  | exchanged hr ha =>
    have hn := hk.since_none hr ha
    exact h.of_open hn (.inl hn) rfl rfl rfl rfl rfl (subset_cons_self _ _)
      (fun _ hx => .inl hx) fun _ hx => .inl hx
  | reused hr ha =>
    exact h.of_open (hk.since_none hr ha) (.inr rfl) rfl rfl rfl rfl rfl
      (subset_cons_self _ _) (fun _ hx => .inl hx) fun _ hx => .inl hx
  | revoked hr ha => exact h.revokeRow (hk.since_none hr ha) _ _ _
  | @advanced u _ _ _ next deadline time hr ha =>
    have hn := hk.since_none hr ha
    have hset : Shut site ((s.setRow (u.advance next time)).noteRead (u.advance next time)
        (some deadline) none) := by
      refine (h.setRow hn _).noteRead hn (fun d hd => ?_) fun _ hm => by cases hm
      cases hd
      exact hc
    exact ⟨hset.since, hset.snapshots, hset.hash, hset.tombstone, hset.returned, hset.observed,
      hset.served⟩
  | users | versioned | handed =>
    exact ⟨h.since, h.snapshots, h.hash, h.tombstone, h.returned, h.observed, h.served⟩
  | served =>
    refine ⟨h.since, h.snapshots, h.hash, h.tombstone, h.returned, h.observed, fun x hx => ?_⟩
    rcases mem_cons.mp hx with rfl | hx
    · obtain ⟨u, hu, _⟩ := hc
      exact h.observed (_, u) hu
    · exact h.served x hx
  | returned =>
    exact ⟨h.since, h.snapshots, h.hash, h.tombstone, fun _ => hc, h.observed, h.served⟩

theorem shut_beginning (site : SessionSite) (now : Int) : Shut site { now } where
  since := fun _ h => by cases h
  snapshots := forall_mem_nil _
  hash := fun _ _ h => by cases h
  tombstone := fun h => by cases h
  returned := fun h => by cases h
  observed := forall_mem_nil _
  served := forall_mem_nil _

/-- Where tombstones find no higher version in the hash, no lookup that starts after a revocation
has returned hands the session back. -/
theorem revoked_session_not_served (site : SessionSite) (now : Int) (jobs : List SessionJob)
    (sched : List Choice)
    (hg : sessionMachine.Meets TombstoneTaken sched (beginning site now jobs)) :
    ∀ x ∈ (sessionMachine.run (beginning site now jobs) sched).state.served, x.1.revoked = false :=
  (run_licensed (lawful site) (fun _ _ _ hk hc hg h => Shut.exec h hk hc hg)
    (earned_beginning site now jobs) (fun _ _ _ => trivial) hg (shut_beginning site now)).served

/-- A lookup has read the row when a revocation runs, and writes its copy before another starts. -/
def lateFill : List SessionJob :=
  [.create loginSession "s", .pass 60001, .lookup, .revoke 7 "logout", .lookup, .lookup]

def lateFillTurns : List Choice := turns [(0, 6), (4, 4), (1, 1), (2, 5), (3, 8), (2, 9), (5, 9)]

theorem late_fill_not_served :
    sessionMachine.Meets TombstoneTaken lateFillTurns (beginning sampleSite 1000000 lateFill) ∧
      (sessionMachine.run (beginning sampleSite 1000000 lateFill)
        lateFillTurns).state.revocationReturned = true ∧
      ∀ x ∈ (sessionMachine.run (beginning sampleSite 1000000 lateFill)
        lateFillTurns).state.served, x.1.revoked = false :=
  ⟨by decide +kernel, by decide +kernel,
    revoked_session_not_served sampleSite 1000000 lateFill lateFillTurns (by decide +kernel)⟩

/-- The first revocation has read version 1 when the session advances; the second one reads version
2 and puts its fence over the first. -/
def twoFences : List SessionJob :=
  [.create loginSession "s", .pass 60001, .lookup, .revoke 7 "logout", .advance 7 1 1 2,
   .revoke 7 "logout", .pass 2, .pass 59999, .lookup]

def fenceTurns : List Choice := turns [(0, 6), (1, 1), (2, 2), (3, 2), (4, 3), (3, 2)]

def tombstoneTurns : List Choice := fenceTurns ++ turns [(5, 4), (6, 1), (2, 3), (3, 2)]

def fillTurns : List Choice := tombstoneTurns ++ turns [(3, 2), (7, 1), (2, 4), (8, 4)]

/-- The first tombstone is refused for its version while its fence lasts; the second fence expires,
and an old copy is cached. -/
theorem refused_tombstone_serves_again :
    ((sessionMachine.run (beginning sampleSite 1000000 twoFences) fenceTurns).state.hash.map
        fun x => (x.1.version, x.1.status, x.2)) = some (1, .revoking, 1120001) ∧
      (sessionMachine.run (beginning sampleSite 1000000 twoFences) tombstoneTurns).state.now =
        1060003 ∧
      (sessionMachine.run (beginning sampleSite 1000000 twoFences) fillTurns).state.served.map
        (fun x => (x.1.revoked, x.2.version, x.2.status)) =
        [(true, 2, .active), (false, 2, .active)] := by
  decide +kernel

def Ages (row row' : Option UserSession) : Prop :=
  ∀ r ∈ row, ∃ r' ∈ row', r'.expiresAt = r.expiresAt ∧ r.version ≤ r'.version ∧
    (r.status ≠ .active → r'.status ≠ .active)

/-- Along every run the row stays, with its end; its version does not fall, and it never becomes
active again. -/
theorem session_row_ages (site : SessionSite) (now : Int) (jobs : List SessionJob)
    (sched more : List Choice) :
    let cfg := sessionMachine.run (beginning site now jobs) sched
    Ages cfg.state.row (sessionMachine.run cfg more).state.row := by
  intro cfg r hr
  have he : Earned sessionMachine (terms site) _ cfg :=
    (earned_beginning site now jobs).run (lawful site) (meets_true ..)
  have hlater : Later cfg.state (sessionMachine.run cfg more).state :=
    run_licensed (lawful site) (fun _ c s hk hc _ h => h.trans (exec_keeps site c s hk hc).2) he
      (fun _ _ _ => trivial) (meets_true ..) (Later.refl _)
  have hkept := (he.run (lawful site) (meets_true more _)).1
  have hm := hlater.rows (he.1.row_mem hr)
  obtain ⟨r', hr'⟩ := Option.isSome_iff_exists.mp (isSome_head?.mpr (ne_nil_of_mem hm))
  have hr' := hkept.row.trans hr'
  refine ⟨r', hr', ((hkept.rows r hm r' hr').1).symm, (hkept.rows r hm r' hr').2, fun ha => ?_⟩
  have hsince := he.1.revoked.mpr ⟨r, hr, ha⟩
  obtain ⟨q, hq, hs⟩ := hkept.revoked.mp (by rwa [hlater.revoked hsince])
  cases hr'.symm.trans hq
  exact hs

end Ren2Hub.Proofs.LoginRevoked
