import Mathlib.Order.MinMax
import Ren2Hub.Auth.Session
import Ren2Hub.Lib.License

namespace Ren2Hub.Proofs.LoginSpec
open Lib Lib.Machine Auth.Session

variable {site : SessionSite} {s t : SessionState}

/-- History agrees with the row. -/
structure Kept (s : SessionState) : Prop where
  row : s.row = s.rows.head?
  rows : ∀ u ∈ s.rows, ∀ r ∈ s.row, u.expiresAt = r.expiresAt ∧ u.version ≤ r.version
  versions : ∀ u ∈ s.rows, 0 ≤ u.version
  snapshots : ∀ x ∈ s.snapshots, x.1 ∈ s.rows
  revoked : s.revokedSince.isSome = true ↔ ∃ r, s.row = some r ∧ r.status ≠ .active

/-- History only grows. -/
structure Later (s t : SessionState) : Prop where
  now : s.now ≤ t.now
  rows : s.rows ⊆ t.rows
  snapshots : s.snapshots ⊆ t.snapshots
  advances : s.advances ⊆ t.advances
  published : s.published ⊆ t.published
  observed : s.observed ⊆ t.observed
  revoked : s.revokedSince.isSome = true → t.revokedSince = s.revokedSince
  tombstoned : s.tombstoned = true → t.tombstoned = true
  returned : s.revocationReturned = true → t.revocationReturned = true
  version : s.versionReturned ≤ t.versionReturned

theorem Later.refl (s : SessionState) : Later s s where
  now := Int.le_refl _
  rows := fun _ h => h
  snapshots := fun _ h => h
  advances := fun _ h => h
  published := fun _ h => h
  observed := fun _ h => h
  revoked := fun _ => rfl
  tombstoned := id
  returned := id
  version := Int.le_refl _

theorem Later.trans (h : Later s t) (h' : Later t v) : Later s v where
  now := Int.le_trans h.now h'.now
  rows := List.Subset.trans h.rows h'.rows
  snapshots := List.Subset.trans h.snapshots h'.snapshots
  advances := List.Subset.trans h.advances h'.advances
  published := List.Subset.trans h.published h'.published
  observed := List.Subset.trans h.observed h'.observed
  revoked := fun hs => by
    have ht := h.revoked hs
    rw [h'.revoked (by rw [ht]; exact hs), ht]
  tombstoned := h'.tombstoned ∘ h.tombstoned
  returned := h'.returned ∘ h.returned
  version := Int.le_trans h.version h'.version

def sessionEnd (u : UserSession) : Int := 1000 * u.expiresAt

/-- The mark of a lookup is not ahead of what has returned. -/
def Marked (s : SessionState) (mark : Mark) : Prop :=
  (mark.revoked = true → s.revocationReturned = true) ∧ mark.version ≤ s.versionReturned

/-- The entry is about this version of the session. -/
def About (entry : UserSessionCacheEntry) (u : UserSession) : Prop :=
  entry.version = u.version ∧ entry.expiresAt = u.expiresAt

def Denies (status : SessionStatus) : Prop := status = .revoking ∨ status = .revoked

theorem Denies.not_active (h : Denies status) : status ≠ .active := by
  rcases h with rfl | rfl <;> decide

/-- Copies are values the row has had, deadlines not from the future, and what is reported has
happened. -/
def License (site : SessionSite) : SessionCall → SessionState → Prop
  | .hGetObj mark, s => Marked s mark
  | .first _ deadline mark, s =>
    (∀ d ∈ deadline, d ≤ s.now + site.ttl) ∧ ∀ k ∈ mark, Marked s k
  | .insert session deadline, s =>
    session.status = .active ∧ 0 ≤ session.version ∧
      (∃ x, session.refreshHash = site.hashRefreshSecret x) ∧ deadline ≤ s.now + site.ttl
  | .advance _ _ _ _ _ deadline, s => deadline ≤ s.now + site.ttl
  | .eval entry redisExpiration, s =>
    if entry.status = .active then
      ∃ u d, (u, d) ∈ s.snapshots ∧ About entry u ∧ redisExpiration = min d (sessionEnd u)
    else
      Denies entry.status ∧ ∃ u ∈ s.rows, About entry u ∧
        (site.ttl ≤ redisExpiration ∨ sessionEnd u ≤ s.now + redisExpiration)
  | .exchange _ presentedHash nextHash _ _, _ =>
    ∃ x, presentedHash = site.hashRefreshSecret x ∧
      nextHash = site.hashRefreshSecret (site.deriveNextRefreshSecret x)
  | .revokeReuse _ now presentedHash, s =>
    ∃ u ∈ s.rows, u.afterFind.previousRefreshHash = presentedHash ∧ u.previousValidUntil < now
  | .serve mark session, s => ∃ u, (mark, u) ∈ s.observed ∧ session.version = u.version
  | .revocationReturned, s => s.tombstoned = true
  | .advanceReturned version deadline, s =>
    (version, deadline) ∈ s.advances ∧ ∃ u ∈ s.rows, min deadline (sessionEnd u) ≤ s.now ∨
      (version, min deadline (sessionEnd u)) ∈ s.published
  | .handOut secret nextSecret, s =>
    nextSecret = site.deriveNextRefreshSecret secret ∧
      ∃ u ∈ s.rows, u.refreshHash = site.hashRefreshSecret nextSecret
  | _, _ => True

def terms (site : SessionSite) : Terms SessionCall SessionState where
  inv := Kept
  later := fun _ => Later
  license := fun _ => License site

inductive Effect (s : SessionState) : SessionCall → SessionState → Prop
  | same : Effect s c s
  | passed (time : Nat) : Effect s (.pass time) { s with now := s.now + time }
  | saw : s.live = some entry → entry.status = .active →
      Effect s (.hGetObj mark) { s with observed := (mark, entry.session) :: s.observed }
  | evaluated : Effect s (.eval entry redisExpiration) (s.evalScript entry redisExpiration)
  | found : s.row = some u → u.status = .active →
      Effect s (.first userID deadline mark) (s.noteRead u deadline mark)
  | inserted : s.row = none →
      Effect s (.insert session deadline)
        ((s.setRow session).noteRead session (some deadline) none)
  | exchanged {time : Int} : s.row = some u → u.status = .active → u.refreshHash = presentedHash →
      Effect s (.exchange userID presentedHash nextHash time graceSeconds)
        { s.setRow (u.exchange presentedHash nextHash time graceSeconds) with
          exchanged := (presentedHash, nextHash) :: s.exchanged }
  | reused {time : Int} : s.row = some u → u.status = .active →
      Effect s (.revokeReuse userID time presentedHash)
        { s.revokeRow u time "refresh_reuse" with reused := (presentedHash, time) :: s.reused }
  | revoked {time : Int} : s.row = some u → u.status = .active →
      Effect s c (s.revokeRow u time reason)
  | advanced {time : Int} : s.row = some u → u.status = .active →
      Effect s (.advance userID version authVersion next time deadline)
        { (s.setRow (u.advance next time)).noteRead (u.advance next time) (some deadline) none with
          advances := ((u.advance next time).version, deadline) :: s.advances }
  | users (a b : UserStanding) : Effect s (.setUser a b) { s with userCache := a, user := b }
  | served : Effect s (.serve mark session) { s with served := (mark, session) :: s.served }
  | returned : Effect s .revocationReturned { s with revocationReturned := true }
  | versioned : Effect s (.advanceReturned version deadline)
      { s with versionReturned := max s.versionReturned version }
  | handed : Effect s (.handOut secret nextSecret)
      { s with handedOut := (secret, nextSecret) :: s.handedOut }

variable {u : UserSession}

theorem usable_active (h : u.usable now = true) : u.status = .active := by
  simp only [UserSession.usable, Bool.and_eq_true, decide_eq_true_eq] at h
  exact h.1.1

theorem advances_active (h : u.advances userID v a now = true) : u.status = .active := by
  simp only [UserSession.advances, Bool.and_eq_true, decide_eq_true_eq] at h
  exact h.1.1.1.2

theorem updateRow_cases (s : SessionState) (p : UserSession → Bool)
    (f : UserSession → SessionState) :
    updateRow s p f = (s, false) ∨
      ∃ u, s.row = some u ∧ p u = true ∧ updateRow s p f = (f u, true) := by
  unfold updateRow
  cases hr : s.row with
  | none => exact .inl rfl
  | some u =>
    by_cases hp : p u = true
    · exact .inr ⟨u, rfl, hp, if_pos hp⟩
    · exact .inl (if_neg hp)

theorem exec_effect (c : SessionCall) (s : SessionState) : Effect s c (c.exec s).1 := by
  cases c with
  | pass time => exact .passed time
  | hGetObj mark =>
    simp only [SessionCall.exec]
    split
    · exact .same
    rename_i entry hlive
    unfold SessionState.noteHash
    split
    · exact .saw hlive ‹_›
    · exact .same
  | eval => exact .evaluated
  | first userID deadline mark =>
    simp only [SessionCall.exec]
    split
    · exact .same
    rename_i u hr
    split
    · by_cases ha : u.status = .active
      · exact .found hr ha
      · simp only [SessionState.noteRead, if_neg ha]
        exact .same
    · exact .same
  | insert session deadline =>
    simp only [SessionCall.exec]
    split
    · exact .same
    · exact .inserted ‹_›
  | exchange userID presentedHash nextHash now =>
    simp only [SessionCall.exec]
    rcases updateRow_cases s (·.exchanges userID presentedHash now) _ with he | ⟨u, hr, hu, he⟩ <;>
      rw [he]
    · exact .same
    · simp only [UserSession.exchanges, Bool.and_eq_true, decide_eq_true_eq] at hu
      exact .exchanged hr (usable_active hu.1.2) hu.2
  | revokeReuse =>
    simp only [SessionCall.exec]
    rcases updateRow_cases s _ _ with he | ⟨u, hr, hu, he⟩ <;> rw [he]
    · exact .same
    · simp only [Bool.and_eq_true] at hu
      exact .reused hr (usable_active hu.2)
  | revokeCurrent =>
    simp only [SessionCall.exec]
    rcases updateRow_cases s _ _ with he | ⟨u, hr, hu, he⟩ <;> rw [he]
    · exact .same
    · simp only [Bool.and_eq_true] at hu
      exact .revoked hr (usable_active hu.2)
  | revokeActive =>
    simp only [SessionCall.exec]
    rcases updateRow_cases s _ _ with he | ⟨u, hr, hu, he⟩ <;> rw [he]
    · exact .same
    · exact .revoked hr (by simpa using hu)
  | advance userID v a next now deadline =>
    simp only [SessionCall.exec]
    split
    · exact .same
    rename_i u hr
    split
    · exact .advanced hr (advances_active ‹_›)
    · exact .same
  | revokeFound now reason =>
    simp only [SessionCall.exec]
    split
    · exact .same
    rename_i u hr
    split
    · exact .revoked hr ‹_›
    · exact .same
  | setUser userCache user => exact .users userCache user
  | serve => exact .served
  | revocationReturned => exact .returned
  | advanceReturned => exact .versioned
  | handOut => exact .handed
  | _ => exact .same

theorem Kept.row_mem (h : Kept s) (hr : s.row = some u) : u ∈ s.rows := by
  have := h.row
  rw [hr] at this
  exact List.mem_of_mem_head? this.symm

theorem Kept.of_same (h : Kept s) (hrow : t.row = s.row) (hrows : t.rows = s.rows)
    (hsnap : t.snapshots = s.snapshots) (hrev : t.revokedSince = s.revokedSince) : Kept t := by
  constructor
  · rw [hrow, hrows]
    exact h.row
  · rw [hrow, hrows]
    exact h.rows
  · rw [hrows]
    exact h.versions
  · rw [hsnap, hrows]
    exact h.snapshots
  · rw [hrow, hrev]
    exact h.revoked

theorem Kept.noteRead (h : Kept s) (hr : s.row = some u) (deadline : Option Int)
    (mark : Option Mark) : Kept (s.noteRead u deadline mark) := by
  unfold SessionState.noteRead
  split
  · refine ⟨h.row, h.rows, h.versions, fun x hx => ?_, h.revoked⟩
    rcases List.mem_append.mp hx with hx | hx
    · cases deadline with
      | none => cases hx
      | some d =>
        rw [List.mem_singleton.mp hx]
        exact h.row_mem hr
    · exact h.snapshots x hx
  · exact h

theorem noteRead_eq (s : SessionState) (u : UserSession) (deadline : Option Int)
    (mark : Option Mark) :
    ∃ snapshots observed, s.noteRead u deadline mark = { s with snapshots, observed } := by
  unfold SessionState.noteRead
  split <;> exact ⟨_, _, rfl⟩

theorem later_noteRead (s : SessionState) (u : UserSession) (deadline : Option Int)
    (mark : Option Mark) : Later s (s.noteRead u deadline mark) := by
  unfold SessionState.noteRead
  split
  · exact { Later.refl s with
      snapshots := fun _ h => List.mem_append_right _ h
      observed := fun _ h => List.mem_append_right _ h }
  · exact .refl s

theorem Kept.setRow (h : Kept s) (hr : s.row = some u) (v : UserSession)
    (he : v.expiresAt = u.expiresAt) (hv : u.version ≤ v.version)
    (hs : v.status = u.status) : Kept (s.setRow v) := by
  refine ⟨rfl, fun x hx r hr' => ?_, fun x hx => ?_,
    fun x hx => List.mem_cons_of_mem _ (h.snapshots x hx), ?_⟩
  · cases hr'
    rcases List.mem_cons.mp hx with rfl | hx
    · exact ⟨rfl, Int.le_refl _⟩
    · obtain ⟨hxe, hxv⟩ := h.rows x hx u hr
      exact ⟨hxe.trans he.symm, Int.le_trans hxv hv⟩
  · rcases List.mem_cons.mp hx with rfl | hx
    · exact Int.le_trans (h.versions u (h.row_mem hr)) hv
    · exact h.versions x hx
  · have hrev := h.revoked
    rw [hr] at hrev
    simpa [SessionState.setRow, hs] using hrev

theorem later_setRow (s : SessionState) (v : UserSession) : Later s (s.setRow v) :=
  { Later.refl s with rows := fun _ h => List.mem_cons_of_mem _ h }

theorem Kept.insert (h : Kept s) (hr : s.row = none) (ha : v.status = .active)
    (hv : 0 ≤ v.version) : Kept (s.setRow v) := by
  have hnil : s.rows = [] := List.head?_eq_none_iff.mp (h.row.symm.trans hr)
  refine ⟨rfl, fun x hx r hr' => ?_, fun x hx => ?_, fun x hx => ?_, ?_⟩
  · cases hr'
    simp only [SessionState.setRow, hnil, List.mem_singleton] at hx
    rw [hx]
    exact ⟨rfl, Int.le_refl _⟩
  · simp only [SessionState.setRow, hnil, List.mem_singleton] at hx
    rw [hx]
    exact hv
  · exact List.mem_cons_of_mem _ (h.snapshots x hx)
  · have hrev := h.revoked
    rw [hr] at hrev
    simpa [SessionState.setRow, ha] using hrev

theorem Kept.revokeRow (h : Kept s) (hr : s.row = some u) (now : Int) (reason : String) :
    Kept (s.revokeRow u now reason) := by
  refine ⟨rfl, fun x hx r hr' => ?_, fun x hx => ?_,
    fun x hx => List.mem_cons_of_mem _ (h.snapshots x hx), ?_⟩
  · cases hr'
    rcases List.mem_cons.mp hx with rfl | hx
    · exact ⟨rfl, Int.le_refl _⟩
    · exact h.rows x hx u hr
  · rcases List.mem_cons.mp hx with rfl | hx
    · exact h.versions u (h.row_mem hr)
    · exact h.versions x hx
  · simp [SessionState.revokeRow, SessionState.setRow]

theorem Kept.since_none (h : Kept s) (hr : s.row = some u) (ha : u.status = .active) :
    s.revokedSince = none := by
  by_contra hne
  obtain ⟨r, hr', hrs⟩ := h.revoked.mp (Option.isSome_iff_ne_none.mpr hne)
  rw [hr] at hr'
  cases hr'
  exact hrs ha

theorem Kept.later_revokeRow (h : Kept s) (hr : s.row = some u) (ha : u.status = .active)
    (now : Int) (reason : String) : Later s (s.revokeRow u now reason) := by
  refine { Later.refl s with
    rows := fun _ h => List.mem_cons_of_mem _ h
    revoked := fun hs => ?_ }
  rw [h.since_none hr ha] at hs
  cases hs

theorem eval_step (h : Kept s) (entry : UserSessionCacheEntry) (redisExpiration : Int) :
    Kept (s.evalScript entry redisExpiration) ∧ Later s (s.evalScript entry redisExpiration) := by
  by_cases hacc : s.accepts entry = true
  · simp only [SessionState.evalScript, hacc, if_true]
    refine ⟨h.of_same rfl rfl rfl rfl,
      { Later.refl s with published := fun x hx => ?_, tombstoned := fun ht => ?_ }⟩
    · simp only [SessionState.store]
      split
      · exact List.mem_cons_of_mem _ hx
      · exact hx
    · simp [ht]
  · simp only [SessionState.evalScript, hacc]
    exact ⟨h.of_same rfl rfl rfl rfl, { Later.refl s with tombstoned := fun ht => by simp [ht] }⟩

theorem exec_keeps (site : SessionSite) (c : SessionCall) (s : SessionState) (h : Kept s)
    (hc : License site c s) : Kept (c.exec s).1 ∧ Later s (c.exec s).1 := by
  have he := exec_effect c s
  generalize (c.exec s).1 = t at he
  cases he with
  | same => exact ⟨h, .refl s⟩
  | passed time =>
    refine ⟨h.of_same rfl rfl rfl rfl, { Later.refl s with now := ?_ }⟩
    exact Int.le_add_of_nonneg_right (Int.natCast_nonneg time)
  | saw =>
    exact ⟨h.of_same rfl rfl rfl rfl,
      { Later.refl s with observed := fun _ h => List.mem_cons_of_mem _ h }⟩
  | evaluated => exact eval_step h _ _
  | found hr => exact ⟨h.noteRead hr _ _, later_noteRead s _ _ _⟩
  | inserted hr =>
    exact ⟨(h.insert hr hc.1 hc.2.1).noteRead rfl _ _,
      (later_setRow s _).trans (later_noteRead _ _ _ _)⟩
  | @exchanged u presentedHash _ nextHash graceSeconds time hr ha hh =>
    have hset := h.setRow hr (u.exchange presentedHash nextHash time graceSeconds) rfl
      (Int.le_refl _) rfl
    exact ⟨hset.of_same rfl rfl rfl rfl, { later_setRow s _ with }⟩
  | reused hr ha =>
    exact ⟨(h.revokeRow hr _ _).of_same rfl rfl rfl rfl,
      { h.later_revokeRow hr ha _ "refresh_reuse" with }⟩
  | revoked hr ha => exact ⟨h.revokeRow hr _ _, h.later_revokeRow hr ha _ _⟩
  | @advanced u _ _ _ next _ time hr ha =>
    have hset := h.setRow hr (u.advance next time) rfl (Int.le_of_lt (Int.lt_succ _)) rfl
    exact ⟨(hset.noteRead rfl _ _).of_same rfl rfl rfl rfl,
      { (later_setRow s _).trans (later_noteRead _ _ _ _) with
        advances := fun _ h => List.mem_cons_of_mem _ h }⟩
  | users | served | handed => exact ⟨h.of_same rfl rfl rfl rfl, { Later.refl s with }⟩
  | returned => exact ⟨h.of_same rfl rfl rfl rfl, { Later.refl s with returned := fun _ => rfl }⟩
  | versioned =>
    exact ⟨h.of_same rfl rfl rfl rfl, { Later.refl s with version := le_max_left _ _ }⟩

theorem sessionEnd_eq (hk : Kept s) (hu : u ∈ s.rows) (hv : v ∈ s.rows) :
    sessionEnd u = sessionEnd v := by
  have hne : s.rows ≠ [] := List.ne_nil_of_mem hu
  obtain ⟨r, hr⟩ := Option.isSome_iff_exists.mp (List.isSome_head?.mpr hne)
  have hrow : s.row = some r := hk.row.trans hr
  unfold sessionEnd
  rw [(hk.rows u hu r hrow).1, (hk.rows v hv r hrow).1]

theorem live_eq_some (h : s.live = some e) : ∃ w, s.hash = some (e, w) ∧ s.now < w := by
  unfold SessionState.live at h
  split at h
  · cases h
  rename_i e' w hh
  split at h
  · cases h
    exact ⟨w, hh, ‹_›⟩
  · cases h

theorem live_of_lt (h : s.hash = some (e, w)) (hw : s.now < w) : s.live = some e := by
  simp [SessionState.live, h, hw]

theorem accepts_version (h : s.accepts entry = true) (hl : s.live = some e) :
    e.version ≤ entry.version := by
  unfold SessionState.accepts at h
  rw [hl] at h
  simp only [Bool.and_eq_true, decide_eq_true_eq] at h
  exact h.2

theorem evalScript_refused (h : s.accepts entry = false) (x : Int) : s.evalScript entry x = { s with
      tombstoned := s.tombstoned || (entry.status = .revoked && s.revokedSince.isSome) } := by
  simp [SessionState.evalScript, h]

theorem mem_optional {l : List α} {o : Option β} {f : β → α} (hx : x ∈ (o.map f).toList ++ l) :
    x ∈ l ∨ ∃ d ∈ o, x = f d := by
  rcases List.mem_append.mp hx with hx | hx
  · obtain ⟨d, hd, rfl⟩ := Option.map_eq_some_iff.mp (Option.mem_toList.mp hx)
    exact .inr ⟨d, hd, rfl⟩
  · exact .inl hx

theorem mem_noteRead_snapshots (hx : x ∈ (s.noteRead u deadline mark).snapshots) :
    x ∈ s.snapshots ∨ ∃ d ∈ deadline, x = (u, d) := by
  unfold SessionState.noteRead at hx
  split at hx
  · exact mem_optional hx
  · exact .inl hx

theorem mem_noteRead_observed (hx : x ∈ (s.noteRead u deadline mark).observed) :
    x ∈ s.observed ∨ ∃ k ∈ mark, x = (k, u) := by
  unfold SessionState.noteRead at hx
  split at hx
  · exact mem_optional hx
  · exact .inl hx

theorem lawful (site : SessionSite) : Lawful sessionMachine (terms site) where
  refl := fun _ => Later.refl
  trans := fun _ _ _ _ => Later.trans
  step := fun _ c s hk hc _ _ =>
    ⟨(exec_keeps site c s hk hc).1, fun _ _ => (exec_keeps site c s hk hc).2⟩

end Ren2Hub.Proofs.LoginSpec
