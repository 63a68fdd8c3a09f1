import Ren2Hub.Proofs.LoginSpec

namespace Ren2Hub.Proofs.LoginCalls
open Lib Lib.Machine Auth.Session LoginSpec List

variable {site : SessionSite} {s t : SessionState} {u : UserSession} {α : Type}
  {Q : α → SessionState → Prop}

abbrev Walks (site : SessionSite) (Q : α → SessionState → Prop) (p : Action α)
    (s : SessionState) : Prop :=
  Earns sessionMachine (terms site) 0 Q p s

/-- The calls have their licenses, whatever comes back. -/
abbrev Goes (site : SessionSite) (p : Action α) (s : SessionState) : Prop :=
  Walks site (fun _ _ => True) p s

theorem walks_pure {a : α} (h : Q a s) : Walks site Q (pure a) s := h

theorem walks_then (hp : Walks site R p s)
    (h : ∀ a t, Later s t → R a t → Walks site Q (f a) t) : Walks site Q (p >>= f) s :=
  (hp.frame (lawful site) (fun _ _ _ hl h => h.trans hl) (Later.refl s)).bind
    fun a t ht => h a t ht.2 ht.1

theorem walks_ask {c : SessionCall} {next : SessionAnswer c → Action α}
    (hc : ∀ t, Later s t → License site c t)
    (h : ∀ t, Kept t → Later s t → Later s (c.exec t).1 →
      Walks site Q (next (c.exec t).2) (c.exec t).1) :
    Walks site Q (ask c >>= next) s :=
  Earns.call rfl fun t hk hl =>
    ⟨hc t hl, fun _ _ => h t hk hl (hl.trans (exec_keeps site c t hk (hc t hl)).2)⟩

theorem walks_any (hc : ∀ t, Later s t → License site c t)
    (h : ∀ r t, Later s t → Walks site Q (cont r) t) : Walks site Q (ask c >>= cont) s :=
  walks_ask hc fun _ _ _ hl => h _ _ hl

theorem walks_last (hc : ∀ t, Later s t → License site c t) : Goes site (ask c) s :=
  fun t _ hl => ⟨hc t hl, fun _ _ => trivial, nofun⟩

theorem walks_clock (h : ∀ t, Later s t → Walks site Q (cont t.now) t) :
    Walks site Q (ask .clock >>= cont) s :=
  walks_ask (fun _ _ => trivial) fun t _ hl _ => h t hl

theorem walks_unixNow {next : Int → Action α}
    (h : ∀ now t, Later s t → Walks site Q (next now) t) : Walks site Q (unixNow >>= next) s :=
  walks_clock fun t hl => h _ t hl

theorem walks_deadline (h : ∀ d t, Later s t → d ≤ t.now + site.ttl → Walks site Q (cont d) t) :
    Walks site Q (userSessionCacheDeadline site >>= cont) s :=
  walks_clock fun t hl => h _ t hl (Int.le_refl _)

/-- What an active write leaves unless it was refused: the deadline is over, or the entry
was published. -/
def Settled (u : UserSession) (d : Int) (t : SessionState) : Prop :=
  min d (sessionEnd u) ≤ t.now ∨ (u.version, min d (sessionEnd u)) ∈ t.published

theorem Settled.later (h : Settled u d s) (hl : Later s t) : Settled u d t := by
  rcases h with h | h
  · exact .inl (Int.le_trans h hl.now)
  · exact .inr (hl.published h)

theorem cacheExpiresAt_eq (a b : Int) : cacheExpiresAt a b = min b a := by
  unfold cacheExpiresAt
  split <;> omega

theorem write_active (ha : entry.status = .active) (hmem : (u, d) ∈ s.snapshots)
    (hu : About entry u) :
    Walks site (fun r t => r = none ∨ r = some .observationStale → Settled u d t)
      (writeUserSessionCache site entry (some d)) s := by
  have hexp : cacheExpiresAt (1000 * entry.expiresAt) d = min d (sessionEnd u) := by
    rw [cacheExpiresAt_eq, hu.2]
    rfl
  apply walks_clock
  intro t hl
  rw [if_pos ha]
  simp only
  split
  · refine walks_pure fun _ => .inl ?_
    omega
  split
  · exact walks_pure fun h => by rcases h with h | h <;> cases h
  split
  · refine walks_pure fun _ => .inl ?_
    omega
  apply walks_ask
  · intro t' hl'
    simp only [License, if_pos ha]
    exact ⟨u, d, hl'.snapshots (hl.snapshots hmem), hu, hexp⟩
  intro t' _ _ _
  simp only [SessionCall.exec]
  cases hacc : t'.accepts entry with
  | false => exact walks_pure fun h => by rcases h with h | h <;> cases h
  | true =>
    have hpub : Settled u d (t'.evalScript entry (cacheExpiresAt (1000 * entry.expiresAt) d)) := by
      refine .inr ?_
      simp only [SessionState.evalScript, hacc, if_true, SessionState.store, if_pos ha, hexp, hu.1]
      exact mem_cons_self
    apply walks_clock
    intro w hlw
    split
    · exact walks_pure fun _ => hpub.later hlw
    split
    · exact walks_pure fun _ => hpub.later hlw
    · exact walks_pure fun _ => hpub.later hlw

theorem denyExpiration_lasts (site : SessionSite) (sessionTTL : Int) :
    site.ttl ≤ denyExpiration site sessionTTL ∨ sessionTTL ≤ denyExpiration site sessionTTL := by
  unfold denyExpiration
  simp only
  split
  · split <;> omega
  · omega

/-- The entry of a copy under another status. -/
def denial (u : UserSession) (status : SessionStatus) (at_ : Int) (reason : String) :
    UserSessionCacheEntry :=
  { u.afterFind.cacheEntry with status, revokedAt := at_, revokedReason := reason }

theorem write_deny (status : SessionStatus) (hd : Denies status) (hmem : u ∈ s.rows)
    (at_ : Int) (reason : String) :
    Walks site (fun _ t => status = .revoked → s.revokedSince.isSome = true → t.tombstoned = true)
      (writeUserSessionCache site (denial u status at_ reason) none) s := by
  apply walks_clock
  intro t hl
  have hstatus : (denial u status at_ reason).status ≠ .active := hd.not_active
  simp only [if_neg hstatus]
  apply walks_ask
  · intro t' hl'
    simp only [License, if_neg hstatus]
    refine ⟨hd, u, hl'.rows (hl.rows hmem), ⟨rfl, rfl⟩, ?_⟩
    have hnow := hl'.now
    rcases denyExpiration_lasts site (1000 * (denial u status at_ reason).expiresAt - t.now) with
      h | h
    · exact .inl h
    refine .inr ?_
    simp only [sessionEnd, denial, UserSession.afterFind, UserSession.cacheEntry] at h ⊢
    omega
  intro t' _ hl' _
  have htomb : status = .revoked → s.revokedSince.isSome = true →
      (t'.evalScript (denial u status at_ reason) (denyExpiration site
        (1000 * (denial u status at_ reason).expiresAt - t.now))).tombstoned = true := by
    intro hr hs
    have hs' : t'.revokedSince.isSome = true := by rw [(hl.trans hl').revoked hs]; exact hs
    simp [SessionState.evalScript, denial, hr, hs']
  split
  · exact walks_pure htomb
  · exact walks_pure htomb

theorem walks_confirm (session : UserSession) :
    Goes site (confirmUserSessionActiveSnapshot session) s := by
  unfold confirmUserSessionActiveSnapshot
  split
  · exact walks_pure trivial
  apply walks_unixNow
  intro now t _
  apply walks_any
  · intro _ _
    trivial
  · intro r t' _
    split <;> exact walks_pure trivial

theorem about_cacheEntry (u : UserSession) : About u.afterFind.cacheEntry u := ⟨rfl, rfl⟩

theorem walks_fence (hmem : u ∈ s.rows) (now : Int) (reason : String) :
    Goes site (writeUserSessionDenyFence site u.afterFind .revoking now reason) s :=
  (write_deny .revoking (.inl rfl) hmem now reason).mono fun _ _ _ => trivial

theorem walks_write (ha : entry.status = .active) (hmem : (u, d) ∈ s.snapshots) (hu : About entry u)
    (h : ∀ r t, Later s t → (r = none ∨ r = some .observationStale → Settled u d t) →
      Walks site Q (cont r) t) :
    Walks site Q (writeUserSessionCache site entry (some d) >>= cont) s :=
  walks_then (write_active ha hmem hu) h

theorem Marked.later (h : Marked s mark) (hl : Later s t) : Marked t mark :=
  ⟨hl.returned ∘ h.1, Int.le_trans h.2 hl.version⟩

theorem exec_first (t : SessionState) (userID deadline : Option Int) (mark : Option Mark) :
    SessionCall.exec (.first userID deadline mark) t = (t, none) ∨
      ∃ u, t.row = some u ∧ SessionCall.exec (.first userID deadline mark) t =
        (t.noteRead u deadline mark, some u.afterFind) := by
  simp only [SessionCall.exec]
  split
  · exact .inl rfl
  rename_i u hr
  split
  · exact .inr ⟨u, hr, rfl⟩
  · exact .inl rfl

theorem walks_first {userID deadline : Option Int} {mark : Option Mark}
    {next : Option UserSession → Action α}
    (hd : ∀ d ∈ deadline, d ≤ s.now + site.ttl) (hm : ∀ k ∈ mark, Marked s k)
    (hnone : ∀ t, Later s t → Walks site Q (next none) t)
    (hsome : ∀ u t, Later s t → u ∈ t.rows →
      (u.status = .active → (∀ d ∈ deadline, (u, d) ∈ t.snapshots) ∧
        ∀ k ∈ mark, (k, u) ∈ t.observed) → Walks site Q (next (some u.afterFind)) t) :
    Walks site Q (ask (.first userID deadline mark) >>= next) s := by
  apply walks_ask
  · intro t hl
    refine ⟨fun d hmem => ?_, fun k hmem => Marked.later (hm k hmem) hl⟩
    have := hd d hmem
    have := hl.now
    omega
  intro t hk hl _
  rcases exec_first t userID deadline mark with he | ⟨u, hr, he⟩ <;> rw [he]
  · exact hnone t hl
  have hlater := later_noteRead t u deadline mark
  refine hsome u _ (hl.trans hlater) (hlater.rows (hk.row_mem hr)) fun ha => ?_
  simp only [SessionState.noteRead, if_pos ha]
  refine ⟨fun d hmem => mem_append_left _ ?_, fun k hmem => mem_append_left _ ?_⟩
  · rw [Option.mem_def.mp hmem]
    exact mem_singleton_self _
  · rw [Option.mem_def.mp hmem]
    exact mem_singleton_self _

theorem afterFind_usable (h : ¬ ¬ u.afterFind.usable now = true) : u.status = .active :=
  usable_active (u := u.afterFind) (not_not.mp h)

/-- What a lookup hands back was on record under its mark. -/
def Seen (mark : Mark) (session : UserSession) (t : SessionState) : Prop :=
  ∃ u, (mark, u) ∈ t.observed ∧ session.version = u.version

theorem Seen.later (h : Seen mark session s) (hl : Later s t) : Seen mark session t := by
  obtain ⟨u, hu, hv⟩ := h
  exact ⟨u, hl.observed hu, hv⟩

/-- A lookup has seen what it hands back. -/
abbrev Returns (mark : Mark) (r : Except SessionError UserSession) (t : SessionState) : Prop :=
  ∀ session, r = .ok session → Seen mark session t

theorem walks_stored (mark : Mark) (hmark : Marked s mark) :
    Walks site (Returns mark) (getUserSessionStored site mark) s := by
  apply walks_deadline
  intro d t hl hd
  apply walks_first
  · intro d' hmem
    cases hmem
    exact hd
  · intro k hmem
    cases hmem
    exact Marked.later hmark hl
  · intro _ _
    exact walks_pure fun _ he => by cases he
  intro u t' _ hu hrec
  apply walks_unixNow
  intro now t'' hl2
  split
  · refine walks_then (write_deny .revoked (.inr rfl) (hl2.rows hu) u.revokedAt
      u.revokedReason) fun _ _ _ _ => ?_
    exact walks_pure fun _ he => by cases he
  rename_i huse
  obtain ⟨hsnap, hobs⟩ := hrec (afterFind_usable huse)
  have hseen : Seen mark u.afterFind t'' := ⟨u, hl2.observed (hobs mark rfl), rfl⟩
  apply walks_write (u := u) (d := d) (afterFind_usable huse) (hl2.snapshots (hsnap d rfl))
    (about_cacheEntry u)
  intro r w hlw _
  have hok : ∀ w', Later t'' w' →
      Walks site (Returns mark) (pure (Except.ok u.afterFind)) w' := by
    intro w' hw'
    refine walks_pure fun session he => ?_
    cases he
    exact hseen.later hw'
  split
  · refine walks_then (walks_confirm u.afterFind) fun e w' hw' _ => ?_
    cases e with
    | some e => exact walks_pure fun _ he => by cases he
    | none => exact hok w' (hlw.trans hw')
  · exact walks_pure fun _ he => by cases he
  · exact hok w hlw

theorem walks_cached (mark : Mark) (hmark : Marked s mark) :
    Walks site (fun r t => ∀ session, r = some (.ok session) → Seen mark session t)
      (getUserSessionCache mark) s := by
  apply walks_ask
  · exact fun t hl => Marked.later hmark hl
  intro t _ _ _
  cases hlive : t.live with
  | none =>
    simp only [SessionCall.exec, hlive]
    exact walks_pure fun _ he => by cases he
  | some entry =>
    simp only [SessionCall.exec, hlive]
    split
    · exact walks_pure fun _ he => by cases he
    apply walks_unixNow
    intro now w hlw
    split
    · exact walks_pure fun _ he => by cases he
    rename_i hact
    simp only [not_or, not_not] at hact
    refine walks_pure fun session he => ?_
    cases he
    refine ⟨entry.session, hlw.observed ?_, rfl⟩
    simp [SessionState.noteHash, hact.1]

theorem walks_lookUp (mark : Mark) (hmark : Marked s mark) :
    Walks site (Returns mark) (lookUpUserSession site mark) s := by
  refine walks_then (walks_cached mark hmark) fun r w hl hr => ?_
  cases r with
  | some result => exact walks_pure fun session he => hr session (by rw [he])
  | none => exact walks_stored mark (Marked.later hmark hl)

theorem walks_get : Goes site (getUserSessionCached site) s := by
  apply walks_ask
  · exact fun _ _ => trivial
  intro t _ _ _
  refine (walks_lookUp _ ⟨id, Int.le_refl _⟩).bind fun r w hr => ?_
  cases r with
  | error e => exact walks_pure trivial
  | ok session =>
    apply walks_any
    · intro w' hw'
      exact (hr session rfl).later hw'
    · intro _ _ _
      exact walks_pure trivial

theorem newUserSession_ok (h : newUserSession session now = .ok v) :
    v.status = .active ∧ 0 ≤ v.version ∧ v.refreshHash = session.refreshHash := by
  unfold newUserSession at h
  split at h
  · cases h
  split at h
  · cases h
  rename_i hact
  simp only [not_or, not_not] at hact
  obtain rfl := Except.ok.inj h
  refine ⟨hact.1, ?_, rfl⟩
  simp only
  split <;> omega

theorem walks_create (session : UserSession) (refreshSecret : String) :
    Goes site (createUserSession site session refreshSecret) s := by
  apply walks_unixNow
  intro now t _
  split
  · exact walks_pure trivial
  rename_i v hv
  obtain ⟨ha, hpos, hhash⟩ := newUserSession_ok hv
  apply walks_deadline
  intro d t1 _ hd
  apply walks_ask
  · intro t2 hl2
    refine ⟨ha, hpos, ⟨refreshSecret, hhash⟩, ?_⟩
    have := hl2.now
    omega
  intro t2 _ _ _
  cases hr : t2.row with
  | some r =>
    simp only [SessionCall.exec, hr]
    exact walks_pure trivial
  | none =>
    simp only [SessionCall.exec, hr]
    apply walks_write (u := v) (d := d) ha ?_ ⟨rfl, rfl⟩
    · intro r w _ _
      split
      · exact walks_confirm v
      · exact walks_pure trivial
      · exact walks_pure trivial
    · simp [SessionState.noteRead, ha]

theorem walks_finish (hu : u ∈ s.rows) (hs : s.revokedSince.isSome = true) (now : Int)
    (reason : String) :
    Walks site (fun _ t => t.tombstoned = true)
      (finishRevocation site u.afterFind now reason) s := by
  refine (write_deny .revoked (.inr rfl) hu now reason).bind fun _ t h => ?_
  exact walks_pure (h rfl hs)

theorem walks_revoked {β : Type} {b : β} (hu : u ∈ s.rows) (hs : s.revokedSince.isSome = true)
    (now : Int) (reason : String) :
    Walks site (fun r _ => r = b)
      (do
        finishRevocation site u.afterFind now reason
        let _ ← ask .revocationReturned
        pure b) s := by
  refine (walks_finish hu hs now reason).bind fun _ t h => ?_
  apply walks_any
  · intro w hw
    exact hw.tombstoned h
  · intro _ _ _
    exact walks_pure rfl

/-- The hash a rotation leads to, or finds after a lost race, has been in the row. -/
def Chained (nextHash : String) (r : Rotation) (t : SessionState) : Prop :=
  match r with
  | .rotated _ => ∃ v ∈ t.rows, v.refreshHash = nextHash
  | .race session => ∃ v ∈ t.rows, v.refreshHash = session.refreshHash
  | .failed _ => True

section Rotate
variable {userID now graceSeconds : Int} {presentedHash nextHash : String}

theorem exec_exchange (t : SessionState) (userID now graceSeconds : Int)
    (presentedHash nextHash : String) :
    SessionCall.exec (.exchange userID presentedHash nextHash now graceSeconds) t = (t, false) ∨
      ∃ u, t.row = some u ∧ u.exchanges userID presentedHash now = true ∧
        SessionCall.exec (.exchange userID presentedHash nextHash now graceSeconds) t =
          ({ t.setRow (u.exchange presentedHash nextHash now graceSeconds) with
              exchanged := (presentedHash, nextHash) :: t.exchanged }, true) :=
  updateRow_cases t _ _

/-- Hashes of a secret and the one derived from it. -/
def Derives (site : SessionSite) (presentedHash nextHash : String) : Prop :=
  ∃ x, presentedHash = site.hashRefreshSecret x ∧
    nextHash = site.hashRefreshSecret (site.deriveNextRefreshSecret x)

theorem exchange_afterFind (u : UserSession) (presentedHash nextHash : String)
    (now graceSeconds : Int) :
    (u.afterFind.exchange presentedHash nextHash now graceSeconds).status = u.status ∧
      About (u.afterFind.exchange presentedHash nextHash now graceSeconds).cacheEntry u := by
  cases u
  exact ⟨rfl, rfl, rfl⟩

theorem walks_cacheRotated (ha : v.status = .active) (hv : About v.cacheEntry u)
    (hmem : (u, d) ∈ s.snapshots) (hnext : ∃ v ∈ s.rows, v.refreshHash = nextHash) :
    Walks site (Chained nextHash) (cacheRotated site v d) s := by
  apply walks_write ha hmem hv
  intro r w hlw _
  have hdone : ∀ w', Later s w' → Chained nextHash (.rotated v) w' := by
    intro w' hw'
    obtain ⟨v, hv, he⟩ := hnext
    exact ⟨v, hw'.rows hv, he⟩
  split
  · refine walks_then (walks_confirm v) fun e w' hw' _ => ?_
    cases e with
    | some e => exact walks_pure trivial
    | none => exact walks_pure (hdone w' (hlw.trans hw'))
  · exact walks_pure trivial
  · exact walks_pure (hdone w hlw)

theorem exec_revokeReuse (t : SessionState) (userID now : Int) (presentedHash : String) :
    SessionCall.exec (.revokeReuse userID now presentedHash) t = (t, false) ∨
      ∃ u, t.row = some u ∧ u.usable now = true ∧
        SessionCall.exec (.revokeReuse userID now presentedHash) t =
          ({ t.revokeRow u now "refresh_reuse" with reused := (presentedHash, now) :: t.reused },
            true) := by
  rcases updateRow_cases t (fun u => u.userID = userID && u.usable now) _ with h | ⟨u, hr, hu, h⟩
  · exact .inl h
  · simp only [Bool.and_eq_true] at hu
    exact .inr ⟨u, hr, hu.2, h⟩

theorem walks_revokeReused (hu : u ∈ s.rows)
    (hprev : u.afterFind.previousRefreshHash = presentedHash)
    (hlate : u.previousValidUntil < now) :
    Walks site (Chained nextHash) (revokeReused site userID presentedHash now u.afterFind) s := by
  refine walks_then (walks_fence hu now _) fun e t hl _ => ?_
  cases e with
  | some e => exact walks_pure trivial
  | none =>
    apply walks_ask
    · intro t1 hl1
      exact ⟨u, hl1.rows (hl.rows hu), hprev, hlate⟩
    intro t1 _ _ hl2
    rcases exec_revokeReuse t1 userID now presentedHash with he | ⟨r, hr, _, he⟩ <;>
      rw [he] at hl2 ⊢
    · exact walks_pure trivial
    · exact (walks_revoked (hl2.rows (hl.rows hu)) rfl now _).mono fun r _ h => h ▸ trivial

theorem walks_rotateRead (hu : u ∈ s.rows) (hrec : u.status = .active → (u, d) ∈ s.snapshots)
    (hx : Derives site presentedHash nextHash)
    (hagain : ∀ t, Walks site (Chained nextHash) again t) :
    Walks site (Chained nextHash)
      (rotateRead site userID presentedHash nextHash now graceSeconds d u.afterFind again) s := by
  unfold rotateRead
  split
  · exact walks_pure trivial
  rename_i huse
  have ha := afterFind_usable huse
  split
  · apply walks_ask
    · exact fun _ _ => hx
    intro t _ _ hl1
    rcases exec_exchange t userID now graceSeconds presentedHash nextHash with
      he | ⟨r, hr, hex, he⟩ <;> rw [he] at hl1 ⊢
    · exact hagain t
    obtain ⟨hst, hv⟩ := exchange_afterFind u u.refreshHash nextHash now graceSeconds
    exact walks_cacheRotated (hst.trans ha) hv (hl1.snapshots (hrec ha)) ⟨_, mem_cons_self, rfl⟩
  split
  · exact walks_pure trivial
  rename_i hprev
  simp only [not_or, not_not] at hprev
  split
  · exact walks_pure ⟨u, hu, rfl⟩
  · rename_i hlate
    exact walks_revokeReused hu hprev.2 (Int.not_le.mp hlate)

theorem walks_rotateRounds (hx : Derives site presentedHash nextHash) (rounds : Nat) :
    Walks site (Chained nextHash)
      (rotateRounds site userID presentedHash nextHash now graceSeconds rounds) s := by
  induction rounds generalizing s with
  | zero => exact walks_pure trivial
  | succ rounds ih =>
    apply walks_deadline
    intro d t _ hd
    apply walks_first
    · intro d' hmem
      cases hmem
      exact hd
    · intro k hmem
      cases hmem
    · intro _ _
      exact walks_pure trivial
    · intro u t' _ hu hrec
      exact walks_rotateRead hu (fun ha => (hrec ha).1 d rfl) hx fun _ => ih

theorem walks_rotate (hx : Derives site presentedHash nextHash) :
    Walks site (Chained nextHash)
      (rotateUserSessionRefresh site userID presentedHash nextHash now grace) s := by
  unfold rotateUserSessionRefresh
  split
  · exact walks_pure trivial
  apply walks_unixNow
  intro clock t _
  simp only
  split
  · exact walks_pure trivial
  · exact walks_rotateRounds hx 3

end Rotate

theorem exec_revoked (p : UserSession → Bool) (now : Int) (reason : String) (t : SessionState) :
    (updateRow t p (t.revokeRow · now reason)).2 = true →
      (updateRow t p (t.revokeRow · now reason)).1.revokedSince.isSome = true := by
  rcases updateRow_cases t p (t.revokeRow · now reason) with he | ⟨u, _, _, he⟩ <;> rw [he]
  · intro h
    cases h
  · intro _
    rfl

theorem walks_revoke (userID : Int) (reason : String) :
    Goes site (revokeUserSession site userID reason) s := by
  unfold revokeUserSession
  split
  · exact walks_pure trivial
  apply walks_unixNow
  intro now t _
  apply walks_first
  · exact fun _ h => by cases h
  · exact fun _ h => by cases h
  · exact fun _ _ => walks_pure trivial
  intro u t1 _ hu _
  dsimp only
  split
  · exact walks_pure trivial
  refine walks_then (walks_fence hu now reason) fun e t2 hl2 _ => ?_
  cases e with
  | some e => exact walks_pure trivial
  | none =>
    apply walks_ask
    · exact fun _ _ => trivial
    intro t3 _ _ hl4
    have hrev := exec_revoked (fun u => u.userID = userID && u.usable now) now reason t3
    split
    · exact walks_pure trivial
    · rename_i hok
      exact (walks_revoked (hl4.rows (hl2.rows hu)) (hrev hok) now reason).mono fun _ _ _ => trivial

theorem walks_revokeByRefreshHash (presentedHash reason : String) :
    Goes site (revokeUserSessionByRefreshHash site presentedHash reason) s := by
  unfold revokeUserSessionByRefreshHash
  split
  · exact walks_pure trivial
  apply walks_unixNow
  intro now t _
  apply walks_first
  · exact fun _ h => by cases h
  · exact fun _ h => by cases h
  · exact fun _ _ => walks_pure trivial
  intro u t1 _ hu _
  dsimp only
  split
  · exact walks_pure trivial
  split
  · exact walks_pure trivial
  refine walks_then (walks_fence hu now reason) fun e t2 hl2 _ => ?_
  cases e with
  | some e => exact walks_pure trivial
  | none =>
    apply walks_ask
    · exact fun _ _ => trivial
    intro t3 _ _ hl4
    have hrev := exec_revoked (fun u => u.status = .active) now reason t3
    split
    · exact walks_pure trivial
    · rename_i hok
      exact (walks_revoked (hl4.rows (hl2.rows hu)) (hrev hok) now reason).mono fun _ _ _ => trivial

theorem exec_findActive (t : SessionState) (userID now : Int) (hk : Kept t) :
    SessionCall.exec (.findActive userID now) t = (t, none) ∨
      ∃ u ∈ t.rows, SessionCall.exec (.findActive userID now) t = (t, some u.afterFind) := by
  simp only [SessionCall.exec]
  cases hr : t.row with
  | none => exact .inl rfl
  | some u =>
    simp only [Option.filter]
    split
    · exact .inr ⟨u, hk.row_mem hr, rfl⟩
    · exact .inl rfl

theorem exec_revokeFound (t : SessionState) (now : Int) (reason : String) (hk : Kept t) :
    SessionCall.exec (.revokeFound now reason) t = (t, none) ∨
      ∃ u ∈ t.rows, SessionCall.exec (.revokeFound now reason) t =
        (t.revokeRow u now reason, some u.afterFind) := by
  simp only [SessionCall.exec]
  split
  · exact .inl rfl
  rename_i u hr
  split
  · exact .inr ⟨u, hk.row_mem hr, rfl⟩
  · exact .inl rfl

theorem walks_revokeRounds (mine : Bool) (rounds : List Round)
    (hmine : mine = true → s.tombstoned = true) :
    Goes site (revokeRounds site userID now reason mine rounds) s := by
  induction rounds generalizing s mine with
  | nil => exact walks_pure trivial
  | cons round rounds ih =>
    by_cases hround : round = .crowded
    · rw [hround]
      exact ih mine hmine
    rw [revokeRounds]
    case x_1 => exact hround
    apply walks_ask
    · exact fun _ _ => trivial
    intro t hk hl _
    rcases exec_findActive t userID now hk with he | ⟨u, hu, he⟩ <;> rw [he]
    · simp only
      split
      · split
        · rename_i hm
          apply walks_any
          · intro w hw
            exact hw.tombstoned (hl.tombstoned (hmine hm))
          · intro _ _ _
            exact walks_pure trivial
        · exact walks_pure trivial
      · exact ih mine fun hm => hl.tombstoned (hmine hm)
    · refine walks_then (walks_fence hu now reason) fun e t1 hl1 _ => ?_
      cases e with
      | some e => exact walks_pure trivial
      | none =>
        apply walks_ask
        · exact fun _ _ => trivial
        intro t2 hk2 _ hl3
        rcases exec_revokeFound t2 now reason hk2 with he | ⟨v, hv, he⟩ <;> rw [he] at hl3 ⊢
        · exact ih mine fun hm => hl3.tombstoned (hl1.tombstoned (hl.tombstoned (hmine hm)))
        · refine (walks_finish (mem_cons_of_mem _ hv) rfl now reason).bind fun _ _ h4 => ?_
          exact ih true fun _ => h4

theorem walks_revokeAll (userID : Int) (reason : String) (rounds : List Round) :
    Goes site (revokeUserSessions site userID reason rounds) s := by
  unfold revokeUserSessions
  split
  · exact walks_pure trivial
  apply walks_unixNow
  intro now t _
  exact walks_revokeRounds false rounds fun h => by cases h

theorem exec_advance (t : SessionState) (userID v a next now d : Int) :
    SessionCall.exec (.advance userID v a next now d) t = (t, none) ∨
      ∃ u, t.row = some u ∧ u.status = .active ∧
        SessionCall.exec (.advance userID v a next now d) t =
          ({ (t.setRow (u.advance next now)).noteRead (u.advance next now) (some d) none with
              advances := ((u.advance next now).version, d) :: t.advances },
            some (u.advance next now).afterFind) := by
  simp only [SessionCall.exec]
  split
  · exact .inl rfl
  rename_i u hr
  split
  · rename_i hadv
    exact .inr ⟨u, hr, advances_active hadv, rfl⟩
  · exact .inl rfl

theorem walks_advance (userID v a next : Int) :
    Goes site (advanceUserSessionAuthVersion site userID v a next) s := by
  unfold advanceUserSessionAuthVersion
  split
  · exact walks_pure trivial
  apply walks_deadline
  intro d t _ hd
  apply walks_unixNow
  intro now t1 hl1
  apply walks_ask
  · intro t2 hl2
    have h1 := hl1.now
    have h2 := hl2.now
    simp only [License]
    omega
  intro t2 _ _ _
  rcases exec_advance t2 userID v a next now d with he | ⟨u, hr, ha, he⟩ <;> rw [he]
  · exact walks_pure trivial
  have hact : (u.advance next now).status = .active := ha
  -- the report of the return, once the write has settled
  apply walks_write (u := u.advance next now) (d := d) hact ?_ (about_cacheEntry _)
  · intro r w hlw hset
    have hreport : ∀ w', Later w w' → (r = none ∨ r = some .observationStale) →
        Goes site
          (do
            let _ ← ask (.advanceReturned (u.advance next now).afterFind.version d)
            pure (.ok (u.advance next now).afterFind) : Action (Except SessionError UserSession))
          w' := by
      intro w' hw' hr
      apply walks_any
      · intro w'' hw''
        have hlast := (hlw.trans hw').trans hw''
        refine ⟨hlast.advances mem_cons_self, u.advance next now, hlast.rows ?_,
          ((hset hr).later hw').later hw''⟩
        simp [SessionState.noteRead, hact, SessionState.setRow]
      · intro _ _ _
        exact walks_pure trivial
    split
    · exact hreport w (.refl w) (.inl rfl)
    · refine walks_then (walks_confirm _) fun e w' hw' _ => ?_
      cases e with
      | some e => exact walks_pure trivial
      | none => exact hreport w' hw' (.inr rfl)
    · exact walks_pure trivial
  · simp [SessionState.noteRead, hact]

theorem walks_issue (issues : Bool) (hnext : nextSecret = site.deriveNextRefreshSecret secret)
    (hrow : ∃ v ∈ s.rows, v.refreshHash = site.hashRefreshSecret nextSecret) :
    Goes site (issueAuthBundle issues secret nextSecret) s := by
  unfold issueAuthBundle
  split
  · apply walks_any
    · intro w hw
      obtain ⟨v, hv, he⟩ := hrow
      exact ⟨hnext, v, hw.rows hv, he⟩
    · intro _ _ _
      exact walks_pure trivial
  · exact walks_pure trivial

theorem walks_refresh (secret : String) (expected issues : Bool) :
    Goes site (refreshLoginSession site secret expected issues) s := by
  unfold refreshLoginSession
  split
  · exact walks_pure trivial
  refine walks_get.bind fun r t _ => ?_
  split
  · exact walks_pure trivial
  · exact walks_pure trivial
  apply walks_unixNow
  intro now t1 _
  split
  · exact walks_pure trivial
  apply walks_any (fun _ _ => by trivial)
  intro userCache t2 _
  apply walks_any (fun _ _ => by trivial)
  intro currentUser t3 _
  split
  · exact (walks_revoke _ _).bind fun _ _ _ => walks_pure trivial
  apply walks_unixNow
  intro now' t4 _
  refine (walks_rotate ⟨secret, rfl, rfl⟩).bind fun r w hw => ?_
  split
  · exact walks_issue issues rfl hw
  · split
    · rename_i rotated hsame
      obtain ⟨v, hv, he⟩ := hw
      exact walks_issue issues rfl ⟨v, hv, he.trans hsame.symm⟩
    · exact walks_pure trivial
  all_goals exact walks_pure trivial

theorem walks_job (job : SessionJob) : Goes site (job.program site) s := by
  cases job with
  | pass | setUser => exact walks_last fun _ _ => trivial
  | create session refreshSecret => exact (walks_create session refreshSecret).bind fun _ _ h => h
  | lookup => exact walks_get.bind fun _ _ h => h
  | rotate userID secret =>
    exact (walks_rotate ⟨secret, rfl, rfl⟩).bind fun _ _ _ => trivial
  | refresh secret expected issues =>
    exact (walks_refresh secret expected issues).bind fun _ _ h => h
  | revoke userID reason => exact (walks_revoke userID reason).bind fun _ _ h => h
  | revokeByRefreshHash presentedHash reason =>
    exact (walks_revokeByRefreshHash presentedHash reason).bind fun _ _ h => h
  | revokeAll userID reason rounds => exact walks_revokeAll userID reason rounds
  | advance userID v a next => exact (walks_advance userID v a next).bind fun _ _ h => h

theorem kept_beginning (now : Int) : Kept { now } where
  row := rfl
  rows := forall_mem_nil _
  versions := forall_mem_nil _
  snapshots := forall_mem_nil _
  revoked := ⟨fun h => (by cases h), fun ⟨_, h, _⟩ => (by cases h)⟩

theorem earned_beginning (site : SessionSite) (now : Int) (jobs : List SessionJob) :
    Earned sessionMachine (terms site) (fun _ _ => True) (beginning site now jobs) := by
  refine ⟨kept_beginning now, fun i p hp => ?_⟩
  obtain ⟨job, _, rfl⟩ := mem_map.mp (mem_of_getElem? hp)
  exact ⟨_, Later.refl _, Earns.actor (i := 0) rfl rfl (walks_job job)⟩

def sampleSite : SessionSite where
  hashRefreshSecret := ("h" ++ ·)
  deriveNextRefreshSecret := ("d" ++ ·)

def loginSession : UserSession := { userID := 7, userAuthVersion := 1, expiresAt := 100000 }

/-- Each process so many calls in a row. -/
def turns (plan : List (Nat × Nat)) : List Choice :=
  plan.flatMap fun turn => List.replicate turn.2 (.go turn.1)

end Ren2Hub.Proofs.LoginCalls
