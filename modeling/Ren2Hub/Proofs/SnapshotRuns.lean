import Ren2Hub.Lib.Checks
import Ren2Hub.Lib.Inputs
import Ren2Hub.Routing.Snapshot

namespace Ren2Hub.Proofs.SnapshotRuns
open Lib Routing CapabilityTables List

variable {α : Type} {db db' : CapabilityTables α} {ch : Int}
  {expected : ChannelCapabilitySnapshotFence} {cur : ChannelCapabilitySnapshot}

/-- The version the pointer of a channel names, zero before the first row. -/
def activeVersion (ch : Int) (db : CapabilityTables α) : Int :=
  (db.snapshots ch).elim 0 (·.activeVersion)

/-- The rows of one version of a channel. -/
def rowsAt (ch version : Int) (db : CapabilityTables α) : List (ChannelModelCapability α) :=
  db.capabilities.filter fun row => row.channelID = ch && row.snapshotVersion = version

theorem current_activeVersion (h : db.current ch expected = .ok cur) :
    cur.activeVersion = activeVersion ch db := by
  unfold current at h
  unfold activeVersion
  cases hs : db.snapshots ch with
  | some snapshot =>
    rw [hs] at h
    cases h
    rfl
  | none =>
    simp only [hs] at h
    split at h
    · cases h
    · cases h
      rfl

theorem matches_version (h : expected.matches cur = true) :
    expected.activeVersion = cur.activeVersion := by
  simp only [ChannelCapabilitySnapshotFence.matches, Bool.and_eq_true, decide_eq_true_eq] at h
  exact h.1.1

theorem publish_ok
    (h : publishChannelCapabilitySnapshot ch expected source catalog caps now db = .ok db') :
    ∃ snapshot rows, db' = db.publish ch snapshot rows ∧
      expected.activeVersion = activeVersion ch db ∧
      snapshot.activeVersion = int64 (activeVersion ch db + 1) ∧ 0 < snapshot.activeVersion ∧
      rows = caps.map (·.stamped ch snapshot.activeVersion source catalog now) := by
  unfold publishChannelCapabilitySnapshot at h
  split at h
  · cases h
  obtain ⟨cur, hc, h⟩ := bind_ok.mp h
  have hcur := current_activeVersion hc
  dsimp only at h
  split at h
  · cases h
  rename_i hm
  split at h
  · cases h
  rename_i hpos
  split at h
  · cases h
  cases h
  refine ⟨_, _, rfl, ?_, ?_, not_le.mp hpos, rfl⟩
  · rw [← hcur]
    exact matches_version (by simpa using hm)
  · show int64 (cur.activeVersion + 1) = _
    rw [hcur]

/-- A failure marker leaves the version of its pointer row, and the status once there is something
to read. -/
theorem mark_ok (h : markChannelCapabilityRefreshFailure ch expected source catalog now db =
    .ok db') :
    ∃ snapshot, db' = db.setSnapshot ch snapshot ∧
      expected.activeVersion = activeVersion ch db ∧
      snapshot.activeVersion = activeVersion ch db ∧
      (0 < activeVersion ch db → ∃ old, db.snapshots ch = some old ∧
        snapshot.refreshStatus = old.refreshStatus) := by
  unfold markChannelCapabilityRefreshFailure at h
  split at h
  · cases h
  obtain ⟨cur, hc, h⟩ := bind_ok.mp h
  have hcur := current_activeVersion hc
  split at h
  · cases h
  rename_i hm
  have hv := matches_version (by simpa using hm : expected.matches cur = true)
  cases h
  refine ⟨_, rfl, hv.trans hcur, hcur, fun hpos => ?_⟩
  rw [if_neg (by omega)]
  cases hs : db.snapshots ch with
  | some old =>
    unfold current at hc
    rw [hs] at hc
    cases hc
    exact ⟨_, rfl, rfl⟩
  | none => simp [activeVersion, hs] at hpos

theorem activeVersion_set (db : CapabilityTables α) (ch c : Int)
    (snapshot : ChannelCapabilitySnapshot) :
    activeVersion c (db.setSnapshot ch snapshot) =
      if c = ch then snapshot.activeVersion else activeVersion c db := by
  unfold activeVersion setSnapshot
  by_cases hc : c = ch
  · subst hc
    simp
  · simp [hc]

theorem rowsAt_set (db : CapabilityTables α) (ch c v : Int) (snapshot : ChannelCapabilitySnapshot) :
    rowsAt c v (db.setSnapshot ch snapshot) = rowsAt c v db := rfl

theorem mem_rowsAt : row ∈ rowsAt ch v db ↔
    row ∈ db.capabilities ∧ row.channelID = ch ∧ row.snapshotVersion = v := by
  simp [rowsAt]

theorem rowsAt_publish
    (hrows : ∀ row ∈ rows, row.channelID = ch ∧ row.snapshotVersion = snapshot.activeVersion)
    (c v : Int) :
    rowsAt c v (db.publish ch snapshot rows) =
      if c = ch ∧ v < snapshot.activeVersion - 2 then []
      else rowsAt c v db ++ (if c = ch ∧ v = snapshot.activeVersion then rows else []) := by
  have hnew : rows.filter (fun row => row.channelID = c && row.snapshotVersion = v) =
      if c = ch ∧ v = snapshot.activeVersion then rows else [] := by
    split
    · rename_i h
      rw [filter_eq_self]
      intro row hr
      simp [hrows row hr, h]
    · rename_i h
      rw [filter_eq_nil_iff]
      intro row hr
      simp only [hrows row hr, Bool.and_eq_true, decide_eq_true_eq]
      exact fun he => h ⟨he.1.symm, he.2.symm⟩
  unfold rowsAt publish
  rw [filter_filter]
  split
  · rename_i h
    rw [filter_eq_nil_iff]
    intro row _
    simp only [Bool.and_eq_true, decide_eq_true_eq, Bool.not_eq_true', Bool.and_eq_false_iff,
      decide_eq_false_iff_not]
    rintro ⟨⟨rfl, rfl⟩, hkeep⟩
    rcases hkeep with hkeep | hkeep
    · exact hkeep h.1
    · exact hkeep h.2
  · rename_i h
    rw [← hnew, ← filter_append]
    apply filter_congr
    intro row _
    by_cases hm : row.channelID = c ∧ row.snapshotVersion = v
    · obtain ⟨rfl, rfl⟩ := hm
      simp only [decide_true, Bool.and_self, Bool.true_and, Bool.not_eq_true',
        Bool.and_eq_false_iff, decide_eq_false_iff_not]
      by_contra hn
      exact h (by tauto)
    · have hfalse : (decide (row.channelID = c) && decide (row.snapshotVersion = v)) = false := by
        simpa [Bool.and_eq_false_iff, imp_iff_not_or] using hm
      rw [hfalse, Bool.false_and]

/-- The fence it held, the version it made and the rows it wrote. -/
structure Publication (α : Type) where
  channelID : Int
  expected : ChannelCapabilitySnapshotFence
  version : Int
  rows : List (ChannelModelCapability α)

/-- The tables and the publications so far, latest first. -/
structure History (α : Type) where
  db : CapabilityTables α := {}
  publications : List (Publication α) := []

def History.next (h : History α) (st : SnapshotStep α) : History α :=
  match st.exec h.db, st.call with
  | .error _, _ => h
  | .ok db, .markFailure _ _ _ _ => { h with db := db }
  | .ok db, .publish ch expected source catalog caps =>
    let version := activeVersion ch db
    ⟨db, ⟨ch, expected, version, caps.map (·.stamped ch version source catalog st.now)⟩ ::
      h.publications⟩

/-- The publications of one channel. -/
def History.log (h : History α) (ch : Int) : List (Publication α) :=
  h.publications.filter (·.channelID = ch)

/-- The pointer counts the publications, and each retained version has the rows of its own. -/
structure Fenced (ch : Int) (h : History α) : Prop where
  count : activeVersion ch h.db = (h.log ch).length
  fits : activeVersion ch h.db < 2 ^ 63
  versions : ∀ p ∈ h.log ch, 0 < p.version ∧ p.version ≤ activeVersion ch h.db ∧
    p.expected.activeVersion + 1 = p.version
  distinct : ((h.log ch).map (·.version)).Nodup
  current : 0 < activeVersion ch h.db → ∃ p ∈ h.log ch, p.version = activeVersion ch h.db
  retained : ∀ p ∈ h.log ch, activeVersion ch h.db - 2 ≤ p.version → rowsAt ch p.version h.db =
    p.rows
  owned : ∀ row ∈ h.db.capabilities, row.channelID = ch → ∃ p ∈ h.log ch,
    p.version = row.snapshotVersion ∧ row ∈ p.rows

theorem Fenced.initial (ch : Int) : Fenced ch ({} : History α) :=
  ⟨rfl, Int.pow_pos (by decide), nofun, nodup_nil, fun h => absurd h (lt_irrefl 0), nofun, nofun⟩

theorem Fenced.of_same {h h' : History α} (hf : Fenced ch h) (hlog : h'.log ch = h.log ch)
    (hv : activeVersion ch h'.db = activeVersion ch h.db)
    (hrows : ∀ v, rowsAt ch v h'.db = rowsAt ch v h.db) : Fenced ch h' := by
  refine ⟨by rw [hv, hlog, hf.count], by rw [hv]; exact hf.fits, ?_, ?_, ?_, ?_, ?_⟩
  · rw [hv, hlog]
    exact hf.versions
  · rw [hlog]
    exact hf.distinct
  · rw [hv, hlog]
    exact hf.current
  · rw [hv, hlog]
    intro p hp hk
    rw [hrows]
    exact hf.retained p hp hk
  · rw [hlog]
    intro row hrow hch
    have hm : row ∈ rowsAt ch row.snapshotVersion h.db := by
      rw [← hrows, mem_rowsAt]
      exact ⟨hrow, hch, rfl⟩
    exact hf.owned row (mem_rowsAt.mp hm).1 hch

theorem Fenced.publish {snapshot : ChannelCapabilitySnapshot}
    {rows : List (ChannelModelCapability α)} (hf : Fenced ch h)
    (hexp : expected.activeVersion = activeVersion ch h.db)
    (hnext : snapshot.activeVersion = int64 (activeVersion ch h.db + 1))
    (hpos : 0 < snapshot.activeVersion)
    (hrows : ∀ row ∈ rows, row.channelID = ch ∧ row.snapshotVersion = snapshot.activeVersion) :
    Fenced ch ⟨h.db.publish ch snapshot rows,
      ⟨ch, expected, snapshot.activeVersion, rows⟩ :: h.publications⟩ := by
  have hcount := hf.count
  obtain ⟨hsucc, hfits⟩ := int64_succ (by omega) hf.fits (hnext ▸ hpos)
  rw [hsucc] at hnext
  have hv : activeVersion ch (h.db.publish ch snapshot rows) = activeVersion ch h.db + 1 := by
    show activeVersion ch (h.db.setSnapshot ch snapshot) = _
    rw [activeVersion_set, if_pos rfl, hnext]
  have hlog : History.log ⟨h.db.publish ch snapshot rows,
      ⟨ch, expected, snapshot.activeVersion, rows⟩ :: h.publications⟩ ch =
      ⟨ch, expected, snapshot.activeVersion, rows⟩ :: h.log ch := by
    simp [History.log]
  have hnone : rowsAt ch snapshot.activeVersion h.db = [] := by
    rw [eq_nil_iff_forall_not_mem]
    intro row hrow
    obtain ⟨hm, hch, hver⟩ := mem_rowsAt.mp hrow
    obtain ⟨p, hp, hpv, _⟩ := hf.owned row hm hch
    have := (hf.versions p hp).2.1
    omega
  refine ⟨?_, by rw [hv]; exact hfits, ?_, ?_, ?_, ?_, ?_⟩
  · rw [hv, hlog, length_cons, hcount]
    rfl
  · rw [hv, hlog]
    intro p hp
    rcases mem_cons.mp hp with rfl | hp
    · exact ⟨hpos, hnext.le, by rw [hexp, hnext]⟩
    · obtain ⟨h1, h2, h3⟩ := hf.versions p hp
      exact ⟨h1, by omega, h3⟩
  · rw [hlog, map_cons, nodup_cons]
    refine ⟨fun hm => ?_, hf.distinct⟩
    obtain ⟨p, hp, hpv⟩ := mem_map.mp hm
    have hle := (hf.versions p hp).2.1
    change p.version = snapshot.activeVersion at hpv
    omega
  · rw [hv, hlog]
    exact fun _ => ⟨_, mem_cons_self, hnext⟩
  · rw [hv, hlog]
    intro p hp hk
    rw [rowsAt_publish hrows, if_neg (by omega)]
    rcases mem_cons.mp hp with rfl | hp
    · rw [if_pos ⟨rfl, rfl⟩, hnone, nil_append]
    have := (hf.versions p hp).2.1
    rw [if_neg (by omega), append_nil]
    exact hf.retained p hp (by omega)
  · rw [hlog]
    intro row hrow hch
    have hm := mem_of_mem_filter hrow
    rcases mem_append.mp hm with hold | hnew
    · obtain ⟨p, hp, hpv⟩ := hf.owned row hold hch
      exact ⟨p, mem_cons_of_mem _ hp, hpv⟩
    · exact ⟨_, mem_cons_self, (hrows row hnew).2.symm, hnew⟩

theorem stamped_rows (caps : List (ChannelModelCapability α)) (ch v : Int) (source catalog : String)
    (now : Int) :
    ∀ row ∈ caps.map (·.stamped ch v source catalog now), row.channelID = ch ∧
      row.snapshotVersion = v := by
  intro row hrow
  obtain ⟨cap, _, rfl⟩ := mem_map.mp hrow
  exact ⟨rfl, rfl⟩

theorem next_fenced {h : History α} (hf : Fenced ch h) (st : SnapshotStep α) :
    Fenced ch (h.next st) := by
  obtain ⟨call, now, fails⟩ := st
  unfold History.next
  cases hx : SnapshotStep.exec ⟨call, now, fails⟩ h.db with
  | error e => exact hf
  | ok db' =>
    cases fails with
    | true => cases hx
    | false =>
      cases call with
      | markFailure c expected source catalog =>
        obtain ⟨snapshot, rfl, _, hv, _⟩ := mark_ok hx
        refine hf.of_same rfl ?_ fun v => rowsAt_set _ _ _ _ _
        rw [activeVersion_set]
        split
        · rename_i hc
          rw [hv, hc]
        · rfl
      | publish c expected source catalog caps =>
        obtain ⟨snapshot, rows, rfl, hexp, hnext, hpos, hrows⟩ := publish_ok hx
        have hv : activeVersion c (h.db.publish c snapshot rows) = snapshot.activeVersion := by
          show activeVersion c (h.db.setSnapshot c snapshot) = _
          rw [activeVersion_set, if_pos rfl]
        have hstamp := stamped_rows caps c snapshot.activeVersion source catalog now
        simp only [hv]
        rw [← hrows] at hstamp ⊢
        by_cases hc : c = ch
        · subst hc
          exact hf.publish hexp hnext hpos hstamp
        refine hf.of_same (by simp [History.log, hc]) ?_ fun v => ?_
        · show activeVersion ch (h.db.setSnapshot c snapshot) = _
          rw [activeVersion_set, if_neg (Ne.symm hc)]
        · rw [rowsAt_publish hstamp, if_neg (fun hn => hc hn.1.symm),
            if_neg (fun hn => hc hn.1.symm), append_nil]

theorem mark_visible
    (h : markChannelCapabilityRefreshFailure ch expected source catalog now db = .ok db') :
    db'.capabilities = db.capabilities ∧ activeVersion ch db' = activeVersion ch db ∧
      ∀ channelIDs requestModel lab, findActiveChannelCapabilities channelIDs requestModel lab db' =
        findActiveChannelCapabilities channelIDs requestModel lab db := by
  obtain ⟨snapshot, rfl, _, hv, hstatus⟩ := mark_ok h
  have hactive (row : ChannelModelCapability α) :
      (db.setSnapshot ch snapshot).isActive row = db.isActive row := by
    unfold isActive setSnapshot
    by_cases hc : row.channelID = ch
    · simp only [hc, Function.update_self]
      by_cases hpos : 0 < activeVersion ch db
      · obtain ⟨old, hold, hsame⟩ := hstatus hpos
        have hvo : activeVersion ch db = old.activeVersion := by simp [activeVersion, hold]
        simp only [hold, hv, hvo, hsame]
      have hnot : ¬ snapshot.activeVersion > 0 := by omega
      simp only [hnot, decide_false, Bool.false_and]
      cases hs : db.snapshots ch with
      | none => rfl
      | some old =>
        have hvo : activeVersion ch db = old.activeVersion := by simp [activeVersion, hs]
        simp [← hvo, hpos]
    · simp only [Function.update_of_ne hc]
  refine ⟨rfl, ?_, fun channelIDs requestModel lab => ?_⟩
  · rw [activeVersion_set, if_pos rfl, hv]
  unfold findActiveChannelCapabilities
  simp only [hactive]
  rfl

theorem fence_version (ch : Int) (db : CapabilityTables α) :
    (getChannelCapabilitySnapshotFence ch db).activeVersion = activeVersion ch db := by
  unfold getChannelCapabilitySnapshotFence activeVersion
  cases db.snapshots ch <;> rfl

theorem mark_conflict (hch : 0 < ch) (hne : expected.activeVersion ≠ activeVersion ch db) :
    markChannelCapabilityRefreshFailure ch expected source catalog now db = .error .conflict := by
  cases hx : markChannelCapabilityRefreshFailure ch expected source catalog now db with
  | ok db' =>
    obtain ⟨_, _, hv, _⟩ := mark_ok hx
    exact absurd hv hne
  | error e =>
    unfold markChannelCapabilityRefreshFailure at hx
    rw [if_neg (by omega)] at hx
    cases hc : db.current ch expected with
    | error e' =>
      rw [hc] at hx
      cases hx
      unfold current at hc
      split at hc
      · cases hc
      split at hc
      · cases hc
        rfl
      · cases hc
    | ok cur =>
      rw [hc] at hx
      change (if !expected.matches cur then _ else _) = _ at hx
      split at hx
      · cases hx
        rfl
      · cases hx

/-- What compare-and-swap promises for one channel after some transactions. -/
structure PublishedBySwap (ch : Int) (h : History α) : Prop where
  /-- The next transaction raises the version by one for the channel, or leaves it alone. -/
  byOne : ∀ st, activeVersion ch (h.next st).db = activeVersion ch h.db ∧
      (h.next st).log ch = h.log ch ∨
    activeVersion ch (h.next st).db = activeVersion ch h.db + 1 ∧
      ∃ p, (h.next st).log ch = p :: h.log ch ∧ p.version = activeVersion ch h.db + 1
  /-- No fence value was good for two publications. -/
  once : ((h.log ch).map (·.expected)).Nodup
  /-- A publication made the active version, with its rows. -/
  created : 0 < activeVersion ch h.db → ∃ p ∈ h.log ch, p.version = activeVersion ch h.db
  active : ∀ p ∈ h.log ch, p.version = activeVersion ch h.db →
    rowsAt ch (activeVersion ch h.db) h.db = p.rows
  /-- Only versions before the two predecessors of the active one lose rows. -/
  retained : ∀ p ∈ h.log ch, activeVersion ch h.db - 2 ≤ p.version →
    rowsAt ch p.version h.db = p.rows
  /-- A failure marker changes no version, no row and nothing readers see. -/
  marked : ∀ expected source catalog now db', markChannelCapabilityRefreshFailure ch expected source
      catalog now h.db = .ok db' →
    db'.capabilities = h.db.capabilities ∧ activeVersion ch db' = activeVersion ch h.db ∧
      ∀ channelIDs requestModel lab, findActiveChannelCapabilities channelIDs requestModel lab db' =
        findActiveChannelCapabilities channelIDs requestModel lab h.db

theorem next_log (h : History α) (st : SnapshotStep α) (ch : Int) :
    (h.next st).log ch = h.log ch ∨ ∃ p, (h.next st).log ch = p :: h.log ch := by
  unfold History.next
  split
  · exact .inl rfl
  · exact .inl rfl
  rename_i c _ _ _ _ _ _
  by_cases hc : c = ch
  · exact .inr ⟨_, filter_cons_of_pos (by simp [hc])⟩
  · exact .inl (filter_cons_of_neg (by simp [hc]))

theorem log_grows (later : List (SnapshotStep α)) (h : History α) (ch : Int) :
    ∃ new, (later.foldl History.next h).log ch = new ++ h.log ch := by
  induction later generalizing h with
  | nil => exact ⟨[], rfl⟩
  | cons st later ih =>
    obtain ⟨new, hnew⟩ := ih (h.next st)
    rcases next_log h st ch with hlog | ⟨p, hlog⟩
    · exact ⟨new, by rw [foldl_cons, hnew, hlog]⟩
    · exact ⟨new ++ [p], by rw [foldl_cons, hnew, hlog, append_assoc]; rfl⟩

theorem Fenced.published (hf : Fenced ch h) : PublishedBySwap ch h := by
  refine ⟨fun st => ?_, ?_, hf.current, fun p hp hv => ?_, hf.retained,
    fun _ _ _ _ _ => mark_visible⟩
  · have hf' := next_fenced hf st
    have hc := hf.count
    have hc' := hf'.count
    rcases next_log h st ch with hlog | ⟨p, hlog⟩
    · rw [hlog] at hc'
      exact .inl ⟨by omega, hlog⟩
    rw [hlog, length_cons] at hc'
    obtain ⟨q, hq, hqv⟩ := hf'.current (by omega)
    rw [hlog] at hq
    rcases mem_cons.mp hq with rfl | hq
    · exact .inr ⟨by omega, q, hlog, by omega⟩
    · have := (hf.versions q hq).2.1
      omega
  · have hmap : (h.log ch).map (·.version) =
        ((h.log ch).map (·.expected)).map fun f => f.activeVersion + 1 := by
      rw [map_map]
      apply map_congr_left
      intro p hp
      exact (hf.versions p hp).2.2.symm
    have hd := hf.distinct
    rw [hmap] at hd
    exact hd.of_map _
  · rw [← hv]
    exact hf.retained p hp (by omega)

/-- However many refreshers, with fences of any moment: publications of a channel are ordered by
compare-and-swap, and a failure marker with a fence from before a later one is refused. -/
theorem snapshots_published_by_swap (ch : Int) (steps later : List (SnapshotStep α)) :
    PublishedBySwap ch ((steps ++ later).foldl History.next {}) ∧
      (0 < ch → ((steps ++ later).foldl History.next {}).log ch ≠
        (steps.foldl History.next {}).log ch →
        ∀ source catalog now, markChannelCapabilityRefreshFailure ch
          (getChannelCapabilitySnapshotFence ch (steps.foldl History.next {}).db) source catalog now
          ((steps ++ later).foldl History.next {}).db = .error .conflict) := by
  have hrun (steps : List (SnapshotStep α)) : Fenced ch (steps.foldl History.next {}) :=
    foldl_keeps (I := Fenced ch) (fun _ st hf => next_fenced hf st) (.initial ch) steps
  refine ⟨(hrun _).published, fun hch hpub source catalog now => ?_⟩
  apply mark_conflict hch
  rw [fence_version, (hrun steps).count, (hrun (steps ++ later)).count]
  rw [foldl_append] at hpub ⊢
  obtain ⟨new, hnew⟩ := log_grows later (steps.foldl History.next {}) ch
  rw [hnew] at hpub ⊢
  have hlen : new.length ≠ 0 := by
    intro h0
    rw [length_eq_zero_iff.mp h0] at hpub
    exact hpub rfl
  rw [length_append]
  omega

/-- The active version counts the publications, no version was published twice, and every row is one
that was published with its version. -/
theorem versions_count_publications (ch : Int) (steps : List (SnapshotStep α)) :
    let h := steps.foldl History.next {}
    activeVersion ch h.db = (h.log ch).length ∧ ((h.log ch).map (·.version)).Nodup ∧
      ∀ row ∈ h.db.capabilities, row.channelID = ch →
        ∃ p ∈ h.log ch, p.version = row.snapshotVersion ∧ row ∈ p.rows := by
  have hf : Fenced ch (steps.foldl History.next {}) :=
    foldl_keeps (I := Fenced ch) (fun _ st hf => next_fenced hf st) (.initial ch) steps
  exact ⟨hf.count, hf.distinct, hf.owned⟩

end Ren2Hub.Proofs.SnapshotRuns
