import Ren2Hub.Channels.Keys
import Ren2Hub.Lib.Inputs

namespace Ren2Hub.Proofs.KeyRuns
open Lib Channels List

variable {s s' : KeyStore} {w : KeyWorld} {job : KeyJob} {channel : Channel} {c : Loaded}

theorem saved_multi (row : Channel) (h : channel.info.isMultiKey = true) :
    (saveStatusState channel row).info = channel.info := by
  simp [saveStatusState, h]

theorem setKey_multi (info : ChannelInfo) (k : Nat) (u : StatusUpdate) :
    (info.setKey k u).isMultiKey = info.isMultiKey := by
  unfold ChannelInfo.setKey
  split <;> rfl

theorem handler_info (channel : Channel) (u : StatusUpdate) :
    (handlerMultiKeyUpdate channel u).info =
      match u.target channel with
      | none => channel.info
      | some k => channel.info.setKey k u := by
  unfold handlerMultiKeyUpdate StatusUpdate.target
  split
  · rename_i hkeys
    simp [hkeys]
  cases channel.keys.idxOf? u.usingKey with
  | none =>
    dsimp only
    split <;> rfl
  | some k =>
    dsimp only
    split
    · rfl
    · split <;> rfl

theorem handler_keys (channel : Channel) (u : StatusUpdate) :
    (handlerMultiKeyUpdate channel u).keys = channel.keys := by
  unfold handlerMultiKeyUpdate
  split
  · rfl
  split
  · split <;> rfl
  dsimp only
  split
  · rfl
  · split <;> rfl

theorem handler_multi (channel : Channel) (u : StatusUpdate) :
    (handlerMultiKeyUpdate channel u).info.isMultiKey = channel.info.isMultiKey := by
  rw [handler_info]
  cases u.target channel with
  | none => rfl
  | some k => exact setKey_multi channel.info k u

theorem setKey_disabled {info : ChannelInfo} (hj : keyEnabled info.multiKeyStatusList j = false)
    (hne : u.status = channelStatusEnabled → j ≠ k) :
    keyEnabled (info.setKey k u).multiKeyStatusList j = false := by
  unfold ChannelInfo.setKey
  split
  · rename_i hs
    simpa [keyEnabled, KeyMap.erase, hne hs] using hj
  rename_i hs
  by_cases hjk : j = k
  · simp [keyEnabled, KeyMap.set, hjk, hs]
  · simpa [keyEnabled, KeyMap.set, hjk] using hj

theorem setKey_target (info : ChannelInfo) (k : Nat) (hs : u.status ≠ channelStatusEnabled) :
    keyEnabled (info.setKey k u).multiKeyStatusList k = false := by
  simp [ChannelInfo.setKey, hs, keyEnabled, KeyMap.set]

theorem mem_remaining (h : i ∈ remainingIndexes channel excluded) :
    keyEnabled channel.info.multiKeyStatusList i = true := by
  obtain ⟨hi, _⟩ := mem_filter.mp h
  exact (mem_filter.mp hi).2

theorem headD_mem (h : l ≠ []) : l.headD 0 ∈ l := by
  cases l with
  | nil => exact absurd rfl h
  | cons a l => simp

/-- An index the status list of the loaded row disables is not chosen. -/
def Chooses (channel : Channel) (choice : KeyChoice) : Prop :=
  ∀ key i, choice = .ok (key, i) → keyEnabled channel.info.multiKeyStatusList i = true

theorem chooses_ok (key : String) (h : keyEnabled channel.info.multiKeyStatusList i = true) :
    Chooses channel (.ok (key, i)) := by
  rintro _ _ ⟨⟩
  exact h

theorem chooses_error (e : KeyError) : Chooses channel (.error e) := by
  rintro _ _ ⟨⟩

theorem selectUnlocked_chooses (hm : channel.info.isMultiKey = true)
    (h : selectUnlocked channel excluded = some choice) :
    Chooses channel choice := by
  unfold selectUnlocked at h
  rw [hm] at h
  simp only [Bool.not_true, Bool.false_eq_true, if_false] at h
  split at h
  · cases h
    exact chooses_error _
  · cases h

theorem selectLocked_cases (channel : Channel) (excluded : List Nat) (pick : Nat) :
    (∃ choice, selectLocked channel excluded pick = some choice ∧ Chooses channel choice) ∨
      selectLocked channel excluded pick = none ∧ remainingIndexes channel excluded ≠ [] := by
  unfold selectLocked
  split
  · exact .inl ⟨_, rfl, chooses_error _⟩
  dsimp only
  split
  · exact .inl ⟨_, rfl, chooses_error _⟩
  rename_i hremaining
  cases channel.info.multiKeyMode with
  | random =>
    have hpos : 0 < (remainingIndexes channel excluded).length :=
      length_pos_iff.mpr hremaining
    have hlt := Nat.mod_lt pick hpos
    refine .inl ⟨_, rfl, chooses_ok _ ?_⟩
    rw [List.getElem?_eq_getElem hlt]
    exact mem_remaining (getElem_mem hlt)
  | unknown =>
    exact .inl ⟨_, rfl, chooses_ok _ (mem_remaining (headD_mem hremaining))⟩
  | polling => exact .inr ⟨rfl, hremaining⟩

theorem pollKey_spec (h : remainingIndexes channel excluded ≠ []) (pollingIndex : Int) :
    (pollKey channel excluded pollingIndex).1.info.multiKeyStatusList =
        channel.info.multiKeyStatusList ∧
      (pollKey channel excluded pollingIndex).1.info.isMultiKey = channel.info.isMultiKey ∧
      keyEnabled channel.info.multiKeyStatusList (pollKey channel excluded pollingIndex).2 =
        true := by
  unfold pollKey
  cases hp : pollIndex channel excluded pollingIndex with
  | none => exact ⟨rfl, rfl, mem_remaining (headD_mem h)⟩
  | some idx =>
    have hidx := find?_some hp
    simp only [Bool.and_eq_true, decide_eq_true_eq] at hidx
    exact ⟨rfl, rfl, (mem_filter.mp hidx.2).2⟩

def fresh (s : KeyStore) : KeyJob → Bool
  | .saving c _ => c.since = s.stored
  | _ => true

/-- A request saves the row only if no status was stored since it loaded the row. -/
def SavesFresh (w : KeyWorld) : KeyEvent → Prop
  | .step i => w.jobs[i]?.all (fresh w.state)
  | _ => True

instance (w : KeyWorld) (e : KeyEvent) : Decidable (SavesFresh w e) := by
  cases e <;> dsimp only [SavesFresh] <;> infer_instance

def critical : KeyJob → Bool
  | .reading _ _ | .saving _ _ | .fetching _ | .storing _ _ => true
  | _ => false

/-- The indexes that were disabled are disabled in the row. -/
structure Kept (s : KeyStore) : Prop where
  multi : s.row.info.isMultiKey = true
  disabled : ∀ k ∈ s.disabled, keyEnabled s.row.info.multiKeyStatusList k = false

/-- A loaded row that no update has made stale has the status list of the row. -/
structure Copy (s : KeyStore) (c : Loaded) : Prop where
  multi : c.channel.info.isMultiKey = true
  since : c.since ≤ s.stored
  fresh : c.since = s.stored →
    c.channel.info.multiKeyStatusList = s.row.info.multiKeyStatusList
  barred : ∀ k ∈ c.barred, keyEnabled c.channel.info.multiKeyStatusList k = false

/-- The choice is none of the indexes that were disabled when the row was loaded. -/
def Avoids (choice : KeyChoice) (barred : List Nat) : Prop :=
  ∀ key i, choice = .ok (key, i) → i ∉ barred

/-- What a job knows, whether it holds the lock or not. -/
def Knows : KeyJob → KeyStore → Prop
  | .waiting c _ _, s => Copy s c
  | .reading c excluded, s => Copy s c ∧ remainingIndexes c.channel excluded ≠ []
  | .saving c choice, s => Copy s c ∧ Avoids choice c.barred
  | .selected choice barred, _ => Avoids choice barred
  | _, _ => True

/-- What the job with the lock knows besides. -/
def Holds : KeyJob → KeyStore → Prop
  | .storing u channel, s => s.locked = true ∧ channel = statusUpdated s.row u
  | _, s => s.locked = true

theorem Holds.locked (h : Holds job s) : s.locked = true := by
  cases job with
  | storing => exact h.1
  | _ => exact h

theorem Copy.avoids (h : Copy s c) (hc : Chooses c.channel choice) : Avoids choice c.barred := by
  intro key i he hi
  have henabled := hc key i he
  rw [h.barred i hi] at henabled
  cases henabled

/-- What a step does to the store, as far as the other jobs can tell. -/
def Effect (s s' : KeyStore) : Prop :=
  s.stored < s'.stored ∨ s'.stored = s.stored ∧
    s'.row.info.multiKeyStatusList = s.row.info.multiKeyStatusList

theorem Copy.effect (h : Copy s c) (he : Effect s s') : Copy s' c := by
  have hle := h.since
  refine ⟨h.multi, by unfold Effect at he; omega, fun hs => ?_, h.barred⟩
  obtain ⟨hstored, hlist⟩ : s'.stored = s.stored ∧ _ := he.resolve_left (by omega)
  exact (h.fresh (hs.trans hstored)).trans hlist.symm

theorem Knows.effect (h : Knows job s) (he : Effect s s') : Knows job s' := by
  cases job with
  | waiting => exact Copy.effect h he
  | reading | saving => exact ⟨h.1.effect he, h.2⟩
  | selected => exact h
  | _ => trivial

theorem Kept.store (h : Kept s) (u : StatusUpdate) :
    Kept { s.store u (statusUpdated s.row u) with locked := false } := by
  have hupdated : statusUpdated s.row u = handlerMultiKeyUpdate s.row u := by
    simp [statusUpdated, h.multi]
  have htarget : u.target (handlerMultiKeyUpdate s.row u) = u.target s.row := by
    simp [StatusUpdate.target, handler_keys]
  have hinfo := handler_info s.row u
  have hmulti := (handler_multi s.row u).trans h.multi
  rw [hupdated]
  refine ⟨by simpa only [KeyStore.store, saved_multi _ hmulti] using hmulti, ?_⟩
  simp only [KeyStore.store, saved_multi _ hmulti, htarget, hinfo]
  cases u.target s.row with
  | none => exact h.disabled
  | some k =>
    dsimp only
    split
    · intro j hj
      obtain ⟨hj, hne⟩ := mem_filter.mp hj
      exact setKey_disabled (h.disabled j hj) fun _ => by simpa using hne
    rename_i hs
    intro j hj
    rcases mem_cons.mp hj with rfl | hj
    · exact setKey_target s.row.info _ hs
    · exact setKey_disabled (h.disabled j hj) fun he => absurd he hs

structure Sound (w : KeyWorld) : Prop where
  kept : Kept w.state
  knows : ∀ job ∈ w.jobs, Knows job w.state
  lock : Crew.Solo (critical · = false) (·.locked = false) Holds w

theorem Sound.free (h : Sound w) (hfree : w.state.locked = false) (i : Nat) :
    ∀ (j : Nat) u, j ≠ i → w.jobs[j]? = some u → critical u = false := by
  intro j u _ hj
  by_contra hu
  have := (h.lock.busy j u hj hu).1.locked
  rw [hfree] at this
  cases this

theorem Sound.others (h : Sound w) (hi : w.jobs[i]? = some job) (hc : critical job = true) :
    ∀ (j : Nat) u, j ≠ i → w.jobs[j]? = some u → critical u = false :=
  h.lock.others hi (by simp [hc])

theorem Sound.move (h : Sound w) (hi : w.jobs[i]? = some job)
    (hothers : ∀ (j : Nat) u, j ≠ i → w.jobs[j]? = some u → critical u = false) (hkept : Kept s')
    (heffect : Effect w.state s') (hknows : Knows job' s')
    (hlock : (critical job' = false → s'.locked = false) ∧
      (¬ critical job' = false → Holds job' s')) :
    Sound ⟨s', w.jobs.set i job'⟩ where
  kept := hkept
  knows := Crew.knows_set h.knows hknows fun _ hu => hu.effect heffect
  lock := h.lock.move hi hothers fun _ _ => hlock

theorem Sound.aside (h : Sound w) (hi : w.jobs[i]? = some job) (hc : critical job = false)
    (hc' : critical job' = false) (hknows : Knows job' w.state) :
    Sound ⟨w.state, w.jobs.set i job'⟩ where
  kept := h.kept
  knows := Crew.knows_set h.knows hknows fun _ hu => hu
  lock := h.lock.aside hi hc hc'

abbrev moved (w : KeyWorld) (i : Nat) (job : KeyJob) : KeyWorld :=
  ⟨(job.step w.state).1, w.jobs.set i (job.step w.state).2⟩

section
variable (h : Sound w)
include h

theorem Sound.waiting (hi : w.jobs[i]? = some (.waiting c excluded pick)) :
    Sound (moved w i (.waiting c excluded pick)) := by
  have hcopy : Copy w.state c := h.knows _ (mem_of_getElem? hi)
  simp only [moved, KeyJob.step]
  cases hu : selectUnlocked c.channel excluded with
  | some choice => exact h.aside hi rfl rfl (hcopy.avoids (selectUnlocked_chooses hcopy.multi hu))
  | none =>
    dsimp only
    split
    · exact h.aside hi rfl rfl hcopy
    rename_i hfree
    rcases selectLocked_cases c.channel excluded pick with ⟨choice, he, hc⟩ | ⟨he, hremaining⟩
    · rw [he]
      exact h.aside hi rfl rfl (hcopy.avoids hc)
    rw [he]
    refine h.move hi (h.free (by simpa using hfree) i) ⟨h.kept.multi, h.kept.disabled⟩
      (.inr ⟨rfl, rfl⟩)
      ⟨hcopy.effect (.inr ⟨rfl, rfl⟩), hremaining⟩ ⟨nofun, fun _ => rfl⟩

theorem Sound.reading (hi : w.jobs[i]? = some (.reading c excluded)) :
    Sound (moved w i (.reading c excluded)) := by
  obtain ⟨hcopy, hremaining⟩ : Copy w.state c ∧ remainingIndexes c.channel excluded ≠ [] :=
    h.knows _ (mem_of_getElem? hi)
  obtain ⟨hlist, hmulti, henabled⟩ :=
    pollKey_spec hremaining w.state.row.info.multiKeyPollingIndex
  have hlocked := (h.lock.busy i _ hi (by simp [critical])).1.locked
  refine h.move hi (h.others hi rfl) h.kept (.inr ⟨rfl, rfl⟩) ⟨⟨?_, hcopy.since, ?_, ?_⟩, ?_⟩
    ⟨nofun, fun _ => hlocked⟩
  · exact hmulti.trans hcopy.multi
  · exact fun hs => hlist.trans (hcopy.fresh hs)
  · exact fun k hk => (congrArg (keyEnabled · k) hlist).trans (hcopy.barred k hk)
  · exact hcopy.avoids (chooses_ok _ henabled)

theorem Sound.saving (hi : w.jobs[i]? = some (.saving c choice))
    (hfresh : c.since = w.state.stored) : Sound (moved w i (.saving c choice)) := by
  obtain ⟨hcopy, havoids⟩ : Copy w.state c ∧ Avoids choice c.barred :=
    h.knows _ (mem_of_getElem? hi)
  have hlist := hcopy.fresh hfresh
  refine h.move hi (h.others hi rfl) ⟨hcopy.multi, fun k hk => ?_⟩ (.inr ⟨rfl, hlist⟩) havoids
    ⟨fun _ => rfl, fun hc => absurd rfl hc⟩
  rw [← h.kept.disabled k hk]
  exact congrArg (keyEnabled · k) hlist

theorem Sound.updating (hi : w.jobs[i]? = some (.updating u)) :
    Sound (moved w i (.updating u)) := by
  simp only [moved, KeyJob.step]
  split
  · exact h.aside hi rfl rfl trivial
  rename_i hfree
  exact h.move hi (h.free (by simpa using hfree) i) ⟨h.kept.multi, h.kept.disabled⟩
    (.inr ⟨rfl, rfl⟩) trivial ⟨nofun, fun _ => rfl⟩

theorem Sound.fetching (hi : w.jobs[i]? = some (.fetching u)) :
    Sound (moved w i (.fetching u)) := by
  have hlocked := (h.lock.busy i _ hi (by simp [critical])).1.locked
  simp only [moved, KeyJob.step]
  split
  · exact h.move hi (h.others hi rfl) ⟨h.kept.multi, h.kept.disabled⟩ (.inr ⟨rfl, rfl⟩) trivial
      ⟨fun _ => rfl, fun hc => absurd rfl hc⟩
  · exact h.move hi (h.others hi rfl) h.kept (.inr ⟨rfl, rfl⟩) trivial
      ⟨nofun, fun _ => ⟨hlocked, rfl⟩⟩

theorem Sound.storing (hi : w.jobs[i]? = some (.storing u channel)) :
    Sound (moved w i (.storing u channel)) := by
  obtain ⟨_, rfl⟩ := (h.lock.busy i _ hi (by simp [critical])).1
  exact h.move hi (h.others hi rfl) (h.kept.store u) (.inl (Nat.lt_succ_self _)) trivial
    ⟨fun _ => rfl, fun hc => absurd rfl hc⟩

theorem Sound.on (e : KeyEvent) (hfresh : SavesFresh w e) : Sound (w.on e) := by
  have hjoin : ∀ job, critical job = false → Knows job w.state → Sound (Crew.join w job) := by
    intro job hc hk
    refine ⟨h.kept, fun u hu => ?_, h.lock.join hc⟩
    rcases mem_append.mp hu with hu | hu
    · exact h.knows u hu
    · rw [mem_singleton.mp hu]
      exact hk
  cases e with
  | request | updateChannelStatus => exact hjoin _ rfl trivial
  | step i =>
    simp only [KeyWorld.on]
    rcases Crew.step_cases KeyJob.step w i with he | ⟨job, hi, he⟩ <;> rw [he]
    · exact h
    cases job with
    | loading =>
      exact h.aside hi rfl rfl ⟨h.kept.multi, Nat.le_refl _, fun _ => rfl, h.kept.disabled⟩
    | waiting => exact h.waiting hi
    | reading => exact h.reading hi
    | saving => exact h.saving hi (by simpa [SavesFresh, hi, fresh] using hfresh)
    | selected =>
      exact h.aside hi rfl rfl (h.knows _ (mem_of_getElem? hi))
    | updating => exact h.updating hi
    | fetching => exact h.fetching hi
    | storing => exact h.storing hi
    | updated => exact h.aside hi rfl rfl trivial

end

/-- Where no request saves a row that a status update made stale, a disabled key stays so until it
is enabled, and no request that loads the channel gets it. -/
theorem disabled_key_stays (row : Channel) (hm : row.info.isMultiKey = true)
    (events : List KeyEvent)
    (hfresh : Along KeyWorld.on SavesFresh ⟨⟨row, false, 0, []⟩, []⟩ events) :
    let w := events.foldl KeyWorld.on ⟨⟨row, false, 0, []⟩, []⟩
    (∀ k ∈ w.state.disabled, keyEnabled w.state.row.info.multiKeyStatusList k = false) ∧
      ∀ key i barred, .selected (.ok (key, i)) barred ∈ w.jobs → i ∉ barred := by
  have hstart : Sound ⟨⟨row, false, 0, []⟩, []⟩ := by
    refine ⟨⟨hm, by simp⟩, by simp, ⟨fun _ => rfl, fun i t hi => ?_⟩⟩
    simp at hi
  have h := hfresh.keeps (fun w e h hg => h.on e hg) hstart
  exact ⟨h.kept.disabled, fun key i barred hj => h.knows _ hj key i rfl⟩

def twoKeys : Channel := { keys := ["a", "b"] }

def disableA : StatusUpdate := ⟨"a", channelStatusAutoDisabled, "quota", 1⟩

/-- A request, an update that disables the first key, and a request that has tried the second. -/
def overlap (plan : List Nat) : List KeyEvent :=
  [.request [] 0, .updateChannelStatus disableA] ++ plan.map .step ++
    .request [1] 0 :: List.replicate 4 (.step 2)

def chosen (w : KeyWorld) : List Nat :=
  w.jobs.filterMap fun
    | .selected (.ok (_, i)) _ => some i
    | _ => none

/-- The update has stored the status before the first request loads the row. -/
theorem disabled_key_skipped :
    let w := (overlap [1, 1, 1, 0, 0, 0, 0]).foldl KeyWorld.on ⟨⟨twoKeys, false, 0, []⟩, []⟩
    (∀ k ∈ w.state.disabled, keyEnabled w.state.row.info.multiKeyStatusList k = false) ∧
      w.state.disabled = [0] ∧ chosen w = [1] :=
  have h := disabled_key_stays twoKeys rfl (overlap [1, 1, 1, 0, 0, 0, 0]) (by decide)
  ⟨h.1, by decide, by decide⟩

/-- The first request has loaded the row before the update and saves what it loaded: the second gets
the key. -/
theorem stale_save_enables_key :
    let w := (overlap [0, 1, 1, 1, 0, 0, 0]).foldl KeyWorld.on ⟨⟨twoKeys, false, 0, []⟩, []⟩
    w.state.disabled = [0] ∧ keyEnabled w.state.row.info.multiKeyStatusList 0 = true ∧
      chosen w = [0, 0] := by
  decide

def Alike (a b : Channel) : Prop := a.keys = b.keys ∧ a.info.isMultiKey = b.info.isMultiKey

def Agrees (a b : Channel) : Prop :=
  a.status = b.status ∧ a.info.multiKeyStatusList = b.info.multiKeyStatusList

theorem Agrees.handler (h : Agrees a b) (hkeys : a.keys = b.keys) (u : StatusUpdate) :
    Agrees (handlerMultiKeyUpdate a u) (handlerMultiKeyUpdate b u) := by
  have hset : ∀ k, (a.info.setKey k u).multiKeyStatusList =
      (b.info.setKey k u).multiKeyStatusList := by
    intro k
    unfold ChannelInfo.setKey
    split <;> simp only [h.2]
  unfold handlerMultiKeyUpdate
  rw [hkeys]
  split
  · exact ⟨rfl, h.2⟩
  split
  · split
    · exact h
    · exact ⟨rfl, h.2⟩
  simp only [hset]
  split
  · exact ⟨rfl, hset _⟩
  split
  · exact ⟨rfl, hset _⟩
  · exact ⟨h.1, hset _⟩

theorem cacheStatus_alike (h : cacheStatus channel u = some cache) : Alike cache channel := by
  unfold cacheStatus at h
  split at h
  · cases h
    exact ⟨handler_keys .., handler_multi ..⟩
  · split at h <;> cases h
    exact ⟨rfl, rfl⟩

theorem rowStatus_alike (row : Channel) (u : StatusUpdate) : Alike (rowStatus row u) row := by
  unfold rowStatus statusUpdated
  split
  · exact ⟨rfl, rfl⟩
  refine ⟨rfl, ?_⟩
  simp only [saveStatusState]
  split
  · split
    · exact handler_multi ..
    · rfl
  · rfl

theorem alike_update (c : CachedChannel) (u : StatusUpdate) (h : Alike c.cache c.row) :
    Alike (updateChannelStatus c u).cache (updateChannelStatus c u).row := by
  have hrow := rowStatus_alike c.row u
  unfold updateChannelStatus
  cases hc : cacheStatus c.cache u with
  | none => exact h
  | some cache =>
    have hcache := cacheStatus_alike hc
    exact ⟨(hcache.1.trans h.1).trans hrow.1.symm, (hcache.2.trans h.2).trans hrow.2.symm⟩

/-- The key of the update has the status already, by its entry in the list or, where it is to be
enabled, by having none; and where no key is enabled, the status is that of a channel without
one. -/
def Settled (channel : Channel) (u : StatusUpdate) : Prop :=
  ∀ i, channel.keys.idxOf? u.usingKey = some i →
    if u.status = channelStatusEnabled then channel.info.multiKeyStatusList i = none
    else channel.info.multiKeyStatusList i = some u.status ∧
      (hasEnabledMultiKey channel.keys channel.info.multiKeyStatusList = false →
        u.status = channelStatusAutoDisabled)

/-- A call on many keys that finds the channel with the status it asks for also finds its key so. -/
def LeavesAlone (c : CachedChannel) (u : StatusUpdate) : Prop :=
  c.cache.info.isMultiKey = true → c.row.status = u.status → Settled c.cache u

theorem erase_eq_iff {m : KeyMap Int} : m.erase i = m ↔ m i = none := by
  constructor
  · intro h
    rw [← h]
    simp [KeyMap.erase]
  · intro h
    funext j
    by_cases hj : j = i <;> simp [KeyMap.erase, hj, h]

theorem set_eq_iff {m : KeyMap Int} : m.set i a = m ↔ m i = some a := by
  constructor
  · intro h
    rw [← h]
    simp [KeyMap.set]
  · intro h
    funext j
    by_cases hj : j = i <;> simp [KeyMap.set, hj, h]

theorem hasEnabled_erase (keys : List String) (m : KeyMap Int) (hi : i < keys.length) :
    hasEnabledMultiKey keys (m.erase i) = true :=
  any_eq_true.mpr ⟨i, mem_range.mpr hi, by simp [keyEnabled, KeyMap.erase]⟩

theorem handler_agrees_iff (hs : channel.status = u.status) :
    Agrees (handlerMultiKeyUpdate channel u) channel ↔ Settled channel u := by
  unfold handlerMultiKeyUpdate Settled
  split
  · rename_i hkeys
    simp [hkeys, Agrees, hs]
  cases hi : channel.keys.idxOf? u.usingKey with
  | none =>
    dsimp only
    split <;> simp [Agrees, hs]
  | some i =>
    obtain ⟨hlt, _⟩ := idxOf?_eq_some_iff.mp hi
    by_cases hu : u.status = channelStatusEnabled
    · have hlist : (channel.info.setKey i u).multiKeyStatusList =
          channel.info.multiKeyStatusList.erase i := by simp [ChannelInfo.setKey, hu]
      simp [hlist, hasEnabled_erase _ _ hlt, hu, Agrees, erase_eq_iff, hs]
    · have hlist : (channel.info.setKey i u).multiKeyStatusList =
          channel.info.multiKeyStatusList.set i u.status := by simp [ChannelInfo.setKey, hu]
      simp only [hlist, hu, if_false, Option.some.injEq, forall_eq']
      have hsame : channel.info.multiKeyStatusList i = some u.status →
          hasEnabledMultiKey channel.keys (channel.info.multiKeyStatusList.set i u.status) =
            hasEnabledMultiKey channel.keys channel.info.multiKeyStatusList := by
        intro hentry
        rw [set_eq_iff.mpr hentry]
      cases hany : hasEnabledMultiKey channel.keys
          (channel.info.multiKeyStatusList.set i u.status) with
      | false =>
        simp only [Bool.not_false, if_true, Agrees, hlist, set_eq_iff]
        constructor
        · rintro ⟨hstatus, hentry⟩
          exact ⟨hentry, fun _ => hs.symm.trans hstatus.symm⟩
        · rintro ⟨hentry, hauto⟩
          exact ⟨(hauto ((hsame hentry).symm.trans hany)).symm.trans hs.symm, hentry⟩
      | true =>
        simp only [Bool.not_true, Bool.false_eq_true, if_false, Agrees, hlist, set_eq_iff, true_and]
        refine (and_iff_left_of_imp fun hentry hnone => ?_).symm
        rw [hsame hentry, hnone] at hany
        cases hany

theorem agrees_update (c : CachedChannel) (u : StatusUpdate) (ha : Alike c.cache c.row)
    (h : Agrees c.cache c.row) :
    Agrees (updateChannelStatus c u).cache (updateChannelStatus c u).row ↔ LeavesAlone c u := by
  unfold updateChannelStatus cacheStatus rowStatus LeavesAlone
  cases hm : c.cache.info.isMultiKey with
  | false =>
    have hm' : c.row.info.isMultiKey = false := ha.2.symm.trans hm
    rw [h.1]
    by_cases hu : c.row.status = u.status
    · simpa [hu] using h
    · simpa [hu, Agrees, saveStatusState, statusUpdated, hm'] using h.2
  | true =>
    have hm' : c.row.info.isMultiKey = true := ha.2.symm.trans hm
    by_cases hu : c.row.status = u.status
    · rw [← handler_agrees_iff (h.1.trans hu)]
      simp [hu, Agrees, h.1, h.2]
    have hsaved := saved_multi c.row ((handler_multi c.row u).trans hm')
    have h' := h.handler ha.1 u
    simp only [hu, if_true, if_false, statusUpdated, hm', false_implies, implies_true, iff_true]
    exact ⟨h'.1, h'.2.trans (by rw [hsaved])⟩

/-- The cached status and list stay the stored ones exactly if every call that finds the channel
with the status it asks for also finds its key with it. -/
theorem cached_status_agrees_iff (row : Channel) (updates : List StatusUpdate) :
    (∀ pre, pre <+: updates →
      let c := pre.foldl updateChannelStatus ⟨row, row⟩
      Agrees c.cache c.row) ↔
      Along updateChannelStatus LeavesAlone ⟨row, row⟩ updates := by
  have halike : ∀ us : List StatusUpdate,
      Alike (us.foldl updateChannelStatus ⟨row, row⟩).cache
        (us.foldl updateChannelStatus ⟨row, row⟩).row :=
    foldl_keeps (I := fun c : CachedChannel => Alike c.cache c.row) alike_update ⟨rfl, rfl⟩
  have hiff := along_iff_keeps (f := updateChannelStatus) (A := fun _ _ => True) (x := ⟨row, row⟩)
    (P := fun c : CachedChannel => Alike c.cache c.row ∧ Agrees c.cache c.row)
    (fun c u _ h => (and_iff_right (alike_update c u h.1)).trans (agrees_update c u h.1 h.2))
    ⟨⟨rfl, rfl⟩, rfl, rfl⟩ updates (along_of_forall _ fun _ _ => trivial)
  rw [← hiff]
  exact forall₂_congr fun pre _ => (and_iff_right (halike pre)).symm

def halfEnabled : Channel :=
  { twoKeys with info := { multiKeyStatusList := KeyMap.set (fun _ => none) 0 3 } }

/-- The first key is enabled in the cache only, and is disabled again after the next
reload. -/
theorem enabled_key_lost :
    let c := updateChannelStatus ⟨halfEnabled, halfEnabled⟩ ⟨"a", channelStatusEnabled, "", 1⟩
    keyEnabled c.cache.info.multiKeyStatusList 0 = true ∧
      keyEnabled c.row.info.multiKeyStatusList 0 = false ∧
      keyEnabled (initChannelCache c).cache.info.multiKeyStatusList 0 = false := by
  decide

end Ren2Hub.Proofs.KeyRuns
