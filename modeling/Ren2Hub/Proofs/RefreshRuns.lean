import Ren2Hub.Lib.Rules
import Ren2Hub.Proofs.SnapshotRuns
import Ren2Hub.Routing.Refresh

namespace Ren2Hub.Proofs.RefreshRuns
open Lib Lib.Machine Routing SnapshotRuns List

variable {κ β α : Type} {P : Projection κ β α} {s s' t : RefreshState κ β α}
  {c : RefreshCall κ β} {channel : LoadedChannel κ}

/-- A row in memory is still the one in the table unless the channel was edited since. -/
def Genuine (s : RefreshState κ β α) (channel : LoadedChannel κ) : Prop :=
  channel.readAt < s.clock ∧
    (s.editedAt channel.id < channel.readAt → s.row? channel.id = some channel.row)

/-- What holds of the shared state whoever moves. -/
structure Sound (s : RefreshState κ β α) : Prop where
  versions : ∀ ch, 0 ≤ activeVersion ch s.db ∧ activeVersion ch s.db < 2 ^ 63
  behind : ∀ ch b, s.behind ch = some b →
    b.id = ch ∧ Genuine s b ∧ b.readAt ≤ s.publishedAt ch

/-- The snapshots of `s'` stem from rows read no earlier than those of `s`, and from the rows in the
table where those were read after the last edit. -/
def NeverOlder (s s' : RefreshState κ β α) : Prop :=
  ∀ ch b, s.behind ch = some b → ∃ b', s'.behind ch = some b' ∧ b.readAt ≤ b'.readAt ∧
    (s'.editedAt ch < b.readAt → s'.row? ch = some b'.row)

/-- What each step of any process guarantees to the others. -/
structure Progress (s s' : RefreshState κ β α) : Prop where
  sound : Sound s → Sound s'
  clock : s.clock ≤ s'.clock
  versions : ∀ ch, activeVersion ch s.db ≤ activeVersion ch s'.db
  publishedAt : ∀ ch, s'.publishedAt ch = s.publishedAt ch ∨
    activeVersion ch s.db < activeVersion ch s'.db
  rows : ∀ ch, s'.editedAt ch = s.editedAt ch ∧ s'.row? ch = s.row? ch ∨ s.clock ≤ s'.editedAt ch
  behind : ∀ ch b, s.behind ch = some b → ∃ b', s'.behind ch = some b' ∧ b.readAt ≤ b'.readAt

theorem Progress.refl (s : RefreshState κ β α) : Progress s s :=
  ⟨id, le_rfl, fun _ => le_rfl, fun _ => .inl rfl, fun _ => .inl ⟨rfl, rfl⟩,
    fun _ b hb => ⟨b, hb, le_rfl⟩⟩

theorem Progress.trans (h : Progress s s') (h' : Progress s' t) : Progress s t := by
  refine ⟨fun hs => h'.sound (h.sound hs), h.clock.trans h'.clock,
    fun ch => (h.versions ch).trans (h'.versions ch), fun ch => ?_, fun ch => ?_, ?_⟩
  · have hv := h.versions ch
    have hv' := h'.versions ch
    rcases h.publishedAt ch with he | hlt
    · rcases h'.publishedAt ch with he' | hlt
      · exact .inl (he'.trans he)
      · exact .inr (by omega)
    · exact .inr (by omega)
  · have hc := h.clock
    rcases h'.rows ch with ⟨he, hr⟩ | hlt
    · rw [he, hr]
      exact h.rows ch
    · exact .inr (by omega)
  · intro ch b hb
    obtain ⟨b', hb', hle⟩ := h.behind ch b hb
    obtain ⟨b'', hb'', hle'⟩ := h'.behind ch b' hb'
    exact ⟨b'', hb'', hle.trans hle'⟩

theorem Progress.genuine (h : Progress s s') (hg : Genuine s channel) : Genuine s' channel := by
  obtain ⟨hread, hrow⟩ := hg
  have hc := h.clock
  refine ⟨by omega, fun hlt => ?_⟩
  rcases h.rows channel.id with ⟨he, hr⟩ | hlate
  · rw [hr]
    exact hrow (he ▸ hlt)
  · omega

theorem Progress.neverOlder (h : Progress s s') (hs : Sound s) : NeverOlder s s' := by
  intro ch b hb
  obtain ⟨b', hb', hle⟩ := h.behind ch b hb
  obtain ⟨rfl, hg, _⟩ := (h.sound hs).behind ch b' hb'
  exact ⟨b', hb', hle, fun hlt => hg.2 (by omega)⟩

theorem Progress.of_kept (hclock : s.clock ≤ s'.clock)
    (hv : ∀ ch, activeVersion ch s'.db = activeVersion ch s.db)
    (hp : s'.publishedAt = s.publishedAt) (hb : s'.behind = s.behind)
    (hrows : ∀ ch, s'.editedAt ch = s.editedAt ch ∧ s'.row? ch = s.row? ch ∨
      s.clock ≤ s'.editedAt ch) : Progress s s' := by
  refine ⟨fun hs => ⟨fun ch => ?_, fun ch b hbehind => ?_⟩, hclock, fun ch => (hv ch).ge,
    fun ch => .inl (by rw [hp]), hrows, fun ch b hbehind => ⟨b, by rw [hb, hbehind], le_rfl⟩⟩
  · rw [hv]
    exact hs.versions ch
  rw [hb] at hbehind
  obtain ⟨he, ⟨hread, hrow⟩, hle⟩ := hs.behind ch b hbehind
  refine ⟨he, ⟨by omega, fun hlt => ?_⟩, by rw [hp]; exact hle⟩
  rcases hrows b.id with ⟨hedit, hr⟩ | hlate
  · rw [hr]
    exact hrow (hedit ▸ hlt)
  · omega

theorem find?_filter_ne {rows : List (Int × κ)} (h : other ≠ ch) :
    (rows.filter fun r => r.1 ≠ ch).find? (fun r => r.1 = other) =
      rows.find? fun r => r.1 = other := by
  rw [find?_filter]
  congr 1
  funext r
  by_cases hr : r.1 = other
  · simp [hr, h]
  · simp [hr]

theorem Progress.of_edit (h : ∀ c, c ≠ ch → (s.edited ch channels).row? c = s.row? c) :
    Progress s (s.edited ch channels) := by
  refine of_kept (Nat.le_succ _) (fun _ => rfl) rfl rfl fun c => ?_
  by_cases hc : c = ch
  · right
    simp [RefreshState.edited, hc]
  · left
    exact ⟨by simp [RefreshState.edited, hc], h c hc⟩

/-- Only a publication swaps a snapshot. -/
def IsPublish : RefreshCall κ β → Prop
  | .publish .. => True
  | _ => False

theorem progress_of_not_publish (hc : ¬ IsPublish c) (s : RefreshState κ β α) :
    Progress s (c.exec P s).1 := by
  have hquiet : ∀ u : RefreshState κ β α, s.clock ≤ u.clock → u.db = s.db →
      u.publishedAt = s.publishedAt → u.behind = s.behind → u.editedAt = s.editedAt →
      u.channels = s.channels → Progress s u := by
    intro u hclock hdb hp hb he hrow
    exact .of_kept hclock (fun ch => by rw [hdb]) hp hb fun ch =>
      .inl ⟨by rw [he], by unfold RefreshState.row?; rw [hrow]⟩
  cases c with
  | publish => exact absurd trivial hc
  | markFailure ch expected source now =>
    simp only [RefreshCall.exec]
    split
    · rename_i db hm
      obtain ⟨snapshot, rfl, _, hv, _⟩ := mark_ok hm
      refine .of_kept le_rfl (fun c => ?_) rfl rfl fun _ => .inl ⟨rfl, rfl⟩
      rw [activeVersion_set]
      split
      · rename_i he
        rw [hv, he]
      · rfl
    · exact .refl s
  | saveChannel =>
    refine .of_edit fun other hother => ?_
    change (List.find? _ (_ :: _)).map _ = _
    rw [find?_cons_of_neg (by simpa using hother.symm), find?_filter_ne hother]
    rfl
  | deleteChannel =>
    refine .of_edit fun other hother => ?_
    change (List.find? _ (List.filter _ _)).map _ = _
    rw [find?_filter_ne hother]
    rfl
  | findChannel | findChannels => exact hquiet _ (Nat.le_succ _) rfl rfl rfl rfl rfl
  | _ => exact hquiet _ le_rfl rfl rfl rfl rfl rfl

/-- The fence was taken with no snapshot published since the read, and is no newer than the active
one. -/
def Fresh (s : RefreshState κ β α) (channel : LoadedChannel κ)
    (fence : ChannelCapabilitySnapshotFence) : Prop :=
  Genuine s channel ∧ fence.activeVersion ≤ activeVersion channel.id s.db ∧
    (fence.activeVersion = activeVersion channel.id s.db →
      s.publishedAt channel.id ≤ channel.readAt)

theorem Progress.fresh (h : Progress s s') (hf : Fresh s channel fence) :
    Fresh s' channel fence := by
  obtain ⟨hg, hle, hread⟩ := hf
  have hv := h.versions channel.id
  refine ⟨h.genuine hg, hle.trans hv, fun he => ?_⟩
  rcases h.publishedAt channel.id with hp | hlt
  · rw [hp]
    exact hread (by omega)
  · omega

theorem progress_of_publish (hs : Sound s) (hf : Fresh s channel fence)
    (h : publishChannelCapabilitySnapshot channel.id fence source catalog caps now s.db = .ok db) :
    Progress s (s.published channel db) := by
  obtain ⟨snapshot, rows, rfl, hexp, hnext, hpos, _⟩ := publish_ok h
  obtain ⟨hg, _, hread⟩ := hf
  obtain ⟨h0, h1⟩ := hs.versions channel.id
  obtain ⟨hsucc, hfits⟩ := int64_succ h0 h1 (hnext ▸ hpos)
  have hv : ∀ ch, activeVersion ch (s.db.publish channel.id snapshot rows) =
      if ch = channel.id then activeVersion channel.id s.db + 1 else activeVersion ch s.db := by
    intro ch
    rw [← hsucc, ← hnext]
    exact activeVersion_set s.db channel.id ch snapshot
  have hprog : ∀ b, s.behind channel.id = some b → b.readAt ≤ channel.readAt := by
    intro b hb
    exact ((hs.behind _ b hb).2.2).trans (hread hexp)
  refine ⟨fun _ => ⟨fun ch => ?_, fun ch b hb => ?_⟩, Nat.le_succ _, fun ch => ?_, fun ch => ?_,
    fun _ => .inl ⟨rfl, rfl⟩, fun ch b hb => ?_⟩
  · change 0 ≤ activeVersion ch (s.db.publish _ _ _) ∧ activeVersion ch (s.db.publish _ _ _) < _
    rw [hv]
    split
    · omega
    · exact hs.versions ch
  · by_cases hch : ch = channel.id
    · subst hch
      have he : channel = b := by simpa [RefreshState.published] using hb
      subst he
      refine ⟨rfl, ⟨Nat.lt_succ_of_lt hg.1, hg.2⟩, ?_⟩
      simpa [RefreshState.published] using hg.1.le
    · have hb' : s.behind ch = some b := by simpa [RefreshState.published, hch] using hb
      obtain ⟨hid, hgb, hle⟩ := hs.behind ch b hb'
      refine ⟨hid, ⟨Nat.lt_succ_of_lt hgb.1, hgb.2⟩, ?_⟩
      simpa [RefreshState.published, hch] using hle
  · change activeVersion ch s.db ≤ activeVersion ch (s.db.publish _ _ _)
    rw [hv]
    split
    · rename_i he
      rw [he]
      omega
    · exact le_rfl
  · by_cases hch : ch = channel.id
    · right
      change activeVersion ch s.db < activeVersion ch (s.db.publish _ _ _)
      rw [hv, if_pos hch, hch]
      omega
    · left
      simp [RefreshState.published, hch]
  · by_cases hch : ch = channel.id
    · subst hch
      exact ⟨channel, by simp [RefreshState.published], hprog b hb⟩
    · exact ⟨b, by simpa [RefreshState.published, hch] using hb, le_rfl⟩

/-- A fence is only taken while the active snapshot is one from before the channel row was read. -/
def FenceAfterRead : RefreshCall κ β → RefreshState κ β α → Prop
  | .getFence channel, s => s.publishedAt channel.id ≤ channel.readAt
  | _, _ => True

instance (c : RefreshCall κ β) (s : RefreshState κ β α) : Decidable (FenceAfterRead c s) := by
  cases c <;> unfold FenceAfterRead <;> infer_instance

/-- What a refresher remembers: the rows it read and the fence it holds. -/
structure Memory (κ : Type) where
  rows : List (LoadedChannel κ) := []
  fence : Option (LoadedChannel κ × ChannelCapabilitySnapshotFence) := none

def Remembers (w : Memory κ) (s : RefreshState κ β α) : Prop :=
  Sound s ∧ (∀ channel ∈ w.rows, Genuine s channel) ∧
    ∀ channel fence, w.fence = some (channel, fence) → Fresh s channel fence

theorem Progress.remembers (h : Progress s s') (hw : Remembers w s) : Remembers w s' :=
  ⟨h.sound hw.1, fun channel hc => h.genuine (hw.2.1 channel hc),
    fun channel fence hf => h.fresh (hw.2.2 channel fence hf)⟩

/-- Outlines in this module. -/
abbrev Outline (P : Projection κ β α) (Q : ρ → Memory κ → Prop) (p : Refresher κ β ρ)
    (w : Memory κ) : Prop :=
  Follows (refreshMachine P) FenceAfterRead Progress Remembers Q p w

variable {w : Memory κ}

theorem outline_ask (hc : ¬ IsPublish c) : Outline P (fun _ w' => w' = w) (ask c) w := by
  refine ⟨fun s hw _ => ?_, fun _ s _ hw => ⟨w, hw, rfl⟩⟩
  have hp := progress_of_not_publish (P := P) hc s
  exact ⟨w, hp.remembers hw, hp, rfl⟩

theorem outline_ask_bind (hc : ¬ IsPublish c) (hn : ∀ r, Outline P Q (cont r) w) :
    Outline P Q (ask c >>= cont) w :=
  (outline_ask hc).bind fun r _ he => he ▸ hn r

theorem load_genuine (h : s.load ch = some channel) : Genuine s.tick channel := by
  obtain ⟨row, hrow, rfl⟩ := Option.map_eq_some_iff.mp h
  exact ⟨Nat.lt_succ_self _, fun _ => hrow⟩

theorem outline_findChannel (ch : Int) :
    Outline P (fun r w' => ∀ channel, r = .ok (some channel) → channel ∈ w'.rows)
      (ask (.findChannel ch)) w := by
  refine ⟨fun s hw _ => ?_, fun r s hr hw => ⟨w, hw, ?_⟩⟩
  · have hp := progress_of_not_publish (P := P) (c := .findChannel ch) nofun s
    obtain ⟨hs, hrows, hf⟩ := hp.remembers hw
    refine ⟨{ w with rows := (s.load ch).toList ++ w.rows }, ⟨hs, fun channel hm => ?_, hf⟩, hp, ?_⟩
    · rcases mem_append.mp hm with hm | hm
      · exact load_genuine (Option.mem_toList.mp hm)
      · exact hrows channel hm
    intro channel hr
    have hl : s.load ch = some channel := Except.ok.inj hr
    simp [hl]
  · cases hr
    nofun

theorem outline_findChannels :
    Outline P (fun r w' => ∀ channels, r = .ok channels → ∀ channel ∈ channels, channel ∈ w'.rows)
      (ask .findChannels) w := by
  refine ⟨fun s hw _ => ?_, fun r s hr hw => ⟨w, hw, ?_⟩⟩
  · have hp := progress_of_not_publish (P := P) (c := .findChannels) nofun s
    obtain ⟨hs, hrows, hf⟩ := hp.remembers hw
    refine ⟨{ w with rows := s.loadAll ++ w.rows }, ⟨hs, fun channel hm => ?_, hf⟩, hp, ?_⟩
    · rcases mem_append.mp hm with hm | hm
      · obtain ⟨_, _, hl⟩ := mem_filterMap.mp hm
        exact load_genuine hl
      · exact hrows channel hm
    · intro channels hr channel hm
      have hl : s.loadAll = channels := Except.ok.inj hr
      rw [hl]
      exact mem_append_left _ hm
  · cases hr
    nofun

theorem outline_getFence (hc : channel ∈ w.rows) :
    Outline P (fun r w' => w'.rows = w.rows ∧ ∀ fence, r = .ok fence →
      w'.fence = some (channel, fence)) (ask (.getFence channel)) w := by
  refine ⟨fun s hw hg => ?_, fun r s hr hw => ⟨w, hw, rfl, ?_⟩⟩
  · obtain ⟨hs, hrows, hf⟩ := hw
    have hv := fence_version channel.id s.db
    refine ⟨{ w with fence := some (channel, getChannelCapabilitySnapshotFence channel.id s.db) },
      ⟨hs, hrows, ?_⟩, .refl s, rfl, ?_⟩
    · intro c fence he
      cases he
      exact ⟨hrows channel hc, hv.le, fun _ => hg⟩
    intro fence hr
    cases hr
    rfl
  · cases hr
    nofun

theorem outline_publish (hf : w.fence = some (channel, fence)) :
    Outline P (fun _ w' => w' = w) (ask (.publish channel abilities source fence now)) w := by
  refine ⟨fun s hw _ => ?_, fun _ s _ hw => ⟨w, hw, rfl⟩⟩
  have hp : Progress s
      ((refreshMachine P).exec (.publish channel abilities source fence now) s).1 := by
    simp only [refreshMachine, RefreshCall.exec]
    split
    · rename_i db h
      exact progress_of_publish hw.1 (hw.2.2 _ _ hf) h
    · exact .refl s
  exact ⟨w, hp.remembers hw, hp, rfl⟩

theorem outline_recordRefreshFailure :
    Outline P (fun _ w' => w' = w) (recordRefreshFailure ch fence source e now) w := by
  unfold recordRefreshFailure
  split
  · rfl
  · refine outline_ask_bind nofun fun r => ?_
    cases r <;> rfl

theorem outline_publishFenced (hf : w.fence = some (channel, fence)) :
    Outline P (fun _ w' => w' = w) (publishFenced channel abilities source fence now) w := by
  refine (outline_publish hf).bind ?_
  rintro r _ rfl
  cases r with
  | ok _ => rfl
  | error e =>
    refine outline_recordRefreshFailure.bind ?_
    rintro _ _ rfl
    rfl

theorem outline_refreshOneChannel (hc : channel ∈ w.rows) :
    Outline P (fun _ _ => True) (refreshOneChannel P channel abilities rebuild now) w := by
  unfold refreshOneChannel
  split
  · trivial
  refine (outline_getFence hc).bind fun r w' hw => ?_
  cases r with
  | error e => trivial
  | ok fence =>
    refine (outline_publishFenced (hw.2 fence rfl)).bind ?_
    rintro r w'' rfl
    cases r with
    | error e => trivial
    | ok _ =>
      cases rebuild with
      | false => trivial
      | true => exact outline_ask_bind nofun fun _ => trivial

theorem outline_refreshByIDLocked :
    Outline P (fun _ _ => True) (refreshByIDLocked P ch now) w := by
  refine (outline_findChannel ch).bind fun r w' hw => ?_
  match r with
  | .error e => trivial
  | .ok none => exact outline_ask_bind nofun fun _ => trivial
  | .ok (some channel) =>
    refine outline_ask_bind nofun fun r => ?_
    cases r with
    | error e => trivial
    | ok abilities => exact outline_refreshOneChannel (hw channel rfl)

theorem outline_fenced {progress : RefreshProgress} (hc : channel ∈ w.rows) (hash : String) :
    Outline P (fun _ w' => w'.rows = w.rows)
      (do match ← ask (.getFence channel) with
          | .error e => pure (progress.fail e)
          | .ok expected => do
            let r ← publishFenced channel abilities hash expected now
            pure (progress.count r)) w := by
  refine (outline_getFence hc).bind fun r w' hw => ?_
  cases r with
  | error e => exact hw.1
  | ok fence =>
    refine (outline_publishFenced (hw.2 fence rfl)).bind ?_
    rintro _ _ rfl
    exact hw.1

theorem outline_refreshLoadedChannel (hc : channel ∈ w.rows) :
    Outline P (fun _ w' => w'.rows = w.rows)
      (refreshLoadedChannel P fingerprintOnly channel abilities now progress) w := by
  unfold refreshLoadedChannel
  split
  · rfl
  cases fingerprintOnly with
  | false => exact outline_fenced hc _
  | true =>
    refine outline_ask_bind nofun fun same => ?_
    cases same with
    | true => rfl
    | false => exact outline_fenced hc _

theorem outline_refreshLoadedChannels (channels : List (LoadedChannel κ))
    (hc : ∀ channel ∈ channels, channel ∈ w.rows) (progress : RefreshProgress) :
    Outline P (fun _ _ => True)
      (refreshLoadedChannels P fingerprintOnly abilities now channels progress) w := by
  induction channels generalizing w progress with
  | nil =>
    refine outline_ask_bind nofun fun r => ?_
    cases r <;> trivial
  | cons channel rest ih =>
    refine outline_ask_bind nofun fun r => ?_
    cases r with
    | error e => trivial
    | ok _ =>
      refine (outline_refreshLoadedChannel (hc channel mem_cons_self)).bind ?_
      intro progress' w' hw
      apply ih
      intro c hm
      rw [hw]
      exact hc c (mem_cons_of_mem _ hm)

theorem outline_refreshAllChannels :
    Outline P (fun _ _ => True) (refreshAllChannels P fingerprintOnly now) w := by
  refine outline_findChannels.bind fun r w' hw => ?_
  cases r with
  | error e => trivial
  | ok channels =>
    refine outline_ask_bind nofun fun r => ?_
    cases r with
    | error e => trivial
    | ok abilities => exact outline_refreshLoadedChannels channels (hw channels rfl) _

theorem outline_locked (hp : ∀ w, Outline P (fun _ _ => True) p w) (node : Nat) :
    Outline P (fun _ _ => True)
      (do let _ ← ask (.lock node); let r ← p; let _ ← ask (.unlock node); pure r) w :=
  outline_ask_bind nofun fun _ => (hp w).bind fun _ _ _ => outline_ask_bind nofun fun _ => trivial

theorem outline_program (job : RefreshJob κ β) :
    Outline P (fun _ _ => True) (job.program P) w := by
  cases job with
  | byID node =>
    refine Follows.bind (Q := fun _ _ => True) ?_ fun _ _ _ => trivial
    unfold refreshChannelCapabilitiesByID
    split
    · trivial
    · exact outline_locked (fun _ => outline_refreshByIDLocked) node
  | stale node =>
    exact (outline_locked (fun _ => outline_refreshAllChannels) node).bind fun _ _ _ => trivial
  | init => exact outline_refreshAllChannels.bind fun _ _ _ => trivial
  | saveChannel | deleteChannel | saveAbilities => exact outline_ask_bind nofun fun _ => trivial

/-- Any channel tables, no snapshot yet, and the jobs about to start. -/
def start (P : Projection κ β α) (channels : List (Int × κ)) (abilities : List (Int × β))
    (jobs : List (RefreshJob κ β)) :
    Config (RefreshCall κ β) RefreshAnswer (RefreshState κ β α) :=
  ⟨{ channels := channels, abilities := abilities }, jobs.map (·.program P)⟩

theorem start_sound (channels : List (Int × κ)) (abilities : List (Int × β))
    (jobs : List (RefreshJob κ β)) : Sound (start P channels abilities jobs).state :=
  ⟨fun _ => ⟨le_rfl, Int.pow_pos (by decide)⟩, nofun⟩

theorem start_outlined (channels : List (Int × κ)) (abilities : List (Int × β))
    (jobs : List (RefreshJob κ β)) :
    Outlined (refreshMachine P) FenceAfterRead Progress Remembers
      (start P channels abilities jobs) := by
  intro q hq
  obtain ⟨job, _, rfl⟩ := mem_map.mp hq
  exact ⟨{}, ⟨start_sound channels abilities jobs, nofun, nofun⟩, outline_program job⟩

theorem run_progress
    (h : (refreshMachine P).Meets FenceAfterRead (pre ++ more) (start P channels abilities jobs)) :
    Progress ((refreshMachine P).run (start P channels abilities jobs) pre).state
      ((refreshMachine P).run (start P channels abilities jobs) (pre ++ more)).state :=
  run_guarantee (G := Progress) (L := Remembers) .refl (fun _ _ _ => .trans)
    (fun _ _ _ => Progress.remembers) (start_outlined channels abilities jobs) h

/-- Where fences are only taken while no snapshot was published since the channel row was read, no
snapshot is replaced by one of an older row. -/
theorem refresh_never_goes_back (P : Projection κ β α) (channels : List (Int × κ))
    (abilities : List (Int × β)) (jobs : List (RefreshJob κ β)) (pre more : List Choice)
    (h : (refreshMachine P).Meets FenceAfterRead (pre ++ more) (start P channels abilities jobs)) :
    NeverOlder ((refreshMachine P).run (start P channels abilities jobs) pre).state
      ((refreshMachine P).run (start P channels abilities jobs) (pre ++ more)).state := by
  have hpre : Progress ((refreshMachine P).run (start P channels abilities jobs) []).state
      ((refreshMachine P).run (start P channels abilities jobs) ([] ++ pre)).state :=
    run_progress (h.of_prefix (prefix_append pre more))
  exact (run_progress h).neverOlder (hpre.sound (start_sound channels abilities jobs))

def plainProjection : Projection String Unit Unit where
  channelCapabilityFingerprint row _ := some row
  projectChannelCapabilities row _ _ := [{ requestModel := row, projection := () }]
  catalogVersion := "1"

def twoNodes : Config (RefreshCall String Unit) RefreshAnswer (RefreshState String Unit Unit) :=
  start plainProjection [(1, "old")] [] [.byID 1 1 0, .byID 2 1 0, .saveChannel 1 "new"]

def inTurn : List Choice :=
  List.replicate 7 (.go 0) ++ [.go 2] ++ List.replicate 7 (.go 1)

theorem refresh_never_goes_back_in_turn :
    NeverOlder ((refreshMachine plainProjection).run twoNodes (inTurn.take 7)).state
      ((refreshMachine plainProjection).run twoNodes inTurn).state := by
  have h := refresh_never_goes_back plainProjection [(1, "old")] []
    [.byID 1 1 0, .byID 2 1 0, .saveChannel 1 "new"] (inTurn.take 7) (inTurn.drop 7) (by decide)
  exact h

/-- The first node reads the row; it is edited and the second node publishes it; the first takes the
fence of that snapshot and swaps it for the old row. -/
theorem slow_refresher_goes_back :
    ∃ pre more : List Choice,
      ((refreshMachine plainProjection).run twoNodes pre).state.behind 1 = some ⟨1, "new", 3⟩ ∧
      ((refreshMachine plainProjection).run twoNodes (pre ++ more)).state.behind 1 =
        some ⟨1, "old", 1⟩ ∧
      ((refreshMachine plainProjection).run twoNodes (pre ++ more)).state.row? 1 = some "new" ∧
      ¬ NeverOlder ((refreshMachine plainProjection).run twoNodes pre).state
        ((refreshMachine plainProjection).run twoNodes (pre ++ more)).state := by
  have hnew : ((refreshMachine plainProjection).run twoNodes
      ([.go 0, .go 0, .go 2] ++ List.replicate 7 (.go 1))).state.behind 1 =
      some ⟨1, "new", 3⟩ := by decide
  have hold : ((refreshMachine plainProjection).run twoNodes (([.go 0, .go 0, .go 2] ++
      List.replicate 7 (.go 1)) ++ List.replicate 3 (.go 0))).state.behind 1 =
      some ⟨1, "old", 1⟩ := by decide
  refine ⟨_, _, hnew, hold, by decide, fun h => ?_⟩
  obtain ⟨b, hb, hle, _⟩ := h 1 _ hnew
  cases hb
  exact absurd hle (by decide)

end Ren2Hub.Proofs.RefreshRuns
