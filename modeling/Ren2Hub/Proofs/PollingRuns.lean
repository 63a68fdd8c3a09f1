import Ren2Hub.Lib.Rules
import Ren2Hub.Proofs.PollingCalls

namespace Ren2Hub.Proofs.PollingRuns
open Lib Lib.Machine Billing Tasks.Polling PollingSpec PollingCalls List

variable {first : Task} {s t : PollState} {crew i : Nat} {ref : TaskRef} {site : PollSite}
  {task : Task}

section Outcome
variable {o : Task}

theorem at_due (h : At first i ref (fun t => if won = true then Decided first i ref.addr o t
      else Spare first i t) s) (hw : won = true)
    (ho : ref.id = first.id → o.status.unfinished = false) :
    At first i ref (Due first i ref.addr o o 0 0) s := by
  subst hw
  exact h.imp fun hmine hd => hd.2 (ho hmine)

theorem at_cleared (won : Bool)
    (h : At first i ref (fun t => if won = true then Decided first i ref.addr o t
      else Spare first i t) s) (hq : ref.id = first.id → o.quota = first.quota)
    (hf : ref.id = first.id → won = true → o.status = .failure → first.quota = 0) :
    At first i ref (Cleared first i) s := by
  refine h.imp fun hmine hd => ?_
  cases won with
  | false => exact Spare.cleared hd
  | true =>
    cases hu : o.status.unfinished with
    | true => exact (hd.1 hu).cleared
    | false => exact (hd.2 hu).cleared (hq hmine) (hf hmine rfl)

end Outcome

theorem good_timedOut (h : Good first task) (now : Int) : Good first (task.timedOut site now) :=
  ⟨h.1, h.2.1, fun hu => by cases hu⟩

theorem quota_timedOut (h : Good first task) (now : Int) :
    (task.timedOut site now).quota = task.quota := by
  simp [Task.timedOut, h.2.1]

/-- The answer does not move the task to the time before the cutoff. -/
def Dated (item : SunoDataResponse) : Prop :=
  0 < item.submitTime → taskRefundLegacyCutoff ≤ item.submitTime

theorem good_withSuno (hitem : Dated item) (h : Good first task ∧ task.status.unfinished = true) :
    Good first (task.withSuno item) := by
  refine ⟨h.1.1, ?_, fun _ => h.1.2.2 h.2⟩
  have hold := h.1.2.1
  unfold Dated at hitem
  simp only [Task.isLegacy, Bool.and_eq_false_iff, decide_eq_false_iff_not] at hold ⊢
  simp only [Task.withSuno]
  split
  · omega
  · exact hold

theorem status_withSuno : (task.withSuno item).status = .failure ↔ item.isFailure task = true := by
  simp only [Task.withSuno]
  split
  · rename_i hf
    simp [hf]
  rename_i hf
  simp only [hf, Bool.false_eq_true, iff_false]
  intro he
  simp [SunoDataResponse.isFailure, he] at hf

theorem withResult_fields (h : task.withResult site info now = some o) :
    o.id = task.id ∧ o.quota = task.quota ∧
      o.submitTime = task.submitTime ∧ SameAccount task o := by
  unfold Task.withResult at h
  cases hst : TaskStatus.ofText info.status <;> simp only [hst] at h
  all_goals cases h
  all_goals exact ⟨rfl, rfl, rfl, rfl, rfl, rfl, rfl⟩

/-- The process bills nothing and knows these tasks. -/
def Idle (first : Task) (i : Nat) (refs : List TaskRef) (s : PollState) : Prop :=
  Spare first i s ∧ ∀ x ∈ refs, Known s x

variable {refs : List TaskRef} {taskM : List (String × TaskRef)} {α : Type}
  {Q : α → PollState → Prop}

section
variable (h : Idle first i refs s)
include h

theorem Idle.rely (hr : Rely first i s t) : Idle first i refs t :=
  ⟨stable_spare s t h.1 hr, fun x hx => (h.2 x hx).rely hr⟩

theorem Idle.start (hm : ref ∈ refs) : At first i ref (Spare first i) s :=
  ⟨h.2 ref hm, fun _ => h.1, fun _ => h.1⟩

theorem Idle.after (ref : TaskRef)
    (hp : Walks first crew i (fun _ => At first i ref (Spare first i)) p s) :
    Walks first crew i (fun _ => Idle first i refs) p s := by
  have hknown : ∀ j s t, Rely first j s t → (∀ x ∈ refs, Known s x) → ∀ x ∈ refs, Known t x :=
    fun j s t hr hk x hx => (hk x hx).rely hr
  refine (hp.frame (lawful first crew) hknown h.2).mono fun _ t ⟨hat, hk⟩ => ⟨?_, hk⟩
  by_cases hid : ref.id = first.id
  · exact hat.2.1 hid
  · exact hat.2.2 hid

theorem walks_idle (hf : pollMachine.fault c = none)
    (hlic : ∀ t, Idle first i refs t → License first crew i c t)
    (hmem : ∀ t, (c.exec t).1.memory = t.memory) (hbill : ∀ t, (c.exec t).1.billing = t.billing)
    (hnext : ∀ r t, Idle first i refs t → Walks first crew i Q (cont r) t) :
    Walks first crew i Q (ask c >>= cont) s := by
  refine walks_ask hf fun t _ _ hr => ?_
  have hidle := h.rely hr
  refine ⟨hlic t hidle, fun _ => hnext _ _ ⟨?_, fun x hx => (hidle.2 x hx).of_memory (hmem t)⟩⟩
  unfold Spare
  rw [hbill]
  exact hidle.1

theorem walks_context (hnext : ∀ ok t, Idle first i refs t → Walks first crew i Q (cont ok) t) :
    Walks first crew i Q (ask .checkContext >>= cont) s :=
  walks_check fun ok t hr => hnext ok t (h.rely hr)

end

/-- The tasks a map leads to are among those. -/
def Within (taskM : List (String × TaskRef)) (refs : List TaskRef) : Prop :=
  ∀ x ∈ taskM, x.2 ∈ refs

theorem Within.lookup (h : Within taskM refs) (hl : taskM.lookup key = some ref) : ref ∈ refs := by
  obtain ⟨l1, l2, rfl, _⟩ := lookup_eq_some_iff.mp hl
  exact h (key, ref) (by simp)

theorem walks_bulk {reason : Option String} {next : Unit → Action α} (hs : Idle first i refs s)
    (hnext : ∀ t, Idle first i refs t → Walks first crew i Q (next ()) t) :
    Walks first crew i Q (ask (.taskBulkUpdateByID ids reason) >>= next) s :=
  walks_idle hs rfl (fun _ _ => trivial) (fun _ => rfl) (fun _ => rfl) fun _ t h => hnext t h

/-- No answer for Suno moves a task to the time before the cutoff. -/
def DatedUpstream (up : Upstream) : Prop :=
  ∀ channelId items, up.suno channelId = some items → ∀ item ∈ items, Dated item

theorem walks_goChannels (hm : Within taskM refs) (hs : Idle first i refs s) :
    Walks first crew i (fun _ => Idle first i refs) (goChannels i platform taskM channels) s := by
  induction channels generalizing s with
  | nil => exact walks_pure hs
  | cons channel channels ih =>
    unfold goChannels
    split
    · exact ih hs
    · exact walks_idle hs rfl (fun t h x hx => h.2 x.2 (hm x hx)) (fun _ => rfl) (fun _ => rfl)
        fun _ _ h => ih h

theorem within_grouping (tasks : List (TaskRef × Task)) :
    Within (grouping tasks).taskM (tasks.map Prod.fst) := by
  refine List.foldlRecOn (motive := fun g : Grouping => Within g.taskM (tasks.map Prod.fst)) tasks _
    (forall_mem_nil _) fun g hg x hx => ?_
  unfold Grouping.add
  split
  · exact hg
  intro y hy
  rcases mem_cons.mp hy with rfl | hy
  · exact mem_map_of_mem hx
  · exact hg y hy

theorem idle_loaded (hs : Spare first i s) (rows : List Task) :
    Idle first i ((s.load rows).2.map Prod.fst) (s.load rows).1 := by
  refine ⟨hs, fun x hx => ?_⟩
  obtain ⟨y, hy, rfl⟩ := mem_map.mp hx
  exact (known_loaded rows hy).1

/-- Like `DatedUpstream`. A worker asks no Suno channel. -/
def DatedJob : PollJob → Prop
  | .pass _ up => DatedUpstream up
  | .worker .. => True

section
variable (hq : 0 ≤ first.quota) (hi : i < crew)
include hq hi

theorem walks_sweepTask (hs : At first i ref (Spare first i) s) :
    Walks first crew i (fun _ => At first i ref (Spare first i)) (sweepTask site i now ref) s := by
  refine walks_snapshot hi hs fun task t hid hgood hat => ?_
  refine walks_write hi hat hid (fun h => good_timedOut (hgood h).1 now) fun t hat => ?_
  have hquota : ref.id = first.id → (task.timedOut site now).quota = first.quota := fun h =>
    (quota_timedOut (hgood h).1 now).trans ((hgood h).1.2.2 (hgood h).2)
  refine walks_update hi hat (fun h => ⟨good_timedOut (hgood h).1 now, hquota h, (hgood h).2⟩)
    fun won t hat => ?_
  split
  · rename_i hc
    refine (walks_refund hq hi (at_due hat hc.1 fun _ => rfl) fun h => ⟨rfl, hquota h⟩).bind ?_
    exact fun _ _ h => walks_billed hi h
  rename_i hc
  refine walks_billed hi (at_cleared won hat hquota fun h hwon _ => ?_)
  by_contra hne
  refine hc ⟨hwon, (hgood h).1.2.1, ?_⟩
  rw [(hgood h).1.2.2 (hgood h).2]
  exact hne

theorem walks_sunoTask (hitem : Dated item) (hl : taskM.lookup item.taskID = some ref)
    (hs : At first i ref (Spare first i) s) :
    Walks first crew i (fun _ => At first i ref (Spare first i))
      (updateSunoTask i taskM item) s := by
  unfold updateSunoTask
  rw [hl]
  refine walks_snapshot hi hs fun task t hid hgood hat => ?_
  split
  · exact walks_pure (hat.imp fun _ h => h.spare)
  refine walks_write hi hat hid (fun h => good_withSuno hitem (hgood h)) fun t hat => ?_
  have hquota : ref.id = first.id → (task.withSuno item).quota = first.quota := fun h =>
    (hgood h).1.2.2 (hgood h).2
  refine walks_update hi hat (fun h => ⟨good_withSuno hitem (hgood h), hquota h, (hgood h).2⟩)
    fun won t hat => ?_
  split
  · rename_i hc
    have hst := status_withSuno.mpr hc.2.1
    refine (walks_refund hq hi (at_due hat hc.1 fun _ => by rw [hst]; rfl)
      fun h => ⟨hst, hquota h⟩).bind ?_
    exact fun _ _ h => walks_billed hi h
  · rename_i hc
    refine walks_billed hi (at_cleared won hat hquota fun h hwon hst => ?_)
    by_contra hne
    refine hc ⟨hwon, status_withSuno.mp hst, fun he => ?_, ?_⟩
    · have hu := (hgood h).2
      rw [he] at hu
      cases hu
    · rw [(hgood h).1.2.2 (hgood h).2]
      exact hne

theorem walks_bill (hs : At first i ref (Decided first i ref.addr o) s)
    (ho : ref.id = first.id → o.quota = first.quota) :
    Walks first crew i (fun _ => At first i ref (Cleared first i)) (billVideoTask site i ref o info)
      s := by
  unfold billVideoTask
  split
  · rename_i hst
    exact walks_settle hi (hs.imp fun _ h => h.2 (by rw [hst]; rfl)) fun h => ⟨hst, ho h⟩
  split
  · rename_i hc
    refine (walks_refund hq hi (hs.imp fun _ h => h.2 (by rw [hc.1]; rfl))
      fun h => ⟨hc.1, ho h⟩).bind ?_
    exact fun _ _ h => walks_pure h
  · rename_i hc
    refine walks_pure (at_cleared true hs ho fun h _ hst => ?_)
    by_contra hne
    exact hc ⟨hst, by rw [ho h]; exact hne⟩

theorem walks_saveVideo (hs : At first i ref (Desk first i ref.addr o) s)
    (ho : ref.id = first.id → Good first o ∧ o.quota = first.quota)
    (hsnap : ref.id = first.id → snap.status.unfinished = true) :
    Walks first crew i (fun _ => At first i ref (Spare first i))
      (saveVideoTask site i ref snap o info) s := by
  have hquota : ref.id = first.id → o.quota = first.quota := fun h => (ho h).2
  unfold saveVideoTask
  split
  · refine walks_update hi hs (fun h => ⟨(ho h).1, hquota h, hsnap h⟩) fun won t hat => ?_
    cases won with
    | false => exact walks_billed hi (hat.imp fun _ h => Spare.cleared h)
    | true => exact (walks_bill hq hi hat hquota).bind fun _ _ h => walks_billed hi h
  · rename_i hc
    -- The task was unfinished before the answer, so it still is.
    have hu : ref.id = first.id → o.status.unfinished = true := by
      intro h
      by_contra hfin
      refine hc ⟨Bool.not_eq_true _ ▸ hfin, fun he => hfin ?_⟩
      rw [← he]
      exact hsnap h
    split
    · refine walks_update hi hs (fun h => ⟨(ho h).1, hquota h, hsnap h⟩) fun won t hat => ?_
      refine (walks_bill hq hi (hat.imp fun hmine h => ?_) hquota).bind
        fun _ _ h => walks_billed hi h
      refine ⟨fun _ => ?_, fun hf => by rw [hu hmine] at hf; cases hf⟩
      cases won with
      | false => exact h
      | true => exact h.1 (hu hmine)
    · refine (walks_bill hq hi (hs.imp fun hmine h => ?_) hquota).bind
        fun _ _ h => walks_billed hi h
      exact ⟨fun _ => h.spare, fun hf => by rw [hu hmine] at hf; cases hf⟩

theorem walks_applyVideo (hs : At first i ref (Spare first i) s) :
    Walks first crew i (fun _ => At first i ref (Spare first i))
      (applyVideoAnswer site i ref info data error now) s := by
  refine walks_snapshot hi hs fun snap t hid hgood hat => ?_
  have hdata : ref.id = first.id → Good first { snap with data } := fun h =>
    ⟨(hgood h).1.1, (hgood h).1.2.1, (hgood h).1.2.2⟩
  split
  · exact walks_tail <| walks_write hi hat hid hdata fun t h =>
      walks_pure (h.imp fun _ h => h.spare)
  dsimp only
  split
  · rename_i info' _ _ _
    have ho : ref.id = first.id →
        Good first { snap with data, status := .ofText info'.status } := fun h =>
      ⟨(hgood h).1.1, (hgood h).1.2.1, fun _ => (hgood h).1.2.2 (hgood h).2⟩
    exact walks_tail <| walks_write hi hat hid ho fun t h =>
      walks_pure (h.imp fun _ h => h.spare)
  · rename_i o hresult
    obtain ⟨hoid, hoq, hsub, hacc⟩ := withResult_fields hresult
    have ho : ref.id = first.id → Good first o ∧ o.quota = first.quota := by
      intro h
      have hquota : o.quota = first.quota := hoq.trans ((hgood h).1.2.2 (hgood h).2)
      obtain ⟨⟨a1, a2, a3, a4⟩, hleg, _⟩ := (hgood h).1
      refine ⟨⟨⟨a1.trans hacc.1, a2.trans hacc.2.1, a3.trans hacc.2.2.1, a4.trans hacc.2.2.2⟩,
        ?_, fun _ => hquota⟩, hquota⟩
      unfold Task.isLegacy at hleg ⊢
      rw [hsub]
      exact hleg
    refine walks_write hi hat (hoid.trans hid) (fun h => (ho h).1) fun t hat => ?_
    exact walks_saveVideo hq hi hat ho fun h => (hgood h).2

section
variable (hs : Idle first i refs s)
include hs

theorem walks_sweepTasks :
    Walks first crew i (fun _ => Spare first i) (sweepTasks site i now refs) s := by
  induction refs generalizing s with
  | nil => exact walks_pure hs.1
  | cons ref refs ih =>
    refine (hs.after _ (walks_sweepTask hq hi (hs.start mem_cons_self))).bind fun _ t h => ?_
    exact ih ⟨h.1, fun x hx => h.2 x (mem_cons_of_mem _ hx)⟩

section
variable (hm : Within taskM refs)
include hm

theorem walks_sunoItems (hitems : ∀ item ∈ items, Dated item) :
    Walks first crew i (fun _ => Idle first i refs) (updateSunoItems i taskM items) s := by
  induction items generalizing s with
  | nil => exact walks_pure hs
  | cons item items ih =>
    refine walks_context hs fun ok t h => ?_
    split
    · exact walks_pure h
    have hrest : ∀ t, Idle first i refs t → Walks first crew i (fun _ => Idle first i refs)
        (updateSunoItems i taskM items) t := fun t h =>
      ih h fun x hx => hitems x (mem_cons_of_mem _ hx)
    cases hl : taskM.lookup item.taskID with
    | none =>
      unfold updateSunoTask
      rw [hl]
      exact hrest t h
    | some ref =>
      refine (h.after _ (walks_sunoTask hq hi (hitems item mem_cons_self) hl
        (h.start (hm.lookup hl)))).bind fun _ t h => hrest t h

theorem walks_sunoTasks {channelId : Int} {taskIds : List String} (hup : DatedUpstream up) :
    Walks first crew i (fun _ => Idle first i refs)
      (updateSunoTasks site up i channelId taskIds taskM) s := by
  refine walks_context hs fun ok t h => ?_
  split
  · exact walks_pure h
  split
  · exact walks_pure h
  split
  · exact walks_tail <| walks_bulk h fun _ h => walks_pure h
  split
  · exact walks_pure h
  refine walks_idle h rfl (fun _ _ => trivial) (fun _ => rfl) (fun _ => rfl) fun _ t h => ?_
  split
  · exact walks_pure h
  · exact walks_sunoItems hq hi h hm (hup _ _ ‹_›)

theorem walks_sunoChannels (hup : DatedUpstream up) :
    Walks first crew i (fun _ => Idle first i refs)
      (updateSunoChannels site up i taskM channels) s := by
  induction channels generalizing s with
  | nil => exact walks_pure hs
  | cons channel channels ih =>
    refine walks_context hs fun ok t h => ?_
    split
    · exact walks_pure h
    · exact (walks_sunoTasks hq hi h hm hup).bind fun _ t h => ih h

theorem walks_videoSingle :
    Walks first crew i (fun _ => Idle first i refs)
      (updateVideoSingleTask site i channelId ch taskId taskM answer) s := by
  refine walks_context hs fun ok t h => ?_
  split
  · exact walks_pure h
  split
  · exact walks_pure h
  rename_i ref hl
  refine h.after ref ?_
  refine walks_about (R := fun _ => Spare first i) (h.start (hm.lookup hl)) stable_spare hi rfl
    ⟨rfl, rfl⟩ (fun _ t _ _ hk h => ⟨⟨rfl, hk.1⟩, fun _ => h⟩) fun task t _ hat => ?_
  generalize resolveTaskChannelKey ch task = key
  split
  · exact walks_pure hat
  refine walks_about (R := fun _ => Spare first i) hat stable_spare hi rfl trivial
    (fun _ t _ _ hk h => ⟨trivial, fun _ => h⟩) fun _ t _ hat => ?_
  split
  · exact walks_pure hat
  · exact walks_pure hat
  · exact walks_applyVideo hq hi hat

theorem walks_videoLoop :
    Walks first crew i (fun _ => Idle first i refs)
      (updateVideoLoop site i channelId ch taskM answers k taskIds) s := by
  induction taskIds generalizing s k with
  | nil => exact walks_pure hs
  | cons taskId rest ih =>
    refine walks_context hs fun ok t h => ?_
    split
    · exact walks_pure h
    refine (walks_videoSingle hq hi h hm).bind fun _ t h => ?_
    split
    · exact ih h
    refine walks_context h fun ok t h => ?_
    split
    · exact walks_pure h
    · exact ih h

theorem walks_dispatch (hup : DatedUpstream up) :
    Walks first crew i (fun _ => Idle first i refs)
      (dispatchPlatformUpdate site up i platform channels taskM) s := by
  unfold dispatchPlatformUpdate
  split
  · exact walks_pure hs
  · exact walks_sunoChannels hq hi hs hm hup
  refine (walks_goChannels hm hs).bind fun _ t h => ?_
  exact walks_tail <| walks_idle h rfl (fun _ _ => trivial) (fun _ => rfl) (fun _ => rfl)
    fun _ _ h => walks_pure h

end

theorem walks_videoTasks {answers : Nat → VideoAnswer} {job : ChannelJob}
    (hm : Within job.taskM refs) :
    Walks first crew i (fun _ => Idle first i refs)
      (updateVideoTasks site i channel answers job) s := by
  refine walks_context hs fun ok t h => ?_
  split
  · exact walks_pure h
  split
  · exact walks_pure h
  split
  · exact walks_tail <| walks_bulk h fun _ h => walks_pure h
  split
  · exact walks_pure h
  · exact walks_videoLoop hq hi h hm

theorem walks_platform {platform : TaskPlatform} {g : Grouping} (hm : Within g.taskM refs)
    (hup : DatedUpstream up) :
    Walks first crew i (fun _ => Idle first i refs) (pollPlatform site up i platform g) s := by
  have hdispatch : ∀ t, Idle first i refs t → Walks first crew i (fun _ => Idle first i refs)
      (if g.taskChannelM ≠ [] then dispatchPlatformUpdate site up i platform g.taskChannelM g.taskM
        else pure ()) t := by
    intro t h
    split
    · exact walks_dispatch hq hi h hm hup
    · exact walks_pure h
  unfold pollPlatform
  by_cases hnull : g.nullTaskIds ≠ []
  · rw [if_pos hnull]
    exact walks_bulk hs hdispatch
  · rw [if_neg hnull]
    exact hdispatch s hs

end

theorem walks_worker (hs : Spare first i s) :
    Walks first crew i (fun _ => Spare first i) (worker site i channel answers) s := by
  refine walks_ask rfl fun t _ hm hr => ⟨stable_spare s t hs hr, fun _ => ?_⟩
  have hspare := stable_spare s t hs hr
  simp only [PollCall.exec]
  cases hqueue : t.queue with
  | nil => exact walks_pure hspare
  | cons job queue =>
    -- The jobs of the queue lead to loaded tasks.
    have hidle : Idle first i (job.taskM.map Prod.snd)
        { t with queue, running := job :: t.running } := by
      refine ⟨hspare, fun x hx => ?_⟩
      obtain ⟨y, hy, rfl⟩ := mem_map.mp hx
      exact hm.jobs job (by rw [hqueue]; exact mem_cons_self) y hy
    refine (walks_videoTasks hq hi hidle fun x hx => mem_map_of_mem hx).bind fun _ t h => ?_
    exact walks_tail <| walks_idle h rfl (fun _ _ => trivial) (fun _ => rfl) (fun _ => rfl)
      fun _ _ h => walks_pure h.1

theorem walks_platforms (hup : DatedUpstream up) (hs : Idle first i (allTasks.map Prod.fst) s) :
    Walks first crew i (fun _ => Spare first i)
      (pollPlatforms site up i allTasks platforms summary) s := by
  induction platforms generalizing s summary with
  | nil => exact walks_pure hs.1
  | cons platform platforms ih =>
    refine walks_context hs fun ok t h => ?_
    split
    · exact walks_pure h.1
    have hm : Within (grouping (allTasks.filter fun x => x.2.platform = platform)).taskM
        (allTasks.map Prod.fst) := fun x hx =>
      (filter_sublist.map Prod.fst).subset (within_grouping _ x hx)
    exact (walks_platform hq hi h hm hup).bind fun _ t h => ih h

theorem walks_pass (hup : DatedUpstream up) (hs : Spare first i s) :
    Walks first crew i (fun _ => Spare first i) (runTaskPollingOnce site up i) s := by
  unfold runTaskPollingOnce
  split
  · exact walks_pure hs
  refine Earns.bind (Q := fun _ => Spare first i) ?_ fun _ t h => ?_
  · unfold sweepTimedOutTasks
    split
    · exact walks_pure hs
    · exact walks_ask rfl fun t _ _ hr => ⟨trivial, fun _ =>
        walks_sweepTasks hq hi (idle_loaded (stable_spare s t hs hr) _)⟩
  · exact walks_ask rfl fun v _ _ hr => ⟨trivial, fun _ =>
      walks_platforms hq hi hup (idle_loaded (stable_spare t v h hr) _)⟩

theorem walks_job (hjob : DatedJob job) (hs : Spare first i s) :
    Walks first crew i (fun _ => Spare first i) (job.program i) s := by
  cases job with
  | pass => exact (walks_pass hq hi hjob hs).bind fun _ _ h => walks_pure h
  | worker => exact walks_worker hq hi hs

end

variable {tasks : TaskTable} {accounts : Store} {jobs : List PollJob} {sched : List Choice}

theorem sound_beginning (hrow : first ∈ tasks.rows) (hu : first.status.unfinished = true)
    (hlegacy : first.isLegacy = false) : Sound first crew { tasks, accounts } := by
  have hfind := find_of_mem hrow
  refine ⟨⟨first, hfind⟩, fun r hr => ?_, fun r hr _ => ?_, fun r hr hf => ?_,
    fun i hi => absurd hi not_mem_nil⟩
  all_goals
    rw [hfind] at hr
    cases hr
  · exact ⟨rfl, rfl, rfl, rfl⟩
  · exact ⟨rfl, hlegacy, rfl, rfl, rfl, fun _ => not_mem_nil⟩
  · rw [hu] at hf
    cases hf

theorem stored_beginning : Stored first { tasks, accounts } where
  objects := forall_mem_nil _
  users := forall_mem_nil _
  bounds := forall_mem_nil _
  jobs := forall_mem_nil _

theorem earned_beginning (hrow : first ∈ tasks.rows) (hu : first.status.unfinished = true)
    (hlegacy : first.isLegacy = false) (hq : 0 ≤ first.quota) (hjobs : ∀ job ∈ jobs, DatedJob job) :
    Earned pollMachine (terms first jobs.length) (Spare first) (beginning tasks accounts jobs) := by
  refine ⟨⟨sound_beginning hrow hu hlegacy, stored_beginning⟩, fun i p hp => ?_⟩
  rw [beginning, getElem?_mapIdx, Option.map_eq_some_iff] at hp
  obtain ⟨job, hjob, rfl⟩ := hp
  have hi : i < jobs.length := (List.getElem?_eq_some_iff.mp hjob).1
  exact ⟨_, Rely.refl _ _, walks_job hq hi (hjobs job (mem_of_getElem? hjob)) not_mem_nil⟩

/-- The process is done, or waits in the pool for a job. -/
def atRest : Action Unit → Bool
  | .done _ => true
  | .call .take _ => true
  | .call _ _ => false

theorem spare_atRest (hinv : Sound first crew s ∧ Stored first s) (hr : Rely first i t s)
    (hp : Walks first crew i (fun _ => Spare first i) p t) (hrest : atRest p = true) :
    Spare first i s := by
  cases p with
  | done => exact stable_spare t s hp hr
  | call c =>
    have hlic : License first crew i c s := (hp s hinv hr).1
    cases c with
    | take => exact hlic
    | _ => cases hrest

/-- In every run that is orderly for an unfinished task from after the cutoff, it leaves the
unfinished statuses at most once; and when no pass is at work, a failed task has its price back
and keeps no quota, a successful one has cost what its row says, any other its price. -/
theorem failed_task_costs_nothing (tasks : TaskTable) (accounts : Store) (jobs : List PollJob)
    (sched : List Choice) (first : Task) (hrow : first ∈ tasks.rows)
    (hu : first.status.unfinished = true) (hlegacy : first.isLegacy = false)
    (hq : 0 ≤ first.quota) (hjobs : ∀ job ∈ jobs, DatedJob job)
    (hg : pollMachine.Meets (Orderly first.id) sched (beginning tasks accounts jobs)) :
    let cfg := pollMachine.run (beginning tasks accounts jobs) sched
    cfg.state.left.count first.id ≤ 1 ∧
      ((∀ p ∈ cfg.pool, atRest p = true) → ∃ r, cfg.state.tasks.find first.id = some r ∧
        (r.status = .failure → moved first.id cfg.state.funding = -first.quota ∧
          (HasToken first cfg.state → moved first.id cfg.state.tokens = -first.quota) ∧
          r.quota = 0) ∧
        (r.status = .success → first.quota + moved first.id cfg.state.funding = r.quota ∧
          (HasToken first cfg.state → first.quota + moved first.id cfg.state.tokens = r.quota) ∧
          (r.quota = first.quota ∨ (first.id, r.quota) ∈ cfg.state.quotas)) ∧
        (r.status.unfinished = true → moved first.id cfg.state.funding = 0 ∧
          moved first.id cfg.state.tokens = 0)) := by
  intro cfg
  obtain ⟨⟨hsound, hstored⟩, hpool⟩ :=
    (earned_beginning hrow hu hlegacy hq hjobs).run (lawful first jobs.length) hg
  obtain ⟨r, hr⟩ := hsound.row
  refine ⟨?_, fun hrest => ⟨r, hr, ?_⟩⟩
  · cases hst : r.status.unfinished with
    | true => rw [(hsound.unfinished r hr hst).2.2.2.2.1]; exact Nat.zero_le _
    | false => rw [(hsound.final r hr hst).1]
  have hlen : cfg.pool.length = jobs.length := by
    rw [pollMachine.run_pool_length, beginning, length_mapIdx]
  have hfree : ∀ i, (first.id, i) ∉ cfg.state.billing := by
    intro i hb
    have hi : i < cfg.pool.length := by
      rw [hlen]
      exact (hsound.biller i hb).1
    obtain ⟨t, hl, hp⟩ := hpool i _ (List.getElem?_eq_getElem hi)
    exact spare_atRest ⟨hsound, hstored⟩ hl hp (hrest _ (getElem_mem hi)) hb
  have hpaid : r.status.unfinished = false → Paid first cfg.state := fun hf =>
    (hsound.final r hr hf).2 hfree
  refine ⟨fun hst => (hpaid (by rw [hst]; rfl)).failed r hr hst,
    fun hst => (hpaid (by rw [hst]; rfl)).succeeded r hr hst, fun hst => ?_⟩
  obtain ⟨_, _, hf, ht, _⟩ := hsound.unfinished r hr hst
  exact ⟨hf, ht⟩

def videoTask : Task where
  id := 1
  taskID := "task_1"
  platform := .other "50"
  userId := 7
  channelId := 5
  quota := 100
  status := .inProgress
  progress := "30%"
  submitTime := 1800000000
  privateData := { upstreamTaskID := "u1", tokenId := 3 }

def videoTable : TaskTable := { rows := [videoTask] }

def videoAccounts : Store where
  users := fun id => if id = 7 then some { quota := 1000 } else none
  tokens := fun id => if id = 3 then some { remainQuota := 1000 } else none
  subscriptions := fun _ => none
  subscriptionIDs := []
  plans := fun _ => none
  records := fun _ => none
  recoveries := fun _ => none
  adjustments := fun _ _ _ => none
  userPending := fun _ => 0
  tokenPending := fun _ => 0

def videoUpstream : Upstream where
  startedAt := 1800000100
  sweptAt := 1800000100
  channel := fun _ => none

def twoNodes : List PollJob :=
  let failed : Nat → VideoAnswer := fun _ =>
    .answered { status := "FAILURE", reason := "blocked" } "body" .unrecognized 1800000110
  let channel : Int → Option Channel := fun _ => some { keys := ["key"] }
  [.pass {} videoUpstream, .worker {} channel failed,
    .pass {} videoUpstream, .worker {} channel failed]

/-- The first worker has applied the answer to its copy when the second one starts. -/
def twoNodesTurns : List Choice :=
  Choice.turns [(0, 10), (2, 10), (1, 7), (3, 30), (1, 30), (0, 5), (2, 5)]

theorem two_nodes_refund_once :
    let cfg := pollMachine.run (beginning videoTable videoAccounts twoNodes) twoNodesTurns
    cfg.state.left.count 1 ≤ 1 ∧ (∀ p ∈ cfg.pool, atRest p = true) ∧
      (cfg.state.tasks.find 1).map (fun r => (r.status, r.quota)) = some (.failure, 0) ∧
      cfg.state.funding = [(1, -100)] ∧ cfg.state.tokens = [(1, -100)] :=
  ⟨(failed_task_costs_nothing videoTable videoAccounts twoNodes twoNodesTurns videoTask
      (by decide) (by decide) (by decide) (by decide)
      (by simp [twoNodes, DatedJob, DatedUpstream, videoUpstream]) (by decide +kernel)).1,
    by decide +kernel, by decide +kernel, by decide +kernel, by decide +kernel⟩

def missingChannel : List PollJob :=
  [.pass {} videoUpstream, .worker {} (fun _ => none) fun _ => .failed]

def missingChannelTurns : List Choice := Choice.turns [(0, 10), (1, 10), (0, 10)]

/-- The bulk update fails the task and gives nothing back. -/
theorem missing_channel_keeps_charge :
    let cfg := pollMachine.run (beginning videoTable videoAccounts missingChannel)
      missingChannelTurns
    (∀ p ∈ cfg.pool, atRest p = true) ∧ HasToken videoTask cfg.state ∧
      (cfg.state.tasks.find 1).map (fun r => (r.status, r.quota)) = some (.failure, 100) ∧
      cfg.state.left = [1] ∧ cfg.state.funding = [] ∧ cfg.state.tokens = [] := by
  unfold HasToken
  decide +kernel

end Ren2Hub.Proofs.PollingRuns
