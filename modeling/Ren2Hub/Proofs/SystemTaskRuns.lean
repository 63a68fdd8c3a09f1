import Mathlib.Data.List.Nodup
import Ren2Hub.Lib.Inputs
import Ren2Hub.Tasks.SystemTask

namespace Ren2Hub.Proofs.SystemTaskRuns
open Lib Tasks TaskState Job List

def deletes (now : Int) (l k : SystemTaskLock) : Bool :=
  k.type = l.type && k.taskID = l.taskID && k.lockedBy = l.lockedBy && decide (k.lockedUntil < now)

/-- All steps of all jobs. -/
inductive Moves (s : TaskState) : Bool → Job → TaskState → Job → Prop
  | over : (∀ c old, j ≠ .expiring c old) → Moves s fails j s .finished
  | read {row : Nat} {time : Int} : t ∈ s.tasks → t.type = taskType →
      Moves s fails (.reading row taskType runnerID lockUntil time) s
        (.creating ⟨row, taskType, runnerID, lockUntil, time, t.taskID⟩)
  | taken : Moves s fails (.creating c) s (.lookingUp c)
  | created : (∀ l ∈ s.locks, l.type ≠ c.taskType) →
      Moves s fails (.creating c) { s with locks := s.locks ++ [lockRow c] } (.updating c)
  | found : l ∈ s.locks → l.type = c.taskType →
      Moves s fails (.lookingUp c) s (.takingOver c l.taskID)
  | took : (∃ l ∈ s.locks, stale c l = true) →
      Moves s fails (.takingOver c old) (s.updateLocks (stale c) fun _ => lockRow c)
        (if old ≠ "" ∧ old ≠ c.taskID then .expiring c old else .updating c)
  | unmarked : Moves s true (.expiring c old) s (.releasing c)
  | marked : Moves s fails (.expiring c old) (s.markSystemTaskLeaseExpired old) (.updating c)
  | refused : Moves s fails (.updating c) s (.releasing c)
  | ran : Moves s fails (.updating c) (s.markRunning c.id c.taskType c.runnerID c.now) (.loading c)
  | released : Moves s false (.releasing c) (s.releaseSystemTaskLock c.taskID c.runnerID) .finished
  | finished : Moves s fails (.finishing taskID lockedBy) (s.releaseSystemTaskLock taskID lockedBy)
      .finished
  | loaded {time : Int} : Moves s fails (.expireLoading time) s (.expireMarking time ls)
  | expired {time : Int} : Moves s fails (.expireMarking time (l :: rest))
      (s.markSystemTaskLeaseExpired l.taskID) (.expireDeleting time l rest)
  | deleted {time : Int} : Moves s fails (.expireDeleting time l rest)
      (s.deleteLocks (deletes time l)) (.expireMarking time rest)

variable {s s' : TaskState} {w : World} {p : SystemTask → Bool} {f : SystemTask → SystemTask}
  {t : SystemTask}

theorem step_moves (fails : Bool) (j : Job) (s : TaskState) :
    Moves s fails j (j.step fails s).1 (j.step fails s).2 := by
  cases j with
  | reading id taskType runnerID lockUntil now =>
    simp only [step]
    split
    · exact .over nofun
    rename_i t h
    cases fails with
    | true => cases h
    | false =>
      have hc := find?_some h
      simp only [claimable, Bool.and_eq_true, decide_eq_true_eq] at hc
      exact .read (mem_of_find?_eq_some h) hc.1.2
  | creating c =>
    simp only [step]
    split
    · exact .taken
    rename_i h
    simp only [any_eq_true, decide_eq_true_eq, not_or, not_exists, not_and] at h
    exact .created h.2
  | lookingUp c =>
    simp only [step]
    split
    · exact .over nofun
    rename_i l h
    cases fails with
    | true => cases h
    | false =>
      split
      · exact .over nofun
      · exact .found (mem_of_find?_eq_some h) (by simpa using find?_some h)
  | takingOver c old =>
    simp only [step]
    split
    · exact .over nofun
    rename_i h
    simp only [any_eq_true, not_or, not_not] at h
    exact .took h.2
  | expiring =>
    cases fails with
    | true => exact .unmarked
    | false => exact .marked
  | updating =>
    simp only [step]
    split
    · exact .refused
    · exact .ran
  | releasing =>
    cases fails with
    | true => exact .over nofun
    | false => exact .released
  | loading => exact .over nofun
  | finishing =>
    cases fails with
    | true => exact .over nofun
    | false => exact .finished
  | expireLoading =>
    cases fails with
    | true => exact .over nofun
    | false => exact .loaded
  | expireMarking now locks =>
    cases locks with
    | nil => exact .over nofun
    | cons l rest =>
      cases fails with
      | true => exact .over nofun
      | false => exact .expired
  | expireDeleting =>
    cases fails with
    | true => exact .over nofun
    | false => exact .deleted
  | finished => exact .over nofun

/-- Rows keep their names and a final status; a new one has a new name. -/
inductive Evolves (s s' : TaskState) : Prop
  | rewrite (g : SystemTask → SystemTask) : s'.tasks = s.tasks.map g →
      (∀ t, (g t).taskID = t.taskID ∧ (g t).type = t.type ∧
        (t.status.final = true → (g t).status = t.status)) → Evolves s s'
  | add (t : SystemTask) : s'.tasks = s.tasks ++ [t] → (∀ r ∈ s.tasks, r.taskID ≠ t.taskID) →
      t.status = .pending → t.taskID ≠ "" → Evolves s s'

theorem Evolves.of_tasks (h : s'.tasks = s.tasks) : Evolves s s' :=
  .rewrite id (by simp [h]) fun _ => ⟨rfl, rfl, fun _ => rfl⟩

theorem evolves_updateTasks (hf : ∀ t, (f t).taskID = t.taskID ∧ (f t).type = t.type)
    (hp : ∀ t, p t = true → t.status.final = false) : Evolves s (s.updateTasks p f) := by
  refine .rewrite _ rfl fun t => ?_
  split
  · rename_i h
    exact ⟨(hf t).1, (hf t).2, fun hfin => by rw [hp t h] at hfin; cases hfin⟩
  · exact ⟨rfl, rfl, fun _ => rfl⟩

theorem evolves_mark (taskID : String) : Evolves s (s.markSystemTaskLeaseExpired taskID) := by
  refine evolves_updateTasks (fun t => ⟨rfl, rfl⟩) fun t ht => ?_
  simp only [Bool.and_eq_true, decide_eq_true_eq] at ht
  rw [ht.2]
  rfl

theorem claimable_pending (h : claimable row taskType t = true) : t.status = .pending := by
  simp only [claimable, Bool.and_eq_true, decide_eq_true_eq] at h
  exact h.2

theorem evolves_markRunning (id : Nat) (taskType runnerID : String) (now : Int) :
    Evolves s (s.markRunning id taskType runnerID now) := by
  refine evolves_updateTasks (fun t => ⟨rfl, rfl⟩) fun t ht => ?_
  rw [claimable_pending ht]
  rfl

theorem writable_running (h : s.writable taskID lockedBy t = true) :
    t.taskID = taskID ∧ t.status = .running ∧ s.lockHeld lockedBy t = true := by
  simp only [writable, Bool.and_eq_true, decide_eq_true_eq] at h
  exact ⟨h.1.1.1, h.1.1.2, h.2⟩

theorem evolves_writable (taskID lockedBy : String)
    (hf : ∀ t, (f t).taskID = t.taskID ∧ (f t).type = t.type) :
    Evolves s (s.updateTasks (s.writable taskID lockedBy) f) := by
  refine evolves_updateTasks hf fun t ht => ?_
  rw [(writable_running ht).2.1]
  rfl

theorem generateSystemTaskID_ne (key : String) : generateSystemTaskID key ≠ "" := by
  simp [generateSystemTaskID]

theorem evolves_create (taskType key payload state : String) :
    Evolves s (s.createSystemTask taskType key payload state) := by
  unfold createSystemTask
  split
  · exact .of_tasks rfl
  rename_i hnew
  refine .add _ rfl (fun r hr => ?_) rfl (generateSystemTaskID_ne key)
  simp only [any_eq_true, decide_eq_true_eq, not_exists, not_and, not_or] at hnew
  exact (hnew r hr).2

theorem evolves_step (fails : Bool) (j : Job) (s : TaskState) : Evolves s (j.step fails s).1 := by
  have h := step_moves fails j s
  generalize (j.step fails s).1 = s', (j.step fails s).2 = j' at h
  cases h with
  | marked => exact evolves_mark _
  | ran => exact evolves_markRunning _ _ _ _
  | expired => exact evolves_mark _
  | _ => exact .of_tasks rfl

theorem evolves_on (w : World) (e : Event) : Evolves w.state (w.on e).state := by
  cases e with
  | create => exact evolves_create _ _ _ _
  | updateState => exact evolves_writable _ _ fun t => ⟨rfl, rfl⟩
  | finish =>
    simp only [World.on]
    split
    · exact evolves_writable _ _ fun t => ⟨rfl, rfl⟩
    · exact .of_tasks rfl
  | step i fails =>
    simp only [World.on]
    rcases Crew.step_cases (step fails) w i with h | ⟨j, _, h⟩ <;> rw [h]
    · exact .of_tasks rfl
    · exact evolves_step fails j w.state
  | _ => exact .of_tasks rfl

theorem Evolves.final {i : Nat} (h : Evolves s s') (ht : s.tasks[i]? = some t)
    (hf : t.status.final = true) :
    ∃ t', s'.tasks[i]? = some t' ∧ t'.status = t.status := by
  cases h with
  | rewrite g he hg =>
    refine ⟨g t, ?_, (hg t).2.2 hf⟩
    rw [he, getElem?_map, ht]
    rfl
  | add t' he =>
    obtain ⟨hlt, _⟩ := List.getElem?_eq_some_iff.mp ht
    exact ⟨t, by rw [he, getElem?_append_left hlt, ht], rfl⟩

theorem final_run {i : Nat} (es : List Event) (ht : w.state.tasks[i]? = some t)
    (hf : t.status.final = true) :
    ∃ t', (w.run es).state.tasks[i]? = some t' ∧ t'.status = t.status := by
  apply foldl_keeps (I := fun w : World => ∃ t', w.state.tasks[i]? = some t' ∧
    t'.status = t.status) ?_ ⟨t, ht, rfl⟩ es
  intro w e ⟨t', ht', hs⟩
  obtain ⟨t'', ht'', hs'⟩ := (evolves_on w e).final ht' (by rw [hs]; exact hf)
  exact ⟨t'', ht'', hs'.trans hs⟩

/-- There is a task with this id, and it has this type. -/
def Names (s : TaskState) (taskID type : String) : Prop :=
  ∃ t ∈ s.tasks, t.taskID = taskID ∧ t.type = type

theorem Evolves.names (h : Evolves s s') (hn : Names s taskID type) : Names s' taskID type := by
  obtain ⟨t, ht, hid, htype⟩ := hn
  cases h with
  | rewrite g he hg =>
    exact ⟨g t, by rw [he]; exact mem_map_of_mem ht, (hg t).1.trans hid, (hg t).2.1.trans htype⟩
  | add t' he => exact ⟨t, by rw [he]; exact mem_append_left _ ht, hid, htype⟩

theorem Evolves.ids (h : Evolves s s') (hn : (s.tasks.map (·.taskID)).Nodup) :
    (s'.tasks.map (·.taskID)).Nodup := by
  cases h with
  | rewrite g he hg =>
    rw [he, map_map]
    have hcomp : (fun t : SystemTask => t.taskID) ∘ g = fun t => t.taskID :=
      funext fun t => (hg t).1
    rw [hcomp]
    exact hn
  | add t he hnew =>
    rw [he, map_append, map_singleton, nodup_append]
    refine ⟨hn, nodup_singleton _, fun a ha b hb => ?_⟩
    obtain ⟨r, hr, rfl⟩ := mem_map.mp ha
    rw [mem_singleton.mp hb]
    exact hnew r hr

/-- The task a claim has read. -/
def claimOf : Job → Option Claim
  | .creating c | .lookingUp c | .takingOver c _ | .expiring c _ | .updating c | .releasing c
  | .loading c => some c
  | _ => none

/-- One lock for each type, on a task of the type. -/
structure Formed (w : World) : Prop where
  types : (w.state.locks.map (·.type)).Nodup
  ids : (w.state.tasks.map (·.taskID)).Nodup
  locks : ∀ l ∈ w.state.locks, Names w.state l.taskID l.type
  claims : ∀ j ∈ w.jobs, ∀ c, claimOf j = some c → Names w.state c.taskID c.taskType

theorem updateLocks_types {p : SystemTaskLock → Bool} {f : SystemTaskLock → SystemTaskLock}
    (hf : ∀ l, p l = true → (f l).type = l.type) :
    (s.updateLocks p f).locks.map (·.type) = s.locks.map (·.type) := by
  simp only [updateLocks, map_map]
  apply map_congr_left
  intro l _
  simp only [Function.comp]
  split
  · exact hf l ‹_›
  · rfl

theorem stale_type (h : stale c l = true) : l.type = c.taskType ∧ l.lockedUntil < c.now := by
  simpa only [stale, Bool.and_eq_true, decide_eq_true_eq] using h

/-- The locks afterwards: fewer ones, or the same types with a claim's row among them. -/
theorem moves_locks (h : Moves s fails j s' j') (hn : (s.locks.map (·.type)).Nodup) :
    (s'.locks.map (·.type)).Nodup ∧
      ∀ l ∈ s'.locks, l ∈ s.locks ∨ ∃ c, claimOf j = some c ∧ l = lockRow c := by
  cases h with
  | created hnew =>
    constructor
    · rw [map_append, map_singleton, nodup_append]
      refine ⟨hn, nodup_singleton _, fun a ha b hb => ?_⟩
      obtain ⟨l, hl, rfl⟩ := mem_map.mp ha
      rw [mem_singleton.mp hb]
      exact hnew l hl
    · intro l hl
      rcases mem_append.mp hl with hl | hl
      · exact .inl hl
      · exact .inr ⟨_, rfl, mem_singleton.mp hl⟩
  | @took c _ _ _ =>
    constructor
    · rw [updateLocks_types fun l hl => (stale_type hl).1.symm]
      exact hn
    intro l hl
    obtain ⟨k, hk, rfl⟩ := mem_map.mp hl
    split
    · exact .inr ⟨_, rfl, rfl⟩
    · exact .inl hk
  | released | finished | deleted =>
    exact ⟨hn.sublist (filter_sublist.map _), fun l hl => .inl (mem_filter.mp hl).1⟩
  | _ => exact ⟨hn, fun l hl => .inl hl⟩

theorem moves_claim (h : Moves s fails j s' j') (hc : claimOf j' = some c) :
    claimOf j = some c ∨ Names s c.taskID c.taskType := by
  cases h with
  | read ht htype =>
    cases hc
    exact .inr ⟨_, ht, rfl, htype⟩
  | took =>
    split at hc <;> exact .inl hc
  | «over» | released | finished | loaded | expired | deleted => cases hc
  | _ => exact .inl hc

theorem Formed.moves (hw : Formed w) (hi : w.jobs[i]? = some j)
    (hm : Moves w.state fails j s' j') (he : Evolves w.state s') :
    Formed ⟨s', w.jobs.set i j'⟩ := by
  have hj := mem_of_getElem? hi
  have hl := moves_locks hm hw.types
  refine ⟨hl.1, he.ids hw.ids, fun l hmem => ?_, fun u hu c hc => ?_⟩
  · rcases hl.2 l hmem with hold | ⟨c, hc, rfl⟩
    · exact he.names (hw.locks l hold)
    · exact he.names (hw.claims j hj c hc)
  rcases mem_or_eq_of_mem_set hu with hu | rfl
  · exact he.names (hw.claims u hu c hc)
  rcases moves_claim hm hc with hc | hn
  · exact he.names (hw.claims j hj c hc)
  · exact he.names hn

theorem Formed.of_state (hw : Formed w) (he : Evolves w.state s')
    (ht : (s'.locks.map (·.type)).Nodup)
    (hl : ∀ l ∈ s'.locks, ∃ k ∈ w.state.locks, k.taskID = l.taskID ∧ k.type = l.type) :
    Formed ⟨s', w.jobs⟩ := by
  refine ⟨ht, he.ids hw.ids, fun l hmem => ?_, fun u hu c hc => he.names (hw.claims u hu c hc)⟩
  obtain ⟨k, hk, hid, htype⟩ := hl l hmem
  rw [← hid, ← htype]
  exact he.names (hw.locks k hk)

theorem Formed.join (hw : Formed w) (hj : claimOf j = none) : Formed (w.join j) := by
  refine ⟨hw.types, hw.ids, hw.locks, fun u hu c hc => ?_⟩
  rcases mem_append.mp hu with hu | hu
  · exact hw.claims u hu c hc
  · rw [mem_singleton.mp hu, hj] at hc
    cases hc

theorem Formed.on (hw : Formed w) (e : Event) : Formed (w.on e) := by
  have he := evolves_on w e
  cases e with
  | claim | expireStale => exact hw.join rfl
  | create taskType key payload state =>
    have hlocks : (w.state.createSystemTask taskType key payload state).locks = w.state.locks := by
      unfold createSystemTask
      split <;> rfl
    refine hw.of_state he (by rw [hlocks]; exact hw.types) fun l hl => ?_
    rw [hlocks] at hl
    exact ⟨l, hl, rfl, rfl⟩
  | renew taskID lockedBy lockUntil =>
    refine hw.of_state he ?_ fun l hl => ?_
    · have hsame : (w.state.renewSystemTaskLock taskID lockedBy lockUntil).locks.map (·.type) =
          w.state.locks.map (·.type) := updateLocks_types fun _ _ => rfl
      exact hsame ▸ hw.types
    obtain ⟨k, hk, rfl⟩ := mem_map.mp hl
    refine ⟨k, hk, ?_⟩
    split <;> exact ⟨rfl, rfl⟩
  | updateState | pass =>
    exact hw.of_state he hw.types fun l hl => ⟨l, hl, rfl, rfl⟩
  | finish taskID lockedBy status result error =>
    simp only [World.on] at he ⊢
    split
    · rename_i hacc
      rw [if_pos hacc] at he
      refine Formed.join ?_ rfl
      exact hw.of_state he hw.types fun l hl => ⟨l, hl, rfl, rfl⟩
    · exact hw
  | release =>
    exact hw.of_state he (hw.types.sublist (filter_sublist.map _)) fun l hl =>
      ⟨l, (mem_filter.mp hl).1, rfl, rfl⟩
  | step i fails =>
    simp only [World.on] at he ⊢
    rcases Crew.step_cases (step fails) w i with h | ⟨j, hj, h⟩ <;> rw [h] at he ⊢
    · exact hw
    · exact hw.moves hj (step_moves fails j w.state) he

/-- No running task is named by a row this would delete. -/
def Unneeded (s : TaskState) (taskID lockedBy : String) : Prop :=
  ∀ l ∈ s.locks, l.taskID = taskID → l.lockedBy = lockedBy →
    ∀ t ∈ s.tasks, t.taskID = taskID → t.status ≠ .running

/-- What the statement of a job has to find in the tables. -/
def OrderlyStep (s : TaskState) (fails : Bool) : Job → Prop
  | .creating c | .takingOver c _ => s.now ≤ c.lockUntil
  | .expiring _ old => fails = true → ∀ t ∈ s.tasks, t.taskID = old → t.status ≠ .running
  | .updating c =>
    ∀ t ∈ s.tasks, claimable c.id c.taskType t = true → s.lockHeld c.runnerID t = true
  | .releasing c => fails = false → Unneeded s c.taskID c.runnerID
  | _ => True

/-- Deadlines lie ahead, a claim still has its lock when it marks the task, and a running task keeps
it. -/
def Orderly (w : World) : Event → Prop
  | .renew _ _ lockUntil => w.state.now ≤ lockUntil
  | .finish _ _ status _ _ => status.final = true
  | .release taskID lockedBy => Unneeded w.state taskID lockedBy
  | .step i fails => ∀ j ∈ w.jobs[i]?, OrderlyStep w.state fails j
  | _ => True

instance : Decidable (Unneeded s taskID lockedBy) :=
  inferInstanceAs (Decidable (∀ l ∈ s.locks, _ → _ → ∀ t ∈ s.tasks, _ → _))

instance : (j : Job) → Decidable (OrderlyStep s fails j)
  | .creating _ | .takingOver _ _ => inferInstanceAs (Decidable (_ ≤ _))
  | .expiring _ _ => inferInstanceAs (Decidable (_ → ∀ t ∈ s.tasks, _ → _))
  | .updating _ => inferInstanceAs (Decidable (∀ t ∈ s.tasks, _ → _))
  | .releasing _ => inferInstanceAs (Decidable (_ → Unneeded _ _ _))
  | .reading .. | .lookingUp _ | .loading _ | .finishing .. | .expireLoading _
  | .expireMarking .. | .expireDeleting .. | .finished => inferInstanceAs (Decidable True)

instance : (e : Event) → Decidable (Orderly w e)
  | .renew .. => inferInstanceAs (Decidable (_ ≤ _))
  | .finish .. => inferInstanceAs (Decidable (_ = true))
  | .release .. => inferInstanceAs (Decidable (Unneeded _ _ _))
  | .step i _ => inferInstanceAs (Decidable (∀ j ∈ w.jobs[i]?, OrderlyStep _ _ j))
  | .create .. | .claim .. | .updateState .. | .expireStale | .pass _ =>
    inferInstanceAs (Decidable True)

/-- What a job has learnt that the others do not spoil. -/
def Knows (s : TaskState) : Job → Prop
  | .reading _ _ _ _ time => time ≤ s.now
  | .creating c | .lookingUp c => c.now ≤ s.now
  | .takingOver c old => c.now ≤ s.now ∧ ∀ l ∈ s.locks, stale c l = true → l.taskID = old
  | .finishing taskID _ => ∃ t ∈ s.tasks, t.taskID = taskID ∧ t.status.final = true
  | .expireLoading time | .expireMarking time _ => time ≤ s.now
  | .expireDeleting time l _ =>
    time ≤ s.now ∧ ∀ t ∈ s.tasks, t.taskID = l.taskID → t.status = .running → time ≤ t.ranAt
  | _ => True

/-- Time goes on: what is new lies after `s`. -/
structure Later (s s' : TaskState) : Prop where
  now : s.now ≤ s'.now
  locks : ∀ l ∈ s'.locks, l ∈ s.locks ∨ s.now ≤ l.lockedUntil
  running : ∀ t ∈ s'.tasks, t.status = .running →
    (∃ r ∈ s.tasks, r.taskID = t.taskID ∧ r.status = .running ∧ r.ranAt = t.ranAt) ∨
      (s.now ≤ t.ranAt ∧ t.ranAt ≤ s'.now)
  final : ∀ t ∈ s.tasks, t.status.final = true →
    ∃ r ∈ s'.tasks, r.taskID = t.taskID ∧ r.status.final = true

theorem Knows.later (hk : Knows s j) (h : Later s s') : Knows s' j := by
  cases j with
  | reading | creating | lookingUp => exact Int.le_trans hk h.now
  | takingOver =>
    refine ⟨Int.le_trans hk.1 h.now, fun l hl hst => ?_⟩
    rcases h.locks l hl with hl | hnew
    · exact hk.2 l hl hst
    have := (stale_type hst).2
    have := hk.1
    omega
  | finishing =>
    obtain ⟨t, ht, hid, hfin⟩ := hk
    obtain ⟨r, hr, hrid, hrfin⟩ := h.final t ht hfin
    exact ⟨r, hr, hrid.trans hid, hrfin⟩
  | expireLoading time | expireMarking time ls => exact Int.le_trans hk h.now
  | expireDeleting =>
    refine ⟨Int.le_trans hk.1 h.now, fun t ht hid hrun => ?_⟩
    rcases h.running t ht hrun with ⟨r, hr, hrid, hrrun, hran⟩ | hnew
    · exact hran ▸ hk.2 r hr (hrid.trans hid) hrrun
    · exact Int.le_trans hk.1 hnew.1
  | _ => trivial

theorem Evolves.final_mem (h : Evolves s s') (ht : t ∈ s.tasks) (hf : t.status.final = true) :
    ∃ r ∈ s'.tasks, r.taskID = t.taskID ∧ r.status.final = true := by
  cases h with
  | rewrite g he hg =>
    refine ⟨g t, by rw [he]; exact mem_map_of_mem ht, (hg t).1, ?_⟩
    rw [(hg t).2.2 hf]
    exact hf
  | add t' he => exact ⟨t, by rw [he]; exact mem_append_left _ ht, rfl, hf⟩

/-- Where the running rows of a table come from. -/
def RunsFrom (s s' : TaskState) : Prop :=
  ∀ t ∈ s'.tasks, t.status = .running →
    ∃ r ∈ s.tasks, r.taskID = t.taskID ∧ r.status = .running ∧ r.ranAt = t.ranAt

theorem RunsFrom.of_tasks (h : s'.tasks = s.tasks) : RunsFrom s s' := by
  intro t ht hrun
  exact ⟨t, h ▸ ht, rfl, hrun, rfl⟩

theorem runsFrom_updateTasks (hf : ∀ t, p t = true → (f t).status = .running →
    t.status = .running ∧ (f t).taskID = t.taskID ∧ (f t).ranAt = t.ranAt) :
    RunsFrom s (s.updateTasks p f) := by
  intro t ht hrun
  obtain ⟨r, hr, rfl⟩ := mem_map.mp ht
  split at hrun
  · rename_i hp
    rw [if_pos hp]
    obtain ⟨hrs, hid, hran⟩ := hf r hp hrun
    exact ⟨r, hr, hid.symm, hrs, hran.symm⟩
  · rename_i hp
    rw [if_neg hp]
    exact ⟨r, hr, rfl, hrun, rfl⟩

theorem runsFrom_mark (taskID : String) : RunsFrom s (s.markSystemTaskLeaseExpired taskID) := by
  apply runsFrom_updateTasks
  intro t _ hrun
  cases hrun

theorem mark_stops (ht : t ∈ (s.markSystemTaskLeaseExpired taskID).tasks)
    (hid : t.taskID = taskID) : t.status ≠ .running := by
  intro hrun
  obtain ⟨r, hr, rfl⟩ := mem_map.mp ht
  split at hrun
  · cases hrun
  rename_i hp
  rw [if_neg hp] at hid
  simp [hid, hrun] at hp

theorem later_of (he : Evolves s s') (hn : s'.now = s.now) (hl : s'.locks = s.locks)
    (hr : RunsFrom s s') : Later s s' where
  now := by omega
  locks := fun l h => .inl (hl ▸ h)
  running := fun t ht hrun => .inl (hr t ht hrun)
  final := fun _ ht hf => he.final_mem ht hf

theorem later_locks (ht : s'.tasks = s.tasks) (hn : s'.now = s.now)
    (hl : ∀ l ∈ s'.locks, l ∈ s.locks ∨ s.now ≤ l.lockedUntil) : Later s s' where
  now := by omega
  locks := hl
  running := fun t h hrun => .inl (RunsFrom.of_tasks ht t h hrun)
  final := fun t h hf => ⟨t, ht ▸ h, rfl, hf⟩

theorem moves_later (hm : Moves s fails j s' j') (ho : OrderlyStep s fails j)
    (he : Evolves s s') : Later s s' := by
  cases hm with
  | created =>
    refine later_locks rfl rfl fun l hl => ?_
    rcases mem_append.mp hl with hl | hl
    · exact .inl hl
    · rw [mem_singleton.mp hl]
      exact .inr ho
  | took =>
    refine later_locks rfl rfl fun l hl => ?_
    obtain ⟨k, hk, rfl⟩ := mem_map.mp hl
    split
    · exact .inr ho
    · exact .inl hk
  | released | finished | deleted =>
    exact later_locks rfl rfl fun l hl => .inl (mem_filter.mp hl).1
  | marked | expired => exact later_of he rfl rfl (runsFrom_mark _)
  | ran =>
    refine ⟨Int.le_refl _, fun l hl => .inl hl, fun t ht hrun => ?_,
      fun _ ht hf => he.final_mem ht hf⟩
    obtain ⟨r, hr, rfl⟩ := mem_map.mp ht
    split at hrun
    · rename_i hp
      rw [if_pos hp]
      exact .inr ⟨Int.le_refl _, Int.le_refl _⟩
    rename_i hp
    rw [if_neg hp]
    exact .inl ⟨r, hr, rfl, hrun, rfl⟩
  | _ => exact later_locks rfl rfl fun l hl => .inl hl

theorem lock_unique (hn : (s.locks.map (·.type)).Nodup) (hl : l ∈ s.locks) (hk : k ∈ s.locks)
    (h : l.type = k.type) : l = k :=
  inj_on_of_nodup_map hn hl hk h

theorem task_unique (hn : (s.tasks.map (·.taskID)).Nodup) (ht : t ∈ s.tasks) (hr : r ∈ s.tasks)
    (h : t.taskID = r.taskID) : t = r :=
  inj_on_of_nodup_map hn ht hr h

theorem moves_knows (hk : Knows s j) (hm : Moves s fails j s' j')
    (hn : (s.locks.map (·.type)).Nodup) : Knows s' j' := by
  cases hm with
  | read | taken => exact hk
  | found hl htype =>
    refine ⟨hk, fun k hmem hst => ?_⟩
    rw [lock_unique hn hmem hl ((stale_type hst).1.trans htype.symm)]
  | took => split <;> trivial
  | loaded => exact hk
  | expired => exact ⟨hk, fun t ht hid hrun => absurd hrun (mark_stops ht hid)⟩
  | deleted => exact hk.1
  | _ => trivial

/-- The lock of a task that runs since `ranAt`, or the claim that is about to expire it. -/
def Cover (w : World) (taskID : String) (ranAt : Int) : Prop :=
  (∃ l ∈ w.state.locks, l.taskID = taskID ∧ ranAt ≤ l.lockedUntil) ∨
    ∃ c, .expiring c taskID ∈ w.jobs

structure Covered (w : World) : Prop where
  named : ∀ t ∈ w.state.tasks, t.taskID ≠ ""
  ran : ∀ t ∈ w.state.tasks, t.status = .running → t.ranAt ≤ w.state.now
  cover : ∀ t ∈ w.state.tasks, t.status = .running → Cover w t.taskID t.ranAt
  knows : ∀ j ∈ w.jobs, Knows w.state j

theorem Evolves.named (h : Evolves s s') (hn : ∀ t ∈ s.tasks, t.taskID ≠ "") :
    ∀ t ∈ s'.tasks, t.taskID ≠ "" := by
  intro t ht
  cases h with
  | rewrite g he hg =>
    obtain ⟨r, hr, rfl⟩ := mem_map.mp (he ▸ ht)
    rw [(hg r).1]
    exact hn r hr
  | add r he _ _ hne =>
    rcases mem_append.mp (he ▸ ht) with ht | ht
    · exact hn t ht
    · rw [mem_singleton.mp ht]
      exact hne

theorem Covered.next (hw : Covered w) (he : Evolves w.state s') (hl : Later w.state s')
    (hc : ∀ t ∈ s'.tasks, t.status = .running → Cover ⟨s', js⟩ t.taskID t.ranAt)
    (hk : ∀ j ∈ js, Knows s' j) : Covered ⟨s', js⟩ := by
  refine ⟨he.named hw.named, fun t ht hrun => ?_, hc, hk⟩
  rcases hl.running t ht hrun with ⟨r, hr, _, hrrun, hran⟩ | hnew
  · exact hran ▸ Int.le_trans (hw.ran r hr hrrun) hl.now
  · exact hnew.2

theorem RunsFrom.cover (h : RunsFrom w.state s') (hw : Covered w)
    (hc : ∀ r ∈ w.state.tasks, r.status = .running → Cover w r.taskID r.ranAt →
      Cover ⟨s', js⟩ r.taskID r.ranAt) :
    ∀ t ∈ s'.tasks, t.status = .running → Cover ⟨s', js⟩ t.taskID t.ranAt := by
  intro t ht hrun
  obtain ⟨r, hr, hid, hrrun, hran⟩ := h t ht hrun
  exact hid ▸ hran ▸ hc r hr hrrun (hw.cover r hr hrrun)

theorem Cover.set (h : Cover w taskID ranAt) (hi : w.jobs[i]? = some j)
    (hl : ∀ l ∈ w.state.locks, l.taskID = taskID → ranAt ≤ l.lockedUntil →
      Cover ⟨s', w.jobs.set i j'⟩ taskID ranAt)
    (hj : ∀ c, j ≠ .expiring c taskID) : Cover ⟨s', w.jobs.set i j'⟩ taskID ranAt := by
  rcases h with ⟨l, hmem, hid, hle⟩ | ⟨c, hc⟩
  · exact hl l hmem hid hle
  · exact .inr ⟨c, Crew.mem_set_of_ne hc hi (fun h => hj c h.symm) j'⟩

theorem Cover.set_keep (h : Cover w taskID ranAt) (hi : w.jobs[i]? = some j)
    (hl : ∀ l ∈ w.state.locks, l.taskID = taskID → ranAt ≤ l.lockedUntil → l ∈ s'.locks)
    (hj : ∀ c, j ≠ .expiring c taskID) : Cover ⟨s', w.jobs.set i j'⟩ taskID ranAt :=
  h.set hi (fun l hmem hid hle => .inl ⟨l, hl l hmem hid hle, hid, hle⟩) hj

theorem lockHeld_mem (h : s.lockHeld lockedBy t = true) :
    ∃ l ∈ s.locks, l.taskID = t.taskID ∧ l.lockedBy = lockedBy ∧ s.now ≤ l.lockedUntil := by
  obtain ⟨l, hl, hp⟩ := any_eq_true.mp h
  simp only [Bool.and_eq_true, decide_eq_true_eq] at hp
  exact ⟨l, hl, hp.1.1, hp.1.2, hp.2⟩

theorem mem_released (hl : l ∈ s.locks) (h : ¬ (l.taskID = taskID ∧ l.lockedBy = lockedBy)) :
    l ∈ (s.releaseSystemTaskLock taskID lockedBy).locks := by
  apply mem_filter.mpr
  refine ⟨hl, ?_⟩
  simpa [imp_iff_not_or] using h

theorem moves_cover (hw : Covered w) (hf : Formed w) (hi : w.jobs[i]? = some j)
    (hm : Moves w.state fails j s' j') (ho : OrderlyStep w.state fails j) :
    ∀ t ∈ s'.tasks, t.status = .running → Cover ⟨s', w.jobs.set i j'⟩ t.taskID t.ranAt := by
  have hk := hw.knows j (mem_of_getElem? hi)
  cases hm with
  | «over» hj =>
    refine RunsFrom.cover (.of_tasks rfl) hw fun r _ _ h => ?_
    exact h.set_keep hi (fun _ hl _ _ => hl) fun c => hj c _
  | read | taken | found | refused | loaded =>
    refine RunsFrom.cover (.of_tasks rfl) hw fun r _ _ h => ?_
    exact h.set_keep hi (fun _ hl _ _ => hl) nofun
  | created =>
    refine RunsFrom.cover (.of_tasks rfl) hw fun r _ _ h => ?_
    exact h.set_keep hi (fun _ hl _ _ => mem_append_left _ hl) nofun
  | @took c _ old _ =>
    refine RunsFrom.cover (.of_tasks rfl) hw fun r hr hrun h => ?_
    refine h.set hi (fun l hl hid hle => ?_) nofun
    by_cases hst : stale c l = true
    · have hold := hk.2 l hl hst
      by_cases hsame : old = c.taskID
      · -- the claim is for the very task the lock was on
        refine .inl ⟨lockRow c, mem_map.mpr ⟨l, hl, if_pos hst⟩, ?_, ?_⟩
        · exact hsame.symm.trans (hold.symm.trans hid)
        · exact Int.le_trans (hw.ran r hr hrun) ho
      · have hne : old ≠ "" := fun h0 => hw.named r hr (hid.symm.trans (hold.trans h0))
        rw [if_pos ⟨hne, hsame⟩]
        exact .inr ⟨c, (hid.symm.trans hold) ▸ Crew.mem_set_self hi _⟩
    · exact .inl ⟨l, mem_map.mpr ⟨l, hl, if_neg hst⟩, hid, hle⟩
  | unmarked =>
    refine RunsFrom.cover (.of_tasks rfl) hw fun r hr hrun h => ?_
    refine h.set_keep hi (fun _ hl _ _ => hl) fun c hc => ?_
    cases hc
    exact ho rfl r hr rfl hrun
  | @marked _ c old =>
    intro t ht hrun
    obtain ⟨r, hr, hid, hrrun, hran⟩ := runsFrom_mark old t ht hrun
    rw [← hid, ← hran]
    refine (hw.cover r hr hrrun).set_keep hi (fun _ hl _ _ => hl) fun c' hc => ?_
    cases hc
    exact mark_stops ht hid.symm hrun
  | ran =>
    intro t ht hrun
    obtain ⟨r, hr, rfl⟩ := mem_map.mp ht
    split at hrun
    · rename_i hp
      rw [if_pos hp]
      obtain ⟨l, hl, hid, _, hle⟩ := lockHeld_mem (ho r hr hp)
      exact .inl ⟨l, hl, hid, hle⟩
    · rename_i hp
      rw [if_neg hp]
      exact (hw.cover r hr hrun).set_keep hi (fun _ hl _ _ => hl) nofun
  | released =>
    refine RunsFrom.cover (.of_tasks rfl) hw fun r hr hrun h => ?_
    refine h.set_keep hi (fun l hl hid _ => mem_released hl fun hdel => ?_) nofun
    exact ho rfl l hl hdel.1 hdel.2 r hr (hid.symm.trans hdel.1) hrun
  | finished =>
    refine RunsFrom.cover (.of_tasks rfl) hw fun r hr hrun h => ?_
    refine h.set_keep hi (fun l hl hid _ => mem_released hl fun hdel => ?_) nofun
    obtain ⟨t, ht, htid, hfin⟩ := hk
    rw [task_unique hf.ids ht hr (htid.trans (hdel.1.symm.trans hid)), hrun] at hfin
    cases hfin
  | expired =>
    refine (runsFrom_mark _).cover hw fun r _ _ h => ?_
    exact h.set_keep hi (fun _ hl _ _ => hl) nofun
  | @deleted _ l rest time =>
    refine RunsFrom.cover (.of_tasks rfl) hw fun r hr hrun h => ?_
    refine h.set_keep hi (fun k hmem hid hle => ?_) nofun
    refine mem_filter.mpr ⟨hmem, ?_⟩
    by_contra hdel
    simp only [deletes, Bool.not_eq_true', Bool.not_eq_false, Bool.and_eq_true,
      decide_eq_true_eq] at hdel
    have := hk.2 r hr (hid.symm.trans hdel.1.1.2) hrun
    omega

theorem Covered.moves (hw : Covered w) (hf : Formed w) (hi : w.jobs[i]? = some j)
    (hm : Moves w.state fails j s' j') (ho : OrderlyStep w.state fails j)
    (he : Evolves w.state s') : Covered ⟨s', w.jobs.set i j'⟩ := by
  have hl := moves_later hm ho he
  refine hw.next he hl (moves_cover hw hf hi hm ho) ?_
  have hk := hw.knows j (mem_of_getElem? hi)
  exact Crew.knows_set (K := fun j s => Knows s j) hw.knows (moves_knows hk hm hf.types)
    fun u hu => hu.later hl

theorem Covered.of_state (hw : Covered w) (he : Evolves w.state s') (hl : Later w.state s')
    (hr : RunsFrom w.state s')
    (hc : ∀ r ∈ w.state.tasks, r.status = .running → ∀ l ∈ w.state.locks, l.taskID = r.taskID →
      r.ranAt ≤ l.lockedUntil → ∃ k ∈ s'.locks, k.taskID = r.taskID ∧ r.ranAt ≤ k.lockedUntil) :
    Covered ⟨s', w.jobs⟩ := by
  refine hw.next he hl ?_ fun j hj => (hw.knows j hj).later hl
  refine hr.cover hw fun r hmem hrun h => ?_
  rcases h with ⟨l, hlm, hid, hle⟩ | hjob
  · exact .inl (hc r hmem hrun l hlm hid hle)
  · exact .inr hjob

theorem Covered.join (hw : Covered w) (hj : Knows w.state j) : Covered (w.join j) := by
  refine ⟨hw.named, hw.ran, fun t ht hrun => ?_, fun u hu => ?_⟩
  · rcases hw.cover t ht hrun with hl | ⟨c, hc⟩
    · exact .inl hl
    · exact .inr ⟨c, mem_append_left _ hc⟩
  rcases mem_append.mp hu with hu | hu
  · exact hw.knows u hu
  · rw [mem_singleton.mp hu]
    exact hj

theorem Covered.on (hw : Covered w) (hf : Formed w) (e : Event) (ho : Orderly w e) :
    Covered (w.on e) := by
  have he := evolves_on w e
  cases e with
  | claim | expireStale => exact hw.join (Int.le_refl _)
  | create taskType key payload state =>
    have hkeep : (w.state.createSystemTask taskType key payload state).now = w.state.now ∧
        (w.state.createSystemTask taskType key payload state).locks = w.state.locks := by
      unfold createSystemTask
      split <;> exact ⟨rfl, rfl⟩
    have hr : RunsFrom w.state (w.state.createSystemTask taskType key payload state) := by
      intro t ht hrun
      unfold createSystemTask at ht
      split at ht
      · exact ⟨t, ht, rfl, hrun, rfl⟩
      rcases mem_append.mp ht with ht | ht
      · exact ⟨t, ht, rfl, hrun, rfl⟩
      · rw [mem_singleton.mp ht] at hrun
        cases hrun
    refine hw.of_state he (later_of he hkeep.1 hkeep.2 hr) hr fun _ _ _ l hl hid hle => ?_
    exact ⟨l, hkeep.2 ▸ hl, hid, hle⟩
  | renew =>
    refine hw.of_state he (later_locks rfl rfl fun l hl => ?_) (.of_tasks rfl)
      fun r hr hrun l hl hid hle => ?_
    · obtain ⟨k, hk, rfl⟩ := mem_map.mp hl
      split
      · exact .inr ho
      · exact .inl hk
    · refine ⟨_, mem_map_of_mem hl, ?_⟩
      split
      · exact ⟨hid, Int.le_trans (hw.ran r hr hrun) ho⟩
      · exact ⟨hid, hle⟩
  | updateState taskID lockedBy state =>
    have hr : RunsFrom w.state (w.state.updateSystemTaskState taskID lockedBy state).2 :=
      runsFrom_updateTasks fun t _ hrun => ⟨hrun, rfl, rfl⟩
    exact hw.of_state he (later_of he rfl rfl hr) hr fun _ _ _ l hl hid hle => ⟨l, hl, hid, hle⟩
  | finish taskID lockedBy status result error =>
    simp only [World.on] at he ⊢
    split
    · rename_i hacc
      rw [if_pos hacc] at he
      have hr : RunsFrom w.state
          (w.state.finishSystemTask taskID lockedBy status result error).2 := by
        refine runsFrom_updateTasks fun t _ hrun => ?_
        have hfin : status.final = true := ho
        rw [show status = .running from hrun] at hfin
        cases hfin
      refine Covered.join ?_ ?_
      · exact hw.of_state he (later_of he rfl rfl hr) hr fun _ _ _ l hl hid hle =>
          ⟨l, hl, hid, hle⟩
      · obtain ⟨t, ht, hwr⟩ := any_eq_true.mp hacc
        exact ⟨_, mem_map.mpr ⟨t, ht, if_pos hwr⟩, (writable_running hwr).1, ho⟩
    · exact hw
  | release =>
    refine hw.of_state he (later_locks rfl rfl fun l hl => .inl (mem_filter.mp hl).1)
      (.of_tasks rfl) fun r hr hrun l hl hid hle => ⟨l, mem_released hl fun hdel => ?_, hid, hle⟩
    exact ho l hl hdel.1 hdel.2 r hr (hid.symm.trans hdel.1) hrun
  | step i fails =>
    simp only [World.on] at he ⊢
    rcases Crew.step_cases (step fails) w i with h | ⟨j, hj, h⟩ <;> rw [h] at he ⊢
    · exact hw
    · exact hw.moves hf hj (step_moves fails j w.state) (ho j hj) he
  | pass seconds =>
    refine hw.of_state he ⟨?_, fun l hl => .inl hl, fun t ht hrun => .inl ⟨t, ht, rfl, hrun, rfl⟩,
      fun t ht hfin => ⟨t, ht, rfl, hfin⟩⟩ (.of_tasks rfl) fun _ _ _ l hl hid hle =>
        ⟨l, hl, hid, hle⟩
    exact Int.le_add_of_nonneg_right (Int.natCast_nonneg seconds)

/-- Empty tables at some time. -/
def start (now : Int) : World := { state := { now } }

theorem formed_start (now : Int) : Formed (start now) where
  types := nodup_nil
  ids := nodup_nil
  locks := forall_mem_nil _
  claims := forall_mem_nil _

theorem covered_start (now : Int) : Covered (start now) where
  named := forall_mem_nil _
  ran := forall_mem_nil _
  cover := forall_mem_nil _
  knows := forall_mem_nil _

theorem formed_run (now : Int) (es : List Event) : Formed ((start now).run es) :=
  foldl_keeps (fun _ e hw => hw.on e) (formed_start now) es

theorem covered_run (now : Int) (es : List Event) (ho : Along World.on Orderly (start now) es) :
    Covered ((start now).run es) := by
  have h : Formed ((start now).run es) ∧ Covered ((start now).run es) :=
    ho.keeps (I := fun w => Formed w ∧ Covered w)
      (fun _ e hw ho => ⟨hw.1.on e, hw.2.on hw.1 e ho⟩) ⟨formed_start now, covered_start now⟩
  exact h.2

theorem noClaim_no_expiring (h : w.noClaim = true) : .expiring c taskID ∉ w.jobs := by
  intro hmem
  have := all_eq_true.mp h _ hmem
  cases this

/-- The runner has the lock of a running task's type, for this task and still in time. -/
def Holds (s : TaskState) (taskID lockedBy : String) : Prop :=
  ∃ t ∈ s.tasks, t.taskID = taskID ∧ t.status = .running ∧
    ∃ l ∈ s.locks, l.type = t.type ∧ l.taskID = taskID ∧ l.lockedBy = lockedBy ∧
      s.now ≤ l.lockedUntil

theorem Formed.holds (hw : Formed w)
    (h : w.state.tasks.any (w.state.writable taskID lockedBy) = true) :
    Holds w.state taskID lockedBy := by
  obtain ⟨t, ht, hwr⟩ := any_eq_true.mp h
  obtain ⟨hid, hrun, hlock⟩ := writable_running hwr
  obtain ⟨l, hl, hlid, hby, hle⟩ := lockHeld_mem hlock
  obtain ⟨r, hr, hrid, hrtype⟩ := hw.locks l hl
  have hsame := task_unique hw.ids hr ht (hrid.trans hlid)
  exact ⟨t, ht, hid, hrun, l, hl, by rw [← hsame, hrtype], hlid.trans hid, hby, hle⟩

/-- In every run a type has one lock at most, writes are accepted from its holder only
and a final status stays; in an orderly one a task runs under a lock. -/
theorem running_task_has_lock (now : Int) (es : List Event) :
    (∀ l ∈ ((start now).run es).state.locks, ∀ k ∈ ((start now).run es).state.locks,
      l.type = k.type → l = k) ∧
    (∀ taskID lockedBy state,
      (((start now).run es).state.updateSystemTaskState taskID lockedBy state).1 = true →
        Holds ((start now).run es).state taskID lockedBy) ∧
    (∀ taskID lockedBy status result error,
      (((start now).run es).state.finishSystemTask taskID lockedBy status result error).1 = true →
        Holds ((start now).run es).state taskID lockedBy) ∧
    (∀ (more : List Event) (i : Nat) (t : SystemTask),
      ((start now).run es).state.tasks[i]? = some t → t.status.final = true →
        ∃ t', (((start now).run es).run more).state.tasks[i]? = some t' ∧
          t'.status = t.status) ∧
    (Along World.on Orderly (start now) es → ((start now).run es).noClaim = true →
      ∀ t ∈ ((start now).run es).state.tasks, t.status = .running →
        ∃ l ∈ ((start now).run es).state.locks, l.taskID = t.taskID) := by
  have hf := formed_run now es
  refine ⟨fun l hl k hk h => lock_unique hf.types hl hk h, fun _ _ _ h => hf.holds h,
    fun _ _ _ _ _ h => hf.holds h, fun more i t ht hfin => final_run more ht hfin, ?_⟩
  intro ho hno t ht hrun
  rcases (covered_run now es ho).cover t ht hrun with ⟨l, hl, hid, _⟩ | ⟨c, hc⟩
  · exact ⟨l, hl, hid⟩
  · exact absurd hc (noClaim_no_expiring hno)

def takeover : List Event :=
  [.create "sweep" "a" "" "", .claim 1 "sweep" "n1" 60, .step 0 false, .step 0 false, .step 0 false,
   .step 0 false, .updateState "systask_a" "n1" "half", .renew "systask_a" "n1" 90, .pass 100,
   .expireStale, .step 1 false, .step 1 false, .step 1 false, .step 1 false,
   .create "sweep" "b" "" "", .claim 2 "sweep" "n2" 160, .step 2 false, .step 2 false,
   .step 2 false, .step 2 false, .finish "systask_b" "n2" .succeeded "" "", .step 3 false,
   .create "sweep" "c" "" "", .claim 3 "sweep" "n2" 170, .step 4 false, .step 4 false,
   .step 4 false, .step 4 false]

theorem takeover_runs_under_lock :
    Along World.on Orderly (start 0) takeover ∧ ((start 0).run takeover).noClaim = true ∧
      ((start 0).run takeover).state.tasks.map (·.status) = [.failed, .succeeded, .running] ∧
      ∀ t ∈ ((start 0).run takeover).state.tasks, t.status = .running →
        ∃ l ∈ ((start 0).run takeover).state.locks, l.taskID = t.taskID :=
  ⟨by decide +kernel, by decide +kernel, by decide +kernel,
    (running_task_has_lock 0 takeover).2.2.2.2 (by decide +kernel) (by decide +kernel)⟩

/-- A claim stops after its lock, the stale lock is swept away while the task is pending, and then
the update marks it running. -/
def sweptClaim : List Event :=
  [.create "sweep" "a" "" "", .claim 1 "sweep" "n1" 60, .step 0 false, .step 0 false, .pass 100,
   .expireStale, .step 1 false, .step 1 false, .step 1 false, .step 1 false,
   .step 0 false, .step 0 false]

theorem swept_claim_runs_without_lock :
    let w := (start 0).run sweptClaim
    w.noClaim = true ∧ w.state.tasks.map (fun t => (t.status, t.activeKey)) =
      [(.running, some "sweep")] ∧ w.state.locks = [] ∧
      (w.run [.pass 1000, .expireStale, .step 2 false, .step 2 false,
        .create "sweep" "b" "" ""]).state.tasks = w.state.tasks := by
  decide +kernel

/-- Ids of tasks are never given twice, and locks and claims are on tasks of their own type. -/
theorem locks_on_own_tasks (now : Int) (es : List Event) :
    let w := (start now).run es
    (w.state.tasks.map (·.taskID)).Nodup ∧
    (∀ l ∈ w.state.locks, Names w.state l.taskID l.type) ∧
    ∀ j ∈ w.jobs, ∀ c, claimOf j = some c → Names w.state c.taskID c.taskType :=
  have hf := formed_run now es
  ⟨hf.ids, hf.locks, hf.claims⟩

end Ren2Hub.Proofs.SystemTaskRuns
