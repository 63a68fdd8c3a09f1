import Ren2Hub.Routing.Dispatcher
import Ren2Hub.Lib.Inputs

namespace Ren2Hub.Proofs.DispatcherRuns
open Lib Routing CapabilityRefreshDispatcher List

variable {d : CapabilityRefreshDispatcher} {w : RefreshWorker}
  {workers workers' : List RefreshWorker}
  {events : List RefreshEvent} {ch : Int}

/-- A refresh of the channel in the given piece of history, begun and ended. -/
def Refreshed (ch : Int) (events : List RefreshEvent) : Prop :=
  ∃ nr failed, .started nr ch ∈ events ∧ .finished nr ch failed ∈ events

/-- The same, but the worker may still be at it. -/
def Attended (ch : Int) (workers : List RefreshWorker) (events : List RefreshEvent) : Prop :=
  Refreshed ch events ∨ ∃ nr, .started nr ch ∈ events ∧ .refreshing nr ch ∈ workers

/-- The lock discipline: who is queued is pending, and the flag counts the
workers. -/
structure Disciplined (d : CapabilityRefreshDispatcher) : Prop where
  pending : d.pending = d.queue.toFinset
  nodup : d.queue.Nodup
  busy : d.queue ≠ [] → d.running = true
  workers : d.workers.length = if d.running then 1 else 0
  /-- Every enqueue is still queued or was attended to after it. -/
  owed : ∀ later earlier ch, d.history = later ++ .enqueued ch :: earlier →
    ch ∈ d.queue ∨ Attended ch d.workers later

theorem Refreshed.mono (h : Refreshed ch events) (e : RefreshEvent) :
    Refreshed ch (e :: events) := by
  obtain ⟨nr, failed, hs, hf⟩ := h
  exact ⟨nr, failed, mem_cons_of_mem e hs, mem_cons_of_mem e hf⟩

theorem Attended.mono (h : Attended ch workers events) (e : RefreshEvent)
    (hw : ∀ nr, .refreshing nr ch ∈ workers → .refreshing nr ch ∈ workers') :
    Attended ch workers' (e :: events) := by
  rcases h with h | ⟨nr, hs, hm⟩
  · exact .inl (h.mono e)
  · exact .inr ⟨nr, mem_cons_of_mem e hs, hw nr hm⟩

theorem owed_cons {history : List RefreshEvent} {P : Int → List RefreshEvent → Prop}
    (hne : ∀ ch, e ≠ .enqueued ch)
    (h : ∀ later earlier ch, history = later ++ .enqueued ch :: earlier → P ch (e :: later)) :
    ∀ later earlier ch, e :: history = later ++ .enqueued ch :: earlier → P ch later := by
  intro later earlier ch heq
  cases later with
  | nil =>
    simp only [nil_append, List.cons.injEq] at heq
    exact absurd heq.1 (hne ch)
  | cons e' later =>
    simp only [cons_append, List.cons.injEq] at heq
    obtain ⟨rfl, heq⟩ := heq
    exact h later earlier ch heq

theorem Disciplined.initial : Disciplined {} := by
  refine ⟨rfl, nodup_nil, fun h => absurd rfl h, rfl, ?_⟩
  intro later earlier ch h
  simp at h

theorem owed_enqueue {queue : List Int} (hd : Disciplined d) (hid : ch ∈ queue)
    (hq : ∀ k ∈ d.queue, k ∈ queue) (hw : ∀ w ∈ d.workers, w ∈ workers) :
    ∀ later earlier k, RefreshEvent.enqueued ch :: d.history = later ++ .enqueued k :: earlier →
      k ∈ queue ∨ Attended k workers later := by
  intro later earlier k heq
  cases later with
  | nil =>
    simp only [nil_append, List.cons.injEq, RefreshEvent.enqueued.injEq] at heq
    rw [← heq.1]
    exact .inl hid
  | cons e later =>
    simp only [cons_append, List.cons.injEq] at heq
    rcases hd.owed later earlier k heq.2 with hk | hk
    · exact .inl (hq k hk)
    · exact .inr (hk.mono e fun nr hm => hw _ hm)

section
variable (hd : Disciplined d)
include hd

theorem enqueue_disciplined (ch : Int) : Disciplined (d.enqueue ch) := by
  unfold enqueue
  split
  · exact hd
  simp only
  split
  · rename_i hmem
    have hq : ch ∈ d.queue := by
      rw [hd.pending, mem_toFinset] at hmem
      exact hmem
    exact ⟨hd.pending, hd.nodup, hd.busy, hd.workers, owed_enqueue hd hq (fun _ h => h)
      fun _ h => h⟩
  · rename_i hnew
    have hq : ch ∉ d.queue := by
      rw [hd.pending, mem_toFinset] at hnew
      exact hnew
    have hpending : insert ch d.pending = (d.queue ++ [ch]).toFinset := by
      rw [hd.pending]
      ext k
      simp only [Finset.mem_insert, mem_toFinset, mem_append, mem_singleton]
      exact or_comm
    have hnodup : (d.queue ++ [ch]).Nodup := by
      rw [nodup_append]
      refine ⟨hd.nodup, nodup_singleton ch, ?_⟩
      intro a ha b hb hab
      rw [mem_singleton] at hb
      exact hq (hb ▸ hab ▸ ha)
    have hlast : ch ∈ d.queue ++ [ch] := by simp
    have hold : ∀ k ∈ d.queue, k ∈ d.queue ++ [ch] := fun k hk => mem_append_left _ hk
    split
    · rename_i hrun
      exact ⟨hpending, hnodup, fun _ => hrun, hd.workers, owed_enqueue hd hlast hold fun _ h => h⟩
    rename_i hrun
    have hnone : d.workers = [] := by
      have hlen := hd.workers
      rw [if_neg hrun] at hlen
      exact length_eq_zero_iff.mp hlen
    refine ⟨hpending, hnodup, fun _ => rfl, ?_, owed_enqueue hd hlast hold ?_⟩
    · simp [hnone]
    · exact fun w hw => mem_cons_of_mem _ hw

theorem Disciplined.sole (hw : d.workers[i]? = some w) :
    d.workers = [w] ∧ i = 0 ∧ d.running = true := by
  have hlen := hd.workers
  obtain ⟨hi, hget⟩ := List.getElem?_eq_some_iff.mp hw
  split at hlen
  · rename_i hrun
    obtain ⟨v, hv⟩ := length_eq_one_iff.mp hlen
    rw [hv] at hi hw
    obtain rfl : i = 0 := by simpa using hi
    exact ⟨by simpa [hv] using hw, rfl, hrun⟩
  · omega

theorem takeNext_disciplined (hw : d.workers[i]? = some .looping) : Disciplined (d.takeNext i) := by
  obtain ⟨hone, rfl, hrun⟩ := hd.sole hw
  have howed := hd.owed
  have hpend := hd.pending
  have hnodup := hd.nodup
  unfold takeNext
  cases hq : d.queue with
  | nil =>
    rw [hq] at howed hpend
    refine ⟨hpend, nodup_nil, fun h => absurd rfl h, ?_, ?_⟩
    · simp [hone]
    intro later earlier ch heq
    rcases howed later earlier ch heq with hk | hk
    · cases hk
    rcases hk with hk | ⟨nr, _, hm⟩
    · exact .inr (.inl hk)
    · simp [hone] at hm
  | cons ch queue =>
    rw [hq] at howed hpend hnodup
    obtain ⟨hnot, hrest⟩ := nodup_cons.mp hnodup
    refine ⟨?_, hrest, fun _ => hrun, by simpa [hone] using hd.workers, owed_cons (by simp) ?_⟩
    · simp only [hpend]
      ext k
      simp only [toFinset_cons, Finset.mem_erase, Finset.mem_insert, mem_toFinset]
      constructor
      · rintro ⟨hne, rfl | hk⟩
        · exact absurd rfl hne
        · exact hk
      · intro hk
        exact ⟨fun he => hnot (he ▸ hk), .inr hk⟩
    · intro later earlier k heq
      rcases howed later earlier k heq with hk | hk
      · rcases mem_cons.mp hk with rfl | hk
        -- The head of the queue: its refresh begins now, after every enqueue of it.
        · exact .inr (.inr ⟨d.refreshes, mem_cons_self, by simp [hone]⟩)
        · exact .inl hk
      · exact .inr (hk.mono _ fun nr hm => by simp [hone] at hm)

theorem refreshed_disciplined (hw : d.workers[i]? = some (.refreshing nr ch)) (failed : Bool) :
    Disciplined (d.refreshed i nr ch failed) := by
  obtain ⟨hone, rfl, hrun⟩ := hd.sole hw
  refine ⟨hd.pending, hd.nodup, hd.busy, ?_, owed_cons (by simp) ?_⟩
  · simp only [refreshed, length_set]
    exact hd.workers
  intro later earlier k heq
  rcases hd.owed later earlier k heq with hk | hk
  · exact .inl hk
  right
  rcases hk with hk | ⟨nr', hs, hm⟩
  · exact .inl (hk.mono _)
  rw [hone, mem_singleton] at hm
  cases hm
  exact .inl ⟨nr, failed, mem_cons_of_mem _ hs, mem_cons_self⟩

theorem step_disciplined (st : DispatcherStep) : Disciplined (d.step st) := by
  cases st with
  | enqueue ch => exact enqueue_disciplined hd ch
  | work i failed =>
    simp only [CapabilityRefreshDispatcher.step]
    cases hw : d.workers[i]? with
    | none => exact hd
    | some w =>
      cases w with
      | looping => exact takeNext_disciplined hd hw
      | refreshing => exact refreshed_disciplined hd hw failed

end

theorem step_history (d : CapabilityRefreshDispatcher) (st : DispatcherStep) :
    ∃ new, (d.step st).history = new ++ d.history := by
  cases st with
  | enqueue ch =>
    simp only [CapabilityRefreshDispatcher.step, enqueue]
    split
    · exact ⟨[], rfl⟩
    · refine ⟨[.enqueued ch], ?_⟩
      split
      · rfl
      · split <;> rfl
  | work i failed =>
    simp only [CapabilityRefreshDispatcher.step]
    split
    · exact ⟨[], rfl⟩
    · unfold takeNext
      split
      · exact ⟨[], rfl⟩
      · exact ⟨[_], rfl⟩
    · exact ⟨[_], rfl⟩

theorem run_history (d : CapabilityRefreshDispatcher) (steps : List DispatcherStep) :
    ∃ new, (steps.foldl CapabilityRefreshDispatcher.step d).history = new ++ d.history := by
  induction steps generalizing d with
  | nil => exact ⟨[], rfl⟩
  | cons st steps ih =>
    obtain ⟨new, hnew⟩ := ih (d.step st)
    obtain ⟨first, hfirst⟩ := step_history d st
    exact ⟨new ++ first, by rw [foldl_cons, hnew, hfirst, append_assoc]⟩

theorem enqueue_history (d : CapabilityRefreshDispatcher) (hpos : 0 < ch) :
    (d.enqueue ch).history = .enqueued ch :: d.history := by
  unfold enqueue
  rw [if_neg (by omega)]
  simp only
  split
  · rfl
  · split <;> rfl

/-- Whatever the scheduler picks and however refreshes end: queue and pending set agree, there are
no duplicates, queued work has its one worker, and in an idle dispatcher every call of `enqueue`
was followed by a whole refresh of its channel. -/
theorem dispatcher_loses_no_request (steps : List DispatcherStep) :
    let run (steps : List DispatcherStep) : CapabilityRefreshDispatcher :=
      steps.foldl CapabilityRefreshDispatcher.step {}
    let d := run steps
    d.pending = d.queue.toFinset ∧ d.queue.Nodup ∧
      (d.queue ≠ [] → d.running = true ∧ d.workers.length = 1) ∧ d.workers.length ≤ 1 ∧
      (d.idle = true → ∀ before after ch, steps = before ++ .enqueue ch :: after → 0 < ch →
        ∃ later, d.history = later ++ (run (before ++ [.enqueue ch])).history ∧
          Refreshed ch later) := by
  intro run d
  have hd : Disciplined d :=
    foldl_keeps (I := Disciplined) (fun _ st h => step_disciplined h st) .initial steps
  refine ⟨hd.pending, hd.nodup, fun hq => ?_, ?_, fun hidle before after ch heq hpos => ?_⟩
  · have hrun := hd.busy hq
    exact ⟨hrun, by simpa [hrun] using hd.workers⟩
  · rw [hd.workers]
    split <;> omega
  have hcall : (run (before ++ [.enqueue ch])).history = .enqueued ch :: (run before).history := by
    simp only [run, foldl_append, foldl_cons, foldl_nil]
    exact enqueue_history _ hpos
  obtain ⟨later, hlater⟩ := run_history (run (before ++ [.enqueue ch])) after
  have hsplit : d.history = later ++ (run (before ++ [.enqueue ch])).history := by
    rw [← hlater, ← foldl_append, append_assoc, singleton_append, ← heq]
  refine ⟨later, hsplit, ?_⟩
  simp only [idle, Bool.and_eq_true, Bool.not_eq_true', List.isEmpty_iff,
    decide_eq_true_eq] at hidle
  have hnone : d.workers = [] := by
    have hlen := hd.workers
    rw [hidle.1.1] at hlen
    exact length_eq_zero_iff.mp hlen
  rcases hd.owed later _ ch (hcall ▸ hsplit) with hk | hk | ⟨nr, _, hm⟩
  · rw [hidle.1.2] at hk
    cases hk
  · exact hk
  · rw [hnone] at hm
    cases hm

/-- The channel is asked for again while it is being refreshed, and the first refresh fails. -/
def askedAgain : List DispatcherStep :=
  [.enqueue 7, .work 0 false, .enqueue 7, .work 0 true, .work 0 false, .work 0 false,
    .work 0 false]

theorem asked_again_refreshed_again :
    let d : CapabilityRefreshDispatcher := askedAgain.foldl CapabilityRefreshDispatcher.step {}
    d.idle = true ∧ ∃ later, d.history = later ++
        [.enqueued 7, .started 0 7, .enqueued 7] ∧ Refreshed 7 later := by
  have hidle : (askedAgain.foldl CapabilityRefreshDispatcher.step {}).idle = true := by decide
  refine ⟨hidle, ?_⟩
  exact (dispatcher_loses_no_request askedAgain).2.2.2.2 hidle
    [.enqueue 7, .work 0 false] _ 7 rfl (by decide)

end Ren2Hub.Proofs.DispatcherRuns
