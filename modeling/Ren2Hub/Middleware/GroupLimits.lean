import Mathlib.Data.List.Perm.Basic
import Ren2Hub.Lib.Crew
import Ren2Hub.Lib.Inputs

namespace Ren2Hub.Middleware.GroupLimits
open Lib List

/-- A group and its two limits. Decoded entries go in front, so that a later one counts. -/
abbrev Table := List (String × Int × Int)

/-- `completed` is not in the source: the first table and those of the updates that are over. -/
structure LimitState where
  table : Table
  completed : List Table := [table]

/-- A call before its next step. -/
inductive LimitJob where
  | getGroupRateLimit (group : String)
  | modelRequestRateLimitGroup2JSONString
  | updateModelRequestRateLimitGroupByJSONString (entries : Table)
  | decoding (entries rest : Table)
  | got (group : String) (limits : Option (Int × Int))
  | marshalled (table : Table)
  | updated
deriving DecidableEq

def LimitJob.step : LimitJob → LimitState → LimitState × LimitJob
  | .getGroupRateLimit group, s => (s, .got group (s.table.lookup group))
  | .modelRequestRateLimitGroup2JSONString, s => (s, .marshalled s.table)
  | .updateModelRequestRateLimitGroupByJSONString entries, s =>
    ({ s with table := [] }, .decoding entries entries)
  | .decoding entries (entry :: rest), s =>
    ({ s with table := entry :: s.table }, .decoding entries rest)
  | .decoding entries [], s => ({ s with completed := entries.reverse :: s.completed }, .updated)
  | job, s => (s, job)

def begins : LimitJob → Bool
  | .decoding _ _ | .got _ _ | .marshalled _ | .updated => false
  | _ => true

def fills : LimitJob → Bool
  | .decoding _ _ => true
  | _ => false

abbrev LimitWorld := Crew LimitState LimitJob

/-- Call `i` does not move while another one has replaced the table and not yet filled it. -/
def undisturbed (w : LimitWorld) (i : Nat) : Bool := (w.jobs.eraseIdx i).all (!fills ·)

/-- A call has read one of the whole tables, or knows how far the table is filled. -/
def Sound (job : LimitJob) (s : LimitState) : Prop :=
  match job with
  | .got group limits => ∃ table ∈ s.completed, limits = table.lookup group
  | .marshalled table => table ∈ s.completed
  | .decoding entries rest => entries = s.table.reverse ++ rest
  | _ => True

def Rests (job : LimitJob) (s : LimitState) : Prop := fills job = false → s.table ∈ s.completed

theorem step_sound (h : Sound job s) (hr : Rests job s) :
    Sound (job.step s).2 (job.step s).1 ∧ Rests (job.step s).2 (job.step s).1 ∧
      s.completed ⊆ (job.step s).1.completed := by
  cases job with
  | getGroupRateLimit => exact ⟨⟨_, hr rfl, rfl⟩, hr, Subset.refl _⟩
  | modelRequestRateLimitGroup2JSONString => exact ⟨hr rfl, hr, Subset.refl _⟩
  | updateModelRequestRateLimitGroupByJSONString => exact ⟨rfl, nofun, Subset.refl _⟩
  | decoding entries rest =>
    have hentries : entries = s.table.reverse ++ rest := h
    cases rest <;> simp [LimitJob.step, Sound, Rests, fills, hentries]
  | got | marshalled | updated => exact ⟨h, hr, Subset.refl _⟩

theorem Sound.keeps (h : Sound job s) (hidle : fills job = false)
    (hc : s.completed ⊆ s'.completed) : Sound job s' := by
  cases job with
  | got => exact h.imp fun _ ht => ⟨hc ht.1, ht.2⟩
  | marshalled => exact hc h
  | decoding => cases hidle
  | _ => trivial

/-- Every call is sound, and the table is whole while none fills it. -/
def Steady (w : LimitWorld) : Prop :=
  (∀ job ∈ w.jobs, Sound job w.state) ∧
    ((∀ job ∈ w.jobs, fills job = false) → w.state.table ∈ w.state.completed)

theorem Steady.step (h : Steady w) (hg : undisturbed w i = true) :
    Steady (w.step LimitJob.step i) := by
  rcases w.step_cases LimitJob.step i with hs | ⟨job, hi, hs⟩ <;> rw [hs]
  · exact h
  obtain ⟨hlt, rfl⟩ := List.getElem?_eq_some_iff.mp hi
  have hidle : ∀ u ∈ w.jobs.eraseIdx i, fills u = false := by simpa [undisturbed] using hg
  have hr : Rests w.jobs[i] w.state := by
    intro hi
    refine h.2 fun u hu => ?_
    rcases mem_cons.mp ((getElem_cons_eraseIdx_perm hlt).mem_iff.mpr hu) with rfl | hu
    · exact hi
    · exact hidle u hu
  obtain ⟨hown, hrest, hc⟩ := step_sound (h.1 _ (getElem_mem hlt)) hr
  have hset : ∀ u, u ∈ w.jobs.set i (w.jobs[i].step w.state).2 ↔
      u = (w.jobs[i].step w.state).2 ∨ u ∈ w.jobs.eraseIdx i := fun u =>
    (set_perm_cons_eraseIdx hlt _).mem_iff.trans mem_cons
  constructor
  · intro u hu
    rcases (hset u).mp hu with rfl | hu
    · exact hown
    · exact (h.1 u (mem_of_mem_eraseIdx hu)).keeps (hidle u hu) hc
  · intro hall
    exact hrest (hall _ ((hset _).mpr (.inl rfl)))

/-- While no call moves between another one's replacing the table and its last entry, what is
read are whole tables, the first or those of updates that are over. -/
theorem group_limits_whole (table : Table) (calls : List LimitJob) (hcalls : calls.all begins)
    (order : List Nat)
    (hg : Along (Crew.step LimitJob.step) (undisturbed · ·) ⟨⟨table, [table]⟩, calls⟩ order) :
    let w := order.foldl (Crew.step LimitJob.step) ⟨⟨table, [table]⟩, calls⟩
    ∀ job ∈ w.jobs, Sound job w.state := by
  refine (hg.keeps (I := Steady) (fun _ _ h hg => h.step hg) ⟨fun job hj => ?_, ?_⟩).1
  · have hb := all_eq_true.mp hcalls job hj
    cases job <;> trivial
  · exact fun _ => mem_singleton_self _

/-- A request and a reload that leaves the group's limits as they are. -/
def reload : List LimitJob :=
  [.getGroupRateLimit "vip", .updateModelRequestRateLimitGroupByJSONString [("vip", 9, 9)]]

theorem vip_limits_found :
    let w := [1, 1, 1, 0].foldl (Crew.step LimitJob.step)
      ⟨⟨[("vip", 9, 9)], [[("vip", 9, 9)]]⟩, reload⟩
    w.jobs = [.got "vip" (some (9, 9)), .updated] ∧ ∀ job ∈ w.jobs, Sound job w.state :=
  ⟨by decide, group_limits_whole [("vip", 9, 9)] reload (by decide) [1, 1, 1, 0] (by decide)⟩

/-- The request comes when the table is replaced and not filled. -/
theorem vip_limits_missed :
    ([1, 0, 1, 1].foldl (Crew.step LimitJob.step)
      ⟨⟨[("vip", 9, 9)], [[("vip", 9, 9)]]⟩, reload⟩).jobs = [.got "vip" none, .updated] := by
  decide

end Ren2Hub.Middleware.GroupLimits
