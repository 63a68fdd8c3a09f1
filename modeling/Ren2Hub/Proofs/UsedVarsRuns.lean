import Ren2Hub.Billing.ExprCache
import Ren2Hub.Lib.Inputs

namespace Ren2Hub.Proofs.UsedVarsRuns
open Lib Tiered

variable {compile : String → Option (List String)} {w : ExprWorld} {cache : List String}
  {job : ExprJob}

def begins : ExprJob → Bool
  | .usedVars _ | .compileFromCache _ false | .invalidateCache => true
  | _ => false

/-- The step empties the cache. -/
def resets (cache : List String) : ExprJob → Bool
  | .invalidateCache => true
  | .storing _ _ => maxCacheSize ≤ cache.length
  | _ => false

def rereads : ExprJob → Bool
  | .reading _ => true
  | _ => false

/-- Call `i` does not empty the cache while another one has compiled and not yet read its entry. -/
def keepsEntries (w : ExprWorld) (i : Nat) : Bool :=
  !(w.jobs[i]?.any (resets w.state) && w.jobs.any rereads)

/-- A call that reads its entry again finds it, and one that has returned was right. -/
def Sound (compile : String → Option (List String)) (cache : List String) : ExprJob → Prop
  | .reading expr => expr ∈ cache
  | .returned expr vars => vars = compile expr
  | _ => True

theorem step_entries (h : resets cache job = false) (hm : expr ∈ cache) :
    expr ∈ (job.step compile cache).1 := by
  cases job with
  | storing e _ =>
    have hroom : ¬ maxCacheSize ≤ cache.length := by simpa [resets] using h
    simp [ExprJob.step, hroom, hm]
  | invalidateCache => cases h
  | usedVars | compileFromCache =>
    simp only [ExprJob.step]
    split
    · exact hm
    · split <;> exact hm
  | reading | returned | ended => exact hm

theorem sound_afterCompile (h : expr ∈ cache) :
    Sound compile cache (afterCompile expr forVars) := by
  cases forVars with
  | false => trivial
  | true => exact h

theorem step_sound (hempty : compile "" = none) (h : Sound compile cache job) :
    Sound compile (job.step compile cache).1 (job.step compile cache).2 := by
  cases job with
  | usedVars expr =>
    simp only [ExprJob.step]
    split
    · rename_i he
      rw [he]
      exact hempty.symm
    · split <;> trivial
  | compileFromCache expr forVars =>
    simp only [ExprJob.step]
    split
    · exact sound_afterCompile ‹_›
    split
    · trivial
    rename_i hc
    cases forVars with
    | false => trivial
    | true => exact (Option.not_isSome_iff_eq_none.mp hc).symm
  | storing => exact sound_afterCompile List.mem_insert_self
  | reading expr => exact if_pos h
  | invalidateCache | ended => trivial
  | returned => exact h

theorem run_step_sound (hempty : compile "" = none)
    (h : ∀ job ∈ w.jobs, Sound compile w.state job) (hg : keepsEntries w i = true) :
    ∀ job ∈ (w.step (ExprJob.step compile) i).jobs,
      Sound compile (w.step (ExprJob.step compile) i).state job := by
  rcases w.step_cases (ExprJob.step compile) i with hs | ⟨job, hi, hs⟩ <;> rw [hs]
  · exact h
  intro u hu
  rcases List.mem_or_eq_of_mem_set hu with hu | rfl
  · have hold := h u hu
    cases u with
    | reading expr =>
      have hreads : w.jobs.any rereads = true := List.any_eq_true.mpr ⟨_, hu, rfl⟩
      exact step_entries (by simpa [keepsEntries, hi, hreads] using hg) hold
    | _ => exact hold
  · exact step_sound hempty (h job (List.mem_of_getElem? hi))

theorem four_steps_return (expr : String) (a b c d : List String) :
    ∃ vars, [a, b, c, d].foldl (fun job cache => (ExprJob.step compile job cache).2)
      (.usedVars expr) = .returned expr vars := by
  by_cases he : expr = ""
  · simp [ExprJob.step, he]
  by_cases ha : expr ∈ a
  · simp [ExprJob.step, he, ha]
  by_cases hb : expr ∈ b
  · simp [ExprJob.step, afterCompile, he, ha, hb]
  cases hc : compile expr with
  | none => simp [ExprJob.step, he, ha, hb, hc]
  | some => simp [ExprJob.step, afterCompile, he, ha, hb, hc]

/-- The calls after their critical sections were run in this order, on an empty cache. -/
abbrev afterRun (compile : String → Option (List String)) (calls : List ExprJob)
    (order : List Nat) : List ExprJob :=
  (order.foldl (Crew.step (ExprJob.step compile)) ⟨[], calls⟩).jobs

/-- While the cache is not emptied between the compilation for a call of `UsedVars` and its last
look, it returns the variables of its expression, after four steps. -/
theorem used_vars_never_forgotten (hempty : compile "" = none) (calls : List ExprJob)
    (hcalls : calls.all begins) (order : List Nat)
    (hg : Along (Crew.step (ExprJob.step compile)) (keepsEntries · ·) ⟨[], calls⟩ order) :
    (∀ expr vars, .returned expr vars ∈ afterRun compile calls order → vars = compile expr) ∧
    ∀ expr a b c d, ∃ vars, [a, b, c, d].foldl (fun job cache =>
      (ExprJob.step compile job cache).2) (.usedVars expr) = .returned expr vars := by
  have hstart : ∀ job ∈ calls, Sound compile [] job := by
    intro job hj
    have hb := List.all_eq_true.mp hcalls job hj
    cases job <;> trivial
  have hsound : ∀ job ∈ afterRun compile calls order, Sound compile _ job :=
    hg.keeps (I := fun w : ExprWorld => ∀ job ∈ w.jobs, Sound compile w.state job)
      (fun _ _ h hg => run_step_sound hempty h hg) hstart
  exact ⟨fun expr vars hm => hsound _ hm, four_steps_return⟩

/-- An expression that is the name of a variable. -/
def nameOnly (expr : String) : Option (List String) := if expr = "" then none else some [expr]

/-- Two expressions, and an update of the rules when the first is done and the second has looked
once. -/
def twoUses : List ExprJob := [.usedVars "cr", .usedVars "cc", .invalidateCache]

def twoUsesOrder : List Nat := [0, 1, 0, 0, 0, 2, 1, 1, 1]

theorem first_use_remembered :
    afterRun nameOnly twoUses twoUsesOrder =
      [.returned "cr" (some ["cr"]), .returned "cc" (some ["cc"]), .ended] ∧
    some ["cc"] = nameOnly "cc" :=
  ⟨by decide, (used_vars_never_forgotten rfl twoUses rfl twoUsesOrder (by decide)).1
    "cc" (some ["cc"]) (by decide)⟩

/-- The rules are updated between the compilation and the last look. -/
theorem used_vars_forgotten :
    afterRun nameOnly [.usedVars "cr", .invalidateCache] [0, 0, 0, 1, 0] =
      [.returned "cr" none, .ended] ∧ nameOnly "cr" = some ["cr"] := by
  decide

end Ren2Hub.Proofs.UsedVarsRuns
