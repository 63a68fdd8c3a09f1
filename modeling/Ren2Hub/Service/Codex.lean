import Ren2Hub.Lib.Crew
import Ren2Hub.Lib.Inputs

namespace Ren2Hub.Service.Codex
open Lib List

/-- The stored key, and the tokens the upstream has taken. `chain` is not in the source: the last
key of an administrator and what was obtained from it and not lost, each from the one before, newest
first. -/
structure CodexState where
  key : Nat
  used : List Nat := []
  chain : List Nat := [key]

/-- `RefreshCodexChannelCredential` before its next step; `answer` is what the upstream has
for it. -/
inductive Refresh where
  | reading (answer : Nat)
  | exchanging (answer token : Nat)
  | writing (answer : Nat)
  | ended
deriving DecidableEq

def Refresh.step : Refresh → CodexState → CodexState × Refresh
  | .reading answer, s => (s, .exchanging answer s.key)
  | .exchanging answer token, s =>
    if token ∈ s.used then (s, .ended)
    else
      ({ s with
          used := token :: s.used
          chain := if s.chain.head? = some token then answer :: s.chain else s.chain },
        .writing answer)
  | .writing answer, s => ({ s with key := answer }, .ended)
  | .ended, s => (s, .ended)

/-- A step that returns an error. What could not be written is lost. -/
def Refresh.fail : Refresh → CodexState → CodexState × Refresh
  | .writing _, s => ({ s with chain := s.chain.tail }, .ended)
  | _, s => (s, .ended)

abbrev CodexWorld := Crew CodexState Refresh

inductive CodexEvent where
  | step (i : Nat)
  | fail (i : Nat)
  | edit (key : Nat)

def CodexWorld.on (w : CodexWorld) : CodexEvent → CodexWorld
  | .step i => Crew.step Refresh.step w i
  | .fail i => Crew.step Refresh.fail w i
  | .edit key => ⟨{ w.state with key, chain := [key] }, w.jobs⟩

def writes : Refresh → Bool
  | .writing _ => true
  | _ => false

/-- An administrator edits the key while no refresh is between its read and its write. -/
def apart (w : CodexWorld) : CodexEvent → Bool
  | .step _ | .fail _ => true
  | .edit _ => w.jobs.all fun
    | .reading _ | .ended => true
    | _ => false

def Pending (job : Refresh) (s : CodexState) : Prop :=
  match job with
  | .writing answer => (∃ rest, s.chain = answer :: s.key :: rest) ∧ s.key ∈ s.used
  | _ => True

/-- A token that was read is taken or still the stored one. -/
def Held (job : Refresh) (s : CodexState) : Prop :=
  match job with
  | .exchanging _ token => token ∈ s.used ∨ token = s.key
  | _ => True

structure Newest (w : CodexWorld) : Prop where
  solo : Crew.Solo (writes · = false) (fun s => s.chain.head? = some s.key) Pending w
  held : ∀ job ∈ w.jobs, Held job w.state

theorem Held.mono (h : Held job s) (hu : s.used ⊆ s'.used) (hk : s.key ∈ s'.used ∨ s.key = s'.key) :
    Held job s' := by
  cases job with
  | exchanging =>
    rcases h with h | rfl
    · exact .inl (hu h)
    · exact hk
  | _ => trivial

theorem Newest.step (h : Newest w) (i : Nat) : Newest (Crew.step Refresh.step w i) := by
  rcases w.step_cases Refresh.step i with hs | ⟨job, hi, hs⟩ <;> rw [hs]
  · exact h
  cases job with
  | reading answer =>
    exact ⟨h.solo.aside hi rfl rfl, Crew.knows_set h.held (.inr rfl) fun _ hu => hu⟩
  | ended => exact ⟨h.solo.aside hi rfl rfl, Crew.knows_set h.held trivial fun _ hu => hu⟩
  | writing answer =>
    have hw : ¬ writes (.writing answer) = false := by simp [writes]
    obtain ⟨⟨rest, hchain⟩, hused⟩ := (h.solo.busy i _ hi hw).1
    exact ⟨h.solo.move hi (h.solo.others hi hw) fun _ _ =>
        ⟨fun _ => by simp [Refresh.step, hchain], fun hw => absurd rfl hw⟩,
      Crew.knows_set h.held trivial fun _ hu => hu.mono (Subset.refl _) (.inl hused)⟩
  | exchanging answer token =>
    simp only [Refresh.step]
    split
    · exact ⟨h.solo.aside hi rfl rfl, Crew.knows_set h.held trivial fun _ hu => hu⟩
    rename_i hnew
    obtain rfl := (h.held _ (mem_of_getElem? hi)).resolve_left hnew
    have hidle : ∀ (j : Nat) u, w.jobs[j]? = some u → writes u = false := by
      intro j u hj
      by_contra hu
      have hp := (h.solo.busy j u hj hu).1
      cases u with
      | writing => exact hnew hp.2
      | _ => exact hu rfl
    refine ⟨h.solo.move hi (fun j u _ => hidle j u) fun hrest _ => ⟨nofun, fun _ => ?_⟩,
      Crew.knows_set h.held trivial fun _ hu => hu.mono (subset_cons_self _ _) (.inl mem_cons_self)⟩
    have hhead := hrest rfl
    obtain ⟨rest, hchain⟩ := head?_eq_some_iff.mp hhead
    simp only [Pending, hhead, if_true]
    exact ⟨⟨rest, by rw [hchain]⟩, mem_cons_self⟩

theorem Newest.fail (h : Newest w) (i : Nat) : Newest (Crew.step Refresh.fail w i) := by
  rcases w.step_cases Refresh.fail i with hs | ⟨job, hi, hs⟩ <;> rw [hs]
  · exact h
  cases job with
  | writing answer =>
    have hw : ¬ writes (.writing answer) = false := by simp [writes]
    obtain ⟨rest, hchain⟩ := (h.solo.busy i _ hi hw).1.1
    exact ⟨h.solo.move hi (h.solo.others hi hw) fun _ _ =>
        ⟨fun _ => by simp [Refresh.fail, hchain], fun hw => absurd rfl hw⟩,
      Crew.knows_set h.held trivial fun _ hu => hu⟩
  | _ => exact ⟨h.solo.aside hi rfl rfl, Crew.knows_set h.held trivial fun _ hu => hu⟩

theorem Newest.on (h : Newest w) (hg : apart w e = true) : Newest (w.on e) := by
  cases e with
  | step i => exact h.step i
  | fail i => exact h.fail i
  | edit key =>
    have hjob : ∀ job ∈ w.jobs, writes job = false ∧ Held job ⟨key, w.state.used, [key]⟩ := by
      intro job hj
      have := all_eq_true.mp hg job hj
      cases job <;> simp_all [writes, Held]
    refine ⟨⟨fun _ => rfl, fun i job hi hw => ?_⟩, fun job hj => (hjob job hj).2⟩
    exact absurd (hjob job (mem_of_getElem? hi)).1 hw

/-- Where no edit comes between the read and the write of a refresh, the stored key is of the
chain from the last key of an administrator, and its newest while no write is due. -/
theorem refresh_keeps_newest (key : Nat) (answers : List Nat) (events : List CodexEvent)
    (hg : Along CodexWorld.on (apart · ·) ⟨⟨key, [], [key]⟩, answers.map .reading⟩ events) :
    let w := events.foldl CodexWorld.on ⟨⟨key, [], [key]⟩, answers.map .reading⟩
    w.state.key ∈ w.state.chain ∧
      ((∀ job ∈ w.jobs, writes job = false) → w.state.chain.head? = some w.state.key) := by
  intro w
  have h : Newest w := by
    refine hg.keeps (I := Newest) (fun _ _ h hg => h.on hg) ⟨⟨fun _ => rfl, ?_⟩, ?_⟩
    · intro i job hi hw
      obtain ⟨answer, _, rfl⟩ := mem_map.mp (mem_of_getElem? hi)
      exact absurd rfl hw
    · intro job hj
      obtain ⟨answer, _, rfl⟩ := mem_map.mp hj
      trivial
  refine ⟨?_, h.solo.rest⟩
  by_cases hidle : ∀ job ∈ w.jobs, writes job = false
  · exact mem_of_mem_head? (h.solo.rest hidle)
  · push Not at hidle
    obtain ⟨job, hj, hw⟩ := hidle
    obtain ⟨i, hi⟩ := mem_iff_getElem?.mp hj
    have hp := (h.solo.busy i job hi (by simpa using hw)).1
    cases job with
    | writing =>
      obtain ⟨rest, hchain⟩ := hp.1
      rw [hchain]
      exact mem_cons_of_mem _ mem_cons_self
    | _ => exact absurd rfl hw

/-- Three refreshes at once, of which the upstream refuses one and one fails, and then an edit. -/
theorem refreshed_then_edited :
    let w := [.step 0, .step 1, .step 2, .step 0, .step 1, .step 0, .fail 2, .edit 9].foldl
      CodexWorld.on ⟨⟨1, [], [1]⟩, [2, 3, 4].map .reading⟩
    w.state.key = 9 ∧ w.state.key ∈ w.state.chain :=
  ⟨by decide, (refresh_keeps_newest 1 [2, 3, 4]
    [.step 0, .step 1, .step 2, .step 0, .step 1, .step 0, .fail 2, .edit 9] (by decide)).1⟩

/-- The edit comes while the refresh waits for the upstream. -/
theorem edit_overwritten :
    let w := [.step 0, .edit 9, .step 0, .step 0].foldl CodexWorld.on ⟨⟨1, [], [1]⟩, [.reading 2]⟩
    w.state.chain = [9] ∧ w.state.key = 2 ∧ w.jobs = [.ended] := by
  decide

end Ren2Hub.Service.Codex
