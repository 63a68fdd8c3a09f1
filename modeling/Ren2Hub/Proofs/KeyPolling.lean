import Mathlib.Data.List.Rotate
import Ren2Hub.Channels.Keys

namespace Ren2Hub.Proofs.KeyPolling
open Channels Lib List

variable {channel : Channel} {excluded : List Nat} {pollingIndex : Int}

/-- A request that has the lock to itself makes this call on the row. -/
theorem request_alone (h : s.locked = false) (excluded : List Nat) (pick : Nat) :
    [KeyEvent.request excluded pick, .step 0, .step 0, .step 0, .step 0].foldl KeyWorld.on ⟨s, []⟩ =
      let (row, choice) := getNextEnabledKeyExcluding false s.row s.row.info.multiKeyPollingIndex
        excluded pick
      ⟨{ s with row }, [.selected choice s.disabled]⟩ := by
  obtain ⟨row, locked, stored, disabled⟩ := s
  obtain rfl : locked = false := h
  have hown : row.withPollingIndex row.info.multiKeyPollingIndex = row := rfl
  simp only [foldl_cons, foldl_nil, KeyWorld.on, Crew.join, Crew.step, getNextEnabledKeyExcluding,
    Bool.false_eq_true, if_false, hown, selectUnpolled]
  cases hu : selectUnlocked row excluded with
  | some choice => simp [KeyJob.step, hu]
  | none => cases hl : selectLocked row excluded pick <;> simp [KeyJob.step, hu, hl]

/-- Where the loop begins, and the order in which it then looks at the indexes. -/
def start (channel : Channel) (pollingIndex : Int) : Nat :=
  if pollingIndex < 0 ∨ (channel.keys.length : Int) ≤ pollingIndex then 0 else pollingIndex.toNat

def visited (channel : Channel) (pollingIndex : Int) : List Nat :=
  (range channel.keys.length).rotate (start channel pollingIndex)

section
variable (hm : channel.info.isMultiKey = true) (hp : channel.info.multiKeyMode = .polling)
  (memoryCache : Bool) (own : Int) (pick : Nat)
include hm hp

end

/-- The enabled indexes in the order polling finds them. -/
def found (channel : Channel) : List Nat :=
  (visited channel channel.info.multiKeyPollingIndex).filter (· ∈ remainingIndexes channel [])

end Ren2Hub.Proofs.KeyPolling
