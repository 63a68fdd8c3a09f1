import Mathlib.Data.Finset.Basic

namespace Ren2Hub.Routing

/-- A goroutine in `run`: before the mutex, or inside the refresh function. `nr`
only numbers the refreshes. -/
inductive RefreshWorker where
  | looping
  | refreshing (nr : Nat) (channelID : Int)
deriving DecidableEq, Repr

inductive RefreshEvent where
  | enqueued (channelID : Int)
  | started (nr : Nat) (channelID : Int)
  | finished (nr : Nat) (channelID : Int) (failed : Bool)

/-- The dispatcher, its goroutines that have not returned, and the history, latest event first. -/
structure CapabilityRefreshDispatcher where
  pending : Finset Int := ∅
  queue : List Int := []
  running : Bool := false
  workers : List RefreshWorker := []
  refreshes : Nat := 0
  history : List RefreshEvent := []

namespace CapabilityRefreshDispatcher

variable (d : CapabilityRefreshDispatcher)

def enqueue (channelID : Int) : CapabilityRefreshDispatcher :=
  if channelID ≤ 0 then d
  else
    let d := { d with history := .enqueued channelID :: d.history }
    if channelID ∈ d.pending then d
    else
      let d := { d with pending := insert channelID d.pending, queue := d.queue ++ [channelID] }
      if d.running then d
      else { d with running := true, workers := .looping :: d.workers }

/-- The head of the loop of `run`. A worker that finds the queue empty returns. -/
def takeNext (worker : Nat) : CapabilityRefreshDispatcher :=
  match d.queue with
  | [] => { d with running := false, workers := d.workers.eraseIdx worker }
  | channelID :: queue =>
    { d with queue := queue, pending := d.pending.erase channelID
             workers := d.workers.set worker (.refreshing d.refreshes channelID)
             refreshes := d.refreshes + 1
             history := .started d.refreshes channelID :: d.history }

/-- The refresh function returns, with an error or without. The error only goes
to `onError`. -/
def refreshed (worker nr : Nat) (channelID : Int) (failed : Bool) : CapabilityRefreshDispatcher :=
  { d with workers := d.workers.set worker .looping
           history := .finished nr channelID failed :: d.history }

def idle : Bool :=
  !d.running && d.queue.isEmpty && d.pending = ∅

end CapabilityRefreshDispatcher

/-- A call of `enqueue`, or the next step of a worker, with the outcome if it is in a refresh. -/
inductive DispatcherStep where
  | enqueue (channelID : Int)
  | work (worker : Nat) (failed : Bool)

def CapabilityRefreshDispatcher.step (d : CapabilityRefreshDispatcher) :
    DispatcherStep → CapabilityRefreshDispatcher
  | .enqueue channelID => d.enqueue channelID
  | .work worker failed =>
    match d.workers[worker]? with
    | none => d
    | some .looping => d.takeNext worker
    | some (.refreshing nr channelID) => d.refreshed worker nr channelID failed

end Ren2Hub.Routing
