import Ren2Hub.Lib.Crew

namespace Ren2Hub.Tasks
open Lib

inductive SystemTaskStatus where
  | pending
  | running
  | succeeded
  | failed
deriving DecidableEq, Repr

def SystemTaskStatus.final : SystemTaskStatus → Bool
  | .succeeded | .failed => true
  | .pending | .running => false

/-- A row of `system_tasks`. `ranAt` is when the row was marked running; no code
reads it. -/
structure SystemTask where
  id : Nat
  taskID : String
  type : String
  status : SystemTaskStatus := .pending
  activeKey : Option String := none
  payload : String := ""
  state : String := ""
  result : String := ""
  error : String := ""
  lockedBy : String := ""
  createdAt : Int := 0
  updatedAt : Int := 0
  ranAt : Int := 0
deriving DecidableEq, Repr

structure SystemTaskLock where
  type : String
  taskID : String
  lockedBy : String
  lockedUntil : Int
  updatedAt : Int

structure TaskState where
  now : Int := 0
  tasks : List SystemTask := []
  locks : List SystemTaskLock := []

namespace TaskState

variable (s : TaskState)

/-- `UPDATE system_tasks SET f WHERE p` -/
def updateTasks (p : SystemTask → Bool) (f : SystemTask → SystemTask) : TaskState :=
  { s with tasks := s.tasks.map fun t => if p t then f t else t }

/-- `UPDATE system_task_locks SET f WHERE p` -/
def updateLocks (p : SystemTaskLock → Bool) (f : SystemTaskLock → SystemTaskLock) : TaskState :=
  { s with locks := s.locks.map fun l => if p l then f l else l }

/-- `DELETE FROM system_task_locks WHERE p` -/
def deleteLocks (p : SystemTaskLock → Bool) : TaskState :=
  { s with locks := s.locks.filter fun l => !p l }

def generateSystemTaskID (key : String) : String := "systask_" ++ key

/-- `active_key` and `task_id` are unique, and the type is the key of an active row. -/
def createSystemTask (taskType key payload state : String) : TaskState :=
  if s.tasks.any fun t => t.activeKey = some taskType ∨ t.taskID = generateSystemTaskID key then s
  else
    { s with
      tasks := s.tasks ++
        [{ id := s.tasks.length + 1, taskID := generateSystemTaskID key, type := taskType
           activeKey := some taskType, payload, state, createdAt := s.now, updatedAt := s.now }] }

/-- The runner has the lock of this task, and its time is not over. -/
def lockHeld (lockedBy : String) (t : SystemTask) : Bool :=
  s.locks.any fun l =>
    l.taskID = t.taskID && l.lockedBy = lockedBy && decide (l.lockedUntil ≥ s.now)

/-- The rows a state update or a finish may write. -/
def writable (taskID lockedBy : String) (t : SystemTask) : Bool :=
  t.taskID = taskID && t.status = .running && t.lockedBy = lockedBy && s.lockHeld lockedBy t

/-- Whether the lock was not lost, and the tables. -/
def updateSystemTaskState (taskID lockedBy state : String) : Bool × TaskState :=
  (s.tasks.any (s.writable taskID lockedBy),
    s.updateTasks (s.writable taskID lockedBy) fun t => { t with state, updatedAt := s.now })

def renewSystemTaskLock (taskID lockedBy : String) (lockUntil : Int) : TaskState :=
  s.updateLocks
    (fun l => l.taskID = taskID && l.lockedBy = lockedBy && decide (l.lockedUntil ≥ s.now))
    fun l => { l with lockedUntil := lockUntil, updatedAt := s.now }

def markSystemTaskLeaseExpired (taskID : String) : TaskState :=
  s.updateTasks (fun t => t.taskID = taskID && t.status = .running) fun t =>
    { t with
      status := .failed, activeKey := none, error := "task lease expired", updatedAt := s.now }

def releaseSystemTaskLock (taskID lockedBy : String) : TaskState :=
  s.deleteLocks fun l => l.taskID = taskID && l.lockedBy = lockedBy

def finishSystemTask (taskID lockedBy : String) (status : SystemTaskStatus)
    (result error : String) : Bool × TaskState :=
  (s.tasks.any (s.writable taskID lockedBy),
    s.updateTasks (s.writable taskID lockedBy) fun t =>
      { t with status, activeKey := none, result, error, updatedAt := s.now })

/-- Whether a row is the one a claim is for, and still pending. -/
def claimable (id : Nat) (taskType : String) (t : SystemTask) : Bool :=
  t.id = id && t.type = taskType && t.status = .pending

/-- Unlike a state update or a finish it does not ask for the lock. -/
def markRunning (id : Nat) (taskType runnerID : String) (now : Int) : TaskState :=
  s.updateTasks (claimable id taskType) fun t =>
    { t with status := .running, lockedBy := runnerID, updatedAt := now, ranAt := s.now }

end TaskState

structure Claim where
  id : Nat
  taskType : String
  runnerID : String
  lockUntil : Int
  now : Int
  taskID : String

/-- Where a call stands. The stages of a claim that holds a lock are `expiring` to
`loading`. -/
inductive Job where
  | reading (id : Nat) (taskType runnerID : String) (lockUntil now : Int)
  | creating (c : Claim)
  | lookingUp (c : Claim)
  | takingOver (c : Claim) (old : String)
  | expiring (c : Claim) (old : String)
  | updating (c : Claim)
  | releasing (c : Claim)
  | loading (c : Claim)
  | finishing (taskID lockedBy : String)
  | expireLoading (now : Int)
  | expireMarking (now : Int) (locks : List SystemTaskLock)
  | expireDeleting (now : Int) (lock : SystemTaskLock) (rest : List SystemTaskLock)
  | finished

namespace Job

def inClaim : Job → Bool
  | .reading .. | .creating _ | .lookingUp _ | .takingOver .. | .expiring .. | .updating _
  | .releasing _ | .loading _ => true
  | _ => false

def lockRow (c : Claim) : SystemTaskLock where
  type := c.taskType
  taskID := c.taskID
  lockedBy := c.runnerID
  lockedUntil := c.lockUntil
  updatedAt := c.now

def stale (c : Claim) (l : SystemTaskLock) : Bool :=
  l.type = c.taskType && decide (l.lockedUntil < c.now)

/-- One statement of a call; `fails` is an error of the database, which has then done
nothing. -/
def step (fails : Bool) (j : Job) (s : TaskState) : TaskState × Job :=
  match j with
  | .reading id taskType runnerID lockUntil now =>
    match if fails then none else s.tasks.find? (TaskState.claimable id taskType) with
    | none => (s, .finished)
    | some t =>
      (s, .creating { id, taskType, runnerID, lockUntil, now, taskID := t.taskID })
  | .creating c =>
    -- Any error of the insert counts as a row that is already there.
    if fails ∨ s.locks.any (fun l => l.type = c.taskType) then (s, .lookingUp c)
    else ({ s with locks := s.locks ++ [lockRow c] }, .updating c)
  | .lookingUp c =>
    match if fails then none else s.locks.find? (fun l => l.type = c.taskType) with
    | none => (s, .finished)
    | some l => if l.lockedUntil ≥ c.now then (s, .finished) else (s, .takingOver c l.taskID)
  | .takingOver c old =>
    if fails ∨ ¬ s.locks.any (stale c) then (s, .finished)
    else
      (s.updateLocks (stale c) fun _ => lockRow c,
        if old ≠ "" ∧ old ≠ c.taskID then .expiring c old else .updating c)
  | .expiring c old =>
    if fails then (s, .releasing c) else (s.markSystemTaskLeaseExpired old, .updating c)
  | .updating c =>
    if fails ∨ ¬ s.tasks.any (TaskState.claimable c.id c.taskType) then (s, .releasing c)
    else (s.markRunning c.id c.taskType c.runnerID c.now, .loading c)
  | .releasing c =>
    (if fails then s else s.releaseSystemTaskLock c.taskID c.runnerID, .finished)
  | .loading _ => (s, .finished)
  | .finishing taskID lockedBy =>
    (if fails then s else s.releaseSystemTaskLock taskID lockedBy, .finished)
  | .expireLoading now =>
    if fails then (s, .finished)
    else (s, .expireMarking now (s.locks.filter fun l => l.lockedUntil < now))
  | .expireMarking _ [] => (s, .finished)
  | .expireMarking now (l :: rest) =>
    if fails then (s, .finished)
    else (s.markSystemTaskLeaseExpired l.taskID, .expireDeleting now l rest)
  | .expireDeleting now l rest =>
    if fails then (s, .finished)
    else
      (s.deleteLocks fun k => k.type = l.type && k.taskID = l.taskID && k.lockedBy = l.lockedBy &&
        decide (k.lockedUntil < now), .expireMarking now rest)
  | .finished => (s, .finished)

end Job

abbrev World := Crew TaskState Job

/-- Calls of one statement happen at once, the others start a job. -/
inductive Event where
  | create (taskType key payload state : String)
  | claim (id : Nat) (taskType runnerID : String) (lockUntil : Int)
  | renew (taskID lockedBy : String) (lockUntil : Int)
  | updateState (taskID lockedBy state : String)
  | finish (taskID lockedBy : String) (status : SystemTaskStatus) (result error : String)
  | release (taskID lockedBy : String)
  | expireStale
  | step (job : Nat) (fails : Bool)
  | pass (seconds : Nat)

namespace World

def on (w : World) : Event → World
  | .create taskType key payload state =>
    { w with state := w.state.createSystemTask taskType key payload state }
  | .claim id taskType runnerID lockUntil =>
    w.join (.reading id taskType runnerID lockUntil w.state.now)
  | .renew taskID lockedBy lockUntil =>
    { w with state := w.state.renewSystemTaskLock taskID lockedBy lockUntil }
  | .updateState taskID lockedBy state =>
    { w with state := (w.state.updateSystemTaskState taskID lockedBy state).2 }
  | .finish taskID lockedBy status result error =>
    let r := w.state.finishSystemTask taskID lockedBy status result error
    if r.1 then Crew.join { w with state := r.2 } (.finishing taskID lockedBy) else w
  | .release taskID lockedBy =>
    { w with state := w.state.releaseSystemTaskLock taskID lockedBy }
  | .expireStale => w.join (.expireLoading w.state.now)
  | .step i fails => Crew.step (Job.step fails) w i
  | .pass seconds => { w with state := { w.state with now := w.state.now + seconds } }

def run (w : World) (events : List Event) : World := events.foldl on w

def noClaim (w : World) : Bool := w.jobs.all fun j => !j.inClaim

end World

end Ren2Hub.Tasks
