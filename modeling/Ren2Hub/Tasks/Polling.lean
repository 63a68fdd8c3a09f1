import Mathlib.Data.Rat.Defs
import Ren2Hub.Billing.Calls

namespace Ren2Hub.Tasks.Polling
open Lib Billing

/-- `other` is any other text an upstream may send. -/
inductive TaskStatus where
  | notStart
  | submitted
  | queued
  | inProgress
  | failure
  | success
  | unknown
  | other (text : String)
deriving DecidableEq, Repr

namespace TaskStatus

def ofText : String → TaskStatus
  | "NOT_START" => .notStart
  | "SUBMITTED" => .submitted
  | "QUEUED" => .queued
  | "IN_PROGRESS" => .inProgress
  | "FAILURE" => .failure
  | "SUCCESS" => .success
  | "UNKNOWN" => .unknown
  | text => .other text

def text : TaskStatus → String
  | .notStart => "NOT_START"
  | .submitted => "SUBMITTED"
  | .queued => "QUEUED"
  | .inProgress => "IN_PROGRESS"
  | .failure => "FAILURE"
  | .success => "SUCCESS"
  | .unknown => "UNKNOWN"
  | .other text => text

/-- The statuses the polling queries select. -/
def unfinished (status : TaskStatus) : Bool := status ≠ .failure && status ≠ .success

end TaskStatus

inductive TaskPlatform where
  | midjourney
  | suno
  | other (name : String)
deriving DecidableEq, Repr

/-- The prices accepted at submission; `otherMultiplier` is the product of the other
ratios. -/
structure TaskBillingContext where
  groupRatio : Rat := 0
  modelRatio : Rat := 0
  otherMultiplier : Rat := 1
  perCallBilling : Bool := false
deriving DecidableEq, Repr

structure TaskPrivateData where
  key : String := ""
  channelKeyIndex : Int := 0
  upstreamTaskID : String := ""
  resultURL : String := ""
  billingSource : Source := .wallet
  subscriptionId : Int := 0
  tokenId : Int := 0
  billingContext : Option TaskBillingContext := none
deriving DecidableEq, Repr

structure Task where
  id : Nat := 0
  taskID : String := ""
  platform : TaskPlatform := .suno
  userId : Int := 0
  channelId : Int := 0
  quota : Int := 0
  action : String := ""
  status : TaskStatus := .notStart
  failReason : String := ""
  submitTime : Int := 0
  startTime : Int := 0
  finishTime : Int := 0
  progress : String := "0%"
  privateData : TaskPrivateData := {}
  data : String := ""
deriving DecidableEq, Repr, Inhabited

/-- 2026-02-22 00:00:00 UTC -/
def taskRefundLegacyCutoff : Int := 1771718400

namespace Task

def isLegacy (task : Task) : Bool :=
  decide (task.submitTime > 0) && decide (task.submitTime < taskRefundLegacyCutoff)

def getUpstreamTaskID (task : Task) : String :=
  if task.privateData.upstreamTaskID ≠ "" then task.privateData.upstreamTaskID else task.taskID

def snapshot (task : Task) : TaskStatus × String × Int × Int × String × String × String :=
  (task.status, task.progress, task.startTime, task.finishTime, task.failReason,
    task.privateData.resultURL, task.data)

end Task

def taskIsSubscription (task : Task) : Bool :=
  task.privateData.billingSource = .subscription && decide (task.privateData.subscriptionId > 0)

structure Channel where
  keys : List String
  disableTaskPollingSleep : Bool := false

def resolveTaskChannelKey (channel : Channel) (task : Task) : String :=
  if trimSpace task.privateData.key ≠ "" then trimSpace task.privateData.key
  else if task.privateData.channelKeyIndex < 0 then ""
  else
    match channel.keys[task.privateData.channelKeyIndex.toNat]? with
    | none => ""
    | some key => trimSpace key

structure SunoDataResponse where
  taskID : String
  status : String := ""
  failReason : String := ""
  submitTime : Int := 0
  startTime : Int := 0
  finishTime : Int := 0
  data : String := ""

/-- The result of a video task. `actualQuota` is what the adaptor makes of it once the
task is complete. -/
structure TaskInfo where
  status : String
  reason : String := ""
  url : String := ""
  progress : String := ""
  totalTokens : Int := 0
  actualQuota : Int := 0

def failTaskInfo (reason : String) : TaskInfo where
  status := "FAILURE"
  reason := reason

/-- What a body without a status says when it is read as an error. -/
inductive UpstreamError where
  | unreadable
  | rateLimited
  | other
  | unrecognized

/-- `answered` is a body that was parsed, redacted to `data`, at the time `now`. -/
inductive VideoAnswer where
  | failed
  | unparsed
  | answered (info : TaskInfo) (data : String) (error : UpstreamError) (now : Int)

/-- `none` leaves the task for the next pass. -/
def TaskInfo.resolve (info : TaskInfo) (error : UpstreamError) : Option TaskInfo :=
  if info.status ≠ "" then some info
  else
    match error with
    | .unreadable => some info
    | .rateLimited => none
    | .other => some (failTaskInfo "upstream returned error")
    | .unrecognized => some (failTaskInfo "upstream returned unrecognized message")

/-- Any order in which a map may be walked through. -/
structure Shuffle (α : Type) where
  order : List α → List α
  perm : ∀ l, (order l).Perm l

/-- The settings of the node. `actualQuota` rounds the product of tokens and ratios. -/
structure PollSite where
  taskTimeoutMinutes : Int := 1440
  taskQueryLimit : Nat := 1000
  serverAddress : String := ""
  wired : Bool := true
  hasAdaptor : TaskPlatform → Bool := fun _ => true
  actualQuota : Int → Rat → Rat → Rat → Int := fun _ _ _ _ => 0

/-- The times of one pass, the orders of its maps, its channels and their answers for Suno. -/
structure Upstream where
  startedAt : Int
  sweptAt : Int
  platforms : Shuffle TaskPlatform := ⟨fun l => l, fun _ => .refl _⟩
  channels : Shuffle (Int × List String) := ⟨fun l => l, fun _ => .refl _⟩
  channel : Int → Option Channel
  suno : Int → Option (List SunoDataResponse) := fun _ => none

structure TaskTable where
  rows : List Task := []
  distinct : (rows.map (·.id)).Nodup := by decide

namespace TaskTable

def find (table : TaskTable) (id : Nat) : Option Task := table.rows.find? (·.id = id)

/-- `UPDATE tasks SET f WHERE p`, where `f` leaves the key alone. -/
def update (table : TaskTable) (p : Task → Bool) (f : Task → Task) (hf : ∀ t, (f t).id = t.id) :
    TaskTable where
  rows := table.rows.map fun t => if p t then f t else t
  distinct := by
    have he : ((fun t : Task => t.id) ∘ fun t => if p t then f t else t) = fun t => t.id := by
      funext t
      simp only [Function.comp_apply]
      split
      · exact hf t
      · rfl
    rw [List.map_map, he]
    exact table.distinct

end TaskTable

/-- A pointer to a loaded task, and the key of its row. -/
structure TaskRef where
  addr : Nat
  id : Nat
deriving DecidableEq, Repr

/-- The tasks of one channel, for a goroutine of `UpdateVideoTasks`; `pass` waits for it. -/
structure ChannelJob where
  pass : Nat
  platform : TaskPlatform
  channelId : Int
  taskIds : List String
  taskM : List (String × TaskRef)
deriving DecidableEq, Repr

/-- Tables, what the passes have loaded, and the jobs of the pool. The rest is history that no code
reads: what accounts show was taken at funding source and token, quotas written on their own, tasks
that left the unfinished statuses, who used and who bills a loaded task. -/
structure PollState where
  tasks : TaskTable := {}
  memory : List Task := []
  accounts : Store
  queue : List ChannelJob := []
  running : List ChannelJob := []
  funding : List (Nat × Int) := []
  tokens : List (Nat × Int) := []
  quotas : List (Nat × Int) := []
  left : List Nat := []
  touched : List (Nat × Nat) := []
  billing : List (Nat × Nat) := []

namespace PollState

variable (s : PollState)

def object (addr : Nat) : Task := s.memory.getD addr default

def load (rows : List Task) : PollState × List (TaskRef × Task) :=
  ({ s with memory := s.memory ++ rows },
    rows.zipIdx.map fun x => (⟨s.memory.length + x.2, x.1.id⟩, x.1))

def getTimedOutUnfinishedTasks (cutoffUnix : Int) (limit : Nat) : List Task :=
  ((s.tasks.rows.filter fun t => t.progress ≠ "100%" && t.status.unfinished &&
    decide (t.submitTime < cutoffUnix)).insertionSort fun a b => a.submitTime ≤ b.submitTime).take
      limit

def getAllUnFinishSyncTasks (limit : Nat) : List Task :=
  ((s.tasks.rows.filter fun t => t.progress ≠ "100%" && t.status.unfinished).insertionSort
    fun a b => a.id ≤ b.id).take limit

/-- The rows that go from an unfinished status to a final one. -/
def leaving (table : TaskTable) : List Nat :=
  (s.tasks.rows.filter fun t => t.status.unfinished &&
    (table.find t.id).any fun t' => !t'.status.unfinished).map (·.id)

/-- A row whose status is the expected one takes all columns of the object. -/
def updateWithStatus (me addr : Nat) (fromStatus : TaskStatus) : PollState × Bool :=
  let task := s.object addr
  let hit := fun t : Task => t.id = task.id && t.status = fromStatus
  let table := s.tasks.update hit (fun t => { task with id := t.id }) fun _ => rfl
  ({ s with
      tasks := table
      left := s.leaving table ++ s.left
      billing := (s.leaving table).map (fun id => (id, me)) ++ s.billing },
    s.tasks.rows.any hit)

def updateQuota (addr : Nat) : PollState :=
  { s with
    tasks := s.tasks.update (·.id = (s.object addr).id)
      (fun t => { t with quota := (s.object addr).quota }) fun _ => rfl
    quotas := ((s.object addr).id, (s.object addr).quota) :: s.quotas }

/-- Unlike `updateWithStatus` it does not ask for a status. -/
def taskBulkUpdateByID (ids : List Nat) (failReason : Option String) : PollState :=
  let table := s.tasks.update (fun t => decide (t.id ∈ ids))
    (fun t => { t with
      status := .failure, progress := "100%", failReason := failReason.getD t.failReason })
    fun _ => rfl
  { s with tasks := table, left := s.leaving table ++ s.left }

/-- What the task has taken from its funding source, as far as the account shows it. -/
def taken (accounts : Store) (task : Task) : Int :=
  if taskIsSubscription task then
    ((accounts.subscriptions task.privateData.subscriptionId).map (·.amountUsed)).getD 0
  else -getUserQuota task.userId accounts

def taskAdjustFunding (task : Task) (delta : Int) : PollState × Bool :=
  let result :=
    if taskIsSubscription task then
      postConsumeUserSubscriptionDelta task.privateData.subscriptionId delta s.accounts
    else if delta > 0 then decreaseUserQuota task.userId delta s.accounts
    else increaseUserQuota task.userId (-delta) s.accounts
  match result with
  | .error _ => (s, false)
  | .ok accounts =>
    ({ s with
        accounts
        funding := (task.id, taken accounts task - taken s.accounts task) :: s.funding }, true)

/-- What was taken from the token of the task. -/
def takenToken (accounts : Store) (task : Task) : Int :=
  -((accounts.tokens task.privateData.tokenId).map (·.remainQuota)).getD 0

/-- The second half of `taskAdjustTokenQuota`, for a token that was found. -/
def adjustTokenQuota (task : Task) (delta : Int) : PollState :=
  let result :=
    if delta > 0 then decreaseTokenQuota task.privateData.tokenId delta s.accounts
    else increaseTokenQuota task.privateData.tokenId (-delta) s.accounts
  match result with
  | .error _ => s
  | .ok accounts =>
    { s with
      accounts
      tokens := (task.id, takenToken accounts task - takenToken s.accounts task) :: s.tokens }

end PollState

/-- Statements, uses of a loaded task and steps of the pool, each atomic. The process of a use and
`billed` are for the history only. -/
inductive PollCall where
  | checkContext
  | getTimedOutUnfinishedTasks (cutoffUnix : Int) (limit : Nat)
  | getAllUnFinishSyncTasks (limit : Nat)
  | read (me addr : Nat)
  | snapshot (me addr : Nat)
  | write (me addr : Nat) (task : Task)
  | updateWithStatus (me addr : Nat) (fromStatus : TaskStatus)
  | updateQuota (me addr : Nat)
  | taskBulkUpdateByID (ids : List Nat) (failReason : Option String)
  | taskAdjustFunding (me : Nat) (task : Task) (delta : Int)
  | getTokenById (tokenId : Int)
  | adjustTokenQuota (me : Nat) (task : Task) (delta : Int)
  | billed (me id : Nat)
  | fetchTask (channelId : Int) (ids : List String)
  | go (job : ChannelJob)
  | take
  | finish (job : ChannelJob)
  | wait (pass : Nat)

abbrev PollAnswer : PollCall → Type
  | .checkContext | .updateWithStatus .. | .taskAdjustFunding .. | .getTokenById _ => Bool
  | .getTimedOutUnfinishedTasks .. | .getAllUnFinishSyncTasks _ => List (TaskRef × Task)
  | .read .. | .snapshot .. => Task
  | .take => Option ChannelJob
  | _ => Unit

def PollCall.exec : (c : PollCall) → PollState → PollState × PollAnswer c
  | .checkContext, s => (s, true)
  | .getTimedOutUnfinishedTasks cutoffUnix limit, s =>
    s.load (s.getTimedOutUnfinishedTasks cutoffUnix limit)
  | .getAllUnFinishSyncTasks limit, s => s.load (s.getAllUnFinishSyncTasks limit)
  | .read me addr, s | .snapshot me addr, s =>
    ({ s with touched := (addr, me) :: s.touched }, s.object addr)
  | .write _ addr task, s => ({ s with memory := s.memory.set addr task }, ())
  | .updateWithStatus me addr fromStatus, s => s.updateWithStatus me addr fromStatus
  | .updateQuota _ addr, s => (s.updateQuota addr, ())
  | .taskBulkUpdateByID ids failReason, s => (s.taskBulkUpdateByID ids failReason, ())
  | .taskAdjustFunding _ task delta, s => s.taskAdjustFunding task delta
  | .getTokenById tokenId, s => (s, (s.accounts.tokens tokenId).isSome)
  | .adjustTokenQuota _ task delta, s => (s.adjustTokenQuota task delta, ())
  | .billed me id, s => ({ s with billing := s.billing.filter (· ≠ (id, me)) }, ())
  | .fetchTask .., s => (s, ())
  | .go job, s => ({ s with queue := s.queue ++ [job] }, ())
  | .take, s =>
    match s.queue with
    | [] => (s, none)
    | job :: queue => ({ s with queue, running := job :: s.running }, some job)
  | .finish job, s => ({ s with running := s.running.erase job }, ())
  | .wait _, s => (s, ())

def PollState.settled (s : PollState) (pass : Nat) : Bool :=
  (s.queue ++ s.running).all fun job => job.pass ≠ pass

/-- A worker waits for a job, a pass for its jobs. Contexts may be cancelled; statements do not
fail. -/
def pollMachine : Machine PollCall PollAnswer PollState where
  exec := PollCall.exec
  ready := fun c s =>
    match c with
    | .take => !s.queue.isEmpty
    | .wait pass => s.settled pass
    | _ => true
  fault := fun c =>
    match c with
    | .checkContext => some false
    | _ => none

abbrev Action (α : Type) := Program PollCall PollAnswer α

def ask (c : PollCall) : Action (PollAnswer c) := .call c .done

def taskAdjustTokenQuota (me : Nat) (task : Task) (delta : Int) : Action Unit := do
  if task.privateData.tokenId ≤ 0 ∨ delta = 0 then pure ()
  else
    match ← ask (.getTokenById task.privateData.tokenId) with
    | false => pure ()
    | true => ask (.adjustTokenQuota me task delta)

def refundTaskQuota (me addr : Nat) : Action Bool := do
  let task ← ask (.read me addr)
  if task.quota = 0 then pure true
  else
    match ← ask (.taskAdjustFunding me task (-task.quota)) with
    | false => pure false
    | true =>
      taskAdjustTokenQuota me task (-task.quota)
      let _ ← ask (.write me addr { task with quota := 0 })
      let _ ← ask (.updateQuota me addr)
      pure true

def recalculateTaskQuota (me addr : Nat) (actualQuota : Int) : Action Unit := do
  if actualQuota ≤ 0 then pure ()
  else
    let task ← ask (.read me addr)
    if actualQuota - task.quota = 0 then pure ()
    else
      match ← ask (.taskAdjustFunding me task (actualQuota - task.quota)) with
      | false => pure ()
      | true =>
        taskAdjustTokenQuota me task (actualQuota - task.quota)
        let _ ← ask (.write me addr { task with quota := actualQuota })
        ask (.updateQuota me addr)

section
variable (site : PollSite)

def recalculateTaskQuotaByTokens (me addr : Nat) (task : Task) (totalTokens : Int) : Action Unit :=
  match task.privateData.billingContext with
  | none => pure ()
  | some billing =>
    if billing.perCallBilling ∨ billing.modelRatio ≤ 0 then pure ()
    else recalculateTaskQuota me addr (site.actualQuota totalTokens billing.modelRatio
      billing.groupRatio billing.otherMultiplier)

def settleTaskBillingOnComplete (me addr : Nat) (info : TaskInfo) : Action Unit := do
  let task ← ask (.read me addr)
  if task.privateData.billingContext.any (·.perCallBilling) then pure ()
  else if info.actualQuota > 0 then recalculateTaskQuota me addr info.actualQuota
  else if info.totalTokens > 0 then
    recalculateTaskQuotaByTokens site me addr task info.totalTokens
  else pure ()

def Task.timedOut (task : Task) (now : Int) : Task :=
  { task with
    status := .failure
    progress := "100%"
    finishTime := now
    failReason :=
      if task.isLegacy then "任务超时（旧系统遗留任务，不进行退款，请联系管理员）"
      else "任务超时（" ++ toString site.taskTimeoutMinutes ++ "分钟）"
    quota := if task.isLegacy then 0 else task.quota }

variable (me : Nat)

def sweepTask (now : Int) (ref : TaskRef) : Action Unit := do
  let task ← ask (.snapshot me ref.addr)
  let _ ← ask (.write me ref.addr (task.timedOut site now))
  let won ← ask (.updateWithStatus me ref.addr task.status)
  if won = true ∧ task.isLegacy = false ∧ task.quota ≠ 0 then
    let _ ← refundTaskQuota me ref.addr
  ask (.billed me ref.id)

def sweepTasks (site : PollSite) (me : Nat) (now : Int) : List TaskRef → Action Unit
  | [] => pure ()
  | ref :: refs => do
    sweepTask site me now ref
    sweepTasks site me now refs

variable (up : Upstream)

def sweepTimedOutTasks : Action Unit := do
  if site.taskTimeoutMinutes ≤ 0 then pure ()
  else
    let tasks ← ask (.getTimedOutUnfinishedTasks (up.startedAt - site.taskTimeoutMinutes * 60) 100)
    sweepTasks site me up.sweptAt (tasks.map Prod.fst)

/-- The two bodies have the same bytes, in any order. -/
def sameBytes (a b : String) : Bool := decide (a.toByteArray.toList.Perm b.toByteArray.toList)

def taskNeedsUpdate (oldTask : Task) (newTask : SunoDataResponse) : Bool :=
  oldTask.submitTime ≠ newTask.submitTime || oldTask.startTime ≠ newTask.startTime ||
    oldTask.finishTime ≠ newTask.finishTime || oldTask.status.text ≠ newTask.status ||
    oldTask.failReason ≠ newTask.failReason ||
    (!oldTask.status.unfinished && oldTask.progress ≠ "100%") ||
    !sameBytes oldTask.data newTask.data

def SunoDataResponse.isFailure (item : SunoDataResponse) (task : Task) : Bool :=
  item.failReason ≠ "" ||
    (if item.status ≠ "" then TaskStatus.ofText item.status else task.status) = .failure

def Task.withSuno (task : Task) (item : SunoDataResponse) : Task :=
  let isFailure := item.isFailure task
  { task with
    status :=
      if isFailure then .failure
      else if item.status ≠ "" then .ofText item.status else task.status
    failReason := if item.failReason ≠ "" then item.failReason else task.failReason
    submitTime := if item.submitTime ≠ 0 then item.submitTime else task.submitTime
    startTime := if item.startTime ≠ 0 then item.startTime else task.startTime
    finishTime := if item.finishTime ≠ 0 then item.finishTime else task.finishTime
    progress := if isFailure ∨ item.status = "SUCCESS" then "100%" else task.progress
    data := item.data }

/-- One answer; `task` is looked up by the id in the answer. -/
def updateSunoTask (taskM : List (String × TaskRef)) (item : SunoDataResponse) : Action Unit :=
  match taskM.lookup item.taskID with
  | none => pure ()
  | some ref => do
    let task ← ask (.snapshot me ref.addr)
    if ¬ taskNeedsUpdate task item then pure ()
    else
      let _ ← ask (.write me ref.addr (task.withSuno item))
      let won ← ask (.updateWithStatus me ref.addr task.status)
      if won = true ∧ item.isFailure task = true ∧ task.status ≠ .failure ∧ task.quota ≠ 0 then
        let _ ← refundTaskQuota me ref.addr
      ask (.billed me ref.id)

def updateSunoItems (me : Nat) (taskM : List (String × TaskRef)) :
    List SunoDataResponse → Action Unit
  | [] => pure ()
  | item :: items => do
    if ¬ (← ask .checkContext) then pure ()
    else
      updateSunoTask me taskM item
      updateSunoItems me taskM items

def failedIDs (taskM : List (String × TaskRef)) (taskIds : List String) : List Nat :=
  taskIds.filterMap fun id => (taskM.lookup id).map (·.id)

/-- For one channel. -/
def updateSunoTasks (me : Nat) (channelId : Int) (taskIds : List String)
    (taskM : List (String × TaskRef)) : Action Unit := do
  if ¬ (← ask .checkContext) then pure ()
  else if taskIds = [] then pure ()
  else
    match up.channel channelId with
    | none =>
      ask (.taskBulkUpdateByID (failedIDs taskM taskIds)
        (some ("获取渠道信息失败，请联系管理员，渠道ID：" ++ toString channelId)))
    | some _ =>
      if ¬ site.hasAdaptor .suno then pure ()
      else
        let _ ← ask (.fetchTask channelId taskIds)
        match up.suno channelId with
        | none => pure ()
        | some items => updateSunoItems me taskM items

/-- For all channels, `UpdateSunoTasks`. -/
def updateSunoChannels (site : PollSite) (up : Upstream) (me : Nat)
    (taskM : List (String × TaskRef)) : List (Int × List String) → Action Unit
  | [] => pure ()
  | (channelId, taskIds) :: rest => do
    if ¬ (← ask .checkContext) then pure ()
    else
      updateSunoTasks site up me channelId taskIds taskM
      updateSunoChannels site up me taskM rest

def buildProxyURL (taskID : String) : String :=
  site.serverAddress ++ "/v1/videos/" ++ taskID ++ "/content"

def resultURL (task : Task) (url : String) : String :=
  if url.startsWith "data:" then buildProxyURL site task.taskID
  else if url ≠ "" then url
  else buildProxyURL site task.taskID

/-- `none` for a status that is not known. -/
def Task.withResult (task : Task) (info : TaskInfo) (now : Int) : Option Task :=
  let progressOr := fun progress : String => if info.progress ≠ "" then info.progress else progress
  match TaskStatus.ofText info.status with
  | .submitted => some { task with status := .submitted, progress := progressOr "10%" }
  | .queued => some { task with status := .queued, progress := progressOr "20%" }
  | .inProgress =>
    some { task with
      status := .inProgress, progress := progressOr "30%"
      startTime := if task.startTime = 0 then now else task.startTime }
  | .success =>
    some { task with
      status := .success, progress := progressOr "100%"
      finishTime := if task.finishTime = 0 then now else task.finishTime
      privateData := { task.privateData with resultURL := resultURL site task info.url } }
  | .failure =>
    some { task with
      status := .failure, progress := "100%"
      finishTime := if task.finishTime = 0 then now else task.finishTime
      failReason := info.reason }
  | _ => none

def billVideoTask (ref : TaskRef) (next : Task) (info : TaskInfo) : Action Unit := do
  if next.status = .success then settleTaskBillingOnComplete site me ref.addr info
  else if next.status = .failure ∧ next.quota ≠ 0 then
    let _ ← refundTaskQuota me ref.addr

/-- The end of `updateVideoSingleTask`; `snap` is the task before the answer. -/
def saveVideoTask (ref : TaskRef) (snap next : Task) (info : TaskInfo) : Action Unit := do
  if next.status.unfinished = false ∧ snap.status ≠ next.status then
    match ← ask (.updateWithStatus me ref.addr snap.status) with
    | false => pure ()
    | true => billVideoTask site me ref next info
  else if snap.snapshot ≠ next.snapshot then
    let _ ← ask (.updateWithStatus me ref.addr snap.status)
    billVideoTask site me ref next info
  else billVideoTask site me ref next info
  ask (.billed me ref.id)

def applyVideoAnswer (ref : TaskRef) (info : TaskInfo) (data : String)
    (error : UpstreamError) (now : Int) : Action Unit := do
  let snap ← ask (.snapshot me ref.addr)
  let task := { snap with data }
  match info.resolve error with
  | none => ask (.write me ref.addr task)
  | some info =>
    match task.withResult site info now with
    | none => ask (.write me ref.addr { task with status := .ofText info.status })
    | some next =>
      let _ ← ask (.write me ref.addr next)
      saveVideoTask site me ref snap next info

def updateVideoSingleTask (channelId : Int) (ch : Channel) (taskId : String)
    (taskM : List (String × TaskRef)) (answer : VideoAnswer) : Action Unit := do
  if ¬ (← ask .checkContext) then pure ()
  else
    match taskM.lookup taskId with
    | none => pure ()
    | some ref =>
      let task ← ask (.read me ref.addr)
      if resolveTaskChannelKey ch task = "" then pure ()
      else
        let _ ← ask (.fetchTask channelId [task.getUpstreamTaskID])
        match answer with
        | .failed | .unparsed => pure ()
        | .answered info data error now => applyVideoAnswer site me ref info data error now

/-- The loop over the tasks of a channel, with a pause that ends early when the context
does. -/
def updateVideoLoop (site : PollSite) (me : Nat) (channelId : Int) (ch : Channel)
    (taskM : List (String × TaskRef)) (answers : Nat → VideoAnswer) :
    Nat → List String → Action Unit
  | _, [] => pure ()
  | i, taskId :: rest => do
    if ¬ (← ask .checkContext) then pure ()
    else
      updateVideoSingleTask site me channelId ch taskId taskM (answers i)
      if ch.disableTaskPollingSleep = true ∨ rest = [] then
        updateVideoLoop site me channelId ch taskM answers (i + 1) rest
      else if ¬ (← ask .checkContext) then pure ()
      else updateVideoLoop site me channelId ch taskM answers (i + 1) rest

def updateVideoTasks (channel : Int → Option Channel) (answers : Nat → VideoAnswer)
    (job : ChannelJob) : Action Unit := do
  if ¬ (← ask .checkContext) then pure ()
  else if job.taskIds = [] then pure ()
  else
    match channel job.channelId with
    | none =>
      ask (.taskBulkUpdateByID (failedIDs job.taskM job.taskIds)
        (some ("Failed to get channel info, channel ID: " ++ toString job.channelId)))
    | some ch =>
      if ¬ site.hasAdaptor job.platform then pure ()
      else updateVideoLoop site me job.channelId ch job.taskM answers 0 job.taskIds

def worker (channel : Int → Option Channel) (answers : Nat → VideoAnswer) : Action Unit := do
  match ← ask .take with
  | none => pure ()
  | some job =>
    updateVideoTasks site me channel answers job
    ask (.finish job)

def goChannels (me : Nat) (platform : TaskPlatform) (taskM : List (String × TaskRef)) :
    List (Int × List String) → Action Unit
  | [] => pure ()
  | (channelId, taskIds) :: rest => do
    if taskIds = [] then goChannels me platform taskM rest
    else
      let _ ← ask (.go { pass := me, platform, channelId, taskIds, taskM })
      goChannels me platform taskM rest

/-- For all channels, `UpdateVideoTasks`. -/
def updateVideoChannels (platform : TaskPlatform) (taskChannelM : List (Int × List String))
    (taskM : List (String × TaskRef)) : Action Unit := do
  goChannels me platform taskM (taskChannelM.insertionSort fun a b => a.1 ≤ b.1)
  ask (.wait me)

def dispatchPlatformUpdate (me : Nat) (platform : TaskPlatform)
    (taskChannelM : List (Int × List String)) (taskM : List (String × TaskRef)) : Action Unit :=
  match platform with
  | .midjourney => pure ()
  | .suno => updateSunoChannels site up me taskM (up.channels.order taskChannelM)
  | .other _ => updateVideoChannels me platform taskChannelM taskM

/-- `taskChannelM[channelId] = append(taskChannelM[channelId], upstreamID)` -/
def appendTask : List (Int × List String) → Int → String → List (Int × List String)
  | [], channelId, upstreamID => [(channelId, [upstreamID])]
  | (c, ids) :: rest, channelId, upstreamID =>
    if c = channelId then (c, ids ++ [upstreamID]) :: rest
    else (c, ids) :: appendTask rest channelId upstreamID

/-- The maps of a platform and the tasks without an upstream id. A later task replaces one in
`taskM`. -/
structure Grouping where
  taskChannelM : List (Int × List String) := []
  taskM : List (String × TaskRef) := []
  nullTaskIds : List Nat := []

def Grouping.add (g : Grouping) (x : TaskRef × Task) : Grouping :=
  if x.2.getUpstreamTaskID = "" then { g with nullTaskIds := g.nullTaskIds ++ [x.2.id] }
  else
    { g with
      taskM := (x.2.getUpstreamTaskID, x.1) :: g.taskM
      taskChannelM := appendTask g.taskChannelM x.2.channelId x.2.getUpstreamTaskID }

def grouping (tasks : List (TaskRef × Task)) : Grouping := tasks.foldl Grouping.add {}

structure TaskPollSummary where
  unfinishedTasks : Nat := 0
  platformsScanned : Nat := 0
  nullTasksFailed : Nat := 0

def pollPlatform (me : Nat) (platform : TaskPlatform) (g : Grouping) : Action Unit := do
  if g.nullTaskIds ≠ [] then
    let _ ← ask (.taskBulkUpdateByID g.nullTaskIds none)
  if g.taskChannelM ≠ [] then
    dispatchPlatformUpdate site up me platform g.taskChannelM g.taskM

def pollPlatforms (site : PollSite) (up : Upstream) (me : Nat) (allTasks : List (TaskRef × Task)) :
    List TaskPlatform → TaskPollSummary → Action TaskPollSummary
  | [], summary => pure summary
  | platform :: rest, summary => do
    if ¬ (← ask .checkContext) then pure summary
    else
      let g := grouping (allTasks.filter fun x => x.2.platform = platform)
      pollPlatform site up me platform g
      pollPlatforms site up me allTasks rest
        { summary with
          platformsScanned := summary.platformsScanned + 1
          nullTasksFailed := summary.nullTasksFailed + g.nullTaskIds.length }

def runTaskPollingOnce (me : Nat) : Action TaskPollSummary := do
  if ¬ site.wired then pure {}
  else
    sweepTimedOutTasks site me up
    let allTasks ← ask (.getAllUnFinishSyncTasks site.taskQueryLimit)
    pollPlatforms site up me allTasks
      (up.platforms.order (allTasks.map (·.2.platform)).dedup)
      { unfinishedTasks := allTasks.length }

end

/-- A pass of some node, or a goroutine of its pool with the channels it knows and the
answers it gets. -/
inductive PollJob where
  | pass (site : PollSite) (up : Upstream)
  | worker (site : PollSite) (channel : Int → Option Channel) (answers : Nat → VideoAnswer)

def PollJob.program (me : Nat) : PollJob → Action Unit
  | .pass site up => do
    let _ ← runTaskPollingOnce site up me
  | .worker site channel answers => Polling.worker site me channel answers

def beginning (tasks : TaskTable) (accounts : Store) (jobs : List PollJob) :
    Config PollCall PollAnswer PollState :=
  ⟨{ tasks, accounts }, jobs.mapIdx PollJob.program⟩

end Ren2Hub.Tasks.Polling
