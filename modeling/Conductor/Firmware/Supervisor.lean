import Conductor.Api.Wire
import Conductor.Lib.KeyTable
import Conductor.Lib.Runs
import Mathlib.Algebra.Order.Ring.Int

/-! `FirmwareSupervisor` of `firmware_control.py`, its clients and its workers as threads of sections. A
section holds `lock` from its beginning to its end, so that a thread is between two sections when another
one runs. A process can die at any point: within a section it has then made some of its writes, which is
what the section does when the other ones raise, and a restart follows. -/

namespace Conductor.Firmware

open Api KeyTable

/-! ### Records -/

inductive Action where
  | update
  | rollback
  deriving DecidableEq

def Action.ofName : String → Option Action
  | "update" => some .update
  | "rollback" => some .rollback
  | _ => none

inductive TaskStatus where
  | accepted
  | running
  | failed
  | succeeded

def TaskStatus.terminal : TaskStatus → Bool
  | .accepted => false
  | .running => false
  | .failed => true
  | .succeeded => true

structure Record where
  id : String
  action : Action
  targetCommit : String
  status : TaskStatus
  message : String
  startedAt : ℤ
  finishedAt : Option ℤ

/-- `COMMIT`. -/
def validCommit (text : String) : Bool := fullmatch (List.replicate 40 isHex) text.toList

def validTime (t : ℤ) : Bool := 0 ≤ t && t ≤ 2 ^ 63 - 1

/-- `_validate_task_record`. -/
def Record.valid (r : Record) (expectedKey : Option String) : Bool :=
  uuidV4 r.id && expectedKey.all (r.id = ·) && validCommit r.targetCommit && 1 ≤ r.message.length &&
    r.message.length ≤ 4096 && validTime r.startedAt &&
    match r.status.terminal, r.finishedAt with
    | false, finishedAt => finishedAt = none
    | true, some finishedAt => validTime finishedAt
    | true, none => false

def Record.finish (r : Record) (status : TaskStatus) (message : String) (now : ℤ) : Record :=
  { r with status := status, message := message, finishedAt := some now }

def Record.run (r : Record) : Record := { r with status := .running, message := "正在下载、校验并安装；设备服务将自动重启" }

structure FirmwareError where
  code : String
  message : String
  status : ℕ

def invalidRequest : FirmwareError := ⟨"invalid_request", "更新请求无效", 400⟩

def stateUnavailable (message : String) : FirmwareError := ⟨"update_state_unavailable", message, 503⟩

def updateBusy : FirmwareError := ⟨"update_busy", "已有更新任务正在执行", 409⟩

def idempotencyConflict : FirmwareError := ⟨"idempotency_conflict", "该请求标识已用于不同任务", 409⟩

def updateStartFailed : FirmwareError := ⟨"update_start_failed", "更新任务未能启动，请稍后重试", 503⟩

/-- What a call raises; the second is an exception that is no `Exception`. -/
inductive Raised where
  | error (error : FirmwareError)
  | cancelled

structure Request where
  action : Action
  key : String
  commit : String

/-! ### The state -/

/-- The files `task.json` and `receipts/<key>.json`. -/
structure Disk where
  task : Option Record
  receipts : List (String × Record)

/-- What the threads share: the files, the fields of the supervisor and `start_lock`, by its holder. The last four
are history: the thread that calls `on_success`, the keys that this process admitted, the keys whose runner was
started, and those whose receipt was pruned. -/
structure Shared where
  disk : Disk
  task : Option Record
  worker : Option ℕ
  taskSavePending : Bool
  successNotificationPending : Bool
  callbackActive : Bool
  taskLoadPending : Bool
  startLock : Option ℕ
  caller : Option ℕ
  admitted : List String
  runs : List String
  pruned : List String

/-- `atomic_json`: it may raise before it replaces the file, or after it. -/
inductive Write where
  | written
  | lost
  | late

/-- The two writes of `_save_task`, and the receipts that are old enough to be pruned. -/
structure Save where
  task : Write
  receipt : Write
  old : List String

inductive Callback where
  | returns
  | raises
  | cancelled

/-- `Thread.start`: it may raise with the thread created. -/
inductive Started where
  | started
  | failed
  | failedCreated

/-- What a section gets from outside; each reads its part. -/
structure Choice where
  now : ℤ
  readable : Bool
  receiptReadable : Bool
  restored : Save
  saved : Save
  again : Save
  receipt : Write
  started : Started
  cancelled : Bool
  callback : Callback
  refusal : Option FirmwareError
  succeeds : Bool

namespace Shared

def putTask (s : Shared) (r : Record) : Shared := { s with disk := { s.disk with task := some r } }

def putReceipt (s : Shared) (r : Record) : Shared :=
  { s with disk := { s.disk with receipts := insertOrReplace s.disk.receipts (r.id, r) } }

/-- The old receipts, the task's own apart. -/
def prune (s : Shared) (t : Record) (old : List String) : Shared :=
  let keys := old.filter fun key => key ≠ t.id && (s.disk.receipts.lookup key).isSome
  { s with disk := { s.disk with receipts := keys.foldl delete s.disk.receipts }, pruned := s.pruned ++ keys }

/-- `_save_task` of a task, and whether it returns. -/
def saveRecord (s : Shared) (t : Record) (w : Save) : Bool × Shared :=
  let s := { s with taskSavePending := true }
  match w.task with
  | .lost => (false, s)
  | .late => (false, s.putTask t)
  | .written =>
    let s := s.putTask t
    match w.receipt with
    | .lost => (false, s)
    | .late => (false, s.putReceipt t)
    | .written => (true, { (s.putReceipt t).prune t w.old with taskSavePending := false })

/-- `_save_task`. -/
def saveTask (s : Shared) (w : Save) : Bool × Shared :=
  match s.task with
  | none => (false, s)
  | some t => s.saveRecord t w

/-- `_finish_task`. -/
def finishTask (s : Shared) (status : TaskStatus) (message : String) (now : ℤ) : Shared :=
  { s with task := s.task.map (·.finish status message now), taskSavePending := true }

/-- `_execute` sets the status. -/
def runTask (s : Shared) : Shared := { s with task := s.task.map Record.run }

/-- `_read_task_record` of `task.json`; `none` says that it raises. -/
def readTask (s : Shared) (allowMissing readable : Bool) : Option (Option Record) :=
  if !readable then none
  else
    match s.disk.task with
    | none => if allowMissing then some none else none
    | some r => if r.valid none then some (some r) else none

/-- `_restore_task_state`. -/
def restoreTaskState (s : Shared) (allowMissing : Bool) (c : Choice) : Bool × Shared :=
  match s.readTask allowMissing c.readable with
  | none => (false, { s with taskLoadPending := true })
  | some none => (true, { s with taskLoadPending := false })
  | some (some t) =>
    let s := { s with taskLoadPending := false, task := some t }
    let s := if t.status.terminal then s else s.finishTask .failed "更新服务曾中断，请检查当前版本后重试" c.now
    (true, ({ s with taskSavePending := true }.saveTask c.restored).2)

/-- The first section of `_repair_task_state`, and whether `on_success` is called next. -/
def repair (s : Shared) (i : ℕ) (c : Choice) : Bool × Shared :=
  let (loaded, s) := if s.taskLoadPending then s.restoreTaskState false c else (true, s)
  if !loaded then (false, s)
  else
    let (saved, s) := if s.taskSavePending then s.saveTask c.saved else (true, s)
    if !saved then (false, s)
    else if !s.successNotificationPending || s.callbackActive then (false, s)
    else (true, { s with callbackActive := true, successNotificationPending := false, caller := some i })

/-- `_check_task_identity`. -/
def checkTaskIdentity (t : Record) (r : Request) : Bool := t.action = r.action && t.targetCommit = r.commit

/-- The first section of `start`: a record, or no answer yet. -/
def admission (s : Shared) (r : Request) (c : Choice) : Except FirmwareError (Option Record) × Shared :=
  if s.taskLoadPending then (.error (stateUnavailable "更新任务状态尚未恢复，请检查状态文件"), s)
  else
    match s.task.filter (·.id = r.key) with
    | some t => (if checkTaskIdentity t r then .ok (some t) else .error idempotencyConflict, s)
    | none =>
      if !c.receiptReadable then (.error (stateUnavailable "更新任务回执无法读取或校验，请检查状态文件"), s)
      else
        match s.disk.receipts.lookup r.key with
        | some old =>
          if !old.valid (some r.key) then (.error (stateUnavailable "更新任务回执无法读取或校验，请检查状态文件"), s)
          else if !checkTaskIdentity old r then (.error idempotencyConflict, s)
          else if old.status.terminal then (.ok (some old), s)
          else
            -- nobody owns this task any more
            let old := old.finish .failed "更新任务曾中断，请检查当前版本后重试" c.now
            match c.receipt with
            | .written => (.ok (some old), s.putReceipt old)
            | .lost => (.error (stateUnavailable "更新任务回执尚未恢复，请检查存储"), s)
            | .late => (.error (stateUnavailable "更新任务回执尚未恢复，请检查存储"), s.putReceipt old)
        | none =>
          if s.taskSavePending || s.successNotificationPending then
            (.error (stateUnavailable "更新任务状态尚未恢复，请稍后重试"), s)
          else if s.worker.isSome || s.callbackActive then (.error updateBusy, s)
          else (.ok none, s)

end Shared

/-- The record of an accepted request. -/
def Request.record (r : Request) (now : ℤ) : Record := ⟨r.key, r.action, r.commit, .accepted, "更新任务已接收", now, none⟩

/-! ### Threads -/

/-- What a thread does behind `_repair_task_state`: `status` and `check` are over, `start` goes on before or behind
its first section, and a worker ends. -/
inductive After where
  | status
  | admission (request : Request)
  | checked (request : Request)
  | worker

/-- Where a thread is in `_repair_task_state`. -/
inductive Repair where
  | enter
  | calling
  | raised (cancelled : Bool)
  | leaving (cancelled : Bool)

/-- Where a thread is: a client in a call, or a worker in `run_admitted`. -/
inductive Pc where
  | starting (request : Request)
  | repair (stage : Repair) (after : After)
  | admission (request : Request)
  | checks (request : Request)
  | checked (request : Request)
  | submission (request : Request)
  | gate (admitted : Bool)
  | executing
  | running (task : Record)
  | failing
  | succeeding
  | clearing (admitted : Bool)
  | refused (error : FirmwareError)
  | done (answer : Option (Request × Except Raised Record))

/-- A thread goes on behind the repair. -/
def After.next : After → Pc
  | .status => .done none
  | .admission r => .admission r
  | .checked r => .checked r
  | .worker => .clearing true

/-- A start answers and gives `start_lock` back. -/
def Shared.answer (s : Shared) (r : Request) (answer : Except Raised Record) : Shared × Pc × Option Pc :=
  ({ s with startLock := none }, .done (some (r, answer)), none)

/-- The exception of `on_success` leaves the repair. -/
def Shared.cancel (s : Shared) : After → Shared × Pc × Option Pc
  | .status => (s, .done none, none)
  | .admission r => s.answer r (.error .cancelled)
  | .checked r => s.answer r (.error .cancelled)
  | .worker => (s, .clearing true, none)

/-- The last section of `start`; `n` is the thread that it may create. -/
def Shared.submit (s : Shared) (r : Request) (n : ℕ) (c : Choice) : Shared × Pc × Option Pc :=
  let t := r.record c.now
  let (saved, s) := { s with task := some t }.saveTask c.saved
  let failed (s : Shared) (created : Option Pc) : Shared × Pc × Option Pc :=
    let s := { s with worker := none }.finishTask .failed "更新任务未能启动，请检查设备状态后重试" c.now
    let (s, pc, _) := (s.saveTask c.again).2.answer r (.error (if c.cancelled then .cancelled else .error updateStartFailed))
    (s, pc, created)
  if !saved then failed s none
  else
    match c.started with
    | .failed => failed s none
    | .failedCreated => failed s (some (.gate false))
    | .started =>
      let (s, pc, _) := { s with worker := some n, admitted := r.key :: s.admitted }.answer r (.ok t)
      (s, pc, some (.gate true))

/-- The next section of thread `i`, where `n` is the number of a new thread: what it leaves, where the thread is
then, and the thread it creates. -/
def Shared.advance (s : Shared) (i n : ℕ) (c : Choice) : Pc → Option (Shared × Pc × Option Pc)
  | .starting r => if s.startLock.isSome then none else some ({ s with startLock := some i }, .repair .enter (.admission r), none)
  | .repair .enter after =>
    let (calls, s) := s.repair i c
    some (s, if calls then .repair .calling after else after.next, none)
  | .repair .calling after =>
    match c.callback with
    | .returns => some (s, .repair (.leaving false) after, none)
    | .raises => some (s, .repair (.raised false) after, none)
    | .cancelled => some (s, .repair (.raised true) after, none)
  | .repair (.raised cancelled) after =>
    some ({ s with successNotificationPending := true }, .repair (.leaving cancelled) after, none)
  | .repair (.leaving cancelled) after =>
    let s := { s with callbackActive := false, caller := none }
    some (if cancelled then s.cancel after else (s, after.next, none))
  | .admission r =>
    match s.admission r c with
    | (.error error, s) => some (s.answer r (.error (.error error)))
    | (.ok (some t), s) => some (s.answer r (.ok t))
    | (.ok none, s) => some (s, .checks r, none)
  | .checks r =>
    match c.refusal, r.action with
    | some error, _ => some (s.answer r (.error (.error error)))
    | none, .update => some (s, .repair .enter (.checked r), none)
    | none, .rollback => some (s, .checked r, none)
  | .checked r =>
    match c.refusal with
    | some error => some (s.answer r (.error (.error error)))
    | none => some (s, .submission r, none)
  | .submission r => some (s.submit r n c)
  | .gate admitted => some (s, if admitted then .executing else .clearing false, none)
  | .executing =>
    let s := s.runTask
    match s.saveTask c.saved, s.task with
    | (true, s), some t => some ({ s with runs := s.runs ++ [t.id] }, .running t, none)
    | (_, s), _ => some (s, .failing, none)
  | .running _ => some (s, if c.succeeds then .succeeding else .failing, none)
  | .failing =>
    some (((s.finishTask .failed "更新未完成；请检查当前版本和设备存储后重试" c.now).saveTask c.saved).2, .clearing true, none)
  | .succeeding =>
    some ({ s.finishTask .succeeded "更新完成，设备服务已启动" c.now with successNotificationPending := true },
      .repair .enter .worker, none)
  | .clearing _ => some ({ s with worker := if s.worker = some i then none else s.worker }, .done none, none)
  | .refused _ => none
  | .done _ => none

/-! ### The system -/

structure System where
  shared : Shared
  threads : List Pc

inductive Act where
  /-- A client calls `status` or `check`. -/
  | status
  | start (action key commit : String)
  | step (thread : ℕ) (choice : Choice)
  | restart (choice : Choice)

/-- `__init__` on the files of an earlier process. -/
def Shared.boot (s : Shared) (c : Choice) : Shared :=
  let s := { s with
    task := none
    worker := none
    taskSavePending := false
    successNotificationPending := false
    callbackActive := false
    taskLoadPending := false
    startLock := none
    caller := none
    admitted := [] }
  (s.restoreTaskState true c).2

def step (s : System) : Act → Option System
  | .status => some { s with threads := s.threads ++ [.repair .enter .status] }
  | .start action key commit =>
    let pc :=
      match Action.ofName action with
      | some action =>
        if uuidV4 key && validCommit commit then .starting ⟨action, key, commit⟩ else .refused invalidRequest
      | none => .refused invalidRequest
    some { s with threads := s.threads ++ [pc] }
  | .step i c => do
    let pc ← s.threads[i]?
    let (shared, pc, created) ← s.shared.advance i s.threads.length c pc
    return ⟨shared, s.threads.set i pc ++ created.toList⟩
  | .restart c => some ⟨s.shared.boot c, []⟩

/-- The first process, with no files. -/
def System.init : System := ⟨⟨⟨none, []⟩, none, none, false, false, false, false, none, none, [], [], []⟩, []⟩

end Conductor.Firmware
