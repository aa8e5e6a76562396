import Conductor.Lib.KeyTable
import Conductor.Lib.Sections

/-! The state of `CaptureCoordinator` that its commands and workers share, the persistence of the
command receipts (`_persist_local_state`) and the commands that run once (`_idempotent`). The
volume is admitted and the service is not closing. Each section under the lock of the coordinator or
under the persistence lock is one step. -/

namespace Conductor.Coordinator

open KeyTable Sections

inductive Operation where
  | start
  | setCameraFocus
  | delete
  | stop
  deriving DecidableEq

structure Scope where
  principalId : String
  operation : Operation
  idempotencyKey : String
  deriving DecidableEq

/-- A session by its number in the order of the starts. The number stands for the session id, the
plan and the recorder. -/
abbrev Session := ℕ

/-- A capture status, of which only the revision, the device state and the active session are read,
or any other body. -/
inductive Body where
  | status (revision : ℕ) (idle : Bool) (active : Option Session)
  | other (content : String)
  deriving DecidableEq

structure Result where
  status : ℕ
  body : Option Body
  deriving DecidableEq

namespace Result

def noContent : Result := ⟨204, none⟩

def idle (r : Result) : Bool :=
  match r.body with
  | some (.status _ idle _) => idle
  | _ => false

def active (r : Result) : Option Session :=
  match r.body with
  | some (.status _ _ active) => active
  | _ => none

end Result

structure Reply where
  result : Result
  replayed : Bool

structure Command where
  principalId : String
  idempotencyKey : String
  canonicalBody : String
  reason : Option String

def Command.scope (command : Command) (operation : Operation) : Scope :=
  ⟨command.principalId, operation, command.idempotencyKey⟩

def Command.safeSwap (command : Command) : Bool := command.reason = some "safe_swap"

/-- A cached receipt. `call` is the number of the call that made it, if it was not restored from
the database; it is the identity of the tuple, since a call makes one receipt at most. `since` is the
number of the last snapshot before it. -/
structure Receipt where
  call : Option ℕ
  since : ℕ
  canonicalBody : String
  result : Result
  deriving DecidableEq

def Receipt.replay (r : Receipt) : Reply := ⟨r.result, true⟩

/-- `dict[scope, receipt]`, in the order of insertion. -/
abbrev Commands := List (Scope × Receipt)

/-- A row of the table of receipts: the canonical body and the result. -/
abbrev Row := String × Result

def Receipt.row (r : Receipt) : Row := (r.canonicalBody, r.result)

inductive Error where
  | provider (code : String)
  | recording (code : String)
  /-- `OSError`, `sqlite3.Error` or `PersistenceError`. -/
  | persistence
  | other

namespace Error

def captureBusy : Error := .provider "capture_busy"

def idempotencyConflict : Error := .provider "idempotency_conflict"

def commandReceiptInvalid : Error := .provider "command_receipt_invalid"

def captureStateChanged : Error := .provider "capture_state_changed"

end Error

/-- The acceptance in flight: its call, and the receipt that it cached. The code only tests whether
there is one. -/
structure Acceptance where
  call : ℕ
  cached : Option (Scope × Receipt)

/-- The receipts. `table` is what the database has; `executed` records which commands `_idempotent`
has executed, and `erased` that a receipt left the memory which was not the own receipt, not yet
durable, of the acceptance that was rolled back. -/
structure Receipts where
  commands : Commands
  persistedCommands : Commands
  table : List (Scope × Row)
  invalidCommands : List Scope := []
  stateWriteSequence : ℕ
  statePersistedSequence : ℕ
  stopAcceptanceInflight : Option Acceptance := none
  executed : List Scope := []
  erased : Bool := false

/-- A thread that was made and has not begun. -/
inductive Job where
  | stop (call : ℕ) (command : Command) (session : Session)
  | resume (call : ℕ) (session : Session)
  | failure (call : Option ℕ) (session : Session)

inductive Call where
  | startCapture (command : Command)
  | setCameraFocus (command : Command) (result : Result)
  | deleteSessions (command : Command) (result : Result)
  | requestStopCapture (command : Command)
  | stopCapture (command : Command)
  | enforceCaptureTimer
  | enforceStorageReserve
  /-- A failure that a source or the media monitor reports, deferred or not. -/
  | sourceFailure (deferRecovery : Bool)
  /-- `_recording_state_changed`, from a thread of the recorder. -/
  | recordingStateChanged

inductive Effect where
  | recorderStop
  | recorderFail
  | stopWorker

/-- What a call did to a session. -/
structure Act where
  call : ℕ
  effect : Effect
  session : Session

/-- What happened: the calls, with the number of sessions when they were entered, the session that
a stop took as its own, the one that a monitor saw, and what the stops did. -/
structure Log where
  calls : List (Call × ℕ) := []
  captured : List (ℕ × Session) := []
  observed : List (ℕ × Session) := []
  acts : List Act := []

/-- The other fields. `sessions` counts the sessions, and `ready` are the calls whose acceptance is
settled. -/
structure Flow where
  active : Option Session := none
  sessions : ℕ := 0
  captureTimer : Option Session := none
  recoverySession : Bool := false
  revision : ℕ := 0
  stopInflight : Option Scope := none
  asyncStopWorker : Option ℕ := none
  asyncStopReason : String := ""
  pendingStopStateCommit : Option Scope := none
  failureInflight : Option Session := none
  failurePendingCommit : Option Session := none
  failureProjection : Bool := false
  pendingSourceFailure : Bool := false
  pendingSafeSwap : Option Session := none
  pendingSafeSwapFailure : Bool := false
  safeSwapResource : Bool := false
  released : Bool := false
  ready : List ℕ := []
  jobs : List Job := []
  log : Log := {}

structure Shared where
  receipts : Receipts
  flow : Flow

/-- Outcomes of a section. -/
abbrev Outcomes (α : Type) := List (Except Error α × Shared)

abbrev Program (α : Type) := Proc Shared Error α

variable {α : Type}

def pass (a : α) (s : Shared) : Outcomes α := [(.ok a, s)]

def fail (e : Error) (s : Shared) : Outcomes α := [(.error e, s)]

/-- What follows a section's outcome within the section. -/
def thenDo {β : Type} (l : Outcomes α) (f : α → Shared → Outcomes β) : Outcomes β :=
  l.flatMap fun
    | (.ok a, s) => f a s
    | (.error e, s) => fail e s

variable {r : Except Error α × Shared}

theorem mem_pass {a : α} {s : Shared} : r ∈ pass a s ↔ r = (.ok a, s) :=
  List.mem_singleton

theorem mem_fail {e : Error} {s : Shared} : r ∈ fail e s ↔ r = (.error e, s) :=
  List.mem_singleton

theorem mem_thenDo {β : Type} {l : Outcomes α} {f : α → Shared → Outcomes β} {r : Except Error β × Shared} :
    r ∈ thenDo l f ↔ (∃ a t, (.ok a, t) ∈ l ∧ r ∈ f a t) ∨ ∃ e t, (.error e, t) ∈ l ∧ r = (.error e, t) := by
  rw [thenDo, List.mem_flatMap]
  constructor
  · rintro ⟨⟨o, t⟩, ht, hr⟩
    cases o with
    | ok a => exact .inl ⟨a, t, ht, hr⟩
    | error e => exact .inr ⟨e, t, ht, mem_fail.1 hr⟩
  · rintro (⟨a, t, ht, hr⟩ | ⟨e, t, ht, rfl⟩)
    · exact ⟨_, ht, hr⟩
    · exact ⟨_, ht, mem_fail.2 rfl⟩

def Shared.setFlow (s : Shared) (f : Flow → Flow) : Shared := { s with flow := f s.flow }

/-- A section that only reads. -/
def look (f : Shared → α) : Program α := .critical fun s => pass (f s) s

/-- A section that changes none of the receipts. -/
def change (f : Flow → Flow) : Program Unit := .update fun s => s.setFlow f

/-! ### The table of receipts -/

/-- `commands[scope] = receipt`. -/
def assign (commands : Commands) (scope : Scope) (receipt : Receipt) : Commands :=
  if (commands.lookup scope).isSome then commands.map fun c => if c.1 = scope then (scope, receipt) else c
  else commands ++ [(scope, receipt)]

/-- The oldest go until 1024 are left. -/
def evict (commands : Commands) : Commands := commands.drop (commands.length - 1024)

namespace Receipts

/-- The receipt that a call makes. -/
def receipt (rc : Receipts) (call : ℕ) (canonicalBody : String) (result : Result) : Receipt :=
  ⟨some call, rc.stateWriteSequence, canonicalBody, result⟩

/-- `_cache_command`. -/
def cacheCommand (rc : Receipts) (scope : Scope) (receipt : Receipt) : Receipts :=
  { rc with
    commands := evict (assign rc.commands scope receipt)
    erased := rc.erased || (rc.commands.lookup scope).isSome }

def persisted (rc : Receipts) (scope : Scope) (receipt : Receipt) : Bool :=
  rc.persistedCommands.lookup scope = some receipt

/-- A rollback to `old`, by the acceptance in flight. -/
def restore (rc : Receipts) (old : Commands) : Receipts :=
  let ownReceipt (c : Scope × Receipt) : Bool :=
    (rc.stopAcceptanceInflight.bind (·.cached)) = some c && !rc.persisted c.1 c.2
  { rc with
    commands := old
    erased := rc.erased || rc.commands.any fun c => old.lookup c.1 ≠ some c.2 && !ownReceipt c }

end Receipts

/-- `put_capture_state`, as far as the receipts go. -/
def putCaptureState (table : List (Scope × Row)) (persisted commands : Commands) : List (Scope × Row) :=
  let newCommands := commands.filter fun c => persisted.lookup c.1 ≠ some c.2
  let removed := (persisted.map (·.1)).filter fun scope => (commands.lookup scope).isNone
  (newCommands.map fun c => (c.1, c.2.row)).foldl insertOrReplace (removed.foldl delete table)

/-! ### `_persist_local_state` -/

/-- The snapshot that one write takes. -/
structure Write where
  sequence : ℕ
  commands : Commands
  pendingStop : Option Scope
  activeSession : Bool

/-- The section under the lock of the coordinator. -/
def localStateWrite (s : Shared) : Write × Shared :=
  let sequence := s.receipts.stateWriteSequence + 1
  (⟨sequence, s.receipts.commands, s.flow.pendingStopStateCommit, s.flow.active.isSome || s.flow.recoverySession⟩,
    { s with receipts := { s.receipts with stateWriteSequence := sequence } })

def Write.commit (w : Write) (s : Shared) : Shared where
  receipts :=
    { s.receipts with
      table := putCaptureState s.receipts.table s.receipts.persistedCommands w.commands
      persistedCommands := w.commands
      statePersistedSequence := w.sequence }
  flow :=
    if w.pendingStop.isSome && s.flow.pendingStopStateCommit = w.pendingStop && !w.activeSession then
      { s.flow with pendingStopStateCommit := none }
    else s.flow

/-- The section under the persistence lock. The write may fail. -/
def Write.outcomes (w : Write) (s : Shared) : Outcomes Unit :=
  if w.sequence ≤ s.receipts.statePersistedSequence then pass () s
  else pass () (w.commit s) ++ fail .persistence s

def persistLocalState : Program Unit := do
  let w ← .critical fun s => pass (localStateWrite s).1 (localStateWrite s).2
  .critical w.outcomes

/-- The same where the caller holds the lock of the coordinator. -/
def persistNow (s : Shared) : Outcomes Unit := (localStateWrite s).1.outcomes (localStateWrite s).2

/-- `_remember_command`. -/
def rememberCommand (call : ℕ) (scope : Scope) (command : Command) (result : Result) (s : Shared) : Outcomes Unit :=
  let receipt := s.receipts.receipt call command.canonicalBody result
  persistNow { s with receipts := s.receipts.cacheCommand scope receipt }

/-! ### `_idempotent` -/

def idempotent (call : ℕ) (operation : Operation) (command : Command) (execute : Shared → Outcomes Result)
    (s : Shared) : Outcomes Reply :=
  let scope := command.scope operation
  let rc := s.receipts
  let previous := rc.commands.lookup scope
  if scope ∈ rc.invalidCommands then fail .commandReceiptInvalid s
  else if (s.flow.stopInflight.isSome || s.flow.pendingStopStateCommit.isSome || rc.stopAcceptanceInflight.isSome) &&
      !previous.any (rc.persisted scope) then fail .captureBusy s
  else
    match previous with
    | some receipt =>
      if receipt.canonicalBody ≠ command.canonicalBody then fail .idempotencyConflict s
      else if rc.persisted scope receipt then pass receipt.replay s
      else thenDo (persistNow s) fun _ => pass receipt.replay
    | none =>
      if s.flow.failureInflight.isSome || s.flow.failureProjection || s.flow.asyncStopWorker.isSome then
        fail .captureBusy s
      else
        thenDo (execute s) fun result t =>
          let t := { t with receipts := { t.receipts with executed := t.receipts.executed ++ [scope] } }
          thenDo (rememberCommand call scope command result t) fun _ => pass ⟨result, false⟩

/-- `capture_status`; the recorder may have no state to show. -/
def captureStatus (flow : Flow) : List Body :=
  match flow.active with
  | none => [.status flow.revision true none]
  | some session => [.status flow.revision false (some session), .status flow.revision false none]

/-- `_start_capture`: refused, failed while it started, or started, with the timer set or not. The
recorder may persist the state while it starts. -/
def startCapture (s : Shared) : Outcomes Result :=
  if s.flow.active.isSome then fail .captureBusy s
  else
    let session := s.flow.sessions
    let begun := s.setFlow fun flow =>
      { flow with
        active := some session
        sessions := session + 1
        revision := flow.revision + 1
        pendingSourceFailure := false
        safeSwapResource := false
        pendingSafeSwap := none
        pendingSafeSwapFailure := false }
    let checkpointed := pass () begun ++ persistNow begun
    let abandoned (t : Shared) : Outcomes Result :=
      thenDo (persistNow (t.setFlow fun flow => { flow with active := none, captureTimer := none })) fun _ =>
        fail (.provider "source_start_failed")
    let started (t : Shared) : Outcomes Result :=
      [some session, none].flatMap fun timer =>
        let t := t.setFlow fun flow => { flow with captureTimer := timer }
        (captureStatus t.flow).map fun body => (.ok ⟨202, some body⟩, t)
    fail (.provider "start_refused") s ++
      checkpointed.flatMap fun
        | (.ok (), t) => started t ++ abandoned t
        | (.error _, t) => abandoned t

/-- `_set_camera_focus`: the camera may refuse. -/
def setCameraFocus (result : Result) (s : Shared) : Outcomes Result :=
  fail (.provider "camera_focus_unavailable") s ++ pass result s

/-- The `execute` of `delete_sessions`: what else it checks may refuse. -/
def deleteSessions (result : Result) (s : Shared) : Outcomes Result :=
  if s.flow.active.isSome || s.flow.stopInflight.isSome then fail .captureBusy s
  else if s.flow.released || s.flow.pendingSafeSwap.isSome then fail (.provider "volume_releasing") s
  else fail (.provider "delete_refused") s ++ pass result s

end Conductor.Coordinator
