import Conductor.Camera.Focus
import Conductor.Persistence.CaptureState

/-! The focus preference of `CaptureCoordinator`. The camera keeps its controls while it is connected,
over restarts too; so do the database with the preference and the receipts. The coordinator holds its lock over a request and
the write that it ends with; a write of another thread takes its snapshot under the lock and is made
later. Preferences are numbered in the order of their requests and receipts have stamps, which stand
for their identity; `own`, `lost`, `successes`, `stamps` and `acknowledged` are history. -/

namespace Conductor.Focus

open Camera Persistence

/-- An argument of the request's body. -/
inductive Given (α : Type) where
  | absent
  | given (a : α)
  /-- Of another type. -/
  | wrong

structure Body where
  value : Given ℤ
  autoEnabled : Given Bool

/-- `value` and `auto_enabled`, of a call or of a preference. -/
structure Request where
  value : Option ℤ
  autoEnabled : Option Bool
  deriving DecidableEq

structure Preference where
  number : ℕ
  request : Request
  deriving DecidableEq

/-- A receipt, with the preference that it acknowledges; the number is 0 for a start. -/
structure Receipt where
  stamp : ℕ
  canonicalBody : String
  number : ℕ
  deriving DecidableEq

abbrev Receipts := List (Scope × Receipt)

structure Write where
  sequence : ℕ
  focus : Option Preference
  commands : Receipts
  deriving DecidableEq

inductive Reply where
  | idle
  /-- A `ProviderError`, by its code. -/
  | failed (code : String)
  /-- The write failed. -/
  | unsaved
  | focus (number : ℕ) (replayed : Bool)
  | started (replayed : Bool)
  deriving DecidableEq

structure State where
  controls : Controls
  /-- What the camera came with. -/
  own : Controls
  /-- The camera came back with other controls after it was given the preference. -/
  lost : Bool := false
  /-- Requests that timed out before the worker of the camera came to them. -/
  queued : List Request := []
  stored : Option Preference := none
  /-- The receipts that are stored, which are `_persisted_commands`. -/
  rows : Receipts := []
  pendingFocus : Option Request := none
  focusRestoreInvalid : Bool := false
  focusToPersist : Option Preference := none
  persistedFocus : Option Preference := none
  commands : Receipts := []
  stateWriteSequence : ℕ := 0
  statePersistedSequence : ℕ := 0
  calls : List Write := []
  active : Bool := false
  reply : Reply := .idle
  successes : List Request := []
  stamps : ℕ := 0
  acknowledged : ℕ := 0
  deriving DecidableEq

/-! ### Writes -/

def State.localStateWrite (s : State) : Write × State :=
  (⟨s.stateWriteSequence + 1, s.focusToPersist, s.commands⟩, { s with stateWriteSequence := s.stateWriteSequence + 1 })

/-- The section under the persistence lock; whether the caller goes on. -/
def State.write (saved : Bool) (w : Write) (s : State) : Bool × State :=
  if w.sequence ≤ s.statePersistedSequence then (true, s)
  else if saved then
    (true, { s with
      stored := if w.focus.isSome ∧ w.focus ≠ s.persistedFocus then w.focus else s.stored
      rows := w.commands
      persistedFocus := w.focus
      statePersistedSequence := w.sequence })
  else (false, s)

/-- `_persist_local_state`. -/
def State.persist (saved : Bool) (s : State) : Bool × State := s.localStateWrite.2.write saved s.localStateWrite.1

/-! ### The camera -/

/-- How a call of the sources goes. -/
inductive Call where
  /-- There is no engine, or its worker is gone. -/
  | unavailable
  | timeout
  | executed (faults : Faults)

def fitsInt32 (value : ℤ) : Bool := -2 ^ 31 ≤ value && value < 2 ^ 31

/-- `set_camera_focus` of the sources, with the code that the coordinator makes of an error. -/
def setSources (d : Device) (r : Request) (call : Call) (s : State) : Except String FocusStatus × State :=
  match call with
  | .unavailable => (.error "camera_focus_unavailable", s)
  | .timeout =>
    if r.value.all fitsInt32 && (r.value.isSome || r.autoEnabled.isSome) then
      (.error "native_camera_control_timeout", { s with queued := s.queued ++ [r] })
    else (.error "camera_focus_unavailable", s)
  | .executed faults =>
    if r.value.all fitsInt32 && (r.value.isSome || r.autoEnabled.isSome) then
      let (result, io) := d.setFocus r.value r.autoEnabled faults ⟨s.controls, 0⟩
      (result, { s with controls := io.controls })
    else (.error "camera_focus_unavailable", s)

/-- The checks of the body. -/
def Body.request (b : Body) : Option Request :=
  match b.value, b.autoEnabled with
  | .absent, .absent => none
  | .wrong, _ => none
  | _, .wrong => none
  | .absent, .given enabled => some ⟨none, some enabled⟩
  | .given value, .absent => some ⟨some value, none⟩
  | .given value, .given enabled => some ⟨some value, some enabled⟩

/-- `_set_camera_focus`, with the number of the new preference. -/
def setCameraFocus (d : Device) (connected : Bool) (body : Body) (call : Call) (s : State) : Except String ℕ × State :=
  if !connected then (.error "camera_not_connected", s)
  else
    match body.request with
    | none => (.error "invalid_camera_focus", s)
    | some r =>
      match setSources d r call s with
      | (.error code, s) => (.error code, s)
      | (.ok status, s) =>
        if validCameraFocusStatus status then
          let preference : Request := ⟨some status.value, status.autoEnabled⟩
          (.ok (s.successes.length + 1), { s with
            focusToPersist := some ⟨s.successes.length + 1, preference⟩
            pendingFocus := none
            focusRestoreInvalid := false
            lost := false
            successes := s.successes ++ [preference] })
        else (.error "camera_focus_unavailable", s)

/-- A preference is set again. A camera with a fixed focus has nothing to restore. -/
def restoreFocus (d : Device) (r : Request) (call : Call) (s : State) : Except String Unit × State :=
  match setSources d r call s with
  | (.ok status, s) =>
    if validCameraFocusStatus status then (.ok (), { s with pendingFocus := none })
    else (.error "camera_focus_restore_failed", s)
  | (.error code, s) =>
    if code = "camera_focus_unsupported" then (.ok (), { s with pendingFocus := none })
    else (.error "camera_focus_restore_failed", s)

def pendingInvalid (s : State) : Bool :=
  s.focusRestoreInvalid || s.pendingFocus.any fun r => r.value.isNone && r.autoEnabled.isNone

/-- `_require_camera_connected` with the restore. -/
def requireCameraConnected (d : Device) (connected : Bool) (call : Call) (s : State) : Except String Unit × State :=
  if !connected then (.error "camera_not_connected", s)
  else if pendingInvalid s then (.error "camera_focus_restore_failed", { s with focusRestoreInvalid := true })
  else
    match s.pendingFocus with
    | none => (.ok (), s)
    | some r => restoreFocus d r call s

/-- What becomes of a start after the camera is found. -/
inductive Begin where
  | refused
  /-- The recorder or the sources fail; the state is written. -/
  | failed (saved : Bool)
  | begun

/-- `_start_capture`; `admitted` says that the timer and the mode are in order. The writes of the
recorder's callbacks are writes of other threads here. -/
def startCapture (d : Device) (connected : Bool) (call : Call) (admitted : Bool) (begins : Begin) (s : State) :
    Except String ℕ × State :=
  if !admitted || s.active then (.error "capture_busy", s)
  else
    match requireCameraConnected d connected call s with
    | (.error code, s) => (.error code, s)
    | (.ok (), s) =>
      match begins with
      | .refused => (.error "start_refused", s)
      | .failed saved => (.error "source_start_failed", (s.persist saved).2)
      | .begun => (.ok 0, { s with active := true })

/-! ### Commands -/

structure Command where
  scope : Scope
  canonicalBody : String

/-- What else `_idempotent` finds: a receipt that is quarantined, a stop that is not committed, a failure
or a close; and whether its write succeeds. -/
structure Found where
  invalid : Bool := false
  stopping : Bool := false
  closing : Bool := false
  saved : Bool := true

def State.answer (s : State) (reply : Reply) : State := { s with reply }

/-- The answer that acknowledges a receipt. -/
def State.acknowledge (s : State) (number : ℕ) (reply : Reply) : State :=
  { s with reply, acknowledged := max s.acknowledged number }

/-- The receipt of a command, and the write. -/
def State.commit (saved : Bool) (number : ℕ) (reply : Reply) (s : State) : State :=
  match s.persist saved with
  | (true, s) => s.acknowledge number reply
  | (false, s) => s.answer .unsaved

/-- No more than 1024 receipts are kept. -/
def evict (commands : Receipts) : Receipts := commands.drop (commands.length - 1024)

def State.remember (c : Command) (number : ℕ) (s : State) : State :=
  { s with commands := evict (s.commands ++ [(c.scope, ⟨s.stamps, c.canonicalBody, number⟩)]), stamps := s.stamps + 1 }

/-- `_idempotent`. -/
def State.idempotent (c : Command) (found : Found) (reply : ℕ → Bool → Reply) (execute : State → Except String ℕ × State)
    (s : State) : State :=
  let previous := s.commands.lookup c.scope
  let persisted : Bool := previous.isSome && s.rows.lookup c.scope = previous
  if found.invalid then s.answer (.failed "command_receipt_invalid")
  else if found.stopping && !persisted then s.answer (.failed "capture_busy")
  else
    match previous with
    | some receipt =>
      if receipt.canonicalBody ≠ c.canonicalBody then s.answer (.failed "idempotency_conflict")
      else if persisted then s.acknowledge receipt.number (reply receipt.number true)
      else s.commit found.saved receipt.number (reply receipt.number true)
    | none =>
      if found.closing then s.answer (.failed "capture_busy")
      else
        match execute s with
        | (.error code, s) => s.answer (.failed code)
        | (.ok number, s) => (s.remember c number).commit found.saved number (reply number false)

/-- The constructor: the database is all that is left. Its own write succeeds, or there is no
coordinator. -/
def State.restart (d : Device) (connected : Bool) (call : Call) (s : State) : State :=
  let s : State := { s with
    lost := false
    queued := []
    pendingFocus := s.stored.map (·.request)
    focusRestoreInvalid := false
    focusToPersist := none
    persistedFocus := none
    commands := s.rows
    stateWriteSequence := 0
    statePersistedSequence := 0
    calls := []
    active := false
    reply := .idle }
  (requireCameraConnected d connected call (s.persist true).2).2

/-! ### Runs -/

inductive Action where
  | setCameraFocus (c : Command) (found : Found) (connected : Bool) (body : Body) (call : Call)
  | start (c : Command) (found : Found) (connected : Bool) (call : Call) (admitted : Bool) (begins : Begin)
  /-- The take ends. -/
  | stop
  | snapshot
  | write (i : ℕ) (saved : Bool)
  /-- The worker of the camera comes to a request that timed out. -/
  | late (faults : Faults)
  /-- The worker goes. -/
  | gone
  /-- The camera was away, and is back with these controls; the coordinator restores nothing. -/
  | replug (controls : Controls)
  | restart (connected : Bool) (call : Call)

/-- The worker takes the requests in their order. -/
def Call.enabled (call : Call) (s : State) : Bool :=
  match call with
  | .executed _ => s.queued.isEmpty
  | _ => true

def step (d : Device) (s : State) : Action → Option State
  | .setCameraFocus c found connected body call =>
    if call.enabled s then some (s.idempotent c found .focus (setCameraFocus d connected body call)) else none
  | .start c found connected call admitted begins =>
    if call.enabled s then
      some (s.idempotent c found (fun _ => .started) (startCapture d connected call admitted begins))
    else none
  | .stop => some { s with active := false, reply := .idle }
  | .snapshot => some { s.localStateWrite.2 with calls := s.calls ++ [s.localStateWrite.1], reply := .idle }
  | .write i saved => do
    let w ← s.calls[i]?
    let t := (s.write saved w).2
    return { t with calls := t.calls.eraseIdx i, reply := .idle }
  | .late faults =>
    match s.queued with
    | [] => none
    | r :: queued =>
      some { s with
        controls := (d.setFocus r.value r.autoEnabled faults ⟨s.controls, 0⟩).2.controls
        queued
        reply := .idle }
  | .gone => some { s with queued := [], reply := .idle }
  | .replug controls =>
    some { s with
      controls
      own := controls
      lost := s.lost || (controls ≠ s.controls && s.pendingFocus.isNone && (s.focusToPersist.or s.stored).isSome)
      reply := .idle }
  | .restart connected call => some (s.restart d connected call)

/-- A camera, and a database in which no preference was ever stored. -/
def State.init (controls : Controls) : State := { controls, own := controls }

end Conductor.Focus
