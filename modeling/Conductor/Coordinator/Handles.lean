import Conductor.Coordinator.State
import Conductor.Lib.Runs
import Mathlib.Data.Int.Notation

/-! `NativeContinuousCaptureSources` and the handles that `CaptureCoordinator` counts. The engine,
its creation and its methods are not modelled: a call of one of them raises or does not. `held`,
`created`, `closed` and `taken` are history: which engines were made, which of them a call has in its
hands, which were closed, and whether `close` has taken the engine. -/

namespace Conductor.Handles

open Sections Coordinator

structure Sources where
  engine : Option ℕ := none
  /-- The tap of the recording, by the call that made it. -/
  recording : Option ℕ := none
  openHandles : ℤ := 0
  created : ℕ := 0
  held : List (ℕ × ℕ) := []
  closed : List ℕ := []
  taken : Bool := false

/-- The fields of the coordinator. A lock is owned by a call. -/
structure Flow where
  active : Option Session := none
  sessions : Session := 0
  failureProjection : Bool := false
  failureInflight : Option ℕ := none
  failurePendingCommit : Option Session := none
  pendingSourceFailure : Bool := false
  stopInflight : Option ℕ := none
  pendingSafeSwap : Option Session := none
  released : Bool := false
  openRepresentations : ℕ := 0
  catalogVerification : Bool := false
  closing : Bool := false

structure World where
  sources : Sources
  flow : Flow
  /-- `open_handle_count` of the recorder. -/
  recorderHandles : ℕ := 0
  lock : Option ℕ := none
  closeLock : Option ℕ := none

abbrev Outcomes (α : Type) := List (Except Error α × World)

abbrev Program (α : Type) := Proc World Error α

variable {α : Type}

def pass (a : α) (w : World) : Outcomes α := [(.ok a, w)]

def fail (e : Error) (w : World) : Outcomes α := [(.error e, w)]

def World.setFlow (w : World) (f : Flow → Flow) : World := { w with flow := f w.flow }

/-- A section under the lock of the sources. -/
def onSources (f : Sources → List (Except Error α × Sources)) : Program α :=
  .critical fun w => (f w.sources).map fun r => (r.1, { w with sources := r.2 })

/-- A section under the lock of the coordinator, which waits for it. -/
def locked (call : ℕ) (f : World → Outcomes α) : Program α :=
  .critical fun w => if w.lock = none ∨ w.lock = some call then f w else []

/-- What leaves all of this as it is, and may raise. -/
def act (e : Error) : Program Unit := .critical fun w => pass () w ++ fail e w

/-! ### The sources -/

inductive Found where
  | running
  | stale (engine : ℕ)
  | missing

namespace Sources

/-- `engine.close` of an engine in the hands of the call; what it raises is suppressed. -/
def close (s : Sources) (call engine : ℕ) : Sources :=
  { s with held := s.held.erase (call, engine), closed := s.closed ++ [engine] }

/-- The first section of `start_preview`: an engine that does not run is taken away. -/
def find (call : ℕ) (s : Sources) : List (Except Error Found × Sources) :=
  match s.engine with
  | none => [(.ok .missing, s)]
  | some engine =>
    (.ok .running, s) ::
      if s.recording.isSome then []
      else
        [(.ok (.stale engine),
          { s with engine := none, openHandles := s.openHandles - 1, held := (call, engine) :: s.held })]

def create (call : ℕ) (s : Sources) : List (Except Error ℕ × Sources) :=
  [(.ok s.created, { s with created := s.created + 1, held := (call, s.created) :: s.held }), (.error .other, s)]

/-- The last section of `start_preview`. -/
def install (call engine : ℕ) (s : Sources) : List (Except Error Unit × Sources) :=
  match s.engine with
  | some _ => [(.ok (), s.close call engine)]
  | none =>
    [(.ok (), { s with
      engine := some engine
      openHandles := s.openHandles + 1
      held := s.held.erase (call, engine) })]

def beginRecording (call : ℕ) (s : Sources) : List (Except Error Unit × Sources) :=
  if s.recording.isSome || s.engine.isNone then [(.error .other, s)]
  else [(.ok (), { s with recording := some call, openHandles := s.openHandles + 1 })]

/-- A recording is dropped if it is the one of the tap. -/
def drop (tap : ℕ) (s : Sources) : Sources :=
  if s.recording = some tap then { s with recording := none, openHandles := s.openHandles - 1 } else s

/-- The section of `stop`, with whether there is an engine. -/
def stop (s : Sources) : Bool × Sources :=
  (s.engine.isSome,
    if s.recording.isSome then { s with recording := none, openHandles := s.openHandles - 1 } else s)

/-- The section of `close`. -/
def take (call : ℕ) (s : Sources) : Option ℕ × Sources :=
  match s.engine with
  | none => (none, { s with taken := true })
  | some engine =>
    (some engine,
      { s with engine := none, openHandles := s.openHandles - 1, held := (call, engine) :: s.held, taken := true })

end Sources

def closeEngine (call engine : ℕ) : Program Unit := onSources fun s => [(.ok (), s.close call engine)]

/-- What `start_preview` does where there is no engine. -/
def openPreview (call : ℕ) : Program Unit := do
  act .other
  let engine ← onSources (Sources.create call)
  Proc.attempt (act .other) fun e => do
    closeEngine call engine
    .raise e
  onSources (Sources.install call engine)

/-- `start_preview`. -/
def startPreview (call : ℕ) : Program Unit := do
  let found ← onSources (Sources.find call)
  match found with
  | .running => pure ()
  | .missing => openPreview call
  | .stale engine => do
    closeEngine call engine
    openPreview call

/-- `start`. -/
def start (call : ℕ) : Program Unit := do
  act .other
  startPreview call
  onSources (Sources.beginRecording call)
  Proc.attempt (act .other) fun e => do
    onSources fun s => [(.ok (), s.drop call)]
    .raise e

/-- `_runtime_failure`, before it reports to the coordinator. -/
def runtimeFailure (tap : ℕ) : Program Unit := onSources fun s => [(.ok (), s.drop tap)]

/-- `stop`. -/
def stop : Program Unit := do
  let engine ← onSources fun s => [(.ok s.stop.1, s.stop.2)]
  if engine then act .other else pure ()

/-- `close`. -/
def close (call : ℕ) : Program Unit := do
  Proc.attempt stop fun _ => pure ()
  let engine ← onSources fun s => [(.ok (s.take call).1, (s.take call).2)]
  match engine with
  | none => pure ()
  | some engine => closeEngine call engine

/-- `camera_focus_status` and `set_camera_focus`, through `_engine_for_control`. -/
def control (call : ℕ) : Program Unit := do
  startPreview call
  let engine ← onSources fun s => [(.ok s.engine, s)]
  if engine.isSome then act .other else .raise .other

/-! ### The count -/

/-- `open_handle_count` of the coordinator. -/
def World.openHandleCount (w : World) : ℤ :=
  if w.flow.failureProjection then 1 + w.flow.openRepresentations
  else
    (if w.flow.active.isNone then 0 else w.recorderHandles) + w.sources.openHandles + w.flow.openRepresentations +
      if w.flow.catalogVerification then 1 else 0

/-- The first section of `_publish_safe_swap`. -/
def countHandles (w : World) : Outcomes Session :=
  match w.flow.pendingSafeSwap with
  | none => fail (.provider "safe_swap_not_pending") w
  | some session => if w.openHandleCount ≠ 0 then fail (.provider "safe_swap_blocked") w else pass session w

/-- `_publish_safe_swap`. -/
def publishSafeSwap (call : ℕ) : Program Unit := do
  let session ← locked call countHandles
  act (.provider "safe_swap_check_failed")
  locked call fun w => if w.flow.pendingSafeSwap = some session then pass () w else fail .captureStateChanged w
  act (.provider "safe_swap_publish_failed")
  locked call fun w => pass () (w.setFlow fun f => { f with released := true, pendingSafeSwap := none })

/-! ### Failures -/

/-- Whether a failure is claimed. -/
def claimFailure (call : ℕ) (session : Session) (fromStop : Bool) (w : World) : Outcomes Bool :=
  if w.flow.active ≠ some session ∨ w.flow.failureInflight.isSome ∨ w.flow.failurePendingCommit = some session then
    pass false w
  else if w.flow.stopInflight.isSome && !fromStop then
    pass false (w.setFlow fun f => { f with pendingSourceFailure := true })
  else
    pass true (w.setFlow fun f =>
      { f with pendingSourceFailure := false, failureProjection := true, failureInflight := some call })

/-- `_commit_active_failure`. -/
def commitActiveFailure (call : ℕ) (session : Session) : Program Unit := do
  act .persistence
  locked call fun w =>
    if w.flow.active = some session ∧ w.flow.failurePendingCommit = some session then
      pass () (w.setFlow fun f =>
        { f with
          failurePendingCommit := none
          failureProjection := f.failureProjection && f.failureInflight.isSome
          active := none })
    else fail .other w

/-- `_finish_active_failure`, and `finish` around it. -/
def finishFailure (call : ℕ) (session : Session) : Program Unit :=
  Proc.ensure
    (do
      act .other
      locked call fun w => pass () (w.setFlow fun f => { f with failurePendingCommit := some session })
      commitActiveFailure call session)
    (locked call fun w => pass () (w.setFlow fun f =>
      { f with
        failureInflight := none
        failureProjection := f.failureProjection && f.failurePendingCommit = some session }))

/-- `_retain_active_failure`. The thread of a deferred recovery is not told from the one that
claims the failure. -/
def retainActiveFailure (call : ℕ) (session : Session) (fromStop : Bool) : Program Unit := do
  let claimed ← locked call (claimFailure call session fromStop)
  if claimed then finishFailure call session else pure ()

/-! ### Commands -/

/-- A command that runs under the lock of the coordinator. -/
def withLock (call : ℕ) (p : Program Unit) : Program Unit := do
  locked call fun w => pass () { w with lock := some call }
  Proc.ensure p (locked call fun w => pass () { w with lock := none })

/-- The guards of a start. -/
def admitStart (w : World) : Outcomes Unit :=
  if w.flow.active.isSome || w.flow.closing || w.flow.stopInflight.isSome || w.flow.failureInflight.isSome ||
      w.flow.failureProjection then fail .captureBusy w
  else pass () w

def beginTake (w : World) : Outcomes Unit :=
  pass () (w.setFlow fun f =>
    { f with
      active := some f.sessions
      sessions := f.sessions + 1
      pendingSourceFailure := false
      pendingSafeSwap := none })

/-- `start_capture`, with the focus restored or nothing to restore. -/
def startCapture (call : ℕ) (restore : Bool) : Program Unit :=
  withLock call do
    locked call admitStart
    (if restore then control call else pure ())
    act (.provider "start_refused")
    locked call beginTake
    Proc.attempt
      (do
        act .other
        start call)
      fun _ => do
        locked call fun w => pass () (w.setFlow fun f => { f with active := none })
        .raise (.provider "source_start_failed")

/-- `self._active is recorder`, and no source has failed. -/
def checkOwner (session : Session) (w : World) : Outcomes Unit :=
  if w.flow.pendingSourceFailure then fail (.recording "source_failure") w
  else if w.flow.active ≠ some session then fail .captureStateChanged w
  else pass () w

/-- The section that ends the recording. -/
def endTake (session : Session) (safeSwap : Bool) (w : World) : Outcomes Unit :=
  match checkOwner session w with
  | [(.ok (), w)] =>
    pass () (w.setFlow fun f =>
      { f with active := none, pendingSafeSwap := if safeSwap then some session else f.pendingSafeSwap })
  | refused => refused

/-- The recorder is stopped and the recording sealed. -/
def sealTake (call : ℕ) (session : Session) (safeSwap : Bool) : Program Unit := do
  locked call fun w => if w.flow.pendingSourceFailure then fail (.recording "source_failure") w else pass () w
  act (.recording "stop_failed")
  locked call (checkOwner session)
  act .other
  locked call (endTake session safeSwap)
  act .persistence
  if safeSwap then do
    publishSafeSwap call
    act .persistence
  else pure ()

/-- A `DeviceRecordingError` is retained. -/
def retainRecordingError (call : ℕ) (session : Session) (e : Error) : Program Unit :=
  match e with
  | .recording code => do
    retainActiveFailure call session true
    .raise (.provider code)
  | e => .raise e

/-- `_finish_stop_capture`. -/
def finishStopCapture (call : ℕ) (session : Session) (safeSwap : Bool) : Program Unit :=
  Proc.ensure
    (do
      Proc.attempt stop fun _ => do
        retainActiveFailure call session true
        .raise (.provider "source_stop_failed")
      let retry ← locked call fun w => pass (decide (w.flow.failurePendingCommit = some session)) w
      if retry then commitActiveFailure call session
      else Proc.attempt (sealTake call session safeSwap) (retainRecordingError call session))
    (locked call fun w => pass () (w.setFlow fun f =>
      if f.stopInflight = some call then { f with stopInflight := none, pendingSourceFailure := false } else f))

/-- `stop_capture`, `_prepare_stop_request`, and the latter for a stop that was accepted before. -/
inductive Asked where
  | waits
  | requested
  | replayed
  deriving DecidableEq

/-- A stop waits for the owner or refuses where there is one; the safe swap of a replay does not look. -/
def claim (asked : Asked) (f : World → Outcomes α) (w : World) : Outcomes α :=
  if asked ≠ .waits ∧ w.flow.closing then fail .captureBusy w
  else if asked ≠ .replayed ∧ (w.flow.stopInflight.isSome ∨ w.flow.failureInflight.isSome) then
    if asked = .waits then [] else fail .captureBusy w
  else f w

/-- A stop becomes the owner. -/
def claimStop (call : ℕ) (requested safeSwap : Bool) (w : World) : Outcomes (Option Session) :=
  match w.flow.active with
  | none => pass none w
  | some session =>
    if requested && safeSwap && w.flow.openRepresentations ≠ 0 then fail (.provider "safe_swap_blocked") w
    else pass (some session) (w.setFlow fun f => { f with stopInflight := some call })

/-- `stop_capture`, or a stop that was requested and the thread that finishes it. -/
def stopCapture (call : ℕ) (requested safeSwap : Bool) : Program Unit := do
  let session ← locked call (claim (if requested then .requested else .waits) (claimStop call requested safeSwap))
  match session with
  | none => pure ()
  | some session => finishStopCapture call session safeSwap

def claimResume (call : ℕ) (w : World) : Outcomes Bool :=
  if w.flow.active.isSome || w.flow.pendingSafeSwap.isNone then pass false w
  else pass true (w.setFlow fun f => { f with stopInflight := some call })

/-- A stop that goes on with the pending safe swap: `stop_capture`, or `_request_pending_safe_swap` and its thread. -/
def resumeSafeSwap (call : ℕ) (asked : Asked) : Program Unit := do
  let claimed ← locked call (claim asked (claimResume call))
  if claimed then
    Proc.ensure (publishSafeSwap call) (locked call fun w => pass () (w.setFlow fun f =>
      if f.stopInflight = some call then { f with stopInflight := none } else f))
  else pure ()

/-- `_runtime_failure` with the callback of the coordinator. -/
def sourceFailure (call tap : ℕ) (session : Session) : Program Unit := do
  runtimeFailure tap
  retainActiveFailure call session false

/-- `report_media_loss`, and a submission that fails. -/
def reportMediaLoss (call : ℕ) : Program Unit := do
  let active ← locked call fun w => pass w.flow.active w
  match active with
  | none => pure ()
  | some session => do
    Proc.attempt stop fun _ => pure ()
    retainActiveFailure call session false

/-- `_acquire_representation`, a download, and the release. -/
def representation (call : ℕ) : Program Unit := do
  locked call fun w =>
    if w.flow.released || w.flow.pendingSafeSwap.isSome then fail (.provider "volume_releasing") w
    else pass () (w.setFlow fun f => { f with openRepresentations := f.openRepresentations + 1 })
  Proc.ensure (act .other)
    (locked call fun w => pass () (w.setFlow fun f => { f with openRepresentations := f.openRepresentations - 1 }))

/-- A catalog verification, which may be allowed while a safe swap is pending. -/
def verification (call : ℕ) (allowPending : Bool) : Program Unit := do
  locked call fun w =>
    if w.flow.active.isSome || w.flow.closing || w.flow.catalogVerification then fail (.provider "verification_busy") w
    else if w.flow.released || !allowPending && w.flow.pendingSafeSwap.isSome then fail (.provider "volume_releasing") w
    else pass () (w.setFlow fun f => { f with catalogVerification := true })
  Proc.ensure (act .other)
    (locked call fun w => pass () (w.setFlow fun f => { f with catalogVerification := false }))

/-- The section of `_close_capture` that waits for the owners. -/
def claimClose (call : ℕ) (w : World) : Outcomes Bool :=
  if w.flow.failureInflight.isSome || w.flow.stopInflight.isSome || w.flow.catalogVerification then []
  else if w.flow.active.isNone then pass false w
  else pass true (w.setFlow fun f => { f with stopInflight := some call })

/-- `_close_capture`. -/
def closeCapture (call : ℕ) : Program Unit := do
  locked call fun w => pass () (w.setFlow fun f => { f with closing := true })
  close call
  let active ← locked call (claimClose call)
  Proc.ensure
    (do
      (if active then act .other else pure ())
      locked call fun w =>
        let t := if active then
            w.setFlow fun f => { f with active := none, failurePendingCommit := none, failureProjection := false }
          else w
        pass () t ++ fail .persistence t)
    (locked call fun w => pass () (w.setFlow fun f => { f with stopInflight := none }))

/-- `close` of the coordinator. -/
def closeCoordinator (call : ℕ) : Program Unit := do
  .critical fun w => if w.closeLock = none then pass () { w with closeLock := some call } else []
  Proc.ensure (closeCapture call) (.update fun w => { w with closeLock := none })

/-! ### The system -/

inductive Call where
  | startPreview
  | start
  | runtimeFailure (tap : ℕ)
  | stop
  | close
  /-- A camera control, which the coordinator makes under its lock or not. -/
  | control
  | setCameraFocus
  | startCapture (restore : Bool)
  | stopCapture (requested safeSwap : Bool)
  | resumeSafeSwap (asked : Asked)
  | sourceFailure (tap : ℕ) (session : Session)
  | reportMediaLoss
  | representation
  | verification (allowPending : Bool)
  | closeCoordinator
  deriving DecidableEq

def Call.program (call : ℕ) : Call → Program Unit
  | .startPreview => Handles.startPreview call
  | .start => Handles.start call
  | .runtimeFailure tap => Handles.runtimeFailure tap
  | .stop => Handles.stop
  | .close => Handles.close call
  | .control => Handles.control call
  | .setCameraFocus => withLock call (Handles.control call)
  | .startCapture restore => Handles.startCapture call restore
  | .stopCapture requested safeSwap => Handles.stopCapture call requested safeSwap
  | .resumeSafeSwap asked => Handles.resumeSafeSwap call asked
  | .sourceFailure tap session => Handles.sourceFailure call tap session
  | .reportMediaLoss => Handles.reportMediaLoss call
  | .representation => Handles.representation call
  | .verification allowPending => Handles.verification call allowPending
  | .closeCoordinator => Handles.closeCoordinator call

/-- The calls that may start the preview. -/
def Call.opensPreview : Call → Bool
  | .startPreview | .start | .control | .setCameraFocus | .startCapture _ => true
  | _ => false

abbrev System := Pool (ℕ × Call) World Error Unit

inductive Action where
  | enter (call : Call)
  | run (thread choice : ℕ)
  /-- The recorder opens or closes files of its own. -/
  | recorder (handles : ℕ)
  deriving DecidableEq

def Action.opensPreview : Action → Bool
  | .enter call => call.opensPreview
  | _ => false

def step (p : System) : Action → Option System
  | .enter call => some (p.add p.shared ((p.threads.length, call), call.program p.threads.length))
  | .run thread choice => p.advance thread choice
  | .recorder handles => some { p with shared := { p.shared with recorderHandles := handles } }

/-- A coordinator on a volume, with the safe swap that was pending when the last one ended. -/
def System.init (pendingSafeSwap : Option Session) (released : Bool) : System :=
  ⟨{ sources := {}, flow := { pendingSafeSwap, released } }, []⟩

end Conductor.Handles
