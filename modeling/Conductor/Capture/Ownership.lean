import Conductor.Capture.Runtime
import Conductor.Lib.Runs
import Mathlib.Data.List.Count

/-! Who owns a take while the camera thread, the IMU thread and any number of
control threads run. Every critical section of `Runtime` on its shared state is
one step, and a program counter says where a thread stands between two sections.
The ghost fields number the takes in the order in which they start, and remember
the frames the gate has counted, the capture gates closed and the `on_failure`
calls made. The run begins after `start_preview`. -/

namespace Conductor.Capture.Ownership

open CaptureFanoutState Runs

/-- The camera thread: at the head of its loop, waiting for a frame, inside a dispatched
frame, about to report its failed write, about to set the terminal error, about to run the
last section of `run_loop`, or gone. -/
inductive Camera where
  | looping
  | reading
  | writing (target : Target)
  | reporting (target : Target)
  | failed (error : RuntimeError)
  | leaving
  | left
  deriving DecidableEq

/-- A control thread. `stopping` keeps the frames in flight that `begin_recording_stop`
returned, and the take (a ghost) whose recording was installed then. -/
inductive Caller where
  | idle
  | prepared
  | stopping (inflight : ℕ) (take : Option ℕ)
  | reaping
  | closing
  | closeReaping
  | closeJoining
  | closeWaiting
  | closeFinal
  deriving DecidableEq

/-- The IMU thread: at a `recording_present` check, past one, or gone. -/
inductive ImuThread where
  | polling | armed | left
  deriving DecidableEq

structure ImuWorker where
  take : ℕ
  thread : ImuThread

structure Sys where
  state : State
  stop : Bool := false
  camera : Camera := .looping
  /-- Whether the camera thread's handle is still in its slot. -/
  worker : Bool := true
  callers : ℕ → Caller := fun _ => .idle
  imuWorker : Option ImuWorker := none
  /-- The take that `start_recording` installed last. -/
  take : ℕ := 0
  /-- The takes of the frames that the gate counted and that are not finished. -/
  unfinished : List ℕ := []
  closedGates : List ℕ := []
  calls : List ℕ := []

/-- The steps of a control thread inside `prepare_recording`, `stop_recording` and `close`. -/
inductive Control where
  | prepare | beginStop | clear | drained | stopTimeout | reap | reapTimeout
  | closeBegin | closeStop | closeReap | closeReapTimeout | closeTake | closeJoin | closeEnd
  deriving DecidableEq

inductive CameraStep where
  | poll
  | frame (frame : Frame)
  | written (ok : Bool)
  | report
  | readError (error : RuntimeError)
  | exit
  | terminal
  deriving DecidableEq

inductive ImuStep where
  | check | report | read | exit
  deriving DecidableEq

inductive Action where
  | start (imu : Bool)
  | control (c : ℕ) (a : Control)
  | camera (a : CameraStep)
  | imu (a : ImuStep)

def Sys.setCaller (s : Sys) (c : ℕ) (pc : Caller) : Sys :=
  { s with callers := Function.update s.callers c pc }

/-- Run the effects of a section after it: close a gate and make a callback. -/
def Sys.apply (s : Sys) (e : Effects) (state : State) : Sys :=
  { s with
    state
    closedGates := (e.captureStop.map (·.take)).toList ++ s.closedGates
    calls := e.onFailure.toList ++ s.calls }

/-- `stop_imu_worker` joins a thread that has ended, and finds nothing when the slot is empty. -/
def Sys.reaped (s : Sys) : Option Sys :=
  match s.imuWorker with
  | none => some s
  | some w => if w.thread = .left then some { s with imuWorker := none } else none

/-- The first section of `stop_recording` and of `close`. -/
def Sys.stopped (s : Sys) : Sys :=
  s.apply s.state.beginRecordingStop.1.2 s.state.beginRecordingStop.2

def stepControl (s : Sys) (c : ℕ) : Caller → Control → Option Sys
  | .idle, .prepare =>
    if s.state.fanout.snapshot.recordingActive then none else some (s.setCaller c .prepared)
  | .idle, .beginStop | .prepared, .beginStop =>
    some (s.stopped.setCaller c
      (.stopping s.state.beginRecordingStop.1.1 (s.state.recording.map (·.take))))
  | .stopping 0 _, .clear => some ({ s with state := s.state.clearRecording }.setCaller c .reaping)
  | .stopping (_ + 1) _, .drained =>
    if s.state.recording.isNone then some (s.setCaller c .reaping) else none
  | .stopping (_ + 1) _, .stopTimeout =>
    if s.state.recording.isNone then none else some (s.setCaller c .idle)
  | .reaping, .reap => s.reaped.map (·.setCaller c .idle)
  | .reaping, .reapTimeout => some (s.setCaller c .idle)
  | .idle, .closeBegin => some ({ s with stop := true }.setCaller c .closing)
  | .closing, .closeStop => some (s.stopped.setCaller c .closeReaping)
  | .closeReaping, .closeReap => s.reaped.map (·.setCaller c .closeJoining)
  | .closeReaping, .closeReapTimeout => some (s.setCaller c .idle)
  | .closeJoining, .closeTake =>
    some ({ s with worker := false }.setCaller c (if s.worker then .closeWaiting else .closeFinal))
  | .closeWaiting, .closeJoin =>
    if s.camera = .left then some (s.setCaller c .closeFinal) else none
  | .closeFinal, .closeEnd => some ({ s with state := s.state.closeRuntime }.setCaller c .idle)
  | _, _ => none

def stepCamera (s : Sys) : Camera → CameraStep → Option Sys
  | .looping, .poll => some { s with camera := if s.stop then .leaving else .reading }
  | .reading, .frame frame =>
    match s.state.admitFrame frame with
    | (.error e, state) => some { s with state, camera := .failed e }
    | (.ok a, state) => some { s with
        state
        camera := (a.dispatch.map .writing).getD .looping
        unfinished := if a.record then s.take :: s.unfinished else s.unfinished }
  | .reading, .readError e => some { s with camera := if s.stop then .leaving else .failed e }
  | .writing target, .written ok =>
    match s.state.finishRecordingFrame with
    | (.error e, state) => some { s with state, camera := .failed e }
    | (.ok (), state) => some { s with
        state
        camera := if ok then .looping else .reporting target
        unfinished := s.unfinished.erase target.take }
  | .reporting target, .report =>
    let reported := s.state.reportRecordingFailure (some target.take)
    some { s.apply reported.1 reported.2 with camera := .looping }
  | .leaving, .exit =>
    some { s.apply s.state.runLoopExit.1 s.state.runLoopExit.2 with camera := .left }
  | .failed e, .terminal =>
    let terminal := s.state.setTerminalError e
    some { s.apply terminal.1 terminal.2 with camera := .left }
  | _, _ => none

def stepImu (s : Sys) (take : ℕ) : ImuThread → ImuStep → Option Sys
  | .polling, .check =>
    let present := s.state.recording.isSome && s.state.fanout.snapshot.recordingPresent
    some { s with imuWorker := some ⟨take, if present then .armed else .left⟩ }
  | .armed, .read => some { s with imuWorker := some ⟨take, .polling⟩ }
  | .armed, .report =>
    let reported := s.state.reportRecordingFailure (some take)
    some { s.apply reported.1 reported.2 with imuWorker := some ⟨take, .left⟩ }
  | .polling, .exit | .armed, .exit => some { s with imuWorker := some ⟨take, .left⟩ }
  | _, _ => none

def step (s : Sys) : Action → Option Sys
  -- the caller holds the IMU slot from the check to the installation of the new worker
  | .start imu =>
    if s.imuWorker.isSome then none
    else
      match s.state.startRecording ⟨s.take + 1, imu⟩ with
      | .error _ => none
      | .ok state => some { s with
          state
          take := s.take + 1
          imuWorker := if imu then some ⟨s.take + 1, .polling⟩ else none }
  | .control c a => stepControl s c (s.callers c) a
  | .camera a => stepCamera s s.camera a
  | .imu a => s.imuWorker.bind fun w => stepImu s w.take w.thread a

/-- After `start_preview`: the camera runs, no take is present, every thread is idle. -/
def init (fanout : CaptureFanoutState) : Sys :=
  { state := { fanout := { fanout with recording := none }, running := true } }

/-! ### What the threads owe a take -/

/-- What belongs to one take: its gate, its target, and what has happened to it. -/
structure TakeView where
  gate : Option RecordingState
  target : Option Target
  captureStopped : Bool
  calls : ℕ

def Sys.gate (s : Sys) : Option RecordingState := s.state.fanout.recording

def Sys.view (s : Sys) (take : ℕ) : TakeView where
  gate := if s.take = take then s.gate else none
  target := s.state.recording.filter (·.take = take)
  captureStopped := take ∈ s.closedGates
  calls := s.calls.count take

/-- The take for which a stop, failure or completion step acts: a stop acts for the
take that was installed when it closed the gate, if any. -/
def actsFor (s : Sys) : Action → Option (Option ℕ)
  | .control c .clear =>
    match s.callers c with
    | .stopping _ take => some take
    | _ => none
  | .camera (.written _) =>
    match s.camera with
    | .writing target => some (some target.take)
    | _ => none
  | .camera .report =>
    match s.camera with
    | .reporting target => some (some target.take)
    | _ => none
  | .imu .report => s.imuWorker.map fun w => some w.take
  | _ => none

/-- In one state: an active gate has the target of its take, the gate counts the unfinished
frames of its take, it is idle again once they finish and a stop was requested, and no take
has had two callbacks. An idle gate admits the next take as soon as the target is cleared,
and a target outlives its gate only until the stop that closed the gate goes on. -/
structure Owned (s : Sys) : Prop where
  target : ∀ r, s.gate = some r → r.stopping = false → s.state.recording.map (·.take) = some s.take
  inflight : ∀ r, s.gate = some r → r.inflightFrames = s.unfinished.count s.take
  idle : (∀ r, s.gate = some r → r.stopping = true) → s.unfinished.count s.take = 0 → s.gate = none
  restart : s.gate = none → s.state.running = true → s.state.recording = none →
    ∀ target, ∃ t, s.state.startRecording target = .ok t
  cleared : s.gate = none → s.state.recording = none ∨ s.stop = true ∨
    ∃ c take, s.callers c = .stopping 0 take
  calls : ∀ take, s.calls.count take ≤ 1

/-- In one step: a frame that the gate counts is dispatched, and a stop, failure or
completion step leaves every other take as it was. -/
structure StepOwned (s : Sys) (a : Action) (t : Sys) : Prop where
  dispatched : ∀ f, a = .camera (.frame f) → t.unfinished ≠ s.unfinished → ∃ target, t.camera = .writing target
  others : ∀ o, actsFor s a = some o → ∀ take, o ≠ some take → t.view take = s.view take

/-- The second section of a stop finds no recording or the one it stopped, and a failed
write is reported while nothing of another take is installed. -/
def Current (s : Sys) (a : Action) (_ : Sys) : Prop :=
  match a with
  | .control c .clear => ∀ n take, s.callers c = .stopping n take →
      ∀ target, s.state.recording = some target → take = some target.take
  | .camera .report => ∀ target, s.camera = .reporting target →
      (s.gate.isSome = true → s.take = target.take) ∧
        ∀ u, s.state.recording = some u → u.take = target.take
  | _ => True

end Conductor.Capture.Ownership
