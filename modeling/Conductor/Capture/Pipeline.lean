import Conductor.Capture.Runtime
import Conductor.Capture.TakeWriter
import Conductor.Capture.Planner
import Mathlib.Data.List.Chain

/-! One take on the native recording path: `process_frame` from the validator to
the frame index, and the camera loop around it. The encoder, the index writer and
the other threads are the environment: `WriteEnv` says how the first two answer
for one frame, and an `Interrupt` is a section that another thread runs on the
shared state. Between two frames any of them may run, and inside a frame they may
run while it is being written and before its failure is reported. -/

namespace Conductor.Capture

open Word64

/-- A row of `frames.ndjson`, without its constant schema and its timestamp audit. -/
structure FrameRow where
  sessionId : String
  frame : ℕ
  sourceSequence : ℕ
  hostMonotonicNs : ℕ
  segmentIndex : ℕ
  segmentFrame : ℕ

structure RecordingSink where
  sessionId : String
  /-- The rows that the frame index writer accepted. -/
  frames : List FrameRow := []
  bytesWritten : ℕ := 0
  framesWritten : ℕ := 0
  imuSamplesWritten : ℕ := 0
  closed : Bool := false

namespace RecordingSink

def alreadyClosed : RuntimeError := ⟨"invalid_state", "recording sink is already closed"⟩

/-- `accepted` is the answer of `ArtifactWriter::write`: the bytes it took, or its error. -/
def writeAuditedFrameIndex (s : RecordingSink) (frame sourceSequence hostMonotonicNs segmentIndex
    segmentFrame : ℕ) (accepted : Except RuntimeError ℕ) : Except RuntimeError ℕ × RecordingSink :=
  if s.closed then (.error alreadyClosed, s)
  else
    match accepted with
    | .error e => (.error e, s)
    | .ok written =>
      let s := { s with frames := s.frames ++
        [⟨s.sessionId, frame, sourceSequence, hostMonotonicNs, segmentIndex, segmentFrame⟩] }
      match checkedAdd s.bytesWritten written with
      | none => (.error ⟨"write_failed", "recording byte count overflow"⟩, s)
      | some bytes =>
        let s := { s with bytesWritten := bytes }
        match checkedAdd s.framesWritten 1 with
        | none => (.error ⟨"write_failed", "frame count overflow"⟩, s)
        | some n => (.ok written, { s with framesWritten := n })

/-- The counters that an IMU sample of `written` bytes moves. -/
def writeImuSample (s : RecordingSink) (written : ℕ) : RecordingSink :=
  if s.closed then s
  else
    match checkedAdd s.bytesWritten written with
    | none => s
    | some bytes =>
      match checkedAdd s.imuSamplesWritten 1 with
      | none => { s with bytesWritten := bytes }
      | some n => { s with bytesWritten := bytes, imuSamplesWritten := n }

def close (s : RecordingSink) : RecordingSink := { s with closed := true }

@[simp] theorem writeImuSample_frames (s : RecordingSink) (n : ℕ) :
    (s.writeImuSample n).frames = s.frames := by
  unfold writeImuSample
  split_ifs
  · rfl
  · split
    · rfl
    · split <;> rfl

/-- A write adds the row or nothing, and only an answer of the writer adds it. -/
theorem writeAuditedFrameIndex_frames (s : RecordingSink) (f q h i j : ℕ)
    (accepted : Except RuntimeError ℕ) :
    (s.writeAuditedFrameIndex f q h i j accepted).2.frames = s.frames ++ [⟨s.sessionId, f, q, h, i, j⟩] ∨
      ((s.writeAuditedFrameIndex f q h i j accepted).2.frames = s.frames ∧
        ∃ e, (s.writeAuditedFrameIndex f q h i j accepted).1 = .error e) := by
  unfold writeAuditedFrameIndex
  split_ifs
  · exact .inr ⟨rfl, _, rfl⟩
  · split
    · exact .inr ⟨rfl, _, rfl⟩
    · left
      simp only
      split
      · rfl
      · split <;> rfl

end RecordingSink

/-! ### The payload of a side-by-side frame -/

/-- The first position of two adjacent bytes. -/
def windowPosition (a b : UInt8) : List UInt8 → Option ℕ
  | x :: y :: rest =>
    if x = a ∧ y = b then some 0 else (windowPosition a b (y :: rest)).map (· + 1)
  | _ => none

/-- The last position of two adjacent bytes. -/
def windowRposition (a b : UInt8) : List UInt8 → Option ℕ
  | x :: y :: rest =>
    match windowRposition a b (y :: rest) with
    | some i => some (i + 1)
    | none => if x = a ∧ y = b then some 0 else none
  | _ => none

def incompleteJpeg : RuntimeError := ⟨"bad_frame", "原始 SBS 帧不是完整 JPEG"⟩

/-- The enclosing JPEG: from the first start marker to the last end marker. -/
def jpegPayload (payload : List UInt8) : Except RuntimeError (List UInt8) :=
  match windowPosition 0xff 0xd8 payload with
  | none => .error incompleteJpeg
  | some start =>
    match (windowRposition 0xff 0xd9 payload).filter (start ≤ ·) with
    | none => .error incompleteJpeg
    | some stop => .ok ((payload.take (stop + 2)).drop start)

/-! ### Writing one frame -/

/-- The resources of one `SplitSinkRecording` that a frame write goes through. -/
structure Take where
  activeTake : ActiveTakeWriter
  sink : RecordingSink
  segmentPlanner : RecordingSegmentPlanner
  recordingStartMonotonicNs : ℕ

inductive Interrupt where
  | beginStop | clearTarget | imuFailure

def Interrupt.run (s : State) : Interrupt → State
  | .beginStop => s.beginRecordingStop.2
  | .clearTarget => s.clearRecording
  | .imuFailure => (s.reportRecordingFailure none).2

structure WriteEnv where
  encoder : List UInt8 → Except RuntimeError Unit
  index : Except RuntimeError ℕ
  duringWrite : List Interrupt := []
  beforeReport : List Interrupt := []

def elapsedSeconds (hostMonotonicNs start : ℕ) : ℚ :=
  if start ≤ hostMonotonicNs then ((hostMonotonicNs - start : ℕ) : ℚ) / 1000000000 else 0

def rawFrameUnavailable : RuntimeError := ⟨"raw_frame_unavailable",
  "production split-eye recording is missing raw side-by-side MJPEG frame"⟩

/-- The encoder, the index and the release of a reserved frame. -/
def Take.submit (t : Take) (reserved : ReservedFrame) (plan : SegmentFramePlan) (payload : List UInt8)
    (env : WriteEnv) : Except RuntimeError Unit × Take :=
  match env.encoder payload with
  | .error e => (.error e, t)
  | .ok () =>
    match t.sink.writeAuditedFrameIndex reserved.recordSequence reserved.sourceSequence
        reserved.hostMonotonicNs plan.segmentIndex plan.segmentFrame env.index with
    | (.error e, sink) => (.error e, { t with sink })
    | (.ok written, sink) =>
      let finished := t.activeTake.finishFrame reserved written
      (finished.1, { t with sink, activeTake := finished.2 })

def writeSplitSinkFrame (t : Take) (frame : Frame) (droppedBefore : ℕ) (env : WriteEnv) :
    Except RuntimeError Unit × Take :=
  if frame.rawSideBySide.isEmpty then (.error rawFrameUnavailable, t)
  else
    match jpegPayload frame.rawSideBySide with
    | .error e => (.error e, t)
    | .ok payload =>
      match t.activeTake.reserveFrame ⟨frame.sourceSequence, frame.hostMonotonicNs, droppedBefore⟩ with
      | (.error e, activeTake) => (.error e, { t with activeTake })
      | (.ok reserved, activeTake) =>
        match t.segmentPlanner.nextFrame reserved.recordSequence
            (elapsedSeconds frame.hostMonotonicNs t.recordingStartMonotonicNs) with
        | (.error e, segmentPlanner) => (.error e, { t with activeTake, segmentPlanner })
        | (.ok plan, segmentPlanner) =>
          { t with activeTake, segmentPlanner }.submit reserved plan payload env

/-! ### The camera loop on one take -/

/-- The shared state, the take, and whether `run_loop` still reads frames. -/
structure CaptureRun where
  state : State
  take : Take
  alive : Bool := true

def processFrame (c : CaptureRun) (frame : Frame) (env : WriteEnv) :
    Except RuntimeError Unit × CaptureRun :=
  match c.state.admitFrame frame with
  | (.error e, state) => (.error e, { c with state })
  | (.ok admission, state) =>
    match admission.dispatch with
    | none => (.ok (), { c with state })
    | some target =>
      let written := writeSplitSinkFrame c.take frame admission.droppedBefore env
      match (env.duringWrite.foldl Interrupt.run state).finishRecordingFrame with
      | (.error e, state) => (.error e, { c with state, take := written.2 })
      | (.ok (), state) =>
        match written.1 with
        | .ok () => (.ok (), { c with state, take := written.2 })
        | .error _ =>
          let state := env.beforeReport.foldl Interrupt.run state
          (.ok (), { c with state := (state.reportRecordingFailure (some target.take)).2,
                            take := written.2 })

inductive Event where
  | frame (frame : Frame) (env : WriteEnv)
  | interrupt (i : Interrupt)
  | imuSample (written : ℕ)
  | closeSink
  | finishTake
  | loopExit

/-- One event of a take; an error of `process_frame` ends the camera loop. -/
def deliver (c : CaptureRun) : Event → CaptureRun
  | .frame frame env =>
    if c.alive then
      match processFrame c frame env with
      | (.ok (), c) => c
      | (.error e, c) => { c with state := (c.state.setTerminalError e).2, alive := false }
    else c
  | .interrupt i => { c with state := i.run c.state }
  | .imuSample written => { c with take := { c.take with sink := c.take.sink.writeImuSample written } }
  | .closeSink => { c with take := { c.take with sink := c.take.sink.close } }
  | .finishTake => { c with take := { c.take with activeTake := c.take.activeTake.finish.2 } }
  | .loopExit => { c with state := c.state.runLoopExit.2, alive := false }

def deliverAll (c : CaptureRun) (events : List Event) : CaptureRun := events.foldl deliver c

/-- A take begins: fresh writer, sink and planner, and a successful `start_recording`. -/
def beginTake (s : State) (target : Target) (sessionId : String) (segmentFrames start : ℕ) :
    Except RuntimeError CaptureRun := do
  let activeTake ← ActiveTakeWriter.new sessionId
  let segmentPlanner ← RecordingSegmentPlanner.new segmentFrames
  let state ← s.startRecording target
  return { state, take := ⟨activeTake, { sessionId }, segmentPlanner, start⟩ }

def CaptureRun.rows (c : CaptureRun) : List FrameRow := c.take.sink.frames

end Conductor.Capture
