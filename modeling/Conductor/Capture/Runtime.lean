import Conductor.Capture.Validator

/-! The critical sections of the capture `Runtime` on its shared state. Each
section is one function on `State`; what it does outside the state is in its
result: the target whose capture gate it closes (`requestCaptureStop`) and the
take whose `on_failure` it calls once the lock is released. A target stands for
one `SplitSinkRecording`: its take number, and whether it holds an IMU collector.
Metrics, the preview image and the evidence texts of the frames are left out. -/

namespace Conductor.Capture

open Word64

structure Frame where
  sourceSequence : ℕ
  hostMonotonicNs : ℕ
  applicationDroppedBefore : ℕ
  left : List UInt8
  right : List UInt8
  rawSideBySide : List UInt8
  deriving DecidableEq

structure Target where
  take : ℕ
  imu : Bool
  deriving DecidableEq

structure State where
  fanout : CaptureFanoutState
  validator : FrameValidator := {}
  recording : Option Target := none
  running : Bool := false
  terminalError : Option RuntimeError := none

/-- What `process_frame` takes out of its admission section, and whether the gate
counted the frame as recorded. -/
structure Admission where
  droppedBefore : ℕ
  validation : FrameValidation
  record : Bool
  dispatch : Option Target

/-- What a section leaves to do: a capture gate to close and a callback to make. -/
structure Effects where
  captureStop : Option Target := none
  onFailure : Option ℕ := none

namespace State

def startRecording (s : State) (target : Target) : Except RuntimeError State :=
  if !s.running then .error ⟨"invalid_state", "capture runtime preview is not running"⟩
  else if s.recording.isSome then
    .error ⟨"invalid_state", "capture runtime is already recording"⟩
  else
    match s.fanout.startRecording with
    | .error e => .error e
    | .ok fanout => .ok { s with fanout, recording := some target }

/-- The frames in flight, and the target whose gate closes. -/
def beginRecordingStop (s : State) : (ℕ × Effects) × State :=
  ((s.fanout.startStopping.1, { captureStop := s.recording }),
    { s with fanout := s.fanout.startStopping.2 })

/-- The second section of `stop_recording` when no frame was in flight. -/
def clearRecording (s : State) : State := { s with recording := none }

def framePayload (frame : Frame) : Bool :=
  (!frame.left.isEmpty && !frame.right.isEmpty) || !frame.rawSideBySide.isEmpty

/-- The section of `process_frame` that validates a frame and passes it through the gate. -/
def admitFrame (s : State) (frame : Frame) : Except RuntimeError Admission × State :=
  match i64TryFrom frame.sourceSequence, i64TryFrom frame.hostMonotonicNs,
      i64TryFrom frame.applicationDroppedBefore with
  | none, _, _ => (.error ⟨"bad_frame", "camera source sequence is out of range"⟩, s)
  | some _, none, _ => (.error ⟨"bad_frame", "camera timestamp is out of range"⟩, s)
  | some _, some _, none => (.error ⟨"invalid_drop_accounting",
      "application dropped frame count is out of range"⟩, s)
  | some sequence, some host, some dropped =>
    match s.validator.validate sequence host true (framePayload frame) dropped with
    | (.error e, _) => (.error e, s)
    | (.ok validation, validator) =>
      match s.fanout.beginFrame validation.droppedBefore
          (!frame.left.isEmpty || !frame.rawSideBySide.isEmpty) with
      | (.error e, fanout) => (.error e, { s with validator, fanout })
      | (.ok decision, fanout) =>
        (.ok ⟨decision.droppedBefore, validation, decision.record,
            if decision.record then s.recording else none⟩,
          { s with validator, fanout })

def finishRecordingFrame (s : State) : Except RuntimeError Unit × State :=
  match s.fanout.finishFrame with
  | (.error e, fanout) => (.error e, { s with fanout })
  | (.ok _, fanout) =>
    (.ok (), { s with fanout, recording := if fanout.recording.isNone then none else s.recording })

/-- `preferred` is the take whose callback the reporting thread holds. -/
def reportRecordingFailure (s : State) (preferred : Option ℕ) : Effects × State :=
  let marked := s.fanout.markFailure
  (⟨s.recording, if marked.1.1 then preferred.or (s.recording.map (·.take)) else none⟩,
    { s with fanout := marked.2, recording := if marked.2.recording.isNone then none else s.recording })

def setTerminalError (s : State) (error : RuntimeError) : Effects × State :=
  let marked := s.fanout.markFailure
  (⟨s.recording, if marked.1.1 then s.recording.map (·.take) else none⟩,
    { s with fanout := marked.2, recording := none, running := false, terminalError := some error })

/-- The last section of `run_loop` after a stop was requested. -/
def runLoopExit (s : State) : Effects × State :=
  (⟨s.recording, none⟩,
    { s with fanout := s.fanout.startStopping.2, recording := none, running := false })

/-- The last section of `close`. -/
def closeRuntime (s : State) : State :=
  { s with fanout := s.fanout.startStopping.2, recording := none, running := false }

/-! ### What a section can do -/

theorem startRecording_eq_ok {s t : State} {target : Target} (h : s.startRecording target = .ok t) :
    s.running = true ∧ s.recording = none ∧
      (∀ r, s.fanout.recording = some r → r.inflightFrames = 0 ∧ r.stopping = true) ∧
      t = { s with fanout := { s.fanout with recording := some {} }, recording := some target } := by
  unfold startRecording at h
  split_ifs at h with h1 h2
  split at h
  · cases h
  · next f hf =>
    obtain ⟨rfl, hidle⟩ := CaptureFanoutState.startRecording_eq_ok.1 hf
    cases h
    exact ⟨by simpa using h1, by simpa using h2, hidle, rfl⟩

/-- An admitted frame: the validator accepted it and the gate decided on it. -/
theorem admitFrame_ok {s t : State} {frame : Frame} {a : Admission}
    (h : s.admitFrame frame = (.ok a, t)) :
    ∃ decision, s.validator.validate frame.sourceSequence frame.hostMonotonicNs true
        (framePayload frame) frame.applicationDroppedBefore = (.ok a.validation, t.validator) ∧
      s.fanout.beginFrame a.validation.droppedBefore
        (!frame.left.isEmpty || !frame.rawSideBySide.isEmpty) = (.ok decision, t.fanout) ∧
      a.droppedBefore = decision.droppedBefore ∧ a.record = decision.record ∧
      a.dispatch = (if decision.record then s.recording else none) ∧
      t = { s with validator := t.validator, fanout := t.fanout } := by
  unfold admitFrame at h
  split at h
  · simp at h
  · simp at h
  · simp at h
  · next seq host dropped h1 h2 h3 =>
    obtain ⟨-, rfl⟩ := i64TryFrom_eq_some.1 h1
    obtain ⟨-, rfl⟩ := i64TryFrom_eq_some.1 h2
    obtain ⟨-, rfl⟩ := i64TryFrom_eq_some.1 h3
    split at h
    · simp at h
    · next g v hv =>
      split at h
      · simp at h
      · next d f hf =>
        simp only [Prod.mk.injEq, Except.ok.injEq] at h
        obtain ⟨rfl, rfl⟩ := h
        exact ⟨d, hv, hf, rfl, rfl, rfl, rfl⟩

/-- Whether the gate counted the frame as recorded. -/
def admitted : Except RuntimeError Admission → Bool
  | .ok a => a.record
  | .error _ => false

/-- Admission keeps the target and moves only the counters of the gate. -/
theorem admitFrame_gate {s t : State} {frame : Frame} {res : Except RuntimeError Admission}
    (h : s.admitFrame frame = (res, t)) :
    t.recording = s.recording ∧
      (∃ k : RecordingState → ℕ, t.fanout.recording = s.fanout.recording.map (fun r => { r with
        observedFrames := k r
        inflightFrames := r.inflightFrames + if admitted res then 1 else 0 })) ∧
      (admitted res = true → ∃ r, s.fanout.recording = some r ∧ r.stopping = false) := by
  have hsame : ∃ k : RecordingState → ℕ, s.fanout.recording = s.fanout.recording.map (fun r => { r with
      observedFrames := k r, inflightFrames := r.inflightFrames + if false then 1 else 0 }) :=
    ⟨(·.observedFrames), by simp⟩
  unfold admitFrame at h
  split at h
  iterate 3
    · cases h
      exact ⟨rfl, hsame, by simp [admitted]⟩
  split at h
  · cases h
    exact ⟨rfl, hsame, by simp [admitted]⟩
  · next g v _ =>
    obtain ⟨k, hk, hactive⟩ := s.fanout.beginFrame_gate g.droppedBefore
      (!frame.left.isEmpty || !frame.rawSideBySide.isEmpty)
    split at h
    all_goals
      next hgate =>
      cases h
      rw [hgate] at hk hactive
      exact ⟨rfl, ⟨k, hk⟩, hactive⟩

end State

end Conductor.Capture
