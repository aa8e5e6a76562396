import Conductor.Lib.Word64

/-! The frame gate of the capture runtime, `CaptureFanoutState`. It decides for
every camera frame whether the active take records it, counts the frames in
flight, and remembers whether the take is stopping and whether its failure has
been reported. A mutating method is a function from the state to its result and
the state it leaves, since an early return keeps what was assigned before it. -/

namespace Conductor.Capture

open Word64

/-- The common shape of `RecordingError`, `StreamError`, `ActiveTakeError` and
`RuntimeError`, which convert into each other field by field. -/
structure RuntimeError where
  code : String
  message : String
  deriving DecidableEq

structure CaptureFanoutDecision where
  publishPreview : Bool
  record : Bool
  droppedBefore : ℕ
  observedFrames : ℕ
  inflightFrames : ℕ
  recordingActive : Bool

structure RecordingState where
  observedFrames : ℕ := 0
  inflightFrames : ℕ := 0
  stopping : Bool := false
  failureReported : Bool := false
  deriving DecidableEq

structure CaptureFanoutState where
  frameDecimation : ℕ
  decimation_pos : 0 < frameDecimation
  recording : Option RecordingState := none

structure CaptureFanoutSnapshot where
  frameDecimation : ℕ
  recordingPresent : Bool
  recordingActive : Bool
  firstFrame : Bool
  observedFrames : ℕ
  inflightFrames : ℕ
  stopping : Bool
  failureReported : Bool

def observedOverflow : RuntimeError := ⟨"counter_overflow", "recording frame gate observed overflow"⟩

def inflightOverflow : RuntimeError := ⟨"counter_overflow", "recording frame gate inflight overflow"⟩

def RecordingState.decision (r : RecordingState) (hasPreview record : Bool) (droppedBefore : ℕ) :
    CaptureFanoutDecision :=
  ⟨hasPreview, record, droppedBefore, r.observedFrames, r.inflightFrames, !r.stopping⟩

namespace CaptureFanoutState

def new (frameDecimation : ℕ) : Except RuntimeError CaptureFanoutState :=
  if h : frameDecimation = 0 then
    .error ⟨"invalid_argument", "frame_decimation must be greater than zero"⟩
  else .ok { frameDecimation, decimation_pos := Nat.pos_of_ne_zero h }

def snapshot (s : CaptureFanoutState) : CaptureFanoutSnapshot :=
  match s.recording with
  | none => ⟨s.frameDecimation, false, false, true, 0, 0, false, false⟩
  | some r => ⟨s.frameDecimation, true, !r.stopping, r.observedFrames == 0, r.observedFrames,
      r.inflightFrames, r.stopping, r.failureReported⟩

/-- A take starts only when none is present, or the last one has stopped and drained. -/
def startRecording (s : CaptureFanoutState) : Except RuntimeError CaptureFanoutState :=
  match s.recording with
  | none => .ok { s with recording := some {} }
  | some existing =>
    if existing.inflightFrames ≠ 0 ∨ existing.stopping = false then
      .error ⟨"invalid_state", "capture fanout is already recording"⟩
    else .ok { s with recording := some {} }

/-- The tail of `beginFrame`: count an admitted frame and report the decision. -/
def decide (s : CaptureFanoutState) (r : RecordingState) (hasPreview record : Bool)
    (droppedBefore : ℕ) : Except RuntimeError CaptureFanoutDecision × CaptureFanoutState :=
  if record then
    match checkedAdd r.inflightFrames 1 with
    | none => (.error inflightOverflow, { s with recording := some r })
    | some n =>
      let r := { r with inflightFrames := n }
      (.ok (r.decision hasPreview true droppedBefore), { s with recording := some r })
  else (.ok (r.decision hasPreview false droppedBefore), { s with recording := some r })

def beginFrame (s : CaptureFanoutState) (droppedBefore : ℕ) (hasPreview : Bool) :
    Except RuntimeError CaptureFanoutDecision × CaptureFanoutState :=
  match s.recording with
  | none => (.ok ⟨hasPreview, false, droppedBefore, 0, 0, false⟩, s)
  | some r =>
    if r.stopping then (.ok (r.decision hasPreview false droppedBefore), s)
    else if r.observedFrames = 0 then
      -- gaps before the first frame belong to preview, not this take
      s.decide { r with observedFrames := 1 } hasPreview true 0
    else
      match (checkedAdd r.observedFrames droppedBefore).bind (checkedAdd · 1) with
      | none => (.error observedOverflow, s)
      | some n =>
        s.decide { r with observedFrames := n } hasPreview
          (droppedBefore != 0 || r.observedFrames % s.frameDecimation == 0) droppedBefore

def finishFrame (s : CaptureFanoutState) : Except RuntimeError ℕ × CaptureFanoutState :=
  match s.recording with
  | none => (.error ⟨"invalid_state", "capture fanout has no recording frame to finish"⟩, s)
  | some r =>
    match checkedSub r.inflightFrames 1 with
    | none => (.error ⟨"invalid_state", "recording frame gate has no inflight frame to finish"⟩, s)
    | some inflight =>
      (.ok inflight, { s with recording :=
        if inflight = 0 ∧ r.stopping then none else some { r with inflightFrames := inflight } })

def startStopping (s : CaptureFanoutState) : ℕ × CaptureFanoutState :=
  match s.recording with
  | none => (0, s)
  | some r =>
    (r.inflightFrames, { s with recording :=
      if r.inflightFrames = 0 then none else some { r with stopping := true } })

def markFailure (s : CaptureFanoutState) : (Bool × ℕ) × CaptureFanoutState :=
  match s.recording with
  | none => ((false, 0), s)
  | some r =>
    let stopped := startStopping { s with recording := some { r with failureReported := true } }
    ((!r.failureReported, stopped.1), stopped.2)

/-! ### What one call can do -/

/-- The recording that `startStopping` leaves. -/
def stopped : Option RecordingState → Option RecordingState
  | none => none
  | some r => if r.inflightFrames = 0 then none else some { r with stopping := true }

@[simp] theorem startStopping_recording (s : CaptureFanoutState) :
    s.startStopping.2.recording = stopped s.recording := by
  unfold startStopping stopped
  cases h : s.recording <;> simp [h]

@[simp] theorem startStopping_frameDecimation (s : CaptureFanoutState) :
    s.startStopping.2.frameDecimation = s.frameDecimation := by
  unfold startStopping
  cases s.recording <;> rfl

theorem startStopping_inflight (s : CaptureFanoutState) :
    s.startStopping.1 = (s.recording.map (·.inflightFrames)).getD 0 := by
  unfold startStopping
  cases s.recording <;> rfl

@[simp] theorem markFailure_recording (s : CaptureFanoutState) :
    s.markFailure.2.recording =
      stopped (s.recording.map fun r => { r with failureReported := true }) := by
  unfold markFailure
  cases h : s.recording <;> simp [h, stopped]

@[simp] theorem markFailure_frameDecimation (s : CaptureFanoutState) :
    s.markFailure.2.frameDecimation = s.frameDecimation := by
  unfold markFailure
  cases s.recording <;> simp

theorem markFailure_shouldReport (s : CaptureFanoutState) :
    s.markFailure.1.1 = true ↔ ∃ r, s.recording = some r ∧ r.failureReported = false := by
  unfold markFailure
  cases s.recording <;> simp

variable {r : RecordingState} {s : CaptureFanoutState} {d : CaptureFanoutDecision}

/-- Finishing the only frame in flight leaves the take idle, or gone if it was stopping. -/
theorem finishFrame_of_one (hs : s.recording = some r) (hr : r.inflightFrames = 1) :
    s.finishFrame = (.ok 0, { s with recording :=
      if r.stopping then none else some { r with inflightFrames := 0 } }) := by
  have h : checkedSub 1 1 = some 0 := by decide
  simp [finishFrame, hs, hr, h]

variable {t : CaptureFanoutState}

theorem startRecording_eq_ok : s.startRecording = .ok t ↔ { s with recording := some {} } = t ∧
      ∀ r, s.recording = some r → r.inflightFrames = 0 ∧ r.stopping = true := by
  unfold startRecording
  split
  · next h => simp [h]
  · next r h =>
    split_ifs with hbusy
    · simp only [h, Option.some.injEq, forall_eq', false_iff, not_and]
      rintro - h0 h1
      simp [h0, h1] at hbusy
    · simp only [not_or, ne_eq, not_not, Bool.not_eq_false] at hbusy
      simp [h, hbusy]

@[simp] theorem decide_frameDecimation (s : CaptureFanoutState) (r : RecordingState) (p b : Bool)
    (n : ℕ) : (s.decide r p b n).2.frameDecimation = s.frameDecimation := by
  unfold decide
  split_ifs
  · split <;> rfl
  · rfl

@[simp] theorem beginFrame_frameDecimation (s : CaptureFanoutState) (n : ℕ) (p : Bool) :
    (s.beginFrame n p).2.frameDecimation = s.frameDecimation := by
  unfold beginFrame
  split
  · rfl
  · split_ifs
    · rfl
    · simp
    · split <;> simp

/-- A stopping or absent take admits nothing and keeps its state. -/
theorem beginFrame_inactive (h : ∀ r, s.recording = some r → r.stopping = true)
    (n : ℕ) (p : Bool) : ∃ d, s.beginFrame n p = (.ok d, s) ∧ d.record = false := by
  unfold beginFrame
  split
  · exact ⟨_, rfl, rfl⟩
  · next r hr => exact ⟨_, if_pos (h r hr), rfl⟩

theorem decide_ok {p b : Bool} {n : ℕ} (h : s.decide r p b n = (.ok d, t)) : d.record = b ∧ d.droppedBefore = n ∧
      t.recording = some { r with inflightFrames := r.inflightFrames + if b then 1 else 0 } := by
  unfold decide at h
  split at h
  · next hb =>
    split at h
    · simp at h
    · next m hm =>
      obtain ⟨-, rfl⟩ := checkedAdd_eq_some.1 hm
      simp only [Prod.mk.injEq, Except.ok.injEq] at h
      obtain ⟨rfl, rfl⟩ := h
      simp [hb, RecordingState.decision]
  · next hb =>
    simp only [Prod.mk.injEq, Except.ok.injEq] at h
    obtain ⟨rfl, rfl⟩ := h
    simp [hb, RecordingState.decision]

/-- An active take records its first frame, every frame after a gap, and every
`frameDecimation`-th observed frame. -/
theorem beginFrame_active (hr : s.recording = some r)
    (hs : r.stopping = false) {n : ℕ} {p : Bool} (h : s.beginFrame n p = (.ok d, t)) :
    (r.observedFrames = 0 ∧ d.record = true ∧ d.droppedBefore = 0 ∧
        t.recording = some { r with observedFrames := 1, inflightFrames := r.inflightFrames + 1 }) ∨
      (r.observedFrames ≠ 0 ∧ d.droppedBefore = n ∧
        (d.record = true ↔ n ≠ 0 ∨ r.observedFrames % s.frameDecimation = 0) ∧ t.recording = some { r with
          observedFrames := r.observedFrames + n + 1
          inflightFrames := r.inflightFrames + if d.record then 1 else 0 }) := by
  unfold beginFrame at h
  simp only [hr, hs, Bool.false_eq_true, ↓reduceIte] at h
  split at h
  · next h0 =>
    obtain ⟨h1, h2, h3⟩ := decide_ok h
    exact .inl ⟨h0, h1, h2, by simpa [hs] using h3⟩
  · next h0 =>
    split at h
    · simp at h
    · next m hm =>
      obtain ⟨k, hk, hm⟩ := Option.bind_eq_some_iff.1 hm
      obtain ⟨-, rfl⟩ := checkedAdd_eq_some.1 hk
      obtain ⟨-, rfl⟩ := checkedAdd_eq_some.1 hm
      obtain ⟨h1, h2, h3⟩ := decide_ok h
      exact .inr ⟨h0, h2, by simp [h1], by rw [h1, h3, hs]⟩

/-- Whether the gate counted the frame as recorded. -/
def recorded : Except RuntimeError CaptureFanoutDecision → Bool
  | .ok d => d.record
  | .error _ => false

theorem decide_gate (s : CaptureFanoutState) (r : RecordingState) (p b : Bool) (n : ℕ) :
    (s.decide r p b n).2.recording = some { r with
      inflightFrames := r.inflightFrames + if recorded (s.decide r p b n).1 then 1 else 0 } := by
  unfold decide
  split
  · split
    · simp [recorded]
    · next m hm =>
      obtain ⟨-, rfl⟩ := checkedAdd_eq_some.1 hm
      simp [recorded, RecordingState.decision]
  · simp [recorded, RecordingState.decision]

/-- Whatever it answers, a frame moves only the two counters of the gate, and the count of
frames in flight only when an active take records it. -/
theorem beginFrame_gate (s : CaptureFanoutState) (n : ℕ) (p : Bool) :
    ∃ k : RecordingState → ℕ, (s.beginFrame n p).2.recording = s.recording.map (fun r => { r with
        observedFrames := k r
        inflightFrames := r.inflightFrames + if recorded (s.beginFrame n p).1 then 1 else 0 }) ∧
      (recorded (s.beginFrame n p).1 = true → ∃ r, s.recording = some r ∧ r.stopping = false) := by
  unfold beginFrame
  cases hs : s.recording with
  | none => exact ⟨fun _ => 0, by simp [recorded, hs]⟩
  | some r =>
    simp only [Option.map_some]
    split
    · exact ⟨(·.observedFrames), by simp [recorded, RecordingState.decision, hs]⟩
    · next hstop =>
      have hactive : ∃ r', some r = some r' ∧ r'.stopping = false := ⟨r, rfl, by simpa using hstop⟩
      split
      · exact ⟨fun _ => 1, decide_gate _ _ _ _ _, fun _ => hactive⟩
      · split
        · exact ⟨(·.observedFrames), by simp [recorded, hs]⟩
        · next m _ => exact ⟨fun _ => m, decide_gate _ _ _ _ _, fun _ => hactive⟩

end CaptureFanoutState

end Conductor.Capture
