import Conductor.Capture.Fanout

/-! `ActiveTakeWriter`: the frame domain of one take. A frame number is reserved
before its row is written and released by `finishFrame`; a failed write stays
pending, so that no later frame can take its place. -/

namespace Conductor.Capture

open Word64

structure ActiveSourceFrame where
  sourceSequence : ℕ
  hostMonotonicNs : ℕ
  sourceGap : ℕ

structure ReservedFrame where
  sessionId : String
  recordSequence : ℕ
  sourceSequence : ℕ
  hostMonotonicNs : ℕ

structure ActiveTakeSnapshot where
  sessionId : String
  frameDomain : ℕ
  framesWritten : ℕ
  bytesWritten : ℕ
  pendingFrames : ℕ

structure ActiveTakeWriter where
  sessionId : String
  frameDomain : ℕ := 0
  framesWritten : ℕ := 0
  bytesWritten : ℕ := 0
  pendingFrame : Option ℕ := none
  closed : Bool := false

namespace ActiveTakeWriter

def new (sessionId : String) : Except RuntimeError ActiveTakeWriter :=
  if sessionId = "" then .error ⟨"invalid_argument", "session_id must not be empty"⟩
  else .ok { sessionId }

def snapshot (w : ActiveTakeWriter) : ActiveTakeSnapshot :=
  ⟨w.sessionId, w.frameDomain, w.framesWritten, w.bytesWritten, if w.pendingFrame.isSome then 1 else 0⟩

def alreadyFinished : RuntimeError := ⟨"invalid_state", "active take is already finished"⟩

def reserveFrame (w : ActiveTakeWriter) (source : ActiveSourceFrame) :
    Except RuntimeError ReservedFrame × ActiveTakeWriter :=
  if w.closed then (.error alreadyFinished, w)
  else if source.sourceGap ≠ 0 then
    (.error ⟨"source_sequence_gap", s!"source frame sequence has a gap of {source.sourceGap}"⟩, w)
  -- a failed write remains pending until teardown
  else if w.pendingFrame.isSome then
    (.error ⟨"invalid_state", "active take already has a pending frame"⟩, w)
  else
    match checkedAdd w.frameDomain 1 with
    | none => (.error ⟨"counter_overflow", "active take frame domain overflow"⟩, w)
    | some next =>
      (.ok ⟨w.sessionId, w.frameDomain, source.sourceSequence, source.hostMonotonicNs⟩,
        { w with frameDomain := next, pendingFrame := some w.frameDomain })

def ensurePending (w : ActiveTakeWriter) (frame : ReservedFrame) : Except RuntimeError Unit :=
  if w.closed then .error alreadyFinished
  else if frame.sessionId ≠ w.sessionId then
    .error ⟨"invalid_session", "reserved frame belongs to another session"⟩
  else if w.pendingFrame ≠ some frame.recordSequence then
    .error ⟨"invalid_state", "reserved frame is not pending"⟩
  else .ok ()

def finishFrame (w : ActiveTakeWriter) (frame : ReservedFrame) (bytesWritten : ℕ) :
    Except RuntimeError Unit × ActiveTakeWriter :=
  match w.ensurePending frame with
  | .error e => (.error e, w)
  | .ok () =>
    match checkedAdd w.framesWritten 1 with
    | none => (.error ⟨"counter_overflow", "active take frame count overflow"⟩, w)
    | some frames =>
      match checkedAdd w.bytesWritten bytesWritten with
      | none => (.error ⟨"counter_overflow", "active take byte count overflow"⟩, w)
      | some bytes =>
        (.ok (), { w with pendingFrame := none, framesWritten := frames, bytesWritten := bytes })

def finish (w : ActiveTakeWriter) : Except RuntimeError ActiveTakeSnapshot × ActiveTakeWriter :=
  if w.closed then (.error alreadyFinished, w)
  else if w.pendingFrame.isSome then
    (.error ⟨"invalid_state", "active take has pending frames"⟩, w)
  else (.ok { w with closed := true }.snapshot, { w with closed := true })

variable {w w' : ActiveTakeWriter} {f : ReservedFrame}

/-- A reservation takes the next number of the frame domain, and only without a gap. -/
theorem reserveFrame_ok {source : ActiveSourceFrame} (h : w.reserveFrame source = (.ok f, w')) :
    source.sourceGap = 0 ∧ w.pendingFrame = none ∧
      f = ⟨w.sessionId, w.frameDomain, source.sourceSequence, source.hostMonotonicNs⟩ ∧
      w' = { w with frameDomain := w.frameDomain + 1, pendingFrame := some w.frameDomain } := by
  unfold reserveFrame at h
  split_ifs at h with h1 h2 h3
  · simp at h
  · simp at h
  · simp at h
  · split at h
    · simp at h
    · next n hn =>
      obtain ⟨-, rfl⟩ := checkedAdd_eq_some.1 hn
      simp only [Prod.mk.injEq, Except.ok.injEq] at h
      obtain ⟨rfl, rfl⟩ := h
      exact ⟨by simpa using h2, by simpa using h3, rfl, rfl⟩

theorem finishFrame_ok {n : ℕ} (h : w.finishFrame f n = (.ok (), w')) :
    w'.pendingFrame = none ∧ w'.frameDomain = w.frameDomain := by
  unfold finishFrame at h
  split at h
  · simp at h
  · split at h
    · simp at h
    · split at h
      · simp at h
      · simp only [Prod.mk.injEq, true_and] at h
        subst h
        exact ⟨rfl, rfl⟩

theorem finish_frameDomain (w : ActiveTakeWriter) : w.finish.2.frameDomain = w.frameDomain := by
  unfold finish
  split_ifs <;> rfl

end ActiveTakeWriter

end Conductor.Capture
