import Conductor.Capture.Fanout
import Mathlib.Algebra.Order.Field.Rat

/-! `RecordingSegmentPlanner`: the segment of every recorded frame, and the
registration of the closed segments of the encoder. The two boundary maps keep
the first record sequence and elapsed time seen at a segment start. A number of
seconds is an exact rational, so it is always finite. -/

namespace Conductor.Capture

open Word64

structure SegmentFramePlan where
  ordinal : ℕ
  segmentIndex : ℕ
  segmentFrame : ℕ
  framesWritten : ℕ
  boundaryRecorded : Bool

structure SegmentPlannerSnapshot where
  segmentFrames : ℕ
  framesWritten : ℕ
  segmentCount : ℕ
  coveredFrames : ℕ
  boundaryCount : ℕ

/-- `entry(key).or_insert(value)`. -/
def orInsert {α : Type*} (m : List (ℕ × α)) (key : ℕ) (value : α) : List (ℕ × α) :=
  if (m.lookup key).isSome then m else (key, value) :: m

@[ext]
structure RecordingSegmentPlanner where
  segmentFrames : ℕ
  segmentFrames_pos : 0 < segmentFrames
  framesWritten : ℕ := 0
  segmentCount : ℕ := 0
  coveredFrames : ℕ := 0
  boundaryRecordSequence : List (ℕ × ℕ) := []
  boundaryElapsed : List (ℕ × ℚ) := []

instance : DecidableEq RecordingSegmentPlanner := fun _ _ => decidable_of_iff _ RecordingSegmentPlanner.ext_iff.symm

def validateNonNegativeFinite (value : ℚ) (name : String) : Except RuntimeError Unit :=
  if 0 ≤ value then .ok ()
  else .error ⟨"segment_invalid", s!"{name} must be finite and non-negative"⟩

namespace RecordingSegmentPlanner

def new (segmentFrames : ℕ) : Except RuntimeError RecordingSegmentPlanner :=
  if h : segmentFrames = 0 then
    .error ⟨"invalid_argument", "segment_frames must be greater than zero"⟩
  else .ok { segmentFrames, segmentFrames_pos := Nat.pos_of_ne_zero h }

def snapshot (p : RecordingSegmentPlanner) : SegmentPlannerSnapshot :=
  ⟨p.segmentFrames, p.framesWritten, p.segmentCount, p.coveredFrames, p.boundaryRecordSequence.length⟩

def recordBoundary (p : RecordingSegmentPlanner) (ordinal recordSequence : ℕ) (elapsed : ℚ) :
    RecordingSegmentPlanner :=
  { p with
    boundaryRecordSequence := orInsert p.boundaryRecordSequence ordinal recordSequence
    boundaryElapsed := orInsert p.boundaryElapsed ordinal elapsed }

def nextFrame (p : RecordingSegmentPlanner) (recordSequence : ℕ) (elapsedSeconds : ℚ) :
    Except RuntimeError SegmentFramePlan × RecordingSegmentPlanner :=
  match validateNonNegativeFinite elapsedSeconds "elapsed_seconds" with
  | .error e => (.error e, p)
  | .ok () =>
    let ordinal := p.framesWritten
    let starts := ordinal % p.segmentFrames == 0
    let recorded := starts && (p.boundaryRecordSequence.lookup ordinal).isNone
    let q := if starts then p.recordBoundary ordinal recordSequence elapsedSeconds else p
    match checkedAdd q.framesWritten 1 with
    | none => (.error ⟨"counter_overflow", "recording segment planner frame overflow"⟩, q)
    | some n =>
      (.ok ⟨ordinal, ordinal / p.segmentFrames, ordinal % p.segmentFrames, n, recorded⟩,
        { q with framesWritten := n })

def registerSegment (p : RecordingSegmentPlanner) (index startOrdinal endOrdinal : ℕ) :
    Except RuntimeError SegmentPlannerSnapshot × RecordingSegmentPlanner :=
  if endOrdinal ≤ startOrdinal then
    (.error ⟨"segment_invalid", "segment ordinal domain is empty or reversed"⟩, p)
  else if index ≠ p.segmentCount then
    (.error ⟨"segment_invalid",
      s!"segment index {index} is not contiguous after {p.segmentCount}"⟩, p)
  else if startOrdinal ≠ p.coveredFrames then
    (.error ⟨"segment_invalid",
      s!"segment starts at {startOrdinal}, expected {p.coveredFrames}"⟩, p)
  else
    let q := { p with coveredFrames := endOrdinal }
    match checkedAdd q.segmentCount 1 with
    | none => (.error ⟨"counter_overflow", "recording segment count overflow"⟩, q)
    | some n => (.ok { q with segmentCount := n }.snapshot, { q with segmentCount := n })

def finish (p : RecordingSegmentPlanner) (submittedFrames frameDomain : ℕ) (durationSeconds : ℚ) :
    Except RuntimeError SegmentPlannerSnapshot × RecordingSegmentPlanner :=
  match validateNonNegativeFinite durationSeconds "duration_seconds" with
  | .error e => (.error e, p)
  | .ok () =>
    if submittedFrames ≠ p.framesWritten then
      (.error ⟨"segment_invalid",
        s!"encoder received {submittedFrames} frames, planner wrote {p.framesWritten}"⟩, p)
    else
      let q := p.recordBoundary p.framesWritten frameDomain durationSeconds
      if q.coveredFrames ≠ q.framesWritten then
        (.error ⟨"segment_invalid",
          s!"segments cover {q.coveredFrames} frames, planner wrote {q.framesWritten} frames"⟩, q)
      else (.ok q.snapshot, q)

/-- The plan of a frame is the division of its ordinal by the segment length. -/
theorem nextFrame_ok {p q : RecordingSegmentPlanner} {n : ℕ} {t : ℚ} {plan : SegmentFramePlan}
    (h : p.nextFrame n t = (.ok plan, q)) :
    plan.ordinal = p.framesWritten ∧ plan.segmentIndex = p.framesWritten / p.segmentFrames ∧
      plan.segmentFrame = p.framesWritten % p.segmentFrames ∧
      q.framesWritten = p.framesWritten + 1 ∧ q.segmentFrames = p.segmentFrames := by
  unfold nextFrame at h
  split at h
  · simp at h
  · simp only at h
    split at h
    · simp at h
    · next m hm =>
      obtain ⟨-, rfl⟩ := checkedAdd_eq_some.1 hm
      simp only [Prod.mk.injEq, Except.ok.injEq] at h
      obtain ⟨rfl, rfl⟩ := h
      split_ifs <;> exact ⟨rfl, rfl, rfl, rfl, rfl⟩

end RecordingSegmentPlanner

end Conductor.Capture
