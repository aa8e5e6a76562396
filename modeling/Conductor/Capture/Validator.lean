import Conductor.Capture.Fanout

/-! `FrameValidator`: the order and loss accounting of the frames of one camera
run. An accepted frame has a larger source sequence number and a later host time
than the accepted frame before it, and its gap is split into frames rejected by
the application queue and frames the source lost. -/

namespace Conductor.Capture

structure FrameValidation where
  droppedBefore : ℕ
  queueRejected : ℕ
  sourceGap : ℕ

structure FrameValidator where
  lastSourceSequence : Option ℕ := none
  lastHostTime : Option ℕ := none
  deriving DecidableEq

namespace FrameValidator

def reset (_ : FrameValidator) : FrameValidator := {}

/-- Split the gap before a frame; the first frame of a run has no gap of its own. -/
def gap (v : FrameValidator) (sourceSequence dropped : ℕ) : Except RuntimeError FrameValidation :=
  match v.lastSourceSequence with
  | some last =>
    if sourceSequence ≤ last then
      .error ⟨"sequence_regression", "camera source sequence repeated or regressed"⟩
    else if dropped > sourceSequence - last - 1 then
      .error ⟨"invalid_drop_accounting",
        "application dropped frame count exceeds camera source sequence gap"⟩
    else .ok ⟨sourceSequence - last - 1, dropped, sourceSequence - last - 1 - dropped⟩
  | none => .ok ⟨dropped, dropped, 0⟩

def validate (v : FrameValidator) (sourceSequence hostMonotonicNs : ℤ) (valid hasPayload : Bool)
    (applicationDroppedBefore : ℤ) : Except RuntimeError FrameValidation × FrameValidator :=
  if !valid || sourceSequence < 0 || hostMonotonicNs < 0 || !hasPayload then
    (.error ⟨"bad_frame", "camera returned incomplete or invalid stereo frame"⟩, v)
  else if applicationDroppedBefore < 0 then
    (.error ⟨"invalid_drop_accounting", "application dropped frame count must not be negative"⟩, v)
  else
    match v.gap sourceSequence.toNat applicationDroppedBefore.toNat with
    | .error e => (.error e, v)
    | .ok g =>
      if v.lastHostTime.any (hostMonotonicNs.toNat ≤ ·) then
        (.error ⟨"timestamp_regression", "camera host timestamp repeated or regressed"⟩, v)
      else (.ok g, ⟨some sourceSequence.toNat, some hostMonotonicNs.toNat⟩)

variable {v w : FrameValidator} {seq dropped : ℕ} {g : FrameValidation}

/-- What `gap` says about an accepted frame. -/
theorem gap_ok (h : v.gap seq dropped = .ok g) :
    g.droppedBefore = g.queueRejected + g.sourceGap ∧
      ∀ last, v.lastSourceSequence = some last → last < seq ∧ g.droppedBefore = seq - last - 1 := by
  unfold gap at h
  split at h
  · next last hl =>
    split_ifs at h with h1 h2
    cases h
    refine ⟨by simp only at h2 ⊢; omega, fun last' hl' => ?_⟩
    obtain rfl : last = last' := by simpa [hl] using hl'
    exact ⟨by omega, rfl⟩
  · next hl =>
    cases h
    exact ⟨rfl, by simp [hl]⟩

/-- Everything an accepted frame says about the validator before and after it. -/
theorem validate_ok {host : ℕ} {payload : Bool} (h : v.validate seq host true payload dropped = (.ok g, w)) :
    w = ⟨some seq, some host⟩ ∧ g.droppedBefore = g.queueRejected + g.sourceGap ∧
      (∀ last, v.lastSourceSequence = some last → last < seq ∧ g.droppedBefore = seq - last - 1) ∧
      (∀ last, v.lastHostTime = some last → last < host) := by
  unfold validate at h
  split at h
  · simp at h
  split at h
  · simp at h
  simp only [Int.toNat_natCast] at h
  split at h
  · simp at h
  next g' hg =>
    split at h
    · simp at h
    next hh =>
      simp only [Prod.mk.injEq, Except.ok.injEq] at h
      obtain ⟨rfl, rfl⟩ := h
      obtain ⟨hsum, hlast⟩ := gap_ok hg
      exact ⟨rfl, hsum, hlast, fun last hl => by simpa [hl] using hh⟩

/-- The accounting of an accepted frame is that of its gap. -/
theorem validate_gap {host : ℕ} {payload : Bool}
    {g' : FrameValidation} (h : v.validate seq host true payload dropped = (.ok g, w))
    (hg : v.gap seq dropped = .ok g') : g' = g := by
  unfold validate at h
  simp only [Int.toNat_natCast, hg] at h
  split_ifs at h <;> simp_all

end FrameValidator

end Conductor.Capture
