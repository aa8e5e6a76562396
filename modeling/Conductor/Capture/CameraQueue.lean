import Conductor.Capture.Bounded
import Conductor.Capture.Runtime
import Conductor.Lib.LossLedger
import Conductor.Lib.Runs

/-! The camera stream and its reader: `run_producer` pushes frames into the bounded
queue, `run_loop` receives and validates them, and `start`, `stop` and the thread
joins of the preview separate one run from the next. Beside the program's own state
the system keeps what its runs have offered, delivered and validated. -/

namespace Conductor.Capture.CameraQueue

open Word64 Runs LossLedger

/-- The head of `process_frame`: the conversions, then the validator. -/
def validateFrame (v : FrameValidator) (frame : Frame) : Except RuntimeError FrameValidation × FrameValidator :=
  match i64TryFrom frame.sourceSequence, i64TryFrom frame.hostMonotonicNs,
      i64TryFrom frame.applicationDroppedBefore with
  | none, _, _ => (.error ⟨"bad_frame", "camera source sequence is out of range"⟩, v)
  | some _, none, _ => (.error ⟨"bad_frame", "camera timestamp is out of range"⟩, v)
  | some _, some _, none => (.error ⟨"invalid_drop_accounting",
      "application dropped frame count is out of range"⟩, v)
  | some sequence, some host, some dropped =>
    v.validate sequence host true (State.framePayload frame) dropped

/-- `run_loop`: not spawned, spawned after the reset, between two frames, in
`process_frame`, or returned. -/
inductive Reader
  | off
  | starting
  | ready
  | holding (frame : Frame)
  | ended
  deriving DecidableEq

def Reader.held : Reader → List Frame
  | .holding frame => [frame]
  | _ => []

structure Validated where
  frame : Frame
  result : Except RuntimeError FrameValidation

structure Sys where
  channel : Bounded.State Frame := {}
  /-- `Lifecycle.state` is `Running`. -/
  running : Bool := false
  /-- `pending_rejected` of the producer thread, while there is one. -/
  pendingRejected : Option ℕ := none
  reader : Reader := .off
  validator : FrameValidator := {}
  /-- Of the current run. -/
  offered : List (Offer Frame) := []
  validated : List Validated := []
  /-- Of all runs. -/
  pushed : List Frame := []
  delivered : List Frame := []

inductive Action
  | start
  | reset
  | frame (frame : Frame)
  | producerExit
  | stop
  | receive (timedOut : Bool)
  | validate
  | leave
  | join

variable (shared : Bounded.Shared Frame)

/-- A frame that `run_producer` has read: the count of the rejected ones goes into it. -/
def produce (s : Sys) (pending : ℕ) (read : Frame) : Sys :=
  let frame := { read with applicationDroppedBefore := pending }
  match s.channel.tryPush shared frame with
  | (.ok (), channel) =>
    { s with
      channel
      pendingRejected := some 0
      offered := s.offered ++ [⟨frame, true⟩]
      pushed := s.pushed ++ [frame] }
  | (.error frame, channel) =>
    { s with
      channel
      pendingRejected := some (frame.applicationDroppedBefore + 1)
      offered := s.offered ++ [⟨frame, false⟩] }

/-- `run_loop` goes on after a valid frame and returns on any error. -/
def step (s : Sys) : Action → Option Sys
  | .start =>
    if !s.running && s.reader == .off then
      some { s with
        channel := s.channel.reopen
        running := true
        pendingRejected := some 0
        reader := .starting
        offered := []
        validated := [] }
    else none
  | .reset =>
    if s.reader == .starting then some { s with validator := s.validator.reset, reader := .ready } else none
  | .frame read => s.pendingRejected.map fun pending => produce shared s pending read
  | .producerExit => if s.pendingRejected.isSome then some { s with pendingRejected := none } else none
  | .stop =>
    if s.running && s.pendingRejected.isNone then
      some { s with channel := s.channel.closeAndClear, running := false }
    else none
  | .receive timedOut =>
    match s.reader with
    | .ready =>
      (s.channel.receive timedOut).map fun
        | (.ok frame, channel) =>
          { s with channel, reader := .holding frame, delivered := s.delivered ++ [frame] }
        | (.error _, channel) => { s with channel, reader := .ended }
    | _ => none
  | .validate =>
    match s.reader with
    | .holding frame =>
      let (result, validator) := validateFrame s.validator frame
      some { s with
        validator
        reader := if result.isOk then .ready else .ended
        validated := s.validated ++ [⟨frame, result⟩] }
    | _ => none
  | .leave => if s.reader == .ready then some { s with reader := .ended } else none
  | .join => if s.reader == .ended then some { s with reader := .off } else none

/-- The camera numbers the frames of a run in increasing order. -/
def SourceIncreasing (s : Sys) (a : Action) (_ : Sys) : Prop :=
  match a with
  | .frame read => ∀ o ∈ s.offered, o.item.sourceSequence < read.sourceSequence
  | _ => True

instance : ∀ s a t, Decidable (SourceIncreasing s a t)
  | s, .frame read, _ => inferInstanceAs (Decidable (∀ o ∈ s.offered, o.item.sourceSequence < read.sourceSequence))
  | _, .start, _ | _, .reset, _ | _, .producerExit, _ | _, .stop, _ | _, .receive _, _ | _, .validate, _
  | _, .leave, _ | _, .join, _ => isTrue trivial

/-! ### What the counters say -/

/-- The source sequence of the frame validated before the `i`-th one of the run. -/
def lastSequence (s : Sys) (i : ℕ) : Option ℕ := ((s.validated.take i).getLast?).map (·.frame.sourceSequence)

def rejected (s : Sys) (last : Option ℕ) (frame : Frame) : ℕ :=
  rejectedBetween Frame.sourceSequence s.offered last frame.sourceSequence

def skipped (s : Sys) (last : ℕ) (frame : Frame) : ℕ :=
  (skippedBetween Frame.sourceSequence s.offered last frame.sourceSequence).card

/-- A validation that accounts for every loss after the frame at `last`; a run has no
sequence number before its first frame, so no source gap there. -/
def Accounted (s : Sys) (last : Option ℕ) (v : Validated) : Prop :=
  match v.result with
  | .ok g => g.queueRejected = rejected s last v.frame ∧
      g.sourceGap = (last.map fun l => skipped s l v.frame).getD 0 ∧ g.droppedBefore = g.queueRejected + g.sourceGap
  | .error e => e.code ≠ "invalid_drop_accounting"

/-- The frames received in the current run. -/
def received (s : Sys) : List Frame := s.validated.map (·.frame) ++ s.reader.held

structure Lossless (s : Sys) : Prop where
  within : s.channel.Within shared
  /-- Over all runs, what is delivered or queued was pushed, in this order and once. -/
  order : (s.delivered ++ s.channel.values).Sublist s.pushed
  /-- In one run nothing that was accepted is passed over. -/
  complete : received s <+: taken s.offered
  queued : s.running = true → taken s.offered = received s ++ s.channel.values
  accounted : ∀ i v, s.validated[i]? = some v → Accounted s (lastSequence s i) v

end Conductor.Capture.CameraQueue
