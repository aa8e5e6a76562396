import Conductor.Lib.Runs
import Conductor.Stereo.Ledger
import Conductor.Stereo.PacketQueue

/-! `ylx_stereo_pipeline`: the caller, the split thread, for each eye an output and a writer thread, and
the closer. A call of the codec or of the muxer is answered by the environment; what a thread does
between two of them, or under a lock, is one step. -/

namespace Conductor.Stereo

open Runs Wrap

/-! ### Pictures that a decoder can start at -/

/-- `h264_has_idr`. -/
def h264HasIdr : List UInt8 → Bool
  | a :: b :: c :: d :: rest => (a = 0 && b = 0 && c = 1 && d &&& 0x1f = 5) || h264HasIdr (b :: c :: d :: rest)
  | _ => false

/-- `h265_has_idr`. -/
def h265HasIdr : List UInt8 → Bool
  | a :: b :: c :: d :: e :: rest =>
    (a = 0 && b = 0 && c = 1 && ((d >>> 1) &&& 0x3f = 19 || (d >>> 1) &&& 0x3f = 20) && e &&& 7 ≠ 0) ||
      h265HasIdr (b :: c :: d :: e :: rest)
  | _ => false

/-! ### The state -/

/-- What `ylx_pipeline_open` accepts, as far as the threads read it. -/
structure Config where
  sbsWidth : ℤ
  height : ℤ
  fps : ℕ
  segmentFrames : ℕ
  hevc : Bool
  pathPrefix : String
  fps_pos : 0 < fps
  fps_le : fps ≤ 60

def muxQueueBytes : ℕ := 32 * 1024 * 1024

def muxQueueSeconds : ℕ := 16

def maxPendingSegments : ℕ := 32

def decoderDrainPolls : ℕ := 25

def encoderDrainPolls : ℕ := 25

/-- The first failure that is kept in `error`. -/
inductive Failure where
  | decoderInputInvalid
  | decoderInputDequeueFailed
  | decoderInputCapacity
  | decoderInputQueueFailed
  | decoderDrainTimeout
  | decoderOutputInvalid
  | decoderGeometryMismatch
  | encoderInputDequeueFailed (side : Side)
  | encoderInputQueueFailed (side : Side)
  | encoderDrainTimeout (side : Side)
  | videoWriteBackpressure (side : Side)
  | segmentQueueExhausted
  | segmentOpenFailed (side : Side) (index : ℕ)
  | segmentMissingIdr (side : Side) (index : ℕ)
  | segmentWriteFailed (side : Side) (index : ℕ)
  | segmentSealFailed (side : Side) (index : ℕ)
  | ledger (error : LedgerError)

/-- `segment_t`. -/
structure Segment where
  side : Side
  index : ℕ
  startFrame : ℕ
  endFrame : ℕ := 0
  deriving DecidableEq

/-- `segment->relative`. -/
def Segment.relative (k : Config) (s : Segment) : String :=
  let digits := toString s.index
  k.pathPrefix ++ s.side.name ++ "_" ++ "".pushn '0' (5 - digits.length) ++ digits ++ ".mp4"

/-- `encoder_output_thread`. -/
inductive Output where
  | polling
  | leaving
  | ended
  deriving DecidableEq

/-- `mux_writer_thread`; the packet that it has taken out is given back in `releasing`. -/
inductive Writer where
  /-- In `segment_open`, before and after it has taken one of the pending segments. -/
  | reserving (index start : ℕ) (held : Option Packet)
  | opening (index start : ℕ) (held : Option Packet)
  | popping
  | holding (p : Packet)
  /-- At the last frame of a segment. -/
  | rolling (p : Packet)
  | releasing (p : Packet)
  | closing
  | ended
  deriving DecidableEq

def Writer.held : Writer → Option Packet
  | .reserving _ _ held | .opening _ _ held => held
  | .holding p | .rolling p | .releasing p => some p
  | .popping | .closing | .ended => none

/-- `eye_t`; what the encoder was given, what was pushed and written, and the segments that were closed are
not in the source. -/
structure Eye where
  packets : PacketQueue
  output : Output := .polling
  idlePolls : ℕ := 0
  writer : Writer := .reserving 0 0 none
  writable : Bool := false
  current : Option Segment := none
  ordinal : ℕ := 0
  given : ℕ := 0
  fed : ℕ := 0
  encoded : ℕ := 0
  bytes : ℕ := 0
  pushed : List Packet := []
  written : List Packet := []
  segments : List Segment := []

/-! ### The threads of an eye -/

/-- What a thread of an eye reads and changes: the eye, the count of the pending segments, a segment
for the closer, and whether it has failed. -/
structure Work where
  eye : Eye
  splitDone : Bool
  pendingSegments : ℕ
  closed : List Segment := []
  failure : Option Failure := none
  faulted : Bool := false

namespace Work

/-- What the encoder answers: nothing in its time, or a packet, with the answer of `malloc` for it. -/
inductive Encoded where
  | none
  | packet (data : List UInt8) (allocated : Bool)

/-- `encoder_output_thread`. -/
def outputPoll (k : Config) (side : Side) (w : Work) (encoded : Encoded) : Option Work :=
  let e := w.eye
  if e.output = .polling then
    match encoded with
    | .none =>
      some <| if !w.splitDone then w
        else if e.fed ≤ e.encoded then { w with eye := { e with output := .leaving } }
        else if encoderDrainPolls ≤ e.idlePolls + 1 then
          { w with eye := { e with idlePolls := e.idlePolls + 1, output := .leaving },
                   failure := some (.encoderDrainTimeout side) }
        else { w with eye := { e with idlePolls := e.idlePolls + 1 } }
    | .packet data allocated =>
      let p : Packet := ⟨data, if k.hevc then h265HasIdr data else h264HasIdr data⟩
      let r : Bool × PacketQueue := if 0 < p.size then e.packets.push p allocated else (false, e.packets)
      let e := { e with idlePolls := 0, packets := r.2 }
      some <| if r.1 then { w with eye := { e with encoded := e.encoded + 1, pushed := e.pushed ++ [p] } }
        else { w with eye := { e with output := .leaving }, failure := some (.videoWriteBackpressure side) }
  else none

/-- It closes the queue of its packets. -/
def outputLeave (w : Work) : Option Work :=
  if w.eye.output = .leaving then
    some { w with eye := { w.eye with packets := w.eye.packets.close, output := .ended } }
  else none

/-- After `segment_open`: before the first packet, or with the packet that ended the segment before. -/
def opened (held : Option Packet) : Writer :=
  match held with
  | none => .popping
  | some p => .releasing p

/-- `segment_open`: the count of pending segments is taken if it is below its limit. -/
def writerReserve (w : Work) : Option Work :=
  match w.eye.writer with
  | .reserving index start held =>
    some <| if maxPendingSegments ≤ w.pendingSegments then
        { w with eye := { w.eye with writable := false, writer := opened held }, failure := some .segmentQueueExhausted }
      else
        { w with eye := { w.eye with writer := .opening index start held },
                 pendingSegments := add 32 w.pendingSegments 1 }
  | _ => none

/-- The rest of `segment_open`, in which the allocation and the muxer can fail. -/
def writerOpen (side : Side) (w : Work) (ok : Bool) : Option Work :=
  match w.eye.writer with
  | .opening index start held =>
    some <| if ok then
        { w with eye := { w.eye with current := some ⟨side, index, start, 0⟩, writable := true, writer := opened held } }
      else
        { w with
          eye := { w.eye with writable := false, writer := opened held }
          pendingSegments := sub 32 w.pendingSegments 1
          failure := some (.segmentOpenFailed side index) }
  | _ => none

def popped (answer : Option Packet) : Writer :=
  match answer with
  | some p => .holding p
  | none => .closing

def writerPop (w : Work) : Option Work :=
  if w.eye.writer = .popping then
    w.eye.packets.pop.map fun r => { w with eye := { w.eye with packets := r.2, writer := popped r.1 } }
  else none

/-- The write of the packet, if there was no failure before. -/
def writerWrite (k : Config) (side : Side) (w : Work) (ok : Bool) : Option Work :=
  let e := w.eye
  match e.writer with
  | .holding p =>
    some <| if !e.writable then { w with eye := { e with writer := .releasing p } }
      else match e.current with
        | none => { w with faulted := true }
        | some segment =>
          if e.ordinal = segment.startFrame ∧ !p.keyFrame then
            { w with
              eye := { e with writable := false, writer := .releasing p }
              failure := some (.segmentMissingIdr side segment.index) }
          else if !ok then
            { w with
              eye := { e with writable := false, writer := .releasing p }
              failure := some (.segmentWriteFailed side segment.index) }
          else
            let ordinal := e.ordinal + 1
            { w with eye := { e with
              bytes := e.bytes + p.size
              ordinal := ordinal
              written := e.written ++ [p]
              writer := if 0 < k.segmentFrames ∧ ordinal % k.segmentFrames = 0 then .rolling p else .releasing p } }
  | _ => none

/-- `segment_close`. -/
def segmentClose (w : Work) : Work :=
  match w.eye.current with
  | none => w
  | some segment =>
    let segment := { segment with endFrame := w.eye.ordinal }
    { w with eye := { w.eye with current := none, segments := w.eye.segments ++ [segment] },
             closed := w.closed ++ [segment] }

def writerRoll (k : Config) (w : Work) : Option Work :=
  match w.eye.writer with
  | .rolling p =>
    let w := w.segmentClose
    let e := w.eye
    some { w with eye := { e with writer := .reserving (e.ordinal / k.segmentFrames) e.ordinal (some p) } }
  | _ => none

def writerRelease (w : Work) : Option Work :=
  match w.eye.writer with
  | .releasing p => some { w with eye := { w.eye with packets := w.eye.packets.done p, writer := .popping } }
  | _ => none

/-- After the last packet: the segment is closed, or left as it is where a write has failed. -/
def writerFinish (w : Work) : Option Work :=
  if w.eye.writer = .closing then
    let w :=
      if w.eye.writable then w.segmentClose
      else if w.eye.current.isSome then
        { w with eye := { w.eye with current := none }, pendingSegments := sub 32 w.pendingSegments 1 }
      else w
    some { w with eye := { w.eye with writer := .ended } }
  else none

inductive Action where
  | outputPoll (encoded : Encoded)
  | outputLeave
  | writerReserve
  | writerOpen (ok : Bool)
  | writerPop
  | writerWrite (ok : Bool)
  | writerRoll
  | writerRelease
  | writerFinish

def act (k : Config) (side : Side) (w : Work) : Action → Option Work
  | .outputPoll encoded => w.outputPoll k side encoded
  | .outputLeave => w.outputLeave
  | .writerReserve => w.writerReserve
  | .writerOpen ok => w.writerOpen side ok
  | .writerPop => w.writerPop
  | .writerWrite ok => w.writerWrite k side ok
  | .writerRoll => w.writerRoll k
  | .writerRelease => w.writerRelease
  | .writerFinish => w.writerFinish

end Work

/-! ### The other threads -/

inductive Split where
  | polling
  | feeding (side : Side)
  /-- The half of the picture is in the encoder and not counted yet. -/
  | counting (side : Side)
  /-- Before it reads `failed`. -/
  | checking
  | leaving
  | ended
  deriving DecidableEq

inductive Closer where
  | waiting
  | sealing (segment : Segment)
  | releasing (segment : Segment)
  | ended
  deriving DecidableEq

/-- The caller, in `ylx_pipeline_open`, `ylx_pipeline_submit` and `ylx_pipeline_finish`. -/
inductive Caller where
  | starting
  | idle
  /-- The frame is in the decoder and not counted yet. -/
  | counting
  | joinSplit
  | joinOutput (side : Side)
  | joinWriter (side : Side)
  | stopCloser
  | joinCloser
  | finished (ok : Bool)
  deriving DecidableEq

/-- `struct ylx_pipeline`; `started` counts the threads that run, `accepted` the frames that the decoder
has taken, and `settled` has the segments that the closer is done with. A null pointer that is followed
sets `faulted`. -/
structure Pipeline where
  caller : Caller := .starting
  started : ℕ := 0
  split : Split := .polling
  splitIdlePolls : ℕ := 0
  eyes : Side → Eye
  closer : Closer := .waiting
  closerQueue : List Segment := []
  closerStop : Bool := false
  settled : List Segment := []
  pendingSegments : ℕ := 0
  ledger : Ledger := {}
  offered : ℕ := 0
  accepted : ℕ := 0
  submitted : ℕ := 0
  decoded : ℕ := 0
  dropDecoderInput : ℕ := 0
  dropEncoderInput : ℕ := 0
  dropDecoderOutput : ℕ := 0
  stopping : Bool := false
  splitDone : Bool := false
  failed : Bool := false
  error : Option Failure := none
  faulted : Bool := false

def Pipeline.init (k : Config) : Pipeline :=
  { eyes := fun _ => { packets := { maxBytes := muxQueueBytes, maxFrames := k.fps * muxQueueSeconds } } }

namespace Pipeline

def setEye (s : Pipeline) (side : Side) (e : Eye) : Pipeline := { s with eyes := Function.update s.eyes side e }

def fail (s : Pipeline) (f : Failure) : Pipeline := { s with failed := true, error := s.error.or (some f) }

def work (s : Pipeline) (side : Side) : Work :=
  { eye := s.eyes side, splitDone := s.splitDone, pendingSegments := s.pendingSegments }

def settle (s : Pipeline) (side : Side) (w : Work) : Pipeline :=
  { s.setEye side w.eye with
    pendingSegments := w.pendingSegments
    closerQueue := s.closerQueue ++ w.closed
    failed := s.failed || w.failure.isSome
    error := s.error.or w.failure
    faulted := s.faulted || w.faulted }

/-! ### The caller -/

/-- The threads are created in this order: the closer, the splitter, and for each eye its writer and
its output. -/
def closerThread : ℕ := 0

def splitThread : ℕ := 1

def writerThread : Side → ℕ
  | .left => 2
  | .right => 4

def outputThread : Side → ℕ
  | .left => 3
  | .right => 5

/-- One more thread is created, or the pipeline is closed again. -/
def startThread (s : Pipeline) (ok : Bool) : Option Pipeline :=
  if s.caller = .starting then
    some <| if !ok then { s with failed := true, stopping := true, caller := .joinSplit }
      else { s with started := s.started + 1, caller := if s.started = outputThread .right then .idle else .starting }
  else none

/-- How a frame was taken by the decoder. -/
inductive Input where
  | empty
  | dequeueFailed
  | capacity
  | queueFailed
  | queued

/-- `ylx_pipeline_submit` up to the count of what the decoder has taken. -/
def submit (s : Pipeline) (input : Input) : Option Pipeline :=
  if s.caller = .idle then
    let s := { s with offered := s.offered + 1 }
    let drop := { s with dropDecoderInput := s.dropDecoderInput + 1 }
    some <| if s.failed then s
      else match input with
        | .empty => drop.fail .decoderInputInvalid
        | .dequeueFailed => drop.fail .decoderInputDequeueFailed
        | .capacity => drop.fail .decoderInputCapacity
        | .queueFailed => drop.fail .decoderInputQueueFailed
        | .queued => { s with accepted := s.accepted + 1, caller := .counting }
  else none

/-- The call of `ylx_pipeline_finish`, and each of its joins. -/
def advance (s : Pipeline) : Option Pipeline :=
  match s.caller with
  | .counting => some { s with submitted := s.submitted + 1, caller := .idle }
  | .idle => some { s with stopping := true, caller := .joinSplit }
  | .joinSplit =>
    if s.started ≤ splitThread then some { s with splitDone := true, caller := .joinOutput .left }
    else if s.split = .ended then some { s with caller := .joinOutput .left }
    else none
  | .joinOutput side =>
    let e := s.eyes side
    if s.started ≤ outputThread side ∨ e.output = .ended then
      some { s.setEye side { e with packets := e.packets.close } with caller := .joinWriter side }
    else none
  | .joinWriter side =>
    if s.started ≤ writerThread side ∨ (s.eyes side).writer = .ended then
      some { s with caller := match side with | .left => .joinOutput .right | .right => .stopCloser }
    else none
  | .stopCloser =>
    if s.started ≤ closerThread then some { s with caller := .finished (!s.failed) }
    else some { s with closerStop := true, caller := .joinCloser }
  | .joinCloser => if s.closer = .ended then some { s with caller := .finished (!s.failed) } else none
  | .starting | .finished _ => none

/-! ### The split thread -/

/-- What the decoder answers: nothing in its time, or a picture. -/
inductive Picture where
  | none
  | invalid
  | geometry (width height : ℤ)

def splitPoll (k : Config) (s : Pipeline) (picture : Picture) : Option Pipeline :=
  if s.split = .polling then
    match picture with
    | .none =>
      some <| if !s.stopping then s
        else if s.submitted ≤ s.decoded then { s with split := .leaving }
        else
          let s := { s with splitIdlePolls := s.splitIdlePolls + 1 }
          if decoderDrainPolls ≤ s.splitIdlePolls then { s.fail .decoderDrainTimeout with split := .leaving } else s
    | .invalid =>
      let s := { s with splitIdlePolls := 0, dropDecoderOutput := s.dropDecoderOutput + 1 }
      some { s.fail .decoderOutputInvalid with split := .leaving }
    | .geometry width height =>
      let s := { s with splitIdlePolls := 0 }
      some <| if width ≠ k.sbsWidth ∨ height ≠ k.height then { s.fail .decoderGeometryMismatch with split := .leaving }
        else { s with decoded := s.decoded + 1, split := .feeding .left }
  else none

/-- How the half of the picture was given to the encoder. -/
inductive Feed where
  | dequeueFailed
  | queueFailed
  | queued

def splitFeed (s : Pipeline) (feed : Feed) : Option Pipeline :=
  match s.split with
  | .feeding side =>
    let drop := { s with dropEncoderInput := s.dropEncoderInput + 1, split := .checking }
    some <| match feed with
      | .dequeueFailed => drop.fail (.encoderInputDequeueFailed side)
      | .queueFailed => drop.fail (.encoderInputQueueFailed side)
      | .queued => { s.setEye side { s.eyes side with given := (s.eyes side).given + 1 } with split := .counting side }
  | _ => none

def splitAdvance (s : Pipeline) : Option Pipeline :=
  match s.split with
  | .counting side =>
    some { s.setEye side { s.eyes side with fed := (s.eyes side).fed + 1 } with
      split := match side with | .left => .feeding .right | .right => .checking }
  | .checking => some { s with split := if s.failed then .leaving else .polling }
  | .leaving => some { s with splitDone := true, split := .ended }
  | _ => none

/-! ### The closer -/

def closerTake (s : Pipeline) : Option Pipeline :=
  if s.closer = .waiting then
    match s.closerQueue with
    | segment :: rest => some { s with closerQueue := rest, closer := .sealing segment }
    | [] => if s.closerStop then some { s with closer := .ended } else none
  else none

/-- How the file of a segment was sealed; `done` has its size and the answer of `calloc`. -/
inductive Sealing where
  | stopFailed
  | fixupFailed
  | syncFailed
  | statFailed
  | done (bytes : ℕ) (allocated : Bool)
  deriving DecidableEq

/-- `segment_seal`; a segment without frames is removed. -/
def closerSeal (k : Config) (s : Pipeline) (result : Sealing) : Option Pipeline :=
  match s.closer with
  | .sealing segment =>
    let next := { s with closer := .releasing segment }
    some <| if result = .stopFailed then next.fail (.segmentSealFailed segment.side segment.index)
      else if segment.endFrame = segment.startFrame then next
      else match result with
        | .done bytes allocated =>
          let r := s.ledger.record segment.side segment.index segment.startFrame segment.endFrame
            ⟨segment.relative k, bytes⟩ allocated
          let next := { next with ledger := r.2 }
          match r.1 with
          | none => next
          | some error => next.fail (.ledger error)
        | _ => next.fail (.segmentSealFailed segment.side segment.index)
  | _ => none

def closerRelease (s : Pipeline) : Option Pipeline :=
  match s.closer with
  | .releasing segment =>
    some { s with closer := .waiting, settled := s.settled ++ [segment], pendingSegments := sub 32 s.pendingSegments 1 }
  | _ => none

/-! ### The steps -/

inductive Action where
  | startThread (ok : Bool)
  | submit (input : Input)
  | advance
  | splitPoll (picture : Picture)
  | splitFeed (feed : Feed)
  | splitAdvance
  | eye (side : Side) (a : Work.Action)
  | closerTake
  | closerSeal (result : Sealing)
  | closerRelease

/-- The thread of an action of an eye. -/
def eyeThread (side : Side) : Work.Action → ℕ
  | .outputPoll _ | .outputLeave => outputThread side
  | _ => writerThread side

def Action.thread : Action → Option ℕ
  | .startThread _ | .submit _ | .advance => none
  | .splitPoll _ | .splitFeed _ | .splitAdvance => some splitThread
  | .eye side a => some (eyeThread side a)
  | .closerTake | .closerSeal _ | .closerRelease => some closerThread

def act (k : Config) (s : Pipeline) : Action → Option Pipeline
  | .startThread ok => s.startThread ok
  | .submit input => s.submit input
  | .advance => s.advance
  | .splitPoll picture => s.splitPoll k picture
  | .splitFeed feed => s.splitFeed feed
  | .splitAdvance => s.splitAdvance
  | .eye side a => ((s.work side).act k side a).map (s.settle side)
  | .closerTake => s.closerTake
  | .closerSeal result => s.closerSeal k result
  | .closerRelease => s.closerRelease

/-- A thread steps after it was created. -/
def step (k : Config) (s : Pipeline) (a : Action) : Option Pipeline :=
  if a.thread.all (· < s.started) then s.act k a else none

end Pipeline

end Conductor.Stereo
