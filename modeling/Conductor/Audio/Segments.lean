import Mathlib.Data.List.Basic
import Mathlib.Algebra.Order.Ring.Nat

/-! `SegmentWriter` and `CommitWorker`: the thread that writes the segments and the thread that
makes them durable, step by step. A step is what one thread does up to its next access to what
both share. A file is its content after the header, with the length that the header declares, and
stays with the segment whose handle it is. Counters are natural numbers: each counts frames, segments
or bytes that were written to the volume, and no volume holds the 2^64 bytes that one of them would have
to pass. The seconds of a segment are left out. -/

namespace Conductor.Audio.Segments

/-- `MAX_PENDING_COMMITS`. -/
def maxPendingCommits : ℕ := 8

/-- `BYTES_PER_SAMPLE`. -/
def bytesPerSample : ℕ := 2

/-- `WAV_HEADER_BYTES`. -/
def wavHeaderBytes : ℕ := 44

/-- What `Recorder::new` and `SegmentWriter::with_progress` have checked. -/
structure Config where
  sampleRateHz : ℕ
  channels : ℕ
  segmentFrames : ℕ
  channels_pos : 0 < channels
  segmentFrames_pos : 0 < segmentFrames

def Config.bytesPerFrame (c : Config) : ℕ := c.channels * bytesPerSample

/-- A buffer of whole frames. -/
structure Block (c : Config) where
  frames : ℕ
  data : List UInt8
  length_data : data.length = frames * c.bytesPerFrame

inductive AudioError
  | tooLarge (message : String)
  | invalidArgument (message : String)
  | failed (message : String)
  | io
  deriving DecidableEq

/-! ### Segments -/

structure AudioSegment where
  index : ℕ
  relativePath : String
  startSample : ℕ
  endSample : ℕ
  deriving DecidableEq

structure WavFile where
  /-- The data length of the header. -/
  declared : ℕ := 0
  payload : List UInt8 := []
  deriving DecidableEq

structure PendingSegment where
  file : WavFile
  record : AudioSegment
  deriving DecidableEq

structure ActiveSegment where
  index : ℕ
  relativePath : String
  file : WavFile := {}
  startSample : ℕ
  dataBytes : ℕ := 0

structure AudioRecordingSnapshot where
  sampleCount : ℕ := 0
  bytesWritten : ℕ := 0
  segmentCount : ℕ := 0

/-- `{:05}`. -/
def fiveDigits (n : ℕ) : String := String.ofList ((Nat.toDigits 10 n).leftpad 5 '0')

def segmentPath (index : ℕ) : String := "audio/audio_" ++ fiveDigits index ++ ".wav"

/-- The checks of `write_wav_header`. -/
def wavHeaderError (c : Config) (dataBytes : ℕ) : Option AudioError :=
  if 2 ^ 32 ≤ dataBytes then some (.tooLarge "WAV segment exceeds 4 GiB")
  else if 2 ^ 32 ≤ 36 + dataBytes then some (.tooLarge "WAV RIFF size overflow")
  else if 2 ^ 16 ≤ c.channels * bytesPerSample then some (.invalidArgument "WAV block align overflow")
  else if 2 ^ 32 ≤ c.sampleRateHz * (c.channels * bytesPerSample) then
    some (.invalidArgument "WAV byte rate overflow")
  else none

structure SegmentWriter where
  nextIndex : ℕ := 0
  active : Option ActiveSegment := none
  records : List AudioSegment := []
  completedSnapshot : AudioRecordingSnapshot := {}

namespace SegmentWriter

def snapshot (c : Config) (w : SegmentWriter) : AudioRecordingSnapshot :=
  match w.active with
  | some active =>
    if 0 < active.dataBytes then
      { sampleCount := max w.completedSnapshot.sampleCount
          (active.startSample + active.dataBytes / c.bytesPerFrame)
        bytesWritten := w.completedSnapshot.bytesWritten + (wavHeaderBytes + active.dataBytes)
        segmentCount := w.completedSnapshot.segmentCount + 1 }
    else w.completedSnapshot
  | none => w.completedSnapshot

/-- `open_segment`. -/
def openSegment (w : SegmentWriter) (startSample : ℕ) : SegmentWriter :=
  { w with
    active := some { index := w.nextIndex, relativePath := segmentPath w.nextIndex, startSample }
    nextIndex := w.nextIndex + 1 }

/-- The record of `finish_active`. -/
def record (c : Config) (segment : ActiveSegment) : AudioSegment :=
  { index := segment.index
    relativePath := segment.relativePath
    startSample := segment.startSample
    endSample := segment.startSample + segment.dataBytes / c.bytesPerFrame }

/-- What `finish_active` does once the segment is accepted. -/
def accepted (w : SegmentWriter) (segment : PendingSegment) : SegmentWriter :=
  { w with
    completedSnapshot :=
      { sampleCount := max w.completedSnapshot.sampleCount segment.record.endSample
        bytesWritten := w.completedSnapshot.bytesWritten + (wavHeaderBytes + segment.file.declared)
        segmentCount := w.completedSnapshot.segmentCount + 1 }
    records := w.records ++ [segment.record] }

end SegmentWriter

/-! ### The two threads -/

/-- The rest of a call of `write_frames`: its buffer, the frames left and those already taken. -/
structure Rest where
  data : List UInt8
  remaining : ℕ
  frameOffset : ℕ
  deriving DecidableEq

/-- Where the thread of the segments is. `finish_active` is left to the rest of its call, or to
that of `finish`. -/
inductive WriterPc
  | idle
  | writing (rest : Rest)
  /-- `finish_active`. -/
  | sealing (rest : Option Rest)
  /-- Between the two accesses of `submit`. -/
  | sending (segment : PendingSegment) (rest : Option Rest)
  /-- `committer.finish`: the channel has no sender any more. -/
  | joining
  | failed (error : AudioError)
  /-- An arithmetic overflow or a slice out of bounds. -/
  | panicked
  deriving DecidableEq

/-- Where the commit worker is. -/
inductive WorkerPc
  | receiving
  | coalescing (batch : List PendingSegment)
  /-- What is left of a batch of `count`. -/
  | committing (batch : List PendingSegment) (count : ℕ)
  /-- After the commit, before the subtraction. -/
  | releasing (count : ℕ)
  | finished
  /-- The error is stored, the channel is still open. -/
  | failing
  | failed
  deriving DecidableEq

structure System where
  pc : WriterPc := .idle
  writer : SegmentWriter := {}
  /-- `total_written_before` of every call. -/
  totalWritten : ℕ := 0
  queue : List PendingSegment := []
  pendingCommits : ℕ := 0
  peakPendingCommits : ℕ := 0
  commitError : Bool := false
  worker : WorkerPc := .receiving
  durableRecords : List PendingSegment := []
  durableSamples : ℕ := 0
  /-- The snapshots in the order in which they were published. -/
  published : List AudioRecordingSnapshot := []
  /-- Everything that the calls were given. -/
  input : List UInt8 := []

namespace System

/-- `publish_snapshot`. -/
def publishSnapshot (c : Config) (s : System) : System :=
  { s with published := s.published ++ [s.writer.snapshot c] }

/-- Where `finish_active` returns to. -/
def resume : Option Rest → WriterPc
  | some rest => .writing rest
  | none => .joining

/-- `write_frames` up to its loop. -/
def writeFrames (c : Config) (s : System) (block : Block c) : System :=
  if s.commitError then { s with pc := .failed (.failed "commit error") }
  else { s with
    pc := .writing { data := block.data, remaining := block.frames, frameOffset := 0 }
    input := s.input ++ block.data }

/-- One pass of the loop of `write_frames`, up to `finish_active`. -/
def pass (c : Config) (s : System) (rest : Rest) : System :=
  let writer := if s.writer.active.isNone then s.writer.openSegment s.totalWritten else s.writer
  match writer.active with
  | none => { s with pc := .failed (.failed "audio segment was not opened") }
  | some active =>
    let segmentWritten := active.dataBytes / c.bytesPerFrame
    if s.writer.active.isNone ∧ (wavHeaderError c 0).isSome then
      { s with pc := .failed ((wavHeaderError c 0).getD .io) }
    else if c.segmentFrames < segmentWritten then { s with pc := .panicked }
    else
      let capacity := c.segmentFrames - segmentWritten
      let selected := min rest.remaining capacity
      let byteStart := rest.frameOffset * c.bytesPerFrame
      let byteLen := selected * c.bytesPerFrame
      if rest.data.length < byteStart + byteLen then { s with pc := .panicked }
      else
        let bytes := (rest.data.drop byteStart).take byteLen
        let active := { active with
          file := { active.file with payload := active.file.payload ++ bytes }
          dataBytes := active.dataBytes + byteLen }
        let rest := { rest with
          remaining := rest.remaining - selected
          frameOffset := rest.frameOffset + selected }
        { s with
          writer := { writer with active := some active }
          totalWritten := s.totalWritten + selected
          pc := if active.dataBytes / c.bytesPerFrame = c.segmentFrames then .sealing (some rest)
            else .writing rest }

/-- `finish_active` up to the reservation of `submit`. -/
def sealActive (c : Config) (s : System) (rest : Option Rest) : System :=
  match s.writer.active with
  | none => { s with pc := .failed (.failed "audio segment is missing") }
  | some segment =>
    let s := { s with writer := { s.writer with active := none } }
    if segment.dataBytes = 0 then { s with pc := resume rest }
    else
      match wavHeaderError c segment.dataBytes with
      | some error => { s with pc := .failed error }
      | none =>
        if s.commitError then { s with pc := .failed (.failed "commit error") }
        else if s.pendingCommits < maxPendingCommits then
          { s with
            pendingCommits := s.pendingCommits + 1
            peakPendingCommits := max s.peakPendingCommits (s.pendingCommits + 1)
            pc := .sending
              { file := { declared := segment.dataBytes
                          payload := segment.file.payload.take segment.dataBytes }
                record := SegmentWriter.record c segment } rest }
        else { s with pc := .failed (.failed "audio durable commit backlog exhausted") }

/-- `try_send` and what follows it. -/
def send (c : Config) (s : System) (segment : PendingSegment) (rest : Option Rest) : System :=
  if s.queue.length < maxPendingCommits ∧ s.worker ≠ .failed then
    publishSnapshot c { s with
      queue := s.queue ++ [segment]
      writer := s.writer.accepted segment
      pc := resume rest }
  else { s with
    pendingCommits := s.pendingCommits - 1
    pc := .failed (.failed "audio commit worker disconnected") }

end System

/-- What happens next. -/
inductive Action (c : Config)
  /-- A call of `write_frames`. -/
  | write (block : Block c)
  /-- The thread of the segments goes on. -/
  | advance
  /-- A call of `finish`. -/
  | finish
  /-- An operation on a file of the segments fails. -/
  | writeError
  /-- The worker goes on. -/
  | work
  /-- The worker finds no further segment in the channel. -/
  | batched
  /-- The sync or the checkpoint of a batch fails. -/
  | commitError

namespace System

/-- The thread of the segments goes on. -/
def advance (c : Config) (s : System) : Option System :=
  match s.pc with
  | .writing rest =>
    if 0 < rest.remaining then some (s.pass c rest)
    else some (publishSnapshot c { s with pc := .idle })
  | .sealing rest => some (s.sealActive c rest)
  | .sending segment rest => some (s.send c segment rest)
  | _ => none

/-- The worker takes a segment, syncs one, or stores what is durable. -/
def work (s : System) : Option System :=
  match s.worker with
  | .receiving =>
    match s.queue with
    | first :: queue => some { s with worker := .coalescing [first], queue }
    | [] => if s.pc = .joining then some { s with worker := .finished } else none
  | .coalescing batch =>
    match s.queue with
    | next :: queue =>
      if batch.length < maxPendingCommits then some { s with worker := .coalescing (batch ++ [next]), queue }
      else none
    | [] => none
  | .committing (pending :: batch) count =>
    some { s with worker := .committing batch count, durableRecords := s.durableRecords ++ [pending] }
  | .committing [] count =>
    some { s with
      worker := .releasing count
      durableSamples := (s.durableRecords.getLast?.map (·.record.endSample)).getD 0 }
  | .releasing count => some { s with worker := .receiving, pendingCommits := s.pendingCommits - count }
  | .failing => some { s with worker := .failed }
  | _ => none

def step (c : Config) (s : System) : Action c → Option System
  | .write block => if s.pc = .idle then some (s.writeFrames c block) else none
  | .advance => s.advance c
  | .finish =>
    if s.pc = .idle then
      some { s with pc := if s.writer.active.isSome then .sealing none else .joining }
    else none
  | .writeError =>
    match s.pc with
    | .writing _ | .sealing _ => some { s with pc := .failed .io }
    | _ => none
  | .work => s.work
  | .batched =>
    match s.worker with
    | .coalescing batch =>
      if batch.length = maxPendingCommits ∨ s.queue = [] then
        some { s with worker := .committing batch batch.length }
      else none
    | _ => none
  | .commitError =>
    match s.worker with
    | .committing _ _ => some { s with worker := .failing, commitError := true }
    | _ => none

end System

/-- The states of all runs. -/
inductive Reachable (c : Config) : System → Prop
  | start : Reachable c {}
  | step {s s' : System} (action : Action c) : Reachable c s → s.step c action = some s' → Reachable c s'

end Conductor.Audio.Segments
