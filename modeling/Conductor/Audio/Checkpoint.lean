import Conductor.Audio.Clock
import Conductor.Audio.Journal
import Conductor.Lib.Runs

/-! The capture loop that observes the audio clock, the segment writer, and the commit worker
that publishes checkpoints. Every section under the lock of the clock checkpoint is a step of
its own, so a commit can fall between any two of them. The encoders, the parser and the hash
are parameters; a running hash is the bytes that it was fed. -/

namespace Conductor.Audio.Checkpoint

open Word64 ByteLines Journal Runs

/-! ### Records -/

structure ClockCheckpoint where
  started : UInt64
  periodFrames : UInt64
  bufferFrames : UInt64
  anchors : List Anchor := []
  lastAnchor : Option Anchor := none

structure CheckpointJournal where
  file : Bool := false
  digest : List UInt8 := []
  bytes : ℕ := 0
  records : ℕ := 0
  anchors : ℕ := 0
  segments : ℕ := 0
  failed : Bool := false

structure CheckpointDelta where
  sequence : ℕ
  anchors : List Anchor
  segments : List AudioSegment
  deriving DecidableEq

structure CheckpointHeader where
  journalBytes : ℕ
  journalRecords : ℕ
  journalSha256 : String
  anchorCount : ℕ
  segmentCount : ℕ
  lastAnchor : Option Anchor
  sampleCount : ℕ
  threadStartedMonotonicNs : UInt64
  periodFrames : UInt64
  bufferFrames : UInt64
  queueCapacityFrames : ℕ
  queuePeakFrames : UInt64
  maxWriteNs : UInt64
  deriving DecidableEq

/-- `QUEUE_BLOCKS * DEFAULT_PERIOD_FRAMES`. -/
def queueCapacityFrames : ℕ := 768 * 1024

/-! ### Documents -/

def natValue (n : ℕ) : PyValue := .int n

def wordValue (w : UInt64) : PyValue := natValue w.toNat

def anchorValue (a : Anchor) : PyValue := .list ([a.position, a.raw, a.mono, a.before, a.after].map wordValue)

/-- `CheckpointSegment`. -/
def segmentValue (s : AudioSegment) : PyValue :=
  .dict [(.text "end_sample", natValue s.endSample), (.text "index", natValue s.index),
    (.text "path", .str (.text s.path)), (.text "start_sample", natValue s.startSample)]

def CheckpointDelta.value (d : CheckpointDelta) : PyValue :=
  .dict [(.text "sequence", natValue d.sequence), (.text "anchors", .list (d.anchors.map anchorValue)),
    (.text "segments", .list (d.segments.map segmentValue))]

def CheckpointHeader.items (h : CheckpointHeader) : Items :=
  [(.text "schema", .str schema), (.text "journal_bytes", natValue h.journalBytes),
    (.text "journal_records", natValue h.journalRecords), (.text "journal_sha256", .str (.text h.journalSha256)),
    (.text "anchor_count", natValue h.anchorCount), (.text "segment_count", natValue h.segmentCount),
    (.text "last_anchor", (h.lastAnchor.map anchorValue).getD .none), (.text "sample_count", natValue h.sampleCount),
    (.text "thread_started_monotonic_ns", wordValue h.threadStartedMonotonicNs),
    (.text "period_frames", wordValue h.periodFrames), (.text "buffer_frames", wordValue h.bufferFrames),
    (.text "queue_capacity_frames", natValue h.queueCapacityFrames),
    (.text "queue_peak_frames", wordValue h.queuePeakFrames), (.text "max_write_ns", wordValue h.maxWriteNs)]

structure Codec where
  encodeDelta : CheckpointDelta → Option (List UInt8)
  encodeHeader : CheckpointHeader → Option (List UInt8)
  loads : List UInt8 → Option PyValue
  hexdigest : List UInt8 → String

/-- An encoded document is one line, and it parses to the document; a hash is printed as
64 hexadecimal digits. -/
structure Codec.Faithful (k : Codec) : Prop where
  line : ∀ d b, k.encodeDelta d = some b → newline ∉ b
  delta : ∀ d b, k.encodeDelta d = some b → k.loads (b ++ [newline]) = some d.value
  header : ∀ h b, k.encodeHeader h = some b → k.loads b = some (.dict h.items)
  digest : ∀ bytes, isDigest (k.hexdigest bytes) = true

/-! ### One commit -/

/-- For an error of the system the message is its context. -/
structure AudioError where
  code : String
  message : String

/-- `commit_checkpoint` up to the encoding: what it copies under the lock of the clock. -/
def commitSnapshot (clock : Option ClockCheckpoint) (queuePeakFrames maxWriteNs : UInt64)
    (records : List AudioSegment) (journal : CheckpointJournal) :
    Except AudioError (Option (CheckpointHeader × CheckpointDelta)) := do
  if journal.failed then throw ⟨"write_failed", "audio checkpoint writer previously failed"⟩
  match clock with
  | none => return none
  | some clock =>
    if clock.anchors.length < journal.anchors then throw ⟨"audio_failed", "audio checkpoint anchors regressed"⟩
    let head : CheckpointHeader :=
      { journalBytes := 0
        journalRecords := journal.records + 1
        journalSha256 := ""
        anchorCount := clock.anchors.length
        segmentCount := records.length
        lastAnchor := clock.lastAnchor
        sampleCount := (records.getLast?.map (·.endSample)).getD 0
        threadStartedMonotonicNs := clock.started
        periodFrames := clock.periodFrames
        bufferFrames := clock.bufferFrames
        queueCapacityFrames
        queuePeakFrames
        maxWriteNs }
    if records.length < journal.segments then throw ⟨"audio_failed", "audio checkpoint segments regressed"⟩
    return some (head, ⟨journal.records, clock.anchors.drop journal.anchors, records.drop journal.segments⟩)

/-- How far the file operations of a commit get. -/
inductive Outcome where
  /-- The journal cannot be created. -/
  | create
  /-- The row is written only in part, or it is not synced. -/
  | append (written : ℕ)
  /-- The temporary header cannot be created. -/
  | temporary
  /-- The header is not written, synced or renamed. -/
  | rename
  /-- The header is renamed, but its directory is not synced. -/
  | directory
  | done
  deriving DecidableEq

structure Commit where
  journal : CheckpointJournal
  content : List UInt8
  /-- The header that took its name. -/
  published : Option (List UInt8)
  result : Except AudioError Unit

/-- The rest of `commit_checkpoint`, outside the lock. -/
def commitPublish (k : Codec) (head : CheckpointHeader) (delta : CheckpointDelta) (outcome : Outcome)
    (journal : CheckpointJournal) (content : List UInt8) : Commit :=
  match k.encodeDelta delta with
  | none => ⟨journal, content, none, .error ⟨"write_failed", "encode audio checkpoint"⟩⟩
  | some encoded =>
    let bytes := encoded ++ [newline]
    -- Every failure from here on is terminal.
    let failed := { journal with failed := true }
    let opened := { failed with file := true }
    match outcome with
    | .create => ⟨failed, content, none, .error ⟨"write_failed", "create audio checkpoint journal"⟩⟩
    | .append written =>
      ⟨opened, content ++ bytes.take written, none, .error ⟨"write_failed", "sync audio checkpoint journal"⟩⟩
    | outcome =>
      let content := content ++ bytes
      let digest := journal.digest ++ bytes
      let head :=
        { head with journalBytes := journal.bytes + bytes.length, journalSha256 := k.hexdigest digest }
      match k.encodeHeader head with
      | none => ⟨opened, content, none, .error ⟨"write_failed", "encode audio checkpoint header"⟩⟩
      | some encoded =>
        match outcome with
        | .temporary => ⟨opened, content, none, .error ⟨"write_failed", "create audio checkpoint header"⟩⟩
        | .rename => ⟨opened, content, none, .error ⟨"write_failed", "commit audio checkpoint header"⟩⟩
        | .directory => ⟨opened, content, some encoded, .error ⟨"write_failed", "commit audio checkpoint header"⟩⟩
        | _ =>
          ⟨{ file := true, digest, bytes := head.journalBytes, records := head.journalRecords,
             anchors := head.anchorCount, segments := head.segmentCount, failed := false },
            content, some encoded, .ok ()⟩

/-! ### The threads -/

inductive CapturePhase where
  | starting
  | looping
  /-- The anchor is chosen; `last_anchor` is next. -/
  | observed (anchor : Anchor)
  /-- `last_anchor` is set; the anchor is still to be pushed. -/
  | pushing (anchor : Anchor)
  | stopped
  | done

structure Capture where
  phase : CapturePhase := .starting
  lastAnchor : Option Anchor := none
  nextObservationNs : ℕ := 0

inductive Worker where
  | idle
  /-- The records of a batch are durable; the commit is next. -/
  | ready
  | snapshotted (head : CheckpointHeader) (delta : CheckpointDelta)
  /-- A commit or a sync failed. -/
  | ended
  deriving DecidableEq

/-- A header that was published, with the journal and the records at that time. -/
structure Publication where
  head : List UInt8
  journal : List UInt8
  records : List AudioSegment

structure State where
  capture : Capture := {}
  clock : Option ClockCheckpoint := none
  nextIndex : ℕ := 0
  written : ℕ := 0
  /-- The records that the segment writer has submitted. -/
  pending : List AudioSegment := []
  worker : Worker := .idle
  durable : List AudioSegment := []
  journal : CheckpointJournal := {}
  content : List UInt8 := []
  published : List Publication := []

inductive Action where
  | start (started periodFrames bufferFrames : UInt64)
  | observe (row : Anchor)
  | setLast
  | push
  | stop
  | finalPush
  | finishActive (frames : ℕ)
  | sync (count synced : ℕ)
  | snapshot (queuePeakFrames maxWriteNs : UInt64)
  | commit (outcome : Outcome)

def maxPendingCommits : ℕ := 8

/-- The last anchor of the capture is pushed unless it is there already. -/
def ClockCheckpoint.pushLast (clock : ClockCheckpoint) (anchor : Anchor) : ClockCheckpoint :=
  if clock.anchors.getLast? = some anchor then clock else { clock with anchors := clock.anchors ++ [anchor] }

/-- The anchor of an observation, if its clock bridge is valid. -/
def Capture.anchor (c : Capture) (row : Anchor) : Option Anchor :=
  match mappedNs row with
  | .error _ => none
  | .ok _ =>
    let anchor := retainSamePoint c.lastAnchor row
    match mappedNs anchor with
    | .error _ => none
    | .ok _ => some anchor

def step (k : Codec) (s : State) : Action → Option State
  | .start started periodFrames bufferFrames =>
    match s.capture.phase with
    | .starting =>
      some { s with
        clock := some { started, periodFrames, bufferFrames }
        capture := { s.capture with phase := .looping } }
    | _ => none
  | .observe row =>
    match s.capture.phase with
    | .looping =>
      match s.capture.anchor row with
      | none => some { s with capture := { s.capture with phase := .stopped } }
      | some anchor => some { s with capture := { s.capture with phase := .observed anchor } }
    | _ => none
  | .setLast =>
    match s.capture.phase with
    | .observed anchor =>
      let clock := s.clock.map fun clock => { clock with lastAnchor := some anchor }
      if s.capture.nextObservationNs ≤ anchor.raw.toNat then
        some { s with
          clock
          capture := { s.capture with
            phase := .pushing anchor
            nextObservationNs := saturatingAdd anchor.raw.toNat 100000000 } }
      else some { s with clock, capture := { s.capture with phase := .looping, lastAnchor := some anchor } }
    | _ => none
  | .push =>
    match s.capture.phase with
    | .pushing anchor =>
      some { s with
        clock := s.clock.map fun clock => { clock with anchors := clock.anchors ++ [anchor] }
        capture := { s.capture with phase := .looping, lastAnchor := some anchor } }
    | _ => none
  | .stop =>
    match s.capture.phase with
    | .looping => some { s with capture := { s.capture with phase := .stopped } }
    | _ => none
  | .finalPush =>
    match s.capture.phase with
    | .stopped =>
      some { s with
        clock :=
          match s.capture.lastAnchor with
          | none => s.clock
          | some anchor => s.clock.map fun clock => clock.pushLast anchor
        capture := { s.capture with phase := .done } }
    | _ => none
  | .finishActive frames =>
    if 0 < frames ∧ s.written + frames < size then
      some { s with
        nextIndex := s.nextIndex + 1
        written := s.written + frames
        pending := s.pending ++ [⟨s.nextIndex, segmentPath s.nextIndex, s.written, s.written + frames⟩] }
    else none
  | .sync count synced =>
    if s.worker = .idle ∧ 0 < count ∧ count ≤ maxPendingCommits ∧ count ≤ s.pending.length ∧ synced ≤ count then
      some { s with
        pending := s.pending.drop count
        durable := s.durable ++ s.pending.take synced
        worker := if synced = count then .ready else .ended }
    else none
  | .snapshot queuePeakFrames maxWriteNs =>
    match s.worker with
    | .ready =>
      match commitSnapshot s.clock queuePeakFrames maxWriteNs s.durable s.journal with
      | .error _ => some { s with worker := .ended }
      | .ok none => some { s with worker := .idle }
      | .ok (some (head, delta)) => some { s with worker := .snapshotted head delta }
    | _ => none
  | .commit outcome =>
    match s.worker with
    | .snapshotted head delta =>
      if outcome = .create ∧ s.journal.file then none
      else
        let commit := commitPublish k head delta outcome s.journal s.content
        some { s with
          journal := commit.journal
          content := commit.content
          published := s.published ++
            (commit.published.map fun head => ⟨head, commit.content, s.durable⟩).toList
          worker := match commit.result with
            | .ok () => .idle
            | .error _ => .ended }
    | _ => none

end Conductor.Audio.Checkpoint
