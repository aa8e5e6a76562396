import Conductor.Lib.ByteLines
import Conductor.Lib.PyValue
import Conductor.Recovery.Index

/-! `_frames`: the derived frame index of an interrupted take. The take's directory is a
regular one, and the file operations succeed; the JSON codec is a parameter. -/

namespace Conductor.Recovery

open ByteLines

/-! ### Lines and records -/

/-- `_MAX_JOURNAL_LINE_BYTES`. -/
def maxJournalLineBytes : ℕ := 1024 * 1024

def journalLinesFrom : ℕ → List UInt8 → List (List UInt8)
  | 0, _ => []
  | fuel + 1, content =>
    let line := readline (maxJournalLineBytes + 1) content
    if maxJournalLineBytes < line.length ∨ endsWithNewline line = false then []
    else line :: journalLinesFrom fuel (content.drop line.length)

/-- `_journal_lines`. Each line has a byte at least. -/
def journalLines (content : List UInt8) : List (List UInt8) := journalLinesFrom (content.length + 1) content

/-- `loads` is `none` when it raises, always an error that the loop catches; `dumps` is `none`
for a value that is nested too deep. -/
structure Json where
  loads : List UInt8 → Option PyValue
  dumps : PyValue → Option PyStr

def jsonBytes (json : Json) (value : PyValue) : Except PyError (List UInt8) :=
  match json.dumps value with
  | none => .error .recursionError
  | some (.text rendered) => .ok (rendered ++ "\n").toUTF8.toList
  | some (.surrogates _) => .error .unicodeEncodeError

/-! ### The checks of a row -/

structure Segment where
  startOrdinal : ℕ
  endOrdinal : ℕ

/-- What the rows of a take are checked against. -/
structure Take where
  sessionId : PyStr
  decimation : ℤ
  segments : List Segment

/-- The conditions of one `or`, from left to right. -/
def anyOf : List (Except PyError Bool) → Except PyError Bool
  | [] => .ok false
  | condition :: rest => do
    if ← condition then return true
    anyOf rest

/-- The conditions on two rows that follow each other. -/
def stepInvalid (take : Take) (previous row : PyValue) : Except PyError Bool :=
  anyOf [
    do
      let step ← (← row.item "source_sequence").sub (← previous.item "source_sequence")
      return !step.eqInt take.decimation,
    do
      let host ← row.item "host_monotonic_ns"
      host.le (← previous.item "host_monotonic_ns")]

def rowInvalid (take : Take) (segmentIndex : ℕ) (segment : Segment) (count : ℕ) (previous : Option PyValue)
    (line : List UInt8) (row : PyValue) : Except PyError Bool :=
  anyOf [
    return !endsWithNewline line,
    return !(← row.item "session_id").eqStr take.sessionId,
    return !(← (← row.item "schema").inStrings ["ylx.frame-index.v1", "ylx.frame-index.v2"]),
    return !(← row.item "frame").eqInt count,
    return !(← row.item "segment_index").eqInt segmentIndex,
    return !(← row.item "segment_frame").eqInt (count - segment.startOrdinal),
    return (← row.item "host_monotonic_ns").asInt.isNone,
    return ← (← row.item "host_monotonic_ns").le (.int 0),
    (previous.map (stepInvalid take · row)).getD (.ok false)]

/-- The errors that the loop over the rows takes for the end of the valid ones. -/
def PyError.caught : PyError → Bool
  | .valueError | .unicodeEncodeError | .keyError | .typeError | .recursionError => true
  | .overflowError | .zstdError => false

/-- The `try` of the loop: the row, `none` where the loop breaks, or the error that gets out. -/
def checkRow (json : Json) (take : Take) (segmentIndex : ℕ) (segment : Segment) (count : ℕ)
    (previous : Option PyValue) (line : List UInt8) : Except PyError (Option PyValue) :=
  match json.loads line with
  | none => .ok none
  | some row =>
    match rowInvalid take segmentIndex segment count previous line row with
    | .ok true => .ok none
    | .ok false => .ok (some row)
    | .error e => if PyError.caught e then .ok none else .error e

/-! ### The loop -/

/-- The host time of a checked row. -/
def hostNs (row : PyValue) : ℤ := ((row.item "host_monotonic_ns").toOption.bind (·.asInt)).getD 0

structure Recovering where
  segmentIndex : ℕ := 0
  count : ℕ := 0
  committedCount : ℕ := 0
  checkpoint : Option Checkpoint := none
  first : Option ℤ := none
  lastCommitted : Option ℤ := none
  segmentFirst : Option ℤ := none
  previous : Option PyValue := none
  serializationError : Option PyError := none
  boundaries : ℕ → Option ℤ := fun _ => none
  writer : RecoveryIndex
  output : Output := {}

/-- A row goes to the index until one cannot be encoded; that error is put off. -/
def Recovering.serialize (z : Zstd) (json : Json) (st : Recovering) (row : PyValue) : Except PyError Recovering :=
  match st.serializationError with
  | some _ => .ok st
  | none =>
    match jsonBytes json row with
    | .ok payload =>
      let (writer, output) := st.writer.write z st.output payload
      .ok { st with writer, output }
    | .error .unicodeEncodeError => .ok { st with serializationError := some .unicodeEncodeError }
    | .error e => .error e

/-- The end of a segment: the error that was put off, or a checkpoint. -/
def Recovering.commit (z : Zstd) (segment : Segment) (host : ℤ) (st : Recovering) : Except PyError Recovering :=
  match st.serializationError with
  | some e => .error e
  | none =>
    let (checkpoint, writer, output) := st.writer.checkpoint z st.output
    .ok { st with
      writer, output
      committedCount := st.count
      checkpoint := some checkpoint
      lastCommitted := some host
      boundaries := Function.update st.boundaries segment.startOrdinal st.segmentFirst
      segmentIndex := st.segmentIndex + 1 }

/-- The part of the loop behind the checks. -/
def Recovering.onRow (z : Zstd) (json : Json) (segment : Segment) (st : Recovering) (row : PyValue) :
    Except PyError Recovering := do
  let host := hostNs row
  let st := { st with
    first := st.first.or (some host)
    segmentFirst := if st.count = segment.startOrdinal then some host else st.segmentFirst }
  let st ← st.serialize z json row
  let st := { st with count := st.count + 1, previous := some row }
  if st.count = segment.endOrdinal then st.commit z segment host else .ok st

def recoverLoop (z : Zstd) (json : Json) (take : Take) : Recovering → List (List UInt8) → Except PyError Recovering
  | st, [] => .ok st
  | st, line :: rest =>
    match take.segments[st.segmentIndex]? with
    | none => .ok st
    | some segment => do
      match ← checkRow json take st.segmentIndex segment st.count st.previous line with
      | none => return st
      | some row =>
        let st ← st.onRow z json segment row
        recoverLoop z json take st rest

/-! ### The publication -/

structure RecoveredFrames where
  count : ℕ
  firstMonotonicNs : ℤ
  lastMonotonicNs : ℤ
  boundaryMonotonicNs : ℕ → Option ℤ
  path : String
  storageEncoding : Option StorageEncoding

/-- What `_frames` returns or raises, the list of segments that it leaves, and the bytes that
replace the derived index, if any do. -/
structure FramesResult where
  result : Except PyError (Option RecoveredFrames)
  segments : List Segment
  index : Option (List UInt8)

/-- `type(origin) is int and 0 < origin <= first`. -/
def originValid (origin : PyValue) (first : ℤ) : Bool :=
  match origin with
  | .int n => 0 < n ∧ n ≤ first
  | _ => false

/-- The part of `_frames` behind the loop. -/
def Recovering.publish (z : Zstd) (hexdigest : List UInt8 → String) (compressed : Bool) (origin : PyValue)
    (segments : List Segment) (st : Recovering) : FramesResult :=
  let segments := segments.take st.segmentIndex
  if st.committedCount = 0 then ⟨.ok none, segments, none⟩
  else
    match st.checkpoint, st.first, st.lastCommitted with
    | some checkpoint, some first, some last =>
      if originValid origin first = false then ⟨.error .valueError, segments, none⟩
      else
        let (writer, output) := st.writer.rollback st.output checkpoint
        let (writer, output) := writer.finish z output
        match writer.verify z hexdigest output.content with
        | .error (.mismatch _) => ⟨.error .valueError, segments, none⟩
        | .error (.codec _) => ⟨.error .zstdError, segments, none⟩
        | .ok encoding =>
          let path := "recovery/frames.ndjson" ++ if compressed then ".zst" else ""
          ⟨.ok (some ⟨st.committedCount, first, last, st.boundaries, path, encoding⟩), segments,
            some output.content⟩
    | _, _, _ => ⟨.error .typeError, segments, none⟩

/-- `_frames` on the bytes of the journal. -/
def frames (z : Zstd) (json : Json) (hexdigest : List UInt8 → String) (take : Take) (origin : PyValue)
    (compressed : Bool) (content : List UInt8) : FramesResult :=
  match recoverLoop z json take { writer := { compressed } } (journalLines content) with
  | .error e => ⟨.error e, take.segments, none⟩
  | .ok st => st.publish z hexdigest compressed origin take.segments

end Conductor.Recovery
