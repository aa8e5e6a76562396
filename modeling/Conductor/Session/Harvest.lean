import Conductor.Artifact.Manifest
import Conductor.Lib.KeyTable
import Conductor.Lib.Runs
import Mathlib.Algebra.Order.Ring.Int

/-! The harvest of closed video segments (`_harvest_segments` of the recorder). A call carries what
its operations give: which of them raise, what the finalization of a file answers, and how many frames
get an index while the call runs. Between two calls the helper closes segments and the writer
indexes frames. -/

namespace Conductor.Harvest

open KeyTable

inductive Error where
  | recording (code message : String)
  | other

/-- `ClosedSegment`. -/
structure ClosedSegment where
  index : ℕ
  startFrame : ℕ
  endFrame : ℕ
  leftPath : String
  leftBytes : ℕ
  rightPath : String
  rightBytes : ℕ

/-! ### The inventory -/

/-- A value of a native segment. -/
inductive Raw where
  | int (value : ℤ)
  | text (value : String)
  | other

/-- A native segment, by its keys. -/
abbrev RawSegment := List (String × Raw)

/-- `_native_segment_uint`. -/
def nativeSegmentUint (value : Option Raw) (field : String) : Except Error ℕ :=
  match value with
  | some (.int value) =>
    if value < 0 then .error (.recording "native_recording_segment_planner_failed" (field ++ " 必须是非负整数"))
    else .ok value.toNat
  | _ => .error (.recording "native_recording_segment_planner_failed" (field ++ " 必须是非负整数"))

/-- `_native_segment_path`. The parts of a pure path are neither empty nor a single dot. -/
def nativeSegmentPath (value : Option Raw) (field : String) : Except Error String :=
  match value with
  | some (.text value) =>
    if value = "" ∨ 1024 < value.length ∨ '\\' ∈ value.toList ∨ value.toList.head? = some '/' ∨
        (Artifact.split '/' value.toList).contains ['.', '.'] then
      .error (.recording "native_session_store_failed" (field ++ " 路径无效"))
    else .ok value
  | _ => .error (.recording "native_session_store_failed" (field ++ " 路径无效"))

def closedSegment (item : RawSegment) : Except Error ClosedSegment := do
  let index ← nativeSegmentUint (item.lookup "index") "segment.index"
  let startFrame ← nativeSegmentUint (item.lookup "start_frame") "segment.start_frame"
  let endFrame ← nativeSegmentUint (item.lookup "end_frame") "segment.end_frame"
  let leftPath ← nativeSegmentPath (item.lookup "left_path") "segment.left_path"
  let leftBytes ← nativeSegmentUint (item.lookup "left_bytes") "segment.left_bytes"
  let rightPath ← nativeSegmentPath (item.lookup "right_path") "segment.right_path"
  let rightBytes ← nativeSegmentUint (item.lookup "right_bytes") "segment.right_bytes"
  return ⟨index, startFrame, endFrame, leftPath, leftBytes, rightPath, rightBytes⟩

/-- Where the closed segments are listed: by a native transaction, which may list those from an
offset on (`segments_since`), or by the encoder. -/
inductive Inventory where
  | native (incremental : Bool) (segments : List RawSegment)
  | encoder (segments : List ClosedSegment)

namespace Inventory

/-- The segments in their order; a native one need not be well formed. -/
def listed : Inventory → List (Option ClosedSegment)
  | native _ segments => segments.map fun item => (closedSegment item).toOption
  | encoder segments => segments.map some

/-- `closed_offset` and `closed`. -/
def closed (inventory : Inventory) (harvested : ℕ) : Except Error (ℕ × List ClosedSegment) :=
  match inventory with
  | native incremental segments =>
    if !incremental && segments.length < harvested then
      .error (.recording "segment_invalid" "encoder segment list regressed")
    else ((segments.drop harvested).mapM closedSegment).map (harvested, ·)
  | encoder segments => .ok (0, segments)

end Inventory

/-! ### The recorder -/

structure Identity where
  device : ℕ
  inode : ℕ
  bytes : ℕ
  modified : ℕ

/-- `_FinalizedArtifact`. -/
structure FinalizedArtifact where
  identity : Identity
  sha256 : String
  bytes : ℕ

structure Artifact where
  artifactId : String
  role : String
  path : String
  mediaType : String
  bytes : ℕ
  sha256 : String

structure Record where
  index : ℕ
  startOrdinal : ℕ
  endOrdinal : ℕ
  left : Artifact
  right : Artifact

def Record.bytes (r : Record) : ℕ := r.left.bytes + r.right.bytes

/-- The recorder. `gone` says that it has neither a transaction nor an encoder any more, `indexed` is
the number of frames with an index, and `checkpoint` is the list of `segments.json`, if that exists.
`returned` says that the last call did not raise, `owed` that a segment was harvested since
`segments.json` was last replaced. -/
structure Recorder where
  inventory : Inventory
  gone : Bool := false
  indexed : ℕ := 0
  segmentRecords : List Record := []
  harvestedSegments : ℕ := 0
  segmentBytes : ℕ := 0
  artifactIdentities : List (String × Identity) := []
  checkpoint : Option (List Record) := none
  returned : Bool := true
  owed : Bool := false

/-- How a write of `segments.json` ends: it may raise before the file is replaced, or after. -/
inductive Write where
  | written
  | unwritten
  | unsynced

/-- What the operations of one call give; `snapshot` and `growth` go by the turns of the loop. -/
structure Call where
  inventoryRaises : Bool := false
  snapshotRaises : ℕ → Bool := fun _ => false
  growth : ℕ → ℕ := fun _ => 0
  finalize : String → ℕ → Except Error FinalizedArtifact
  /-- The flush or the sync of `frames.ndjson` or `imu.ndjson`. -/
  journalRaises : Bool := false
  write : Write := .written

/-- One eye of `_segment_record`. -/
def sealEye (call : Call) (eye path : String) (declared : ℕ) (r : Recorder) : Except Error Artifact × Recorder :=
  match call.finalize path declared with
  | .error e => (.error e, r)
  | .ok finalized =>
    (.ok ⟨finalized.sha256, "video." ++ eye, path, "video/mp4", finalized.bytes, finalized.sha256⟩,
      { r with
        artifactIdentities := insertOrReplace r.artifactIdentities (path, finalized.identity)
        segmentBytes := r.segmentBytes + finalized.bytes })

/-- `_segment_record`. -/
def segmentRecord (call : Call) (segment : ClosedSegment) (r : Recorder) : Except Error Record × Recorder :=
  match sealEye call "left" segment.leftPath segment.leftBytes r with
  | (.error e, r) => (.error e, r)
  | (.ok left, r) =>
    match sealEye call "right" segment.rightPath segment.rightBytes r with
    | (.error e, r) => (.error e, r)
    | (.ok right, r) => (.ok ⟨segment.index, segment.startFrame, segment.endFrame, left, right⟩, r)

def Recorder.grow (r : Recorder) (frames : ℕ) : Recorder := { r with indexed := r.indexed + frames }

/-- The loop over the segments that are not harvested. -/
def harvestLoop (call : Call) (turn : ℕ) : List ClosedSegment → Recorder → Except Error Unit × Recorder
  | [], r => (.ok (), r)
  | segment :: rest, r =>
    let r := r.grow (call.growth turn)
    if call.snapshotRaises turn then (.error .other, r)
    else if r.indexed < segment.endFrame then (.ok (), r)
    else
      match segmentRecord call segment r with
      | (.error e, r) => (.error e, r)
      | (.ok record, r) =>
        harvestLoop call (turn + 1) rest
          { r with
            segmentRecords := r.segmentRecords ++ [record]
            harvestedSegments := r.harvestedSegments + 1
            owed := true }

/-- The journals are synced and `segments.json` is written. -/
def writeCheckpoint (call : Call) (r : Recorder) : Except Error Unit × Recorder :=
  if call.journalRaises then (.error .other, r)
  else
    match call.write with
    | .unwritten => (.error .other, r)
    | .unsynced => (.error .other, { r with checkpoint := some r.segmentRecords, owed := false })
    | .written => (.ok (), { r with checkpoint := some r.segmentRecords, owed := false })

/-- `_harvest_segments`. -/
def harvestSegments (call : Call) (r : Recorder) : Except Error Unit × Recorder :=
  if r.gone then (.ok (), r)
  else if call.inventoryRaises then (.error .other, r)
  else
    match r.inventory.closed r.harvestedSegments with
    | .error e => (.error e, r)
    | .ok (offset, closed) =>
      let before := r.harvestedSegments
      match harvestLoop call 0 (closed.drop (before - offset)) r with
      | (.error e, r) => (.error e, r)
      | (.ok (), r) => if r.harvestedSegments = before then (.ok (), r) else writeCheckpoint call r

/-! ### The calls on one recorder -/

inductive Act where
  /-- The helper closes more segments. -/
  | close (raws : List RawSegment) (segments : List ClosedSegment)
  | index (frames : ℕ)
  | harvest (call : Call)
  /-- The transaction and the encoder are let go. -/
  | abandon

def Inventory.extend (raws : List RawSegment) (segments : List ClosedSegment) : Inventory → Inventory
  | .native incremental old => .native incremental (old ++ raws)
  | .encoder old => .encoder (old ++ segments)

def Recorder.leave (r : Recorder) (outcome : Except Error Unit) : Recorder := { r with returned := outcome.toBool }

def step (r : Recorder) : Act → Option Recorder
  | .close raws segments => some { r with inventory := r.inventory.extend raws segments }
  | .index frames => some (r.grow frames)
  | .harvest call => some ((harvestSegments call r).2.leave (harvestSegments call r).1)
  | .abandon => some { r with gone := true }

end Conductor.Harvest
