import Conductor.Lib.ByteLines
import Conductor.Lib.PyValue

/-! `AudioJournalReader`: the committed prefix of the audio journal that a checkpoint header
names. A header is the items of its dictionary. The JSON codec and the hash are parameters;
a running hash is the bytes that it was fed. An accepted point is kept as its five numbers,
an accepted segment as its four fields. -/

namespace Conductor.Audio.Journal

open ByteLines

def schema : PyStr := .text "openaria.audio-checkpoint.v3"

/-- `MAX_JOURNAL_BYTES`. -/
def maxJournalBytes : ℕ := 256 * 1024 * 1024

/-- `MAX_ROW_BYTES`. -/
def maxRowBytes : ℕ := 16 * 1024 * 1024

inductive JournalError where
  | invalid (message : String)
  /-- `json.loads` raised. -/
  | json
  /-- The file cannot be opened, or it is not an exclusively linked regular one. -/
  | file

def invalid {α : Type} (message : String) : Except JournalError α := .error (.invalid message)

/-! ### Values -/

structure Point where
  position : ℕ
  raw : ℕ
  mono : ℕ
  before : ℕ
  after : ℕ
  deriving DecidableEq

structure AudioSegment where
  index : ℕ
  path : String
  startSample : ℕ
  endSample : ℕ
  deriving DecidableEq

abbrev Items := List (PyStr × PyValue)

/-- `head.get(key)`. -/
def get (items : Items) (key : String) : PyValue := (PyValue.lookup items key).getD .none

/-- `_integer`. -/
def integer (value : PyValue) (name : String) (positive : Bool := false) : Except JournalError ℕ :=
  match value with
  | .int n =>
    if n < positive.toInt ∨ 2 ^ 64 - 1 < n then invalid ("invalid audio journal " ++ name) else .ok n.toNat
  | _ => invalid ("invalid audio journal " ++ name)

/-- `_anchor`. -/
def anchor (value : PyValue) : Except JournalError Point :=
  match value with
  | .list [position, raw, mono, before, after] => do
    let position ← integer position "anchor scalar"
    let raw ← integer raw "anchor scalar"
    let mono ← integer mono "anchor scalar"
    let before ← integer before "anchor scalar"
    let after ← integer after "anchor scalar"
    return ⟨position, raw, mono, before, after⟩
  | _ => invalid "invalid audio journal anchor"

/-- `set(value) == keys`. -/
def hasKeys (items : Items) (keys : List String) : Bool :=
  (items.all fun item => keys.any fun key => item.1 = .text key) ∧
    keys.all fun key => items.any fun item => item.1 = .text key

/-- `audio/audio_{index:05d}.wav`. -/
def segmentPath (index : ℕ) : String :=
  let digits := toString index
  "audio/audio_" ++ String.ofList (List.replicate (5 - digits.length) '0') ++ digits ++ ".wav"

/-- The bridge of one point. -/
def bridgeInvalid (p : Point) : Prop :=
  (p.position = 0 ∨ p.raw = 0 ∨ p.mono = 0 ∨ p.before = 0 ∨ p.after = 0) ∨ ¬ (p.raw ≤ p.before ∧ p.before ≤ p.after) ∨
    1000000 < (p.after : ℤ) - p.before ∨ 20000000 < (p.after : ℤ) - p.raw ∨
    (p.raw : ℤ) + p.mono - (p.before + p.after) / 2 ≤ 0

instance (p : Point) : Decidable (bridgeInvalid p) := by
  unfold bridgeInvalid
  infer_instance

/-- `_reobserved_point`. -/
def reobservedPoint (first last : Point) : Except JournalError Unit := do
  if bridgeInvalid first ∨ bridgeInvalid last then invalid "invalid repeated audio clock bridge"
  if last.mono ≤ first.mono ∨ last.before ≤ first.after then invalid "repeated audio clock bridge regressed"
  let rawSpanTwice : ℤ := (last.before + last.after) - (first.before + first.after)
  let uncertaintyTwice : ℤ := (last.after - last.before) + (first.after - first.before)
  if rawSpanTwice + uncertaintyTwice * 100 < |2 * ((last.mono : ℤ) - first.mono) - rawSpanTwice| * 100 then
    invalid "repeated audio clock bridge rate outside supported range"

/-! ### Rows -/

/-- What the reader counts; `digest` is the bytes that were hashed. -/
structure Counters where
  digest : List UInt8 := []
  sequence : ℕ := 0
  anchorCount : ℕ := 0
  segmentCount : ℕ := 0
  sampleCount : ℕ := 0
  previous : Option Point := none

/-- The point does not follow the one before it. -/
def regresses (previous : Option Point) (p : Point) : Bool :=
  previous.any fun q => p.position ≤ q.position ∨ p.raw ≤ q.raw

def scanAnchors : Counters → List PyValue → Except JournalError (Counters × List Point)
  | c, [] => .ok (c, [])
  | c, value :: rest => do
    let p ← anchor value
    if regresses c.previous p then invalid "nonmonotonic audio journal anchors"
    let (c, points) ← scanAnchors { c with previous := some p, anchorCount := c.anchorCount + 1 } rest
    return (c, p :: points)

def scanSegment (c : Counters) (value : PyValue) : Except JournalError AudioSegment :=
  match value with
  | .dict items => do
    if !hasKeys items ["index", "path", "start_sample", "end_sample"] then invalid "invalid audio journal segment"
    let index ← integer (get items "index") "segment index"
    let start ← integer (get items "start_sample") "segment start"
    let stop ← integer (get items "end_sample") "segment end"
    if index ≠ c.segmentCount ∨ start ≠ c.sampleCount ∨ stop ≤ start ∨
        !(get items "path").eqStr (.text (segmentPath index)) then
      invalid "noncontiguous or unsafe audio journal segment"
    return ⟨index, segmentPath index, start, stop⟩
  | _ => invalid "invalid audio journal segment"

def scanSegments : Counters → List PyValue → Except JournalError (Counters × List AudioSegment)
  | c, [] => .ok (c, [])
  | c, value :: rest => do
    let segment ← scanSegment c value
    let (c, segments) ←
      scanSegments { c with segmentCount := c.segmentCount + 1, sampleCount := segment.endSample } rest
    return (c, segment :: segments)

/-- What was read: the counters behind it, its points and its segments. -/
abbrev Scan := Counters × List Point × List AudioSegment

/-- One row of the journal. -/
def scanRow (loads : List UInt8 → Option PyValue) (c : Counters) (raw : List UInt8) : Except JournalError Scan :=
  let c := { c with digest := c.digest ++ raw }
  match loads raw with
  | none => .error .json
  | some (.dict items) => do
    if !hasKeys items ["sequence", "anchors", "segments"] then invalid "invalid audio journal row"
    let sequence ← integer (get items "sequence") "sequence"
    if sequence ≠ c.sequence then invalid "noncontiguous audio journal sequence"
    let c := { c with sequence := c.sequence + 1 }
    match get items "anchors", get items "segments" with
    | .list anchors, .list segments =>
      let (c, points) ← scanAnchors c anchors
      let (c, segments) ← scanSegments c segments
      return (c, points, segments)
    | _, _ => invalid "invalid audio journal arrays"
  | some _ => invalid "invalid audio journal row"

/-- The loop over the rows of the next `remaining` bytes. Each row has a byte at least. -/
def scanRows (loads : List UInt8 → Option PyValue) :
    ℕ → Counters → ℕ → List UInt8 → Except JournalError Scan
  | 0, c, _, _ => .ok (c, [], [])
  | fuel + 1, c, remaining, unread =>
    if remaining = 0 then .ok (c, [], [])
    else do
      let raw := readline (min remaining maxRowBytes + 1) unread
      if endsWithNewline raw = false ∨ min remaining maxRowBytes < raw.length then
        invalid "incomplete or oversized committed audio journal row"
      let (c, points, segments) ← scanRow loads c raw
      let (c, points', segments') ← scanRows loads fuel c (remaining - raw.length) (unread.drop raw.length)
      return (c, points ++ points', segments ++ segments')

/-! ### The reader -/

structure Identity where
  device : ℕ
  inode : ℕ
  size : ℕ

def Identity.file (i : Identity) : ℕ × ℕ := (i.device, i.inode)

/-- What one call sees of the directory: the links, the bytes of the file, and its identity
when it is opened, when the rows are read, and under its name. -/
structure Observation where
  rootSymlink : Bool := false
  audioSymlink : Bool := false
  opened : Option Identity
  content : List UInt8
  closed : Option Identity
  named : Option Identity

structure Reader where
  offset : ℕ := 0
  counters : Counters := {}
  fileId : Option (ℕ × ℕ) := none

structure Reading where
  anchors : List Point
  segments : List AudioSegment
  deriving DecidableEq

def isDigest (s : String) : Bool :=
  s.toList.length = 64 ∧ s.toList.all fun c => c.isDigit ∨ ('a' ≤ c ∧ c ≤ 'f')

/-- The fields that only have to be integers at this point. -/
def headKeys : List String :=
  ["journal_records", "anchor_count", "segment_count", "sample_count", "thread_started_monotonic_ns",
    "period_frames", "buffer_frames", "queue_capacity_frames", "queue_peak_frames", "max_write_ns"]

/-- The checks of the header before the file is opened: the end of the prefix and its hash. -/
def checkHead (offset : ℕ) (head : Items) : Except JournalError (ℕ × String) := do
  if !(get head "schema").eqStr schema then invalid "unsupported audio journal header"
  let stop ← integer (get head "journal_bytes") "length" true
  if ¬ (offset ≤ stop ∧ stop ≤ maxJournalBytes) then invalid "audio journal boundary regressed or exceeds limit"
  match get head "journal_sha256" with
  | .str (.text expected) =>
    if !isDigest expected then invalid "invalid audio journal digest"
    headKeys.forM fun key => discard (integer (get head key) key)
    return (stop, expected)
  | _ => invalid "invalid audio journal digest"

/-- The counts of the header. -/
def countsAgree (hexdigest : List UInt8 → String) (head : Items) (expected : String) (c : Counters) : Bool :=
  hexdigest c.digest = expected ∧ (get head "journal_records").eqInt c.sequence ∧
    (get head "anchor_count").eqInt c.anchorCount ∧ (get head "segment_count").eqInt c.segmentCount ∧
    (get head "sample_count").eqInt c.sampleCount

/-- The last anchor of the header: what it adds to the points. -/
def lastAnchor (head : Items) (previous : Option Point) : Except JournalError (List Point) :=
  match get head "last_anchor" with
  | .none => .ok []
  | value => do
    let last ← anchor value
    match previous with
    | none => return [last]
    | some previous =>
      if last = previous then return []
      else if last.position = previous.position ∧ last.raw = previous.raw then do
        reobservedPoint previous last
        return []
      else if regresses (some previous) last then invalid "audio journal final anchor regressed"
      else return [last]

/-- The body of `read`: its result, and the state that it commits at its end. -/
def Reader.tryRead (loads : List UInt8 → Option PyValue) (hexdigest : List UInt8 → String) (r : Reader)
    (head : Items) (o : Observation) : Except JournalError (Reading × Reader) := do
  let (stop, expected) ← checkHead r.offset head
  if o.rootSymlink ∨ o.audioSymlink then invalid "unsafe audio journal directory"
  match o.opened, o.closed, o.named with
  | some before, some after, some named =>
    if before.size < stop ∨ r.fileId.any (before.file ≠ ·) then invalid "audio journal replaced or truncated"
    let (c, anchors, segments) ←
      scanRows loads (stop - r.offset) r.counters (stop - r.offset) (o.content.drop r.offset)
    if before.file ≠ after.file ∨ after.file ≠ named.file ∨ min after.size named.size < stop then
      invalid "audio journal replaced or truncated during read"
    if !countsAgree hexdigest head expected c then invalid "audio journal committed prefix verification failed"
    let final ← lastAnchor head c.previous
    return (⟨anchors ++ final, segments⟩, ⟨stop, c, some before.file⟩)
  | _, _, _ => .error .file

/-- `read`: an error leaves the reader as it was. -/
def Reader.read (loads : List UInt8 → Option PyValue) (hexdigest : List UInt8 → String) (r : Reader)
    (head : Items) (o : Observation) : Except JournalError Reading × Reader :=
  match r.tryRead loads hexdigest head o with
  | .ok (reading, next) => (.ok reading, next)
  | .error e => (.error e, r)

abbrev Event := Items × Observation

/-- One poll of the live reader: the reading is kept with its header. -/
def followStep (loads : List UInt8 → Option PyValue) (hexdigest : List UInt8 → String)
    (s : Reader × List (Items × Reading)) (event : Event) : Reader × List (Items × Reading) :=
  match s.1.read loads hexdigest event.1 event.2 with
  | (.ok reading, next) => (next, s.2 ++ [(event.1, reading)])
  | (.error _, next) => (next, s.2)

/-- One reader that reads the headers one after another, with what it returned. -/
def follow (loads : List UInt8 → Option PyValue) (hexdigest : List UInt8 → String) (events : List Event) :
    Reader × List (Items × Reading) :=
  events.foldl (followStep loads hexdigest) ({}, [])

end Conductor.Audio.Journal
