import Conductor.Audio.Clock
import Conductor.Audio.Journal

/-! `audio_clock_report`: the checks of the audio part of a manifest and the timeline that is read off
its clock. Floats are exact rationals from the first operation on. -/

namespace Conductor.Audio.Report

open Checked
open Journal (Items get)

inductive ReportError where
  | value (message : String)
  | python (error : PyError)
  /-- A method that the value does not have. -/
  | attribute

def fail {α : Type} (message : String) : Result ReportError α := .error (.rejected (.value message))

def rejectWith (c : Prop) [Decidable c] (message : String) : Result ReportError Unit :=
  reject c (.value message)

/-- `audio[key]`. -/
def item (items : Items) (key : String) : Result ReportError PyValue :=
  match PyValue.lookup items key with
  | some value => .ok value
  | none => .error (.rejected (.python .keyError))

/-- `type(v) is int`, or the message. -/
def integer (value : PyValue) (message : String) : Result ReportError ℤ :=
  match value.asInt with
  | some n => .ok n
  | none => fail message

/-- A finite number of type `int` or `float`, or the message; `isfinite` converts an integer. -/
def finite (value : PyValue) (message : String) : Result ReportError ℚ :=
  match value with
  | .int n => if (Double.ofInt n).isSome then .ok n else .error (.rejected (.python .overflowError))
  | .float (.finite q) => .ok q
  | _ => fail message

/-! ### Samples and segments -/

def sampleDomain (audio : Items) : Result ReportError (ℤ × ℤ) := do
  let rate ← item audio "sample_rate"
  let count ← item audio "sample_count"
  let rate ← integer rate "invalid audio sample domain"
  rejectWith (rate ≤ 0) "invalid audio sample domain"
  let count ← integer count "invalid audio sample domain"
  rejectWith (count ≤ 0) "invalid audio sample domain"
  return (rate, count)

def checkTime (segment : Items) (key : String) (expected : ℚ) : Result ReportError Unit := do
  let value ← finite (get segment key) "audio segment time does not match sample domain"
  rejectWith (1 / 10 ^ 9 < |value - expected|) "audio segment time does not match sample domain"

/-- The artifact of a segment has the bytes of its samples. -/
def artifactMatches (artifact : Items) (payload header : ℤ) : Result ReportError Bool :=
  if (get artifact "media_type").eqStr (.text "audio/flac") then
    match (PyValue.lookup artifact "storage_encoding").getD (.dict []) with
    | .dict encoding => .ok ((get encoding "pcm_bytes").eqInt payload)
    | _ => .error (.rejected .attribute)
  else .ok ((get artifact "bytes").eqInt (payload + header))

/-- One segment after `previous` samples; the samples after it. -/
def checkSegment (rate channels : ℤ) (index : ℕ) (previous : ℤ) (segment : PyValue) :
    Result ReportError ℤ :=
  match segment with
  | .dict segment => do
    let firstSample ← integer (get segment "start_sample") "noncontiguous audio sample domain"
    let lastSample ← integer (get segment "end_sample") "noncontiguous audio sample domain"
    let number ← integer (get segment "index") "noncontiguous audio sample domain"
    rejectWith (number ≠ index ∨ firstSample ≠ previous ∨ lastSample ≤ firstSample)
      "noncontiguous audio sample domain"
    checkTime segment "start_time_seconds" (firstSample / rate)
    checkTime segment "end_time_seconds" (lastSample / rate)
    let payload ← integer (get segment "pcm_payload_bytes") "audio segment byte count does not match samples"
    let header ← integer (get segment "wav_header_bytes") "audio segment byte count does not match samples"
    rejectWith (header < 44 ∨ 65536 < header ∨ payload ≠ (lastSample - firstSample) * channels * 2)
      "audio segment byte count does not match samples"
    match get segment "artifact" with
    | .dict artifact => do
      let matched ← artifactMatches artifact payload header
      rejectWith (matched = false) "audio segment byte count does not match samples"
      return lastSample
    | _ => fail "audio segment byte count does not match samples"
  | _ => fail "invalid audio segment"

def checkSegments (rate channels : ℤ) : ℕ → ℤ → List PyValue → Result ReportError ℤ
  | _, previous, [] => .ok previous
  | index, previous, segment :: segments => do
    let previous ← checkSegment rate channels index previous segment
    checkSegments rate channels (index + 1) previous segments

def checkLayout (audio : Items) (rate count : ℤ) : Result ReportError Unit :=
  match get audio "segments" with
  | .list (segment :: segments) => do
    let channels ← integer (get audio "channels") "invalid audio segments or channels"
    rejectWith (channels ≤ 0) "invalid audio segments or channels"
    let previous ← checkSegments rate channels 0 0 (segment :: segments)
    rejectWith (previous ≠ count) "audio sample_count differs from segments"
  | _ => fail "invalid audio segments or channels"

/-- `sync` and the duration of the session. -/
structure Span where
  start : ℚ
  stop : ℚ
  session : ℚ

def key (value : PyValue) (name : String) : Result ReportError PyValue :=
  match value.item name with
  | .ok value => .ok value
  | .error error => .error (.rejected (.python error))

def checkSync (audio : Items) (sessionDuration : PyValue) : Result ReportError Span := do
  let sync ← item audio "sync"
  let start ← key sync "start_time_seconds"
  let stop ← key sync "end_time_seconds"
  let start ← finite start "nonfinite audio timeline"
  let stop ← finite stop "nonfinite audio timeline"
  let session ← finite sessionDuration "nonfinite audio timeline"
  rejectWith (¬ (0 ≤ start ∧ start < stop ∧ stop ≤ session + 1 / 10 ^ 6)) "audio sync outside session"
  return ⟨start, stop, session⟩

/-! ### The clock -/

def schemaV1 : String := "openaria.audio-clock.v1"

def schemaV2 : String := "openaria.audio-clock.v2"

/-- The fields that are integers. -/
def integerFields : List String :=
  ["period_frames", "buffer_frames", "thread_started_monotonic_ns", "thread_stopped_monotonic_ns",
    "sample_start_monotonic_ns", "sample_end_monotonic_ns", "max_residual_ns", "queue_capacity_frames",
    "queue_peak_frames", "max_write_ns", "xrun_count", "suspend_count", "session_start_monotonic_ns"]

/-- `expected`. -/
def clockFields : List String :=
  ["schema", "clock", "timestamp_source", "continuity", "device", "anchors"] ++ integerFields

/-- `set(clock) == expected`. -/
def fieldsMatch (clock : Items) : Bool :=
  (clock.all fun entry => clockFields.any fun name => entry.1 = .text name) &&
    clockFields.all fun name => (PyValue.lookup clock name).isSome

def isText : PyValue → Bool
  | .str (.text value) => value ≠ ""
  | .str (.surrogates _) => true
  | _ => false

/-- `clock[name]` of an integer field. -/
def field (clock : Items) (name : String) : ℤ := ((get clock name).asInt).getD 0

def timestampSource (raw : Bool) : String := if raw then "alsa_htimestamp_dma_raw" else "alsa_htimestamp_dma"

/-- The checks of the fields; whether the schema is the second one. -/
def checkFields (clock : Items) : Result ReportError Bool := do
  rejectWith (fieldsMatch clock = false) "audio capture_clock fields mismatch"
  let known ← (match (get clock "schema").inStrings [schemaV1, schemaV2] with
    | .ok known => .ok known
    | .error error => .error (.rejected (.python error)))
  let raw := (get clock "schema").eqStr (.text schemaV2)
  rejectWith (known = false ∨ (get clock "clock").eqStr (.text "host_monotonic") = false ∨
    (get clock "timestamp_source").eqStr (.text (timestampSource raw)) = false ∨
    (get clock "continuity").eqStr (.text "verified") = false ∨ isText (get clock "device") = false)
    "unsupported audio capture clock"
  rejectWith (∃ name ∈ integerFields, (get clock name).asInt.all (0 ≤ ·) = false ∨ (get clock name).asInt = none)
    "invalid audio clock integer"
  rejectWith (field clock "xrun_count" ≠ 0 ∨ field clock "suspend_count" ≠ 0 ∨
    ¬ (0 < field clock "period_frames" ∧ field clock "period_frames" ≤ field clock "buffer_frames") ∨
    ¬ (0 < field clock "queue_peak_frames" ∧
      field clock "queue_peak_frames" ≤ field clock "queue_capacity_frames") ∨
    20000000 < field clock "max_residual_ns") "audio capture continuity failed"
  return raw

/-- The entries of a row of integers; every other row is refused like an empty one. -/
def rowInts : PyValue → List ℤ
  | .list entries => if entries.all fun entry => entry.asInt.isSome then entries.filterMap PyValue.asInt else []
  | _ => []

/-- The rows of `anchors`; what is no list is refused like an empty one. -/
def anchorRows (clock : Items) : List (List ℤ) :=
  match get clock "anchors" with
  | .list rows => rows.map rowInts
  | _ => []

def rawModel (clock : Items) (rate count : ℤ) : Result ReportError RawModel :=
  match rawAudioClockModel (anchorRows clock) rate count (field clock "period_frames")
      (field clock "buffer_frames") with
  | .ok model => .ok model
  | .error (.rejected message) => fail message
  | .error .fault => .error .fault

/-- A row of two positive integers. -/
def anchorPoint : List ℤ → Result ReportError (ℤ × ℤ)
  | [n, t] => do
    rejectWith (n ≤ 0 ∨ t ≤ 0) "invalid audio sample clock anchor"
    return (n, t)
  | _ => fail "invalid audio sample clock anchor"

/-- The loop over two neighbours. -/
def Nonmonotonic (points : List (ℤ × ℤ)) : Prop :=
  ∃ w ∈ windows points, w.2.1 ≤ w.1.1 ∨ w.2.2 ≤ w.1.2

instance (points : List (ℤ × ℤ)) : Decidable (Nonmonotonic points) :=
  inferInstanceAs (Decidable (∃ w ∈ windows points, _))

/-- What the clock predicts. -/
structure Prediction where
  actualRate : ℚ
  residual : ℚ
  start : ℚ
  stop : ℚ

def linear (points : List (ℤ × ℤ)) (first last : ℤ × ℤ) (count : ℤ) : Result ReportError Prediction := do
  let nsPerSample ← div (last.2 - first.2 : ℤ) (last.1 - first.1 : ℤ)
  let actualRate ← div 1000000000 nsPerSample
  let residual ← ofOption (points.map fun point =>
    |((point.2 - first.2 : ℤ) : ℚ) - ((point.1 - first.1 : ℤ) : ℚ) * nsPerSample|).max?
  return ⟨actualRate, residual, first.2 - first.1 * nsPerSample,
    first.2 - first.1 * nsPerSample + count * nsPerSample⟩

structure ClockReport where
  actualSampleRate : ℚ
  maxResidualSeconds : ℚ
  threadSpanSeconds : ℚ
  timestampSource : String

/-- `sample_timeline` of the second schema. -/
def sampleTimeline (clock : Items) (points : List (ℤ × ℤ)) (count : ℤ) : List (ℤ × ℚ) :=
  let points := (0, field clock "sample_start_monotonic_ns") ::
    points.filter (fun point => 0 < point.1 ∧ point.1 < count) ++
    [(count, field clock "sample_end_monotonic_ns")]
  points.map fun point => (point.1, ((point.2 - field clock "session_start_monotonic_ns" : ℤ) : ℚ) / 10 ^ 9)

/-- The model of the second schema. -/
def clockModel (clock : Items) (raw : Bool) (rate count : ℤ) : Result ReportError (Option RawModel) :=
  if raw then do
    let model ← rawModel clock rate count
    return some model
  else .ok none

/-- The anchors as points: those of the model, if there is one. -/
def clockPoints (clock : Items) (model : Option RawModel) : Result ReportError (List (ℤ × ℤ)) := do
  let rows : List (List ℤ) := match model with
    | some model => model.points.map fun point => [point.1, point.2]
    | none => anchorRows clock
  rejectWith (rows.length < 2) "audio clock requires multiple anchors"
  let points ← rows.mapM anchorPoint
  rejectWith (Nonmonotonic points) "nonmonotonic audio clock"
  return points

/-- The checks of what the clock predicts against what it records. -/
def checkClock (clock : Items) (span : Span) (rate count : ℤ) (points : List (ℤ × ℤ)) (first last : ℤ × ℤ)
    (p : Prediction) : Result ReportError Unit := do
  let origin := field clock "session_start_monotonic_ns"
  let sampleStart := field clock "sample_start_monotonic_ns"
  let sampleEnd := field clock "sample_end_monotonic_ns"
  let threadStart := field clock "thread_started_monotonic_ns"
  let threadStop := field clock "thread_stopped_monotonic_ns"
  let bufferFrames := field clock "buffer_frames"
  let relative ← div p.actualRate rate
  rejectWith (1 / 100 < |relative - 1| ∨ 2 < |p.residual - field clock "max_residual_ns"| ∨
    2 < |p.start - sampleStart| ∨ 2 < |p.stop - sampleEnd| ∨
    2 < |span.start * 10 ^ 9 - (sampleStart - origin : ℤ)| ∨
    2 < |span.stop * 10 ^ 9 - (sampleEnd - origin : ℤ)|)
    "audio sync does not match sample clock evidence"
  rejectWith (¬ (origin ≤ threadStart ∧ threadStart < threadStop) ∨
    p.start < (threadStart - 20000000 : ℤ) ∨ (threadStop + 20000000 : ℤ) < p.stop ∨
    span.session * 10 ^ 9 + 1000 < (threadStop - origin : ℤ)) "audio sample clock outside capture lifetime"
  rejectWith (bufferFrames + field clock "period_frames" < first.1 ∨
    ¬ (count ≤ last.1 ∧ last.1 ≤ count + bufferFrames)) "audio anchors do not cover captured samples"
  rejectWith (∃ w ∈ windows points, rate + bufferFrames < w.2.1 - w.1.1)
    "audio clock evidence has missing intervals"

/-- The clock of a recording, with the timeline of the second schema. -/
def verifyClock (clock : Items) (span : Span) (rate count : ℤ) :
    Result ReportError (ClockReport × Option (List (ℤ × ℚ))) := do
  let raw ← checkFields clock
  let model ← clockModel clock raw rate count
  let points ← clockPoints clock model
  let first ← ofOption points.head?
  let last ← ofOption points.getLast?
  let fitted ← linear points first last count
  let predicted := match model with
    | some model => ⟨model.actualRate, model.maxResidualNs, model.startNs, model.endNs⟩
    | none => fitted
  checkClock clock span rate count points first last predicted
  return (⟨predicted.actualRate, predicted.residual / 10 ^ 9,
    ((field clock "thread_stopped_monotonic_ns" - field clock "thread_started_monotonic_ns" : ℤ) : ℚ) / 10 ^ 9,
    timestampSource raw⟩, model.map fun model => sampleTimeline clock model.points count)

structure Durations where
  pcmDurationSeconds : ℚ
  syncSpanSeconds : ℚ
  durationDifferenceSeconds : ℚ

/-- The keys that a report has. A timeline comes with `mapping`, which is `piecewise-linear`. -/
structure AudioClockReport where
  continuity : String
  durations : Option Durations := none
  clock : Option ClockReport := none
  sampleTimeline : Option (List (ℤ × ℚ)) := none

def audioClockReport (audio : Items) (sessionDuration : PyValue) : Result ReportError AudioClockReport :=
  if (get audio "state").eqStr (.text "not_recorded") then .ok { continuity := "no-audio" }
  else do
    let (rate, count) ← sampleDomain audio
    checkLayout audio rate count
    let span ← checkSync audio sessionDuration
    let durations : Durations := ⟨count / rate, span.stop - span.start, span.stop - span.start - count / rate⟩
    match get audio "capture_clock" with
    | .none => return { continuity := "unknown", durations := some durations }
    | .dict clock => do
      let (report, timeline) ← verifyClock clock span rate count
      return ⟨"verified", some durations, some report, timeline⟩
    | _ => fail "invalid audio capture_clock"

end Conductor.Audio.Report
