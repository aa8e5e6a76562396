import Conductor.Api.DateTime
import Conductor.Api.EventReplay
import Conductor.Lib.Double
import Conductor.Lib.Runs

/-! `CaptureEventPump` between the coordinator and the replay buffer. A poll of the pump reads the
coordinator once or twice and then publishes; the coordinator may change, and clients may be
answered, between any two of these. `_authority_epoch` is set when the coordinator is built and is a
parameter. A call of a client whose snapshot raises changes nothing and is no step. -/

namespace Conductor.Api.EventPump

/-! ### Capture status -/

/-- A number of a JSON document. -/
inductive Number where
  | int (value : ℤ)
  | float (value : Double)

namespace Number

/-- `==` between numbers. -/
def eq : Number → Number → Bool
  | .int m, .int n => m = n
  | .int n, .float x | .float x, .int n => x.eqInt n
  | .float .nan, _ | _, .float .nan => false
  | .float x, .float y => x = y

def finite : Number → Bool
  | .int _ | .float (.finite _) => true
  | _ => false

/-- `minimum: 0`. -/
def nonnegative : Number → Bool
  | .int n => 0 ≤ n
  | .float (.finite q) => 0 ≤ q
  | .float (.infinity negative) => !negative
  | .float .nan => true

/-- `type: integer`: a float with an integral value is one. -/
def integral : Number → Bool
  | .int _ => true
  | .float (.finite q) => q.den = 1
  | .float _ => false

/-- `float(value)`, which overflows on integers beyond the floats. -/
def toFloat : Number → Option Double
  | .int n => Double.ofInt n
  | .float x => some x

end Number

/-- The states of a device and of a recording. -/
inductive CaptureState where
  | idle
  | blocked
  | recording
  | finalizing
  | encoding
  | verifying
  | recoverable
  | failed
  | abandoned
  deriving DecidableEq

/-- `CAPTURE_ACTIVE_STATES`. -/
def captureActiveStates : List CaptureState := [.recording, .finalizing, .encoding, .verifying]

/-- `CAPTURE_DEVICE_STATES`. -/
def captureDeviceStates : List CaptureState := .idle :: captureActiveStates ++ [.blocked]

/-- `CAPTURE_TERMINAL_STATES`. -/
def captureTerminalStates : List CaptureState := [.recoverable, .failed, .abandoned]

structure Progress where
  elapsedSeconds : Number
  capturedFrames : Number
  bytesWritten : Number

/-- A recording checkpoint, with the fields that the pump does not read in `rest`. -/
structure RecordingState (ρ : Type) where
  state : CaptureState
  authorityEpoch : String
  stateRevision : ℤ
  sessionId : String
  progress : Progress
  rest : ρ

structure SnapshotRecording (ρ : Type) where
  generationId : String
  recordingState : RecordingState ρ

structure SnapshotData (ρ τ : Type) where
  schema : String
  deviceState : CaptureState
  activeRecording : Option (SnapshotRecording ρ)
  retainedUnsuccessful : Option (SnapshotRecording ρ)
  runtime : τ

structure ProgressData where
  schema : String
  phase : CaptureState
  elapsedSeconds : Number
  completedUnits : ℤ
  totalUnits : Option ℤ
  unit : String

/-- The data of the events that the pump and the snapshot callback build. -/
inductive CaptureData (ρ τ : Type) where
  | snapshot (data : SnapshotData ρ τ)
  | progress (data : ProgressData)

structure Status (ρ τ : Type) where
  sourceRevision : ℤ
  snapshot : SnapshotData ρ τ

/-! ### Validation -/

/-- The checks of what the pump passes on unread, the format checker, and the projection of the
runtime to a version. -/
structure Checks (ρ τ : Type) where
  finiteRest : ρ → Bool
  finiteRuntime : τ → Bool
  /-- The other clauses of the schema of a recording state. -/
  conformsRest : RecordingState ρ → Bool
  runtime : τ → Except EventError Unit
  /-- The session of `live_imu`, if there is one. -/
  liveImu : τ → Option (Option String)
  dateTime : String → Bool
  projectRuntime : Version → τ → τ

section Validation

variable {ρ τ : Type} (checks : Checks ρ τ)

def finiteRecording (r : SnapshotRecording ρ) : Bool :=
  let p := r.recordingState.progress
  p.elapsedSeconds.finite && p.capturedFrames.finite && p.bytesWritten.finite && checks.finiteRest r.recordingState.rest

/-- `_validate_finite_json`. -/
def finiteSnapshot (d : SnapshotData ρ τ) : Bool :=
  d.activeRecording.all (finiteRecording checks) && d.retainedUnsuccessful.all (finiteRecording checks) &&
    checks.finiteRuntime d.runtime

def requireThat (condition : Bool) (message : String) : Except EventError Unit :=
  if condition then .ok () else .error (.invalidSourceEvent message)

/-- The schema of a recording state. -/
def conformsRecordingState (s : RecordingState ρ) : Bool :=
  (s.state ∈ captureActiveStates ++ captureTerminalStates) && uuidV4 s.authorityEpoch && 0 ≤ s.stateRevision &&
    uuidV7 s.sessionId && s.progress.elapsedSeconds.nonnegative && s.progress.capturedFrames.integral &&
    s.progress.capturedFrames.nonnegative && s.progress.bytesWritten.integral && s.progress.bytesWritten.nonnegative &&
    checks.conformsRest s

/-- `_validate_snapshot_recording`. -/
def validateSnapshotRecording (value : SnapshotRecording ρ) (expectedStates : List CaptureState) (epoch : String)
    (revision : ℤ) (sessionId : Option String) : Except EventError Unit := do
  requireThat (uuidV4 value.generationId) "snapshot generation_id 必须是 UUIDv4"
  requireThat (value.recordingState.state ∈ expectedStates) "snapshot recording_state 与 device_state 不一致"
  requireThat (finiteRecording checks value) "JSON 数值必须有限"
  requireThat (conformsRecordingState checks value.recordingState) "recording_state 不符合冻结 schema"
  requireThat (value.recordingState.authorityEpoch = epoch && value.recordingState.stateRevision = revision)
    "snapshot recording_state 权威修订与 source event 不一致"
  requireThat (sessionId.all (value.recordingState.sessionId = ·))
    "snapshot recording_state session_id 与 source event 不一致"

/-- `_validate_snapshot_data`. -/
def validateSnapshotData (d : SnapshotData ρ τ) (epoch : String) (revision : ℤ) (sessionId : Option String) :
    Except EventError Unit := do
  requireThat (d.schema = "ylx.capture-snapshot-event.v2") "snapshot data 字段或 schema 无效"
  requireThat (d.deviceState ∈ captureDeviceStates) "snapshot device_state 无效"
  let activeSessionId ← (
    if d.deviceState ∈ captureActiveStates then do
      requireThat (sessionId.any uuidV7) "active snapshot source event 必须携带 UUIDv7 session_id"
      match d.activeRecording with
      | none => .error (.invalidSourceEvent "snapshot recording 必须是闭合对象")
      | some active => do
        validateSnapshotRecording checks active [d.deviceState] epoch revision sessionId
        requireThat d.retainedUnsuccessful.isNone "活动 snapshot 不得携带 retained_unsuccessful"
        pure (some active.recordingState.sessionId)
    else do
      requireThat d.activeRecording.isNone "非活动 snapshot 不得携带 active_recording"
      pure none)
  (match d.retainedUnsuccessful with
    | none => pure ()
    | some retained => do
      requireThat (d.deviceState = .idle) "retained_unsuccessful 只允许出现在 idle snapshot"
      validateSnapshotRecording checks retained captureTerminalStates epoch revision none)
  checks.runtime d.runtime
  requireThat ((checks.liveImu d.runtime).all (· = activeSessionId))
    "v4/source runtime live_imu session_id 必须与活动录制一致"

/-- `_validate_progress_data`. -/
def validateProgressData (d : ProgressData) : Except EventError Unit := do
  requireThat (d.schema = "ylx.capture-progress-event.v2") "progress data 字段或 schema 无效"
  requireThat (d.phase ∈ captureActiveStates) "progress phase 无效"
  requireThat (d.unit ∈ ["frames", "bytes", "artifacts", "checks"]) "progress unit 无效"
  requireThat (d.elapsedSeconds.finite && d.elapsedSeconds.nonnegative) "progress elapsed_seconds 无效"
  requireThat (0 ≤ d.completedUnits) "progress completed_units 无效"
  requireThat (d.totalUnits.all (0 ≤ ·)) "progress total_units 无效"

/-- `_project_snapshot_data`. -/
def projectSnapshotData (version : Version) (d : SnapshotData ρ τ) : SnapshotData ρ τ :=
  { d with
    schema := if d.schema = "ylx.capture-snapshot-event.v2" ∧ version = .v4 then "ylx.capture-snapshot-event.v4" else d.schema
    runtime := checks.projectRuntime version d.runtime }

/-- The contract of the source events. Data of one type does not have the fields of another. -/
def contract : Contract (CaptureData ρ τ) where
  finite
    | .snapshot d => finiteSnapshot checks d
    | .progress d => d.elapsedSeconds.finite
  conforms := checks.dateTime
  snapshotData
    | .snapshot d, epoch, revision, sessionId => validateSnapshotData checks d epoch revision sessionId
    | .progress _, _, _, _ => .error (.invalidSourceEvent "snapshot data 字段或 schema 无效")
  stateData _ := .error (.invalidSourceEvent "state data 字段或 schema 无效")
  progressData
    | .progress d => validateProgressData d
    | .snapshot _ => .error (.invalidSourceEvent "progress data 字段或 schema 无效")
  diagnosticData _ := .error (.invalidSourceEvent "diagnostic data 字段或 schema 无效")
  safeSwapReceipt _ := .error (.invalidSourceEvent "safe_swap 必须是最小十字段 v3 回执")
  receiptSessionId _ := ""
  projectSnapshotData
    | version, .snapshot d => .snapshot (projectSnapshotData checks version d)
    | _, .progress d => .progress d

/-- `session_id` of the recording that is active. -/
def Status.sessionId (s : Status ρ τ) : Option String :=
  s.snapshot.activeRecording.map (·.recordingState.sessionId)

/-- `validate_capture_status`. -/
def validateCaptureStatus (epoch : String) (s : Status ρ τ) : Except EventError Unit := do
  requireThat (finiteSnapshot checks s.snapshot) "JSON 数值必须有限"
  requireThat (uuidV4 epoch && 0 ≤ s.sourceRevision) "capture status 基础字段无效"
  validateSnapshotData checks s.snapshot epoch s.sourceRevision s.sessionId

end Validation

/-! ### The events -/

/-- `datetime.now(UTC)`. -/
structure UtcTime where
  year : ℕ
  month : ℕ
  day : ℕ
  hour : ℕ
  minute : ℕ
  second : ℕ
  microsecond : ℕ
  valid : 1 ≤ year ∧ year ≤ 9999 ∧ 1 ≤ month ∧ month ≤ 12 ∧ 1 ≤ day ∧ day ≤ daysInMonth year month ∧ hour < 24 ∧
    minute < 60 ∧ second < 60 ∧ microsecond < 1000000

/-- The last digits of a number. -/
def digits : ℕ → ℕ → List Char
  | 0, _ => []
  | n + 1, value => digits n (value / 10) ++ [Nat.digitChar (value % 10)]

/-- `isoformat().replace("+00:00", "Z")`. -/
def UtcTime.isoformat (t : UtcTime) : String :=
  .ofList (digits 4 t.year ++ ['-'] ++ digits 2 t.month ++ ['-'] ++ digits 2 t.day ++ ['T'] ++ digits 2 t.hour ++ [':'] ++
    digits 2 t.minute ++ [':'] ++ digits 2 t.second ++
    (if t.microsecond = 0 then [] else '.' :: digits 6 t.microsecond) ++ ['Z'])

section Events

variable {ρ τ : Type}

/-- `capture_snapshot_event`. -/
def captureSnapshotEvent (epoch : String) (s : Status ρ τ) (time : UtcTime) : SourceEvent (CaptureData ρ τ) where
  authorityEpoch := epoch
  sourceRevision := s.sourceRevision
  type := .snapshot
  occurredAt := time.isoformat
  sessionId := s.sessionId
  data := .snapshot s.snapshot

abbrev Source := String × ℤ

/-- `_recording_state`. -/
def recordingState (s : Status ρ τ) : Option (RecordingState ρ) := s.snapshot.activeRecording.map (·.recordingState)

/-- `_progress_key`. -/
structure ProgressKey where
  source : Source
  sessionId : String
  state : CaptureState
  progress : Progress

def progressKey (source : Source) (state : Option (RecordingState ρ)) : Option ProgressKey :=
  state.map fun s => ⟨source, s.sessionId, s.state, s.progress⟩

/-- `==` between two keys. -/
def ProgressKey.eq (a b : ProgressKey) : Bool :=
  a.source = b.source && a.sessionId = b.sessionId && a.state = b.state &&
    a.progress.elapsedSeconds.eq b.progress.elapsedSeconds && a.progress.capturedFrames.eq b.progress.capturedFrames &&
    a.progress.bytesWritten.eq b.progress.bytesWritten

/-- `_progress_event`; a raise is its `OverflowError`. -/
def progressEvent (source : Source) (state : Option (RecordingState ρ)) (time : UtcTime) :
    Except Unit (Option (SourceEvent (CaptureData ρ τ))) :=
  match state with
  | none => .ok none
  | some s =>
    if s.state ∉ [.recording, .finalizing, .verifying] then .ok none
    else
      match s.progress.capturedFrames with
      | .float _ => .ok none
      | .int frames =>
        if frames < 0 then .ok none
        else
          match s.progress.elapsedSeconds.toFloat with
          | none => .error ()
          | some elapsed =>
            .ok <| some
              { authorityEpoch := source.1
                sourceRevision := source.2
                type := .progress
                occurredAt := time.isoformat
                sessionId := some s.sessionId
                data := .progress
                  { schema := "ylx.capture-progress-event.v2"
                    phase := s.state
                    elapsedSeconds := .float elapsed
                    completedUnits := frames
                    totalUnits := none
                    unit := "frames" } }

end Events

/-! ### The pump -/

structure CaptureEventPump where
  progressInterval : Double
  lastSource : Source
  lastProgressKey : Option ProgressKey
  lastProgressAt : Double

/-- Where the thread of the pump is in `_poll`. -/
inductive Poll (ρ τ : Type) where
  | idle
  | readProgress (now : Double)
  | readSnapshot (now : Double)
  | snapshot (now : Double) (event : SourceEvent (CaptureData ρ τ)) (key : Option ProgressKey)
  | progress (now : Double) (event : SourceEvent (CaptureData ρ τ)) (key : Option ProgressKey)

/-- `polls` counts the polls that have completed. -/
structure World (Client ρ τ : Type) where
  status : Status ρ τ
  service : Service Client (CaptureData ρ τ)
  pump : CaptureEventPump
  poll : Poll ρ τ
  polls : ℕ

inductive Action (Client ρ τ : Type) where
  | change (status : Status ρ τ)
  | poll (now : Double)
  | readProgress (time : UtcTime)
  | readSnapshot (time : UtcTime)
  /-- One of the reads raises. -/
  | raise
  | publish
  /-- `replay`, or a turn of `wait_after`. -/
  | call (client : Client) (version : Version) (time : UtcTime)

section Pump

variable {Client ρ τ : Type} [DecidableEq Client] (checks : Checks ρ τ) (epoch : String)

/-- `EventReplayBuffer` and `CaptureEventPump.__init__`. -/
def World.init (status : Status ρ τ) (capacity : ℕ) (h : 0 < capacity) (progressInterval : Double) : World Client ρ τ where
  status
  service := .init capacity h
  pump :=
    { progressInterval
      lastSource := (epoch, status.sourceRevision)
      lastProgressKey := progressKey (epoch, status.sourceRevision) (recordingState status)
      lastProgressAt := .finite 0 }
  poll := .idle
  polls := 0

/-- A progress event is due: the first one, or one after the interval. -/
def CaptureEventPump.due (p : CaptureEventPump) (now : Double) (key : Option ProgressKey) : Bool :=
  (match key, p.lastProgressKey with
    | none, none => false
    | some a, some b => !a.eq b
    | _, _ => true) &&
    (p.lastProgressAt.eqInt 0 || p.progressInterval.le (now.sub p.lastProgressAt))

/-- The end of `_poll`, where the source is the last one. -/
def World.pollProgress (w : World Client ρ τ) (now : Double) (source : Source) (state : Option (RecordingState ρ))
    (time : UtcTime) : World Client ρ τ :=
  match progressEvent source state time with
  | .error () => { w with poll := .idle }
  | .ok none => { w with poll := .idle, polls := w.polls + 1 }
  | .ok (some event) =>
    let key := progressKey source state
    if w.pump.due now key then { w with poll := .progress now event key }
    else { w with poll := .idle, polls := w.polls + 1 }

/-- A publication ends the poll; one that is refused raises. -/
def World.publish (w : World Client ρ τ) (event : SourceEvent (CaptureData ρ τ)) (pump : CaptureEventPump) :
    Option (World Client ρ τ) :=
  match validateSourceEvent (contract checks) event with
  | .error _ => some { w with poll := .idle }
  | .ok () =>
    (w.service.step (contract checks) (.publish event)).map fun service =>
      { w with service, pump, poll := .idle, polls := w.polls + 1 }

def World.call (w : World Client ρ τ) (client : Client) (version : Version) (time : UtcTime) :
    Option (World Client ρ τ) :=
  let snapshot := captureSnapshotEvent epoch w.status time
  (w.service.step (contract checks) (.replay client version snapshot)).map fun service => { w with service }

def step (w : World Client ρ τ) : Action Client ρ τ → Option (World Client ρ τ)
  | .change status => some { w with status }
  | .poll now =>
    match w.poll with
    | .idle => some { w with poll := .readProgress now }
    | _ => none
  | .readProgress time =>
    match w.poll with
    | .readProgress now =>
      let source := (epoch, w.status.sourceRevision)
      let state := recordingState w.status
      if source ≠ w.pump.lastSource ∨ state.isNone then some { w with poll := .readSnapshot now }
      else some (w.pollProgress now source state time)
    | _ => none
  | .readSnapshot time =>
    match w.poll with
    | .readSnapshot now =>
      let event := captureSnapshotEvent epoch w.status time
      let source := (epoch, w.status.sourceRevision)
      let state := recordingState w.status
      if source ≠ w.pump.lastSource then some { w with poll := .snapshot now event (progressKey source state) }
      else some (w.pollProgress now source state time)
    | _ => none
  | .raise =>
    match w.poll with
    | .readProgress _ | .readSnapshot _ => some { w with poll := .idle }
    | _ => none
  | .publish =>
    match w.poll with
    | .snapshot now event key =>
      w.publish checks event
        { w.pump with
          lastSource := (event.authorityEpoch, event.sourceRevision)
          lastProgressKey := key
          lastProgressAt := now }
    | .progress now event key => w.publish checks event { w.pump with lastProgressKey := key, lastProgressAt := now }
    | _ => none
  | .call client version time => w.call checks epoch client version time

end Pump

end Conductor.Api.EventPump
