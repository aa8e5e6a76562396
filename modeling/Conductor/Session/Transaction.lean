import Conductor.Capture.Pipeline
import Conductor.Lib.Runs

/-! `SessionTransaction`: the lifecycle of one recording session under any number of
callers. Every section under the state mutex is one step; `finish_inner` is three
steps (before, inside and after `register_segments`), and `abort_resources` is one.
The answers of the audio recorder, the encoder and the artifact writers are
parameters of the steps, and the capture thread may write to the shared resources
between any two of them. `Drop` owns the transaction, so it runs when no call is in
progress. -/

namespace Conductor.Session

open Capture

/-- `StoreError` has the fields of the errors that convert into it. -/
abbrev StoreError := RuntimeError

inductive Lifecycle where
  | recording | finishing | finished | aborted
  deriving DecidableEq

structure SegmentEvent where
  index : ℕ
  startFrame : ℕ
  endFrame : ℕ
  deriving DecidableEq

structure RecordingSinkSnapshot where
  bytesWritten : ℕ
  framesWritten : ℕ
  imuSamplesWritten : ℕ

structure RecordingOutcome where
  activeTake : ActiveTakeSnapshot
  sink : RecordingSinkSnapshot
  segments : List SegmentEvent
  planner : SegmentPlannerSnapshot

structure State where
  lifecycle : Lifecycle := .recording
  registeredSegments : ℕ := 0
  outcome : Option RecordingOutcome := none

namespace State

def ensureFinished (s : State) : Except StoreError Unit :=
  if s.lifecycle ≠ .finished ∨ s.outcome.isNone then
    .error ⟨"invalid_state", "session transaction must finish before it can be sealed"⟩
  else .ok ()

/-- The first section of `finish`. Without an outcome the caller goes on to `finish_inner`. -/
def beginFinish (s : State) : Except StoreError (Option RecordingOutcome) × State :=
  match s.lifecycle with
  | .finished =>
    match s.outcome with
    | some outcome => (.ok (some outcome), s)
    | none => (.error ⟨"invalid_state", "finished transaction has no outcome"⟩, s)
  | .recording => (.ok none, { s with lifecycle := .finishing })
  | .finishing =>
    (.error ⟨"invalid_state", "session transaction finish is already in progress"⟩, s)
  | .aborted => (.error ⟨"invalid_state", "session transaction is aborted"⟩, s)

def storeOutcome (s : State) (outcome : RecordingOutcome) : State :=
  { s with lifecycle := .finished, outcome := some outcome }

def storeFailure (s : State) : State := { s with lifecycle := .aborted }

/-- The section of `abort`, and whether it goes on to `abort_resources`. -/
def beginAbort (s : State) : Bool × State :=
  match s.lifecycle with
  | .finished | .aborted => (false, s)
  | .recording | .finishing => (true, { s with lifecycle := .aborted })

end State

/-! ### The resources of a transaction -/

structure Resources where
  activeTake : ActiveTakeWriter
  sink : RecordingSink
  segmentPlanner : RecordingSegmentPlanner

def abortResources (r : Resources) : Resources := { r with sink := r.sink.close }

/-- How the recorder, the artifact writers and the encoder answer `finish_inner`. -/
structure FinishEnv where
  audioStop : Except StoreError Unit
  flush : Except StoreError Unit
  encoderFinish : Except StoreError (List SegmentEvent × ℕ)

def flushAndClose (sink : RecordingSink) (flush : Except StoreError Unit) :
    Except StoreError RecordingSinkSnapshot × RecordingSink :=
  if sink.closed then (.error RecordingSink.alreadyClosed, sink)
  else
    match flush with
    | .error e => (.error e, sink)
    | .ok () => (.ok ⟨sink.bytesWritten, sink.framesWritten, sink.imuSamplesWritten⟩,
        { sink with closed := true })

/-- What `finish_inner` has collected when it registers the segments. -/
structure Drained where
  activeTake : ActiveTakeSnapshot
  sink : RecordingSinkSnapshot
  segments : List SegmentEvent
  submittedFrames : ℕ

/-- `finish_inner` up to `register_segments`. -/
def drain (timeout : ℕ) (env : FinishEnv) (r : Resources) : Except StoreError Drained × Resources :=
  if timeout = 0 then
    (.error ⟨"invalid_argument", "transaction finish timeout must be positive"⟩, r)
  else
    match r.activeTake.finish with
    | (.error e, activeTake) => (.error e, { r with activeTake })
    | (.ok taken, activeTake) =>
      let r := { r with activeTake }
      match env.audioStop with
      | .error e => (.error e, r)
      | .ok () =>
        match flushAndClose r.sink env.flush with
        | (.error e, sink) => (.error e, { r with sink })
        | (.ok flushed, sink) =>
          match env.encoderFinish with
          | .error e => (.error e, { r with sink })
          | .ok (segments, submitted) => (.ok ⟨taken, flushed, segments, submitted⟩, { r with sink })

/-- The registration loop: every segment that the planner accepts is counted. -/
def registerAll : List SegmentEvent → ℕ → RecordingSegmentPlanner →
    Except StoreError Unit × ℕ × RecordingSegmentPlanner
  | [], registered, planner => (.ok (), registered, planner)
  | segment :: rest, registered, planner =>
    match planner.registerSegment segment.index segment.startFrame segment.endFrame with
    | (.error e, planner) => (.error e, registered, planner)
    | (.ok _, planner) => registerAll rest (registered + 1) planner

def regressed : StoreError := ⟨"segment_invalid", "encoder segment list regressed"⟩

def registerSegments (segments : List SegmentEvent) (s : State) (r : Resources) :
    Except StoreError Unit × State × Resources :=
  if segments.length < s.registeredSegments then (.error regressed, s, r)
  else
    match registerAll (segments.drop s.registeredSegments) s.registeredSegments r.segmentPlanner with
    | (result, registeredSegments, segmentPlanner) =>
      (result, { s with registeredSegments }, { r with segmentPlanner })

/-- `finish_inner` after `register_segments`. -/
def planFinish (duration : ℚ) (d : Drained) (r : Resources) :
    Except StoreError RecordingOutcome × Resources :=
  match r.segmentPlanner.finish d.submittedFrames d.activeTake.frameDomain duration with
  | (.error e, segmentPlanner) => (.error e, { r with segmentPlanner })
  | (.ok planner, segmentPlanner) =>
    let r := { r with segmentPlanner }
    if d.activeTake.framesWritten ≠ d.sink.framesWritten ∨
        d.activeTake.framesWritten ≠ d.submittedFrames then
      (.error ⟨"recording_count_mismatch",
        "active take, sink, and encoder frame counts differ"⟩, r)
    else (.ok ⟨d.activeTake, d.sink, d.segments, planner⟩, r)

/-- The second state section of `segments_since`; `start` was read in the first one. -/
def listSegments (offset start : ℕ) (segments : List SegmentEvent) (s : State) (r : Resources) :
    Except StoreError (List SegmentEvent) × State × Resources :=
  let total := start + segments.length
  if total < s.registeredSegments then (.error regressed, s, r)
  else if total < offset then
    (.error ⟨"invalid_argument", "segment offset exceeds inventory"⟩, s, r)
  else
    match registerAll (segments.drop (s.registeredSegments - start)) s.registeredSegments
        r.segmentPlanner with
    | (result, registeredSegments, segmentPlanner) =>
      (result.map fun () => segments.drop (offset - start),
        { s with registeredSegments }, { r with segmentPlanner })

/-! ### Callers -/

/-- Where a call stands between two of its steps. -/
inductive Caller where
  | idle
  | draining (duration : ℚ) (timeout : ℕ)
  | registering (duration : ℚ) (drained : Drained)
  | planning (duration : ℚ) (drained : Drained)
  | storing (outcome : RecordingOutcome)
  | failing (error : StoreError)
  | failed (error : StoreError)
  | aborting
  | listing (offset start : ℕ)

structure Sys where
  state : State := {}
  resources : Resources
  /-- The caller that holds the segment inventory. -/
  inventory : Option ℕ := none
  callers : ℕ → Caller := fun _ => .idle
  /-- The calls in progress. -/
  active : ℕ := 0
  dropped : Bool := false
  /-- The callers that have entered `finish_inner`. -/
  entered : ℕ := 0
  /-- Whether an abort has run `abort_resources`. -/
  abortRan : Bool := false

inductive Step where
  | finish (duration : ℚ) (timeout : ℕ)
  | drain (env : FinishEnv)
  | register
  | plan
  | store
  | failResources
  | storeFailure
  | abort
  | abortResources
  | segmentsSince (offset : ℕ)
  | listed (segments : Except StoreError (List SegmentEvent))
  | ensureRecording
  | ensureFinished

inductive Action where
  | call (c : ℕ) (a : Step)
  | capture (resources : Resources)
  | drop

namespace Sys

def moveTo (s : Sys) (c : ℕ) (pc : Caller) : Sys :=
  { s with callers := Function.update s.callers c pc }

def enter (s : Sys) (c : ℕ) (pc : Caller) : Sys := { s with active := s.active + 1 }.moveTo c pc

def leave (s : Sys) (c : ℕ) : Sys := { s with active := s.active - 1 }.moveTo c .idle

/-- A call that is over within one step. -/
def passes (s : Sys) : Option Sys := if s.dropped then none else some s

end Sys

def stepCall (s : Sys) (c : ℕ) : Caller → Step → Option Sys
  | .idle, .finish duration timeout =>
    if s.dropped then none
    else
      match s.state.beginFinish with
      | (.ok none, state) =>
        some ({ s with state, entered := s.entered + 1 }.enter c (.draining duration timeout))
      | (_, _) => some s
  | .draining duration timeout, .drain env =>
    match drain timeout env s.resources with
    | (.error e, resources) => some ({ s with resources }.moveTo c (.failing e))
    | (.ok drained, resources) => some ({ s with resources }.moveTo c (.registering duration drained))
  | .registering duration drained, .register =>
    if s.inventory.isSome then none
    else
      match registerSegments drained.segments s.state s.resources with
      | (.error e, state, resources) => some ({ s with state, resources }.moveTo c (.failing e))
      | (.ok (), state, resources) =>
        some ({ s with state, resources }.moveTo c (.planning duration drained))
  | .planning duration drained, .plan =>
    match planFinish duration drained s.resources with
    | (.error e, resources) => some ({ s with resources }.moveTo c (.failing e))
    | (.ok outcome, resources) => some ({ s with resources }.moveTo c (.storing outcome))
  | .storing outcome, .store => some ({ s with state := s.state.storeOutcome outcome }.leave c)
  | .failing e, .failResources =>
    some ({ s with resources := abortResources s.resources }.moveTo c (.failed e))
  | .failed _, .storeFailure => some ({ s with state := s.state.storeFailure }.leave c)
  | .idle, .abort =>
    if s.dropped then none
    else
      match s.state.beginAbort with
      | (true, state) => some ({ s with state }.enter c .aborting)
      | (false, _) => some s
  | .aborting, .abortResources =>
    some ({ s with resources := abortResources s.resources, abortRan := true }.leave c)
  | .idle, .segmentsSince offset =>
    if s.dropped || s.inventory.isSome then none
    else some ({ s with inventory := some c }.enter c
      (.listing offset (min offset s.state.registeredSegments)))
  | .listing _ _, .listed (.error _) => some ({ s with inventory := none }.leave c)
  | .listing offset start, .listed (.ok segments) =>
    match listSegments offset start segments s.state s.resources with
    | (_, state, resources) => some ({ s with state, resources, inventory := none }.leave c)
  | .idle, .ensureRecording | .idle, .ensureFinished => s.passes
  | _, _ => none

def step (s : Sys) : Action → Option Sys
  | .call c a => stepCall s c (s.callers c) a
  | .capture resources => some { s with resources }
  | .drop =>
    if s.dropped || s.active != 0 then none
    else
      match s.state.beginAbort with
      | (true, state) => some { s with
          state, resources := abortResources s.resources, abortRan := true, dropped := true }
      | (false, _) => some { s with dropped := true }

def init (resources : Resources) : Sys := { resources }

/-! ### The lifecycle -/

/-- The moves of a lifecycle; `finished` and `aborted` have none. -/
inductive Lifecycle.Moves : Lifecycle → Lifecycle → Prop where
  | finish : Moves .recording .finishing
  | succeed : Moves .finishing .finished
  | fail : Moves .finishing .aborted
  | abort : Moves .recording .aborted

/-- In one state: an outcome is there exactly when the session is finished, one caller at most
has run `finish_inner`, and an aborted session is neither finished nor can be sealed. -/
structure Lawful (s : Sys) : Prop where
  outcome : s.state.lifecycle = .finished ↔ s.state.outcome.isSome = true
  single : s.entered ≤ 1
  dead : s.abortRan = true → s.state.lifecycle ≠ .finished ∧ ∃ e, s.state.ensureFinished = .error e

/-- In one step: the lifecycle stays or makes one of its moves. -/
def StepLawful (s : Sys) (_ : Action) (t : Sys) : Prop :=
  t.state.lifecycle = s.state.lifecycle ∨ s.state.lifecycle.Moves t.state.lifecycle

/-- No outcome is stored after an abort. -/
def Unaborted (s : Sys) (a : Action) (_ : Sys) : Prop :=
  ∀ c outcome, a = .call c .store → s.callers c = .storing outcome → s.state.lifecycle ≠ .aborted

end Conductor.Session
