import Conductor.Session.Transaction

/-! The segment inventory of one session: the reader of the encoder's events appends to it,
and `segments_since`, called from any number of threads, and the `register_segments` of
`finish` hand what they find to the planner. A call of `segments_since` is three steps under
the inventory lock: it reads the counter, takes a tail of the inventory under the encoder
lock, and registers under the state and planner locks. -/

namespace Conductor.Session.Inventory

open Capture Runs

/-- `EncoderProcess::segments_since`; the slice `get(offset..)` needs `offset` in range. -/
def encoderSegmentsSince (segments : List SegmentEvent) (offset : ℕ) : Except StoreError (List SegmentEvent) :=
  if offset ≤ segments.length then .ok (segments.drop offset) else .error regressed

/-- More segments than this do not fit a `Vec`. -/
def vecCapacity : ℕ := 2 ^ 63 - 1

/-- The segments that the planner accepts when they are registered one after another. -/
def acceptedBy : List SegmentEvent → RecordingSegmentPlanner → List SegmentEvent
  | [], _ => []
  | segment :: rest, planner =>
    match planner.registerSegment segment.index segment.startFrame segment.endFrame with
    | (.error _, _) => []
    | (.ok _, planner) => segment :: acceptedBy rest planner

/-- Where a call stands. `seen` is the inventory at the snapshot. -/
inductive Caller
  | idle
  | listing (offset start : ℕ)
  | snapshotted (offset start : ℕ) (segments seen : List SegmentEvent)
  | registering (segments : List SegmentEvent)
  deriving DecidableEq

structure Return where
  offset : ℕ
  seen : List SegmentEvent
  result : Except StoreError (List SegmentEvent)

structure Sys where
  state : State := {}
  resources : Resources
  /-- `segments` of the encoder process, and whether its reader was joined. -/
  inventory : List SegmentEvent := []
  closed : Bool := false
  /-- The thread in the inventory lock. -/
  holder : Option ℕ := none
  callers : ℕ → Caller := fun _ => .idle
  accepted : List SegmentEvent := []
  returned : List Return := []

inductive Action
  | event (segment : SegmentEvent)
  | segmentsSince (c offset : ℕ)
  | snapshot (c : ℕ)
  | list (c : ℕ)
  /-- `encoder.finish` joins the reader; on success its caller goes on with the inventory. -/
  | encoderFinish (c : ℕ) (success : Bool)
  | register (c : ℕ)
  | nextFrame (recordSequence : ℕ) (elapsed : ℚ)
  | plannerFinish (submittedFrames frameDomain : ℕ) (duration : ℚ)
  /-- Sections of other calls, which touch neither the counter nor the planner. -/
  | other (lifecycle : Lifecycle) (outcome : Option RecordingOutcome) (activeTake : ActiveTakeWriter)
      (sink : RecordingSink)

def Sys.moveTo (s : Sys) (c : ℕ) (pc : Caller) : Sys := { s with callers := Function.update s.callers c pc }

/-- A call of `segments_since` returns and leaves the inventory lock. -/
def Sys.return (s : Sys) (c offset : ℕ) (seen : List SegmentEvent)
    (result : Except StoreError (List SegmentEvent)) : Sys :=
  { s with holder := none, returned := s.returned ++ [Return.mk offset seen result] }.moveTo c .idle

def Sys.withPlanner (s : Sys) (segmentPlanner : RecordingSegmentPlanner) : Sys :=
  { s with resources := { s.resources with segmentPlanner } }

def step (s : Sys) : Action → Option Sys
  | .event segment =>
    if !s.closed && s.inventory.length < vecCapacity then
      some { s with inventory := s.inventory ++ [segment] }
    else none
  | .segmentsSince c offset =>
    if s.callers c = .idle ∧ s.holder = none then
      some ({ s with holder := some c }.moveTo c (.listing offset (min offset s.state.registeredSegments)))
    else none
  | .snapshot c =>
    match s.callers c with
    | .listing offset start =>
      match encoderSegmentsSince s.inventory start with
      | .error e => some (s.return c offset s.inventory (.error e))
      | .ok segments => some (s.moveTo c (.snapshotted offset start segments s.inventory))
    | _ => none
  | .list c =>
    match s.callers c with
    | .snapshotted offset start segments seen =>
      match listSegments offset start segments s.state s.resources with
      | (result, state, resources) =>
        -- an early error has registered none of them
        let accepted := (acceptedBy (segments.drop (s.state.registeredSegments - start))
          s.resources.segmentPlanner).take (state.registeredSegments - s.state.registeredSegments)
        some ({ s with state, resources, accepted := s.accepted ++ accepted }.return c offset seen result)
    | _ => none
  | .encoderFinish c success =>
    if s.callers c = .idle then
      some ({ s with closed := true }.moveTo c (if success then .registering s.inventory else .idle))
    else none
  | .register c =>
    match s.callers c with
    | .registering segments =>
      if s.holder = none then
        match registerSegments segments s.state s.resources with
        | (_, state, resources) =>
          let accepted := acceptedBy (segments.drop s.state.registeredSegments) s.resources.segmentPlanner
          some ({ s with state, resources, accepted := s.accepted ++ accepted }.moveTo c .idle)
      else none
    | _ => none
  | .nextFrame recordSequence elapsed =>
    some (s.withPlanner (s.resources.segmentPlanner.nextFrame recordSequence elapsed).2)
  | .plannerFinish submittedFrames frameDomain duration =>
    some (s.withPlanner (s.resources.segmentPlanner.finish submittedFrames frameDomain duration).2)
  | .other lifecycle outcome activeTake sink =>
    some { s with
      state := { s.state with lifecycle, outcome }
      resources := { s.resources with activeTake, sink } }

/-- A new session: the planner has registered nothing. -/
def init (activeTake : ActiveTakeWriter) (sink : RecordingSink) (segmentFrames : ℕ) (pos : 0 < segmentFrames) :
    Sys :=
  { resources := ⟨activeTake, sink, { segmentFrames, segmentFrames_pos := pos }⟩ }

/-! ### What a run has to show -/

/-- Numbered from `index` on, none empty, each starting where the one before it ends. -/
def TilesFrom : ℕ → ℕ → List SegmentEvent → Prop
  | _, _, [] => True
  | index, covered, segment :: rest =>
    segment.index = index ∧ segment.startFrame = covered ∧ segment.startFrame < segment.endFrame ∧
      TilesFrom (index + 1) segment.endFrame rest

def coveredTo (covered : ℕ) (segments : List SegmentEvent) : ℕ := (segments.getLast?.map (·.endFrame)).getD covered

structure Lawful (s : Sys) : Prop where
  counted : s.state.registeredSegments = s.resources.segmentPlanner.segmentCount
  /-- Registered once and in order: the planner has accepted a prefix of the inventory. -/
  registered : s.state.registeredSegments ≤ s.inventory.length ∧
    s.accepted = s.inventory.take s.state.registeredSegments
  tiling : TilesFrom 0 0 s.accepted ∧ s.resources.segmentPlanner.coveredFrames = coveredTo 0 s.accepted
  /-- A successful call returned its window, and everything it saw is registered. -/
  windows : ∀ r ∈ s.returned, ∀ segments, r.result = .ok segments →
    r.offset ≤ r.seen.length ∧ segments = r.seen.drop r.offset ∧ r.seen <+: s.inventory ∧
      r.seen.length ≤ s.state.registeredSegments

/-- The slice indices are in range, an offset beyond the inventory registers nothing, and the
registration of `finish`, when it succeeds, registers what is left. -/
def StepLawful (s : Sys) (a : Action) (t : Sys) : Prop :=
  match a with
  | .list c => ∀ offset start segments seen, s.callers c = .snapshotted offset start segments seen →
      start ≤ s.state.registeredSegments ∧ s.state.registeredSegments - start ≤ segments.length ∧
      start ≤ offset ∧ (offset ≤ start + segments.length → offset - start ≤ segments.length) ∧
      start + segments.length = seen.length ∧
      (seen.length < offset → t.state = s.state ∧ t.resources = s.resources ∧ t.accepted = s.accepted ∧
        t.returned = s.returned ++
          [⟨offset, seen, .error ⟨"invalid_argument", "segment offset exceeds inventory"⟩⟩])
  | .register c => ∀ segments, s.callers c = .registering segments →
      segments = s.inventory ∧ s.state.registeredSegments ≤ segments.length ∧
      ((registerSegments segments s.state s.resources).1 = .ok () →
        t.state.registeredSegments = s.inventory.length)
  | _ => True

end Conductor.Session.Inventory
