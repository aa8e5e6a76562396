import Conductor.Api.Wire
import Conductor.Lib.Recent
import Mathlib.Data.Int.Notation

/-! `EventReplayBuffer` and its clients. A source event has the closed fields of the contract;
the checks of its data, and the projection of the data to a version, are parameters. The buffer is
only touched under its lock, so that an interleaving of calls is a sequence of `publish` and of
turns of `replay` and `wait_after`; a turn of `wait_after` that finds nothing waits or gives up. -/

namespace Conductor.Api

open Recent

inductive EventType where
  | snapshot
  | state
  | progress
  | diagnostic
  | safeSwap
  deriving DecidableEq

structure SourceEvent (Data : Type) where
  authorityEpoch : String
  sourceRevision : ℤ
  type : EventType
  occurredAt : String
  sessionId : Option String
  data : Data

inductive EventError where
  | invalidSourceEvent (message : String)
  | unsupportedEventVersion

/-- The checks of the data by the type of the event, the registered `date-time` format, and
`project_source_event`. -/
structure Contract (Data : Type) where
  finite : Data → Bool
  conforms : String → Bool
  snapshotData : Data → String → ℤ → Option String → Except EventError Unit
  stateData : Data → Except EventError Unit
  progressData : Data → Except EventError Unit
  diagnosticData : Data → Except EventError Unit
  safeSwapReceipt : Data → Except EventError Unit
  receiptSessionId : Data → String
  projectSnapshotData : Version → Data → Data

section Validation

variable {Data : Type} (contract : Contract Data)

/-- `_validate_source_event`. -/
def validateSourceEvent (e : SourceEvent Data) : Except EventError Unit :=
  let requireSessionId : Bool := e.sessionId.any uuidV7
  if !contract.finite e.data then .error (.invalidSourceEvent "JSON 数值必须有限")
  else if !uuidV4 e.authorityEpoch then .error (.invalidSourceEvent "authority_epoch 必须是小写 UUIDv4")
  else if e.sourceRevision < 0 then .error (.invalidSourceEvent "source_revision 必须是非负整数")
  else if !(rfc3339DateTime e.occurredAt && contract.conforms e.occurredAt) then
    .error (.invalidSourceEvent "occurred_at 必须是 date-time 字符串")
  else if !e.sessionId.all uuidV7 then .error (.invalidSourceEvent "session_id 必须是 UUIDv7 或 null")
  else
    match e.type with
    | .snapshot => contract.snapshotData e.data e.authorityEpoch e.sourceRevision e.sessionId
    | .state =>
      if !requireSessionId then .error (.invalidSourceEvent "state source event 必须携带 UUIDv7 session_id")
      else contract.stateData e.data
    | .progress =>
      if !requireSessionId then .error (.invalidSourceEvent "progress source event 必须携带 UUIDv7 session_id")
      else contract.progressData e.data
    | .diagnostic => contract.diagnosticData e.data
    | .safeSwap =>
      if !requireSessionId then .error (.invalidSourceEvent "safe_swap source event 必须携带 UUIDv7 session_id")
      else do
        contract.safeSwapReceipt e.data
        if some (contract.receiptSessionId e.data) ≠ e.sessionId then
          throw (.invalidSourceEvent "safe_swap session_id 必须与 source event 一致")

/-- `project_source_event`. -/
def projectSourceEvent (version : Version) (e : SourceEvent Data) : SourceEvent Data :=
  if e.type = .snapshot then { e with data := contract.projectSnapshotData version e.data } else e

end Validation

/-- `_BufferedEvent`. -/
structure BufferedEvent (Data : Type) where
  deliveryId : ℕ
  sourceEvent : SourceEvent Data
  resync : Bool

structure SseEvent (Data : Type) where
  deliveryId : ℕ
  apiVersion : Version
  sourceEvent : SourceEvent Data

structure EventReplayBuffer (Data : Type) where
  capacity : ℕ
  capacity_pos : 0 < capacity
  events : List (BufferedEvent Data)
  nextDeliveryId : ℕ

section Buffer

variable {Data : Type} (contract : Contract Data)

/-- `EventReplayBuffer.__init__`. -/
def EventReplayBuffer.init (capacity : ℕ) (h : 0 < capacity) : EventReplayBuffer Data := ⟨capacity, h, [], 1⟩

/-- `_for_version`. -/
def forVersion (version : Version) (e : BufferedEvent Data) : Except EventError (SseEvent Data) :=
  if version = .v2 ∧ e.sourceEvent.type = .safeSwap then .error .unsupportedEventVersion
  else .ok ⟨e.deliveryId, version, projectSourceEvent contract version e.sourceEvent⟩

/-- The next event continues the one before. -/
def follows (previous current : BufferedEvent Data) : Bool :=
  current.resync ||
    current.sourceEvent.authorityEpoch = previous.sourceEvent.authorityEpoch &&
      (current.sourceEvent.type = .progress &&
          current.sourceEvent.sourceRevision = previous.sourceEvent.sourceRevision &&
          current.sourceEvent.sessionId = previous.sourceEvent.sessionId ||
        current.sourceEvent.sourceRevision = previous.sourceEvent.sourceRevision + 1)

/-- `_source_is_contiguous`. -/
def sourceIsContiguous (events : List (BufferedEvent Data)) : Bool :=
  (events.zip events.tail).all fun p => follows p.1 p.2

namespace EventReplayBuffer

/-- `_publish_locked`. -/
def publishLocked (b : EventReplayBuffer Data) (e : SourceEvent Data) (resync : Bool) :
    Except EventError (BufferedEvent Data × EventReplayBuffer Data) := do
  validateSourceEvent contract e
  if resync ∧ e.type ≠ .snapshot then
    throw (.invalidSourceEvent "重同步 callback 必须返回 snapshot source event")
  let event : BufferedEvent Data := ⟨b.nextDeliveryId, e, resync⟩
  return (event, { b with
    events := pushBounded b.capacity b.events event
    nextDeliveryId := b.nextDeliveryId + 1 })

/-- What a call of a client returns with the state of the buffer after it; a call that raises
returns the error. -/
abbrev Answer (Data : Type) := Except EventError (Option (List (SseEvent Data))) × EventReplayBuffer Data

/-- A snapshot is published for the client. -/
def resynchronise (b : EventReplayBuffer Data) (version : Version) (snapshot : SourceEvent Data) : Answer Data :=
  match b.publishLocked contract snapshot true with
  | .error e => (.error e, b)
  | .ok (current, t) => ((forVersion contract version current).map fun e => some [e], t)

/-- `_events_after_locked`. -/
def eventsAfterLocked (b : EventReplayBuffer Data) (cursor : ℕ) (version : Version) (snapshot : SourceEvent Data) :
    Answer Data :=
  match b.events.head?, b.events.getLast? with
  | some first, some last =>
    if cursor < first.deliveryId ∨ last.deliveryId < cursor then b.resynchronise contract version snapshot
    else
      let cursorIndex := cursor - first.deliveryId
      if (b.events[cursorIndex]?).map (·.deliveryId) ≠ some cursor then b.resynchronise contract version snapshot
      else
        let replayed := b.events.drop (cursorIndex + 1)
        if replayed.isEmpty then (.ok none, b)
        else if !sourceIsContiguous (b.events.drop cursorIndex) then b.resynchronise contract version snapshot
        else ((replayed.mapM (forVersion contract version)).map some, b)
  | _, _ => b.resynchronise contract version snapshot

/-- `replay`, and a turn of `wait_after`, which has a cursor. -/
def replay (b : EventReplayBuffer Data) (cursor : Option ℕ) (version : Version) (snapshot : SourceEvent Data) :
    Answer Data :=
  match cursor with
  | none => b.resynchronise contract version snapshot
  | some cursor => b.eventsAfterLocked contract cursor version snapshot

/-- `publish`. -/
def publish (b : EventReplayBuffer Data) (e : SourceEvent Data) : Except EventError ℕ × EventReplayBuffer Data :=
  match b.publishLocked contract e false with
  | .error error => (.error error, b)
  | .ok (event, t) => (.ok event.deliveryId, t)

end EventReplayBuffer

end Buffer

/-! ### The clients -/

/-- The buffer, all that was published in it, and what each client has received. -/
structure Service (Client Data : Type) where
  buffer : EventReplayBuffer Data
  published : List (BufferedEvent Data)
  received : Client → List (SseEvent Data)

inductive ServiceAction (Client Data : Type) where
  | publish (e : SourceEvent Data)
  | replay (client : Client) (version : Version) (snapshot : SourceEvent Data)

section Service

variable {Client Data : Type} [DecidableEq Client] (contract : Contract Data)

/-- The delivery id of the last event that the client received. -/
def Service.cursor (s : Service Client Data) (client : Client) : Option ℕ :=
  (s.received client).getLast?.map (·.deliveryId)

/-- What an operation of the buffer has published. -/
def newlyPublished (b t : EventReplayBuffer Data) : List (BufferedEvent Data) :=
  if b.nextDeliveryId < t.nextDeliveryId then t.events.getLast?.toList else []

def Service.step (s : Service Client Data) : ServiceAction Client Data → Option (Service Client Data)
  | .publish e =>
    let buffer := (s.buffer.publish contract e).2
    some { s with buffer, published := s.published ++ newlyPublished s.buffer buffer }
  | .replay client version snapshot =>
    let (answer, buffer) := s.buffer.replay contract (s.cursor client) version snapshot
    let delivered := match answer with
      | .ok (some events) => events
      | _ => []
    some
      { buffer
        published := s.published ++ newlyPublished s.buffer buffer
        received := Function.update s.received client (s.received client ++ delivered) }

def Service.init (capacity : ℕ) (h : 0 < capacity) : Service Client Data := ⟨.init capacity h, [], fun _ => []⟩

end Service

end Conductor.Api
