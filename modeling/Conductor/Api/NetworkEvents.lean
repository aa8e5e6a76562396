import Conductor.Lib.Recent
import Conductor.Lib.Runs

/-! `_NetworkEventReplayBuffer` of the gateway, its clients and the controller whose statuses they
poll. The buffer is only touched under its lock, so that an interleaving is a sequence of calls. A
value of type `ι` is a JSON value that is compared and copied as a whole. -/

namespace Conductor.NetworkEvents

open Recent

/-- The fields of a transaction that are read, and the rest of it. -/
structure Transaction (ι : Type) where
  transactionId : String
  authorityEpoch : String
  sourceRevision : ℕ
  updatedAt : String
  content : ι
  deriving DecidableEq

/-- The result of `network_status_v1`; `current` and `latest` are the field `transaction`. -/
structure Status (ι : Type) where
  authorityEpoch : String
  sourceRevision : ℕ
  observedAt : String
  saved : Bool
  verified : Bool
  desired : ι
  observed : ι
  current : Option (Transaction ι)
  latest : Option (Transaction ι)
  mutationCapability : ι
  concurrencyCapability : ι

/-- The data of an event of the type `transaction` or `snapshot`. -/
inductive Data (ι : Type) where
  | transaction (transaction : Transaction ι)
  | snapshot (status : Status ι)

structure SourceEvent (ι : Type) where
  authorityEpoch : String
  sourceRevision : ℕ
  occurredAt : String
  transactionId : Option String
  data : Data ι

/-- `_NetworkSseEvent`. -/
structure SseEvent (ι : Type) where
  deliveryId : ℕ
  sourceEvent : SourceEvent ι

structure Buffer (ι : Type) where
  capacity : ℕ
  capacity_pos : 0 < capacity
  events : List (SseEvent ι)
  nextDeliveryId : ℕ
  lastStatus : Option (Status ι)
  retiredAuthorityEpochs : List String

inductive Relation where
  | new
  | stale
  | projection
  | same
  | newAuthority

variable {ι : Type}

def Status.sameProjection [DecidableEq ι] (a b : Status ι) : Bool :=
  a.saved = b.saved && a.verified = b.verified && a.desired = b.desired && a.observed = b.observed &&
    a.current = b.current && a.latest = b.latest && a.mutationCapability = b.mutationCapability &&
    a.concurrencyCapability = b.concurrencyCapability

/-- `transactions.get("current") or transactions.get("latest")`, if it has the epoch and the revision of the
status. -/
def Status.ownTransaction (s : Status ι) : Option (Transaction ι) :=
  (s.current.or s.latest).filter fun t => t.authorityEpoch = s.authorityEpoch && t.sourceRevision = s.sourceRevision

def Status.snapshotEvent (s : Status ι) : SourceEvent ι :=
  ⟨s.authorityEpoch, s.sourceRevision, s.observedAt, none, .snapshot s⟩

def Status.sourceEvent (s : Status ι) (forceSnapshot : Bool) : SourceEvent ι :=
  match forceSnapshot, s.ownTransaction with
  | false, some t => ⟨s.authorityEpoch, s.sourceRevision, t.updatedAt, some t.transactionId, .transaction t⟩
  | _, _ => s.snapshotEvent

namespace Buffer

def init (capacity : ℕ) (h : 0 < capacity) (initialDeliveryId : ℕ) : Buffer ι :=
  ⟨capacity, h, [], initialDeliveryId, none, []⟩

/-- `_status_relation_locked`. -/
def statusRelation [DecidableEq ι] (b : Buffer ι) (status : Status ι) : Relation :=
  match b.lastStatus with
  | none => .new
  | some last =>
    if status.authorityEpoch = last.authorityEpoch then
      if status.sourceRevision < last.sourceRevision then .stale
      else if last.sourceRevision < status.sourceRevision then .new
      else if !status.sameProjection last then .projection
      else .same
    else if status.authorityEpoch ∈ b.retiredAuthorityEpochs then .stale
    else .newAuthority

/-- `_publish_locked`. -/
def publish (b : Buffer ι) (status : Status ι) (forceSnapshot : Bool) : SseEvent ι × Buffer ι :=
  let event : SseEvent ι := ⟨b.nextDeliveryId, status.sourceEvent forceSnapshot⟩
  let retired :=
    match b.lastStatus with
    | none => b.retiredAuthorityEpochs
    | some last =>
      if last.authorityEpoch ≠ status.authorityEpoch then last.authorityEpoch :: b.retiredAuthorityEpochs
      else b.retiredAuthorityEpochs
  (event,
    { b with
      events := pushBounded b.capacity b.events event
      nextDeliveryId := b.nextDeliveryId + 1
      lastStatus := some status
      retiredAuthorityEpochs := retired })

/-- `selected_status`. -/
def selectedStatus [DecidableEq ι] (b : Buffer ι) (status : Status ι) : Status ι :=
  match b.statusRelation status, b.lastStatus with
  | .same, some last => last
  | .stale, some last => last
  | _, _ => status

/-- `_publish_snapshot_locked`. -/
def publishSnapshot [DecidableEq ι] (b : Buffer ι) (status : Status ι) (afterCursor : Option ℕ) : SseEvent ι × Buffer ι :=
  let next := if afterCursor.any (b.nextDeliveryId ≤ ·) then afterCursor.getD 0 + 1 else b.nextDeliveryId
  { b with nextDeliveryId := next }.publish (b.selectedStatus status) true

/-- `_observe_locked`. -/
def observe [DecidableEq ι] (b : Buffer ι) (status : Status ι) : Buffer ι :=
  match b.statusRelation status with
  | .same => b
  | .stale => b
  | .new => (b.publish status false).2
  | .projection => (b.publish status true).2
  | .newAuthority => (b.publish status true).2

def containsCursor (b : Buffer ι) (cursor : ℕ) : Bool := b.events.any (·.deliveryId = cursor)

/-- `_events_after_locked`. -/
def eventsAfterLocked (b : Buffer ι) (cursor : ℕ) : List (SseEvent ι) := b.events.filter (cursor < ·.deliveryId)

def eventsAfter [DecidableEq ι] (b : Buffer ι) (cursor : ℕ) (status : Status ι) : List (SseEvent ι) × Buffer ι :=
  if !b.containsCursor cursor then
    let (event, b) := b.publishSnapshot status (some cursor)
    ([event], b)
  else
    let b := b.observe status
    (b.eventsAfterLocked cursor, b)

def replay [DecidableEq ι] (b : Buffer ι) (cursor : Option ℕ) (status : Status ι) : List (SseEvent ι) × Buffer ι :=
  match cursor with
  | none =>
    let (event, b) := b.publishSnapshot status none
    ([event], b)
  | some cursor => b.eventsAfter cursor status

end Buffer

/-! ### The clients and the controller -/

/-- A client: the cursor that it came with, its cursor now and all that it has received. -/
structure Client (ι : Type) where
  first : Option ℕ
  cursor : Option ℕ
  received : List (SseEvent ι)

/-- What a poll gives: a status that the controller has published, or the fallback projection. -/
inductive Poll (ι : Type) where
  | published (index : ℕ)
  | fallback (status : Status ι)

/-- `published` are the statuses of the controller, the current one last; `fallbackEpoch` is
`FALLBACK_NETWORK_AUTHORITY_EPOCH`, which the process draws when it starts. -/
structure System (ι : Type) where
  fallbackEpoch : String
  buffer : Buffer ι
  published : List (Status ι)
  clients : List (Client ι)

inductive Act (ι : Type) where
  | publish (status : Status ι)
  | connect (cursor : Option ℕ)
  | observe (poll : Poll ι)
  | replay (client : ℕ) (poll : Poll ι)
  | eventsAfter (client : ℕ) (poll : Poll ι)

def System.poll (s : System ι) : Poll ι → Option (Status ι)
  | .published index => s.published[index]?
  | .fallback status => if status.authorityEpoch = s.fallbackEpoch ∧ status.sourceRevision = 0 then some status else none

/-- A client goes on from the last event that it got. -/
def Client.receive (c : Client ι) (events : List (SseEvent ι)) : Client ι where
  first := c.first
  cursor := (events.getLast?.map (·.deliveryId)).or c.cursor
  received := c.received ++ events

/-- The call of a client; `none` says that it cannot be made. -/
def System.call (s : System ι) (i : ℕ) (poll : Poll ι)
    (f : Buffer ι → Option ℕ → Status ι → Option (List (SseEvent ι) × Buffer ι)) : Option (System ι) := do
  let client ← s.clients[i]?
  let status ← s.poll poll
  let (events, buffer) ← f s.buffer client.cursor status
  return { s with buffer, clients := s.clients.set i (client.receive events) }

def step [DecidableEq ι] (s : System ι) : Act ι → Option (System ι)
  | .publish status =>
    if status.authorityEpoch ≠ s.fallbackEpoch ∧ s.published.getLast?.all fun last =>
        status.authorityEpoch = last.authorityEpoch && last.sourceRevision ≤ status.sourceRevision then
      some { s with published := s.published ++ [status] }
    else none
  | .connect cursor => some { s with clients := s.clients ++ [⟨cursor, cursor, []⟩] }
  | .observe poll => (s.poll poll).map fun status => { s with buffer := s.buffer.observe status }
  | .replay i poll => s.call i poll fun b cursor status => some (b.replay cursor status)
  | .eventsAfter i poll => s.call i poll fun b cursor status => cursor.map (b.eventsAfter · status)

def System.init (fallbackEpoch : String) (capacity : ℕ) (h : 0 < capacity) (initialDeliveryId : ℕ) : System ι :=
  ⟨fallbackEpoch, .init capacity h initialDeliveryId, [], []⟩

end Conductor.NetworkEvents
