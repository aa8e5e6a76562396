import Conductor.Persistence.CaptureState

/-! `_persist_local_state`: the snapshot under the lock of the coordinator and the write under the
persistence lock, called by any number of threads while the fields change; what the restore makes of
the stored receipts; and the stops and starts as far as they decide on
`_pending_stop_state_commit`. Each section under a lock is one step, and a start holds the lock from
its first step to its last. A value of type `τ` is a receipt tuple: the tuples are never mutated, so
that equality is `is`, and the codec reads their contents. A value of type `ι` is a JSON value. -/

namespace Conductor.LocalState

open KeyTable Persistence

/-- `active_session`. -/
structure SessionIdentity where
  sessionId : String
  volumeId : String
  generationId : String
  deriving DecidableEq

/-- A dictionary by scope. Its order is not read here. -/
abbrev Receipts (τ : Type) := {rows : List (Scope × τ) // UniqueKeys rows}

def Receipts.empty {τ : Type} : Receipts τ := ⟨[], List.nodup_nil⟩

def Receipts.get {τ : Type} (r : Receipts τ) (scope : Scope) : Option τ := r.1.lookup scope

/-- The fields that the document is made of. The active recorder and its plan are set together, so
there is one field for both; `admission` is the binding that it makes. -/
structure Fields (ι : Type) where
  admission : Option ι
  lastVolumeBinding : Option ι
  authorityEpoch : String
  revision : ℕ
  activePlan : Option SessionIdentity
  recoverySession : Option SessionIdentity
  retained : ι
  pendingSafeSwap : Option ι
  pendingSafeSwapFailure : Option ι
  safeSwapResource : Option ι
  safeSwapFailureClearPending : Bool
  safeSwapToPersist : Option ι

/-- The document, without the quarantine. -/
structure Value (ι : Type) where
  authorityEpoch : String
  sourceRevision : ℕ
  volumeBinding : Option ι
  activeSession : Option SessionIdentity
  retained : ι
  pendingSafeSwap : Option ι
  pendingSafeSwapFailure : Option ι
  safeSwapResource : Option ι

variable {ι τ φ : Type}

def Fields.bind (f : Fields ι) : Fields ι := { f with lastVolumeBinding := f.admission.or f.lastVolumeBinding }

/-- The handoff that is staged goes out as if it had succeeded. -/
def Fields.value (f : Fields ι) : Value ι where
  authorityEpoch := f.authorityEpoch
  sourceRevision := f.revision
  volumeBinding := f.lastVolumeBinding
  activeSession := f.activePlan.or f.recoverySession
  retained := f.retained
  pendingSafeSwap := if f.safeSwapToPersist.isSome then none else f.pendingSafeSwap
  pendingSafeSwapFailure :=
    if f.safeSwapToPersist.isSome || f.safeSwapFailureClearPending then none else f.pendingSafeSwapFailure
  safeSwapResource := f.safeSwapToPersist.or f.safeSwapResource

/-- The scopes of the receipts that are not valid, each with its evidence until that is stored. -/
abbrev Quarantine := List (Scope × Option PyStr)

/-- The snapshot of one write; `activePlan` is the take that was active, which the code does not
keep. -/
structure Write (ι τ φ : Type) where
  sequence : ℕ
  value : Document (Value ι)
  commands : Receipts τ
  focus : Option φ
  pendingStop : Option Scope
  activePlan : Option SessionIdentity

/-- Where a stop stands that holds `_stop_inflight`. -/
inductive Phase (ι τ φ : Type) where
  /-- `_finish_stop_capture`, before the section that ends the take. -/
  | finalizing
  /-- `_commit_stop_replay`, before it reads the marker; or another stop that leaves it alone. -/
  | replaying
  /-- Before its snapshot, with the marker that it may clear afterwards. -/
  | committing (pending : Option Scope)
  | writing (pending : Option Scope) (write : Write ι τ φ)
  | written (pending : Option Scope)
  /-- After the clear, or after a failure. -/
  | done

structure Stop (ι τ φ : Type) where
  scope : Scope
  phase : Phase ι τ φ

/-- A start that holds the lock. -/
structure Start (ι τ φ : Type) where
  checkpointed : Bool := false
  write : Option (Write ι τ φ) := none

/-- `stored` is the last snapshot that was written, `snapshots` are all of them in order, `markedAt`
how many there were when the marker was set, and `startedAt` how many when the last start began. -/
structure State (ι τ φ : Type) where
  fields : Fields ι
  commands : Receipts τ
  invalidCommands : Quarantine
  focusToPersist : Option φ
  pendingStopStateCommit : Option Scope := none
  stopInflight : Option Scope := none
  closing : Bool := false
  stateWriteSequence : ℕ := 0
  statePersistedSequence : ℕ := 0
  persistedCommands : Receipts τ := .empty
  persistedFocus : Option φ := none
  db : Db
  calls : List (Write ι τ φ) := []
  stops : List (Stop ι τ φ) := []
  starting : Option (Start ι τ φ) := none
  stored : Option (Write ι τ φ) := none
  snapshots : List (Write ι τ φ) := []
  markedAt : ℕ := 0
  startedAt : ℕ := 0

namespace State

/-- `_local_state_write`, with what else the section reads. -/
def localStateWrite (s : State ι τ φ) : Write ι τ φ × State ι τ φ :=
  let fields := s.fields.bind
  let w : Write ι τ φ := {
    sequence := s.stateWriteSequence + 1
    value := {
      invalidCommands := some (.list (s.invalidCommands.map fun e => entry e.1 e.2))
      rest := fields.value }
    commands := s.commands
    focus := s.focusToPersist
    pendingStop := s.pendingStopStateCommit
    activePlan := fields.activePlan }
  (w, { s with fields, stateWriteSequence := s.stateWriteSequence + 1, snapshots := s.snapshots ++ [w] })

end State

section Persist

variable [DecidableEq τ] [DecidableEq φ]

def Write.newCommands (w : Write ι τ φ) (persisted : Receipts τ) : List (Command τ) :=
  (w.commands.1.filter fun c => persisted.get c.1 ≠ some c.2).map fun c => ⟨c.1, c.2⟩

omit [DecidableEq τ] [DecidableEq φ] in
def Write.removed (w : Write ι τ φ) (persisted : Receipts τ) : List Scope :=
  (persisted.1.map (·.1)).filter fun scope => (w.commands.get scope).isNone

/-- What the write hands to the database. -/
def Write.put (w : Write ι τ φ) (persisted : Receipts τ) (persistedFocus : Option φ) (now : String) :
    Put (Value ι) τ φ where
  value := w.value
  commands := w.newCommands persisted
  removed := w.removed persisted
  cameraFocus := if w.focus ≠ persistedFocus then w.focus else none
  now := now

/-- The section under the persistence lock. -/
def State.persist (k : Codec (Value ι) τ φ) (fault : Statement → Option String) (now : String) (w : Write ι τ φ)
    (s : State ι τ φ) : Except Persistence.Error Unit × State ι τ φ :=
  if w.sequence ≤ s.statePersistedSequence then (.ok (), s)
  else
    match putCaptureState fault k s.db (w.put s.persistedCommands s.persistedFocus now) with
    | (.error e, db) => (.error e, { s with db })
    | (.ok (), db) =>
      (.ok (), { s with
        db
        persistedFocus := w.focus
        persistedCommands := w.commands
        statePersistedSequence := w.sequence
        pendingStopStateCommit :=
          if w.pendingStop.isSome && s.pendingStopStateCommit = w.pendingStop && w.value.rest.activeSession.isNone then none
          else s.pendingStopStateCommit
        invalidCommands := s.invalidCommands.map fun e => (e.1, none)
        stored := some w })

end Persist

/-! ### The restore -/

section Restore

/-- `item.get(key)` of the three keys, which are to be nonempty strings. -/
def itemScope (item : Item τ) : Except Persistence.Error Scope :=
  match item.principalId, item.operation, item.idempotencyKey with
  | .str a, .str b, .str c =>
    if (Scope.mk a b c).valid then .ok ⟨a, b, c⟩ else .error (.persistence "unidentifiable legacy command receipt")
  | _, _, _ => .error (.persistence "unidentifiable legacy command receipt")

/-- `d[scope] = x`. -/
def Receipts.set (r : Receipts τ) (scope : Scope) (x : τ) : Receipts τ :=
  ⟨insertOrReplace r.1 (scope, x), r.2.insertOrReplace (scope, x)⟩

def Receipts.pop (r : Receipts τ) (scope : Scope) : Receipts τ := ⟨delete r.1 scope, r.2.delete scope⟩

/-- One receipt of the loop. `validated` is `_validated_command_receipt`, and `evidence` is
`json.dumps`. -/
def restoreItem (validated : Item τ → Option τ) (evidence : Item τ → PyStr) (r : Receipts τ × Quarantine)
    (item : Item τ) : Except Persistence.Error (Receipts τ × Quarantine) := do
  let scope ← itemScope item
  match validated item with
  | none => .ok (r.1.pop scope, insertOrReplace r.2 (scope, some (evidence item)))
  | some receipt => if (r.2.lookup scope).isSome then .ok r else .ok (r.1.set scope receipt, r.2)

/-- The loop of `_restore_local_state` over the receipts. -/
def restoreCommands (validated : Item τ → Option τ) (evidence : Item τ → PyStr) (items : List (Item τ))
    (commands : Receipts τ) (invalid : Quarantine) : Except Persistence.Error (Receipts τ × Quarantine) :=
  (items.drop (items.length - 1024)).foldlM (restoreItem validated evidence) (commands, invalid)

end Restore

/-- The state that the constructor has before its `_persist_local_state`. -/
def State.restored (fields : Fields ι) (commands : Receipts τ) (invalid : Quarantine) (db : Db) : State ι τ φ :=
  { fields, commands, invalidCommands := invalid, focusToPersist := none, db }

/-- The constructor's `_persist_local_state`; an error leaves no coordinator. -/
def construct [DecidableEq τ] [DecidableEq φ] (k : Codec (Value ι) τ φ) (fault : Statement → Option String)
    (now : String) (fields : Fields ι) (commands : Receipts τ) (invalid : Quarantine) (db : Db) :
    Except Persistence.Error Unit × State ι τ φ :=
  let (w, s) := (State.restored fields commands invalid db).localStateWrite
  s.persist k fault now w

/-! ### Steps -/

/-- What another section under the lock of the coordinator writes. It ends the active take or leaves
it; only a start begins one. -/
structure Update (ι τ φ : Type) where
  fields : Fields ι
  endTake : Bool
  commands : Receipts τ
  invalidCommands : Quarantine
  focusToPersist : Option φ

/-- Steps of the threads. -/
inductive Act (ι τ φ : Type) where
  | update (u : Update ι τ φ)
  | snapshot
  | write (i : ℕ) (fault : Statement → Option String) (now : String)
  | start (plan : SessionIdentity)
  | startSnapshot
  | startWrite (fault : Statement → Option String) (now : String)
  | startAbandon
  | startEnd
  /-- A stop of the active take, or another one, takes `_stop_inflight`. -/
  | claim (scope : Scope) (ofTake : Bool)
  /-- The section of `_finish_stop_capture` that ends the take. -/
  | finish (i : ℕ) (u : Update ι τ φ)
  | readPending (i : ℕ)
  | stopSnapshot (i : ℕ)
  | stopWrite (i : ℕ) (fault : Statement → Option String) (now : String)
  | clear (i : ℕ)
  | release (i : ℕ)
  | close
  /-- `_close_capture` releases the stop without asking whose it is. -/
  | closed

/-- The quarantined scopes do not change, and `_recovery_session` is cleared at most. -/
def State.apply (s : State ι τ φ) (u : Update ι τ φ) : Option (State ι τ φ) :=
  if u.invalidCommands.map (·.1) = s.invalidCommands.map (·.1) ∧
      (u.fields.recoverySession = none ∨ u.fields.recoverySession = s.fields.recoverySession) then
    some { s with
      fields := { u.fields with activePlan := if u.endTake then none else s.fields.activePlan }
      commands := u.commands
      invalidCommands := u.invalidCommands
      focusToPersist := u.focusToPersist }
  else none

def State.setPhase (s : State ι τ φ) (i : ℕ) (stop : Stop ι τ φ) (phase : Phase ι τ φ) : State ι τ φ :=
  { s with stops := s.stops.set i { stop with phase } }

section Step

variable [DecidableEq τ] [DecidableEq φ]

/-- `none` says that the step cannot be taken. -/
def step (k : Codec (Value ι) τ φ) (s : State ι τ φ) : Act ι τ φ → Option (State ι τ φ)
  | .update u => s.apply u
  | .snapshot =>
    if s.starting.isNone then
      let (w, t) := s.localStateWrite
      some { t with calls := t.calls ++ [w] }
    else none
  | .write i fault now => do
    let w ← s.calls[i]?
    let t := (s.persist k fault now w).2
    return { t with calls := t.calls.eraseIdx i }
  | .start plan =>
    -- `_idempotent` refuses while a stop is in flight or not committed
    if s.starting.isNone && s.fields.activePlan.isNone && s.stopInflight.isNone && s.pendingStopStateCommit.isNone &&
        !s.closing then
      some { s with
        fields := { s.fields with
          activePlan := some plan
          safeSwapResource := none
          pendingSafeSwap := none
          pendingSafeSwapFailure := none }
        starting := some {}
        startedAt := s.snapshots.length }
    else none
  | .startSnapshot =>
    match s.starting with
    | some ⟨checkpointed, none⟩ =>
      let (w, t) := s.localStateWrite
      some { t with starting := some ⟨checkpointed, some w⟩ }
    | _ => none
  | .startWrite fault now =>
    match s.starting with
    | some ⟨checkpointed, some w⟩ =>
      let (r, t) := s.persist k fault now w
      some { t with starting := some ⟨checkpointed || r.isOk, none⟩ }
    | _ => none
  | .startAbandon =>
    if s.starting.isSome then some { s with fields := { s.fields with activePlan := none } } else none
  | .startEnd =>
    match s.starting with
    | some ⟨checkpointed, none⟩ =>
      if checkpointed || s.fields.activePlan.isNone then some { s with starting := none } else none
    | _ => none
  | .claim scope ofTake =>
    if s.starting.isNone && s.stopInflight.isNone && (s.fields.activePlan.isSome || !ofTake) then
      some { s with
        stopInflight := some scope
        stops := s.stops ++ [⟨scope, if ofTake then .finalizing else .replaying⟩] }
    else none
  | .finish i u => do
    let stop ← s.stops[i]?
    match stop.phase with
    | .finalizing =>
      if s.starting.isNone && s.fields.activePlan.isSome then
        let t ← s.apply { u with endTake := true }
        return { t.setPhase i stop (.committing (some stop.scope)) with
          pendingStopStateCommit := some stop.scope
          markedAt := t.snapshots.length }
      else none
    | _ => none
  | .readPending i => do
    let stop ← s.stops[i]?
    match stop.phase with
    | .replaying => return s.setPhase i stop (.committing s.pendingStopStateCommit)
    | _ => none
  | .stopSnapshot i => do
    let stop ← s.stops[i]?
    match stop.phase with
    | .committing pending =>
      if s.starting.isNone then
        let (w, t) := s.localStateWrite
        return t.setPhase i stop (.writing pending w)
      else none
    | _ => none
  | .stopWrite i fault now => do
    let stop ← s.stops[i]?
    match stop.phase with
    | .writing pending w =>
      let (r, t) := s.persist k fault now w
      return t.setPhase i stop (if r.isOk then .written pending else .done)
    | _ => none
  | .clear i => do
    let stop ← s.stops[i]?
    match stop.phase with
    | .written pending =>
      if s.starting.isNone then
        return { s.setPhase i stop .done with
          pendingStopStateCommit := if s.pendingStopStateCommit = pending then none else s.pendingStopStateCommit }
      else none
    | _ => none
  | .release i => do
    let stop ← s.stops[i]?
    if s.starting.isNone then
      return { s with
        stopInflight := if s.stopInflight = some stop.scope then none else s.stopInflight
        stops := s.stops.eraseIdx i }
    else none
  | .close => if s.starting.isNone then some { s with closing := true } else none
  | .closed => if s.starting.isNone && s.closing then some { s with stopInflight := none } else none

end Step

end Conductor.LocalState
