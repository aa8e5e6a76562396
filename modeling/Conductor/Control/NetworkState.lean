import Conductor.Api.Wire
import Conductor.Lib.Double
import Conductor.Lib.KeyTable
import Mathlib.Data.Finset.Card

/-! `NetworkStateStore` of `network_state.py`. Every call holds the thread lock and the lock of the
directory from its load to its write, so that a run is a sequence of calls. `StateDatabase` keeps the
document as JSON: what is loaded has no tuples, and a tuple of an argument is stored as a list. -/

namespace Conductor.NetworkState

open Api KeyTable

/-! ### Values -/

/-- A value of a mapping that a caller passes. -/
inductive Value where
  | none
  | bool (value : Bool)
  | int (value : ℤ)
  | float (value : Double)
  | str (value : String)
  | list (items : List Value)
  | tuple (items : List Value)
  | dict (fields : List (String × Value))

abbrev Fields := List (String × Value)

def Fields.keys (fields : Fields) : Finset String := (fields.map (·.1)).toFinset

namespace Value

mutual
/-- What a later load gives for a value. -/
def stored : Value → Value
  | .list items => .list (storedItems items)
  | .tuple items => .list (storedItems items)
  | .dict fields => .dict (storedFields fields)
  | value => value

def storedItems : List Value → List Value
  | [] => []
  | value :: items => value.stored :: storedItems items

def storedFields : Fields → Fields
  | [] => []
  | (key, value) :: fields => (key, value.stored) :: storedFields fields
end

mutual
/-- A value of a JSON document. -/
def isJson : Value → Bool
  | .list items => itemsAreJson items
  | .tuple _ => false
  | .dict fields => fieldsAreJson fields
  | _ => true

def itemsAreJson : List Value → Bool
  | [] => true
  | value :: items => value.isJson && itemsAreJson items

def fieldsAreJson : Fields → Bool
  | [] => true
  | (_, value) :: fields => value.isJson && fieldsAreJson fields
end

mutual
/-- Whether a value equals the one that a load gives for it: a tuple is no list, and a NaN no NaN. -/
def comesBack : Value → Bool
  | .float .nan => false
  | .list items => itemsComeBack items
  | .tuple _ => false
  | .dict fields => fieldsComeBack fields
  | _ => true

def itemsComeBack : List Value → Bool
  | [] => true
  | value :: items => value.comesBack && itemsComeBack items

def fieldsComeBack : Fields → Bool
  | [] => true
  | (_, value) :: fields => value.comesBack && fieldsComeBack fields
end

end Value

/-- `FORBIDDEN_PERSISTED_KEYS`. -/
def forbiddenPersistedKeys : List String := ["credential_ref", "password", "passphrase", "psk", "secret", "token"]

/-- `casefold` of the characters that it maps to ASCII letters; what the others give is in no forbidden key. -/
def casefold (c : Char) : List Char :=
  if 'A'.toNat ≤ c.toNat && c.toNat ≤ 'Z'.toNat then [Char.ofNat (c.toNat + 32)]
  else
    match c.toNat with
    | 0xdf => ['s', 's']
    | 0x17f => ['s']
    | 0x1e9e => ['s', 's']
    | 0x212a => ['k']
    | 0xfb00 => ['f', 'f']
    | 0xfb01 => ['f', 'i']
    | 0xfb02 => ['f', 'l']
    | 0xfb03 => ['f', 'f', 'i']
    | 0xfb04 => ['f', 'f', 'l']
    | 0xfb05 => ['s', 't']
    | 0xfb06 => ['s', 't']
    | _ => [c]

def forbiddenKey (key : String) : Bool := forbiddenPersistedKeys.any (·.toList = key.toList.flatMap casefold)

mutual
/-- `_contains_forbidden_key`: a tuple is not looked into. -/
def containsForbiddenKey : Value → Bool
  | .dict fields => fieldsContainForbiddenKey fields
  | .list items => itemsContainForbiddenKey items
  | _ => false

def itemsContainForbiddenKey : List Value → Bool
  | [] => false
  | value :: items => containsForbiddenKey value || itemsContainForbiddenKey items

def fieldsContainForbiddenKey : Fields → Bool
  | [] => false
  | (key, value) :: fields => forbiddenKey key || containsForbiddenKey value || fieldsContainForbiddenKey fields
end

/-! ### The checks of the parts

A value that cannot be hashed makes a membership test raise; the call is then refused as well, and
the check is false here. -/

/-- `WIFI_SECURITY`. -/
def wifiSecurity : List String := ["open", "wpa2-personal", "wpa3-personal", "wpa2-wpa3-personal"]

def isNone : Option Value → Bool
  | none => true
  | some .none => true
  | some _ => false

def validWifiClient (mode : String) (wifi : Option Value) : Bool :=
  if mode = "wifi-client" then
    match wifi with
    | some (.dict fields) =>
      Fields.keys fields = {"ssid", "security", "credential_state"} &&
        match fields.lookup "ssid", fields.lookup "security", fields.lookup "credential_state" with
        | some (.str ssid), some (.str security), some (.str credentialState) =>
          1 ≤ ssid.utf8ByteSize && ssid.utf8ByteSize ≤ 32 && security ∈ wifiSecurity &&
            credentialState ∈ ["absent", "pending_input", "stored"] &&
            (security = "open" : Bool) == (credentialState = "absent" : Bool)
        | _, _, _ => false
    | _ => false
  else isNone wifi

def validEthernet (ethernet : Option Value) : Bool :=
  match ethernet with
  | none => true
  | some .none => true
  | some (.dict fields) =>
    Fields.keys fields = {"addressing", "static_ipv4"} &&
      match fields.lookup "addressing", fields.lookup "static_ipv4" with
      | some (.str "dhcp"), static => isNone static
      | some (.str "static"), some (.dict static) => Fields.keys static = {"address", "prefix_length", "gateway", "dns"}
      | _, _ => false
  | some _ => false

/-- `valid_desired_state`. -/
def validDesiredState (value : Value) : Bool :=
  match value with
  | .dict fields =>
    Fields.keys fields = {"mode", "wifi_client", "ethernet"} &&
      match fields.lookup "mode" with
      | some (.str mode) =>
        mode ∈ ["hotspot", "wifi-client", "ethernet-dhcp", "ethernet-static"] &&
          validWifiClient mode (fields.lookup "wifi_client") && validEthernet (fields.lookup "ethernet") &&
          !(mode = "ethernet-static" && isNone (fields.lookup "ethernet"))
      | _ => false
  | _ => false

/-- `_valid_boot_id`: a UUID of any version, in its own spelling. -/
def validBootId (bootId : String) : Bool :=
  fullmatch (List.replicate 8 isHex ++ [isChar '-'] ++ List.replicate 4 isHex ++ [isChar '-'] ++ List.replicate 4 isHex ++
    [isChar '-'] ++ List.replicate 4 isHex ++ [isChar '-'] ++ List.replicate 12 isHex) bootId.toList

/-- `_valid_deadline`. -/
def validDeadline (value : Value) : Bool :=
  match value with
  | .none => true
  | .dict fields =>
    Fields.keys fields = {"time_base", "deadline_ns", "remaining_seconds"} &&
      match fields.lookup "time_base", fields.lookup "deadline_ns", fields.lookup "remaining_seconds" with
      | some (.str "device_monotonic"), some (.int deadline), some (.int remaining) =>
        0 ≤ deadline && 0 ≤ remaining && remaining ≤ 10
      | some (.str "device_monotonic"), some (.int deadline), some (.float (.finite remaining)) =>
        0 ≤ deadline && 0 ≤ remaining && remaining ≤ 10
      | _, _, _ => false
  | _ => false

/-- `TRANSACTION_ERROR_CODES`. -/
def transactionErrorCodes : List String :=
  ["rescue_ap_unavailable", "credential_rejected", "dhcp_timeout", "route_lost", "network_manager_unavailable",
    "concurrency_unsupported"]

def validError (value : Value) : Bool :=
  match value with
  | .none => true
  | .dict fields =>
    Fields.keys fields = {"code", "message", "retryable"} &&
      match fields.lookup "code", fields.lookup "message", fields.lookup "retryable" with
      | some (.str code), some (.str message), some (.bool _) => code ∈ transactionErrorCodes && message ≠ ""
      | _, _, _ => false
  | _ => false

/-! ### Transactions -/

inductive Operation where
  | apply
  | retry
  | forget

inductive Status where
  | accepted
  | running
  | committed
  | rescued
  | failed
  deriving DecidableEq

inductive Stage where
  | accepted
  | prepared
  | apReady
  | activating
  | verifying
  | committed
  | fallingBack
  | rescued
  | failed
  | forgetting
  | forgotten
  deriving DecidableEq

inductive RecoveryAction where
  | awaitDevice
  | reconnectTargetLan
  | reconnectRescueAp
  | retry
  | serviceRequired
  | none

def Operation.name : Operation → String
  | .apply => "apply"
  | .retry => "retry"
  | .forget => "forget"

def Status.name : Status → String
  | .accepted => "accepted"
  | .running => "running"
  | .committed => "committed"
  | .rescued => "rescued"
  | .failed => "failed"

def Stage.name : Stage → String
  | .accepted => "accepted"
  | .prepared => "prepared"
  | .apReady => "ap_ready"
  | .activating => "activating"
  | .verifying => "verifying"
  | .committed => "committed"
  | .fallingBack => "falling_back"
  | .rescued => "rescued"
  | .failed => "failed"
  | .forgetting => "forgetting"
  | .forgotten => "forgotten"

def RecoveryAction.name : RecoveryAction → String
  | .awaitDevice => "await_device"
  | .reconnectTargetLan => "reconnect_target_lan"
  | .reconnectRescueAp => "reconnect_rescue_ap"
  | .retry => "retry"
  | .serviceRequired => "service_required"
  | .none => "none"

def Operation.ofName (name : String) : Option Operation := [Operation.apply, .retry, .forget].find? (·.name = name)

def Status.ofName (name : String) : Option Status :=
  [Status.accepted, .running, .committed, .rescued, .failed].find? (·.name = name)

def Stage.ofName (name : String) : Option Stage :=
  [Stage.accepted, .prepared, .apReady, .activating, .verifying, .committed, .fallingBack, .rescued, .failed, .forgetting,
    .forgotten].find? (·.name = name)

def RecoveryAction.ofName (name : String) : Option RecoveryAction :=
  [RecoveryAction.awaitDevice, .reconnectTargetLan, .reconnectRescueAp, .retry, .serviceRequired, .none].find?
    (·.name = name)

/-- `TERMINAL_STATUSES`. -/
def Status.terminal : Status → Bool
  | .accepted => false
  | .running => false
  | .committed => true
  | .rescued => true
  | .failed => true

/-- `STAGE_STATUS`. -/
def Stage.status : Stage → Status
  | .accepted => .accepted
  | .prepared => .running
  | .apReady => .running
  | .activating => .running
  | .verifying => .running
  | .committed => .committed
  | .fallingBack => .running
  | .rescued => .rescued
  | .failed => .failed
  | .forgetting => .running
  | .forgotten => .committed

/-- A transaction without the fields that are the same in all; `deadline` and `error` are mappings or none. -/
structure Transaction where
  authorityEpoch : String
  sourceRevision : ℕ
  transactionId : String
  operation : Operation
  status : Status
  stage : Stage
  desired : Value
  acceptedAt : String
  updatedAt : String
  deadline : Value
  recoveryAction : RecoveryAction
  apValidated : Bool
  error : Value

structure Receipt where
  acceptedAt : String
  transaction : Transaction

/-- An entry of `receipts`. -/
structure Entry where
  requestFingerprint : String
  receipt : Receipt

/-- `valid_transaction`. -/
def Transaction.valid (t : Transaction) : Bool :=
  uuidV4 t.authorityEpoch && uuidV7 t.transactionId && t.stage.status = t.status && validDesiredState t.desired &&
    t.acceptedAt ≠ "" && t.updatedAt ≠ "" && validDeadline t.deadline && validError t.error

def Transaction.document (t : Transaction) : Value :=
  .dict [("schema", .str "ylx.network-transaction.v1"), ("authority_epoch", .str t.authorityEpoch),
    ("source_revision", .int t.sourceRevision), ("transaction_id", .str t.transactionId), ("operation", .str t.operation.name),
    ("status", .str t.status.name), ("stage", .str t.stage.name), ("desired", t.desired), ("accepted_at", .str t.acceptedAt),
    ("updated_at", .str t.updatedAt), ("deadline", t.deadline), ("recovery_action", .str t.recoveryAction.name),
    ("rescue", .dict [("ap_validated", .bool t.apValidated), ("fallback_mode", .str "hotspot"),
      ("failure_trigger_seconds", .int 10)]), ("error", t.error)]

def Entry.document (e : Entry) : Value :=
  .dict [("request_fingerprint", .str e.requestFingerprint), ("receipt", .dict [
    ("schema", .str "ylx.network-transaction-receipt.v1"), ("accepted_at", .str e.receipt.acceptedAt),
    ("transaction", e.receipt.transaction.document)])]

/-! ### The state -/

structure State where
  authorityEpoch : String
  sourceRevision : ℕ
  saved : Bool
  verified : Bool
  desired : Value
  current : Option Transaction
  latest : Option Transaction
  receipts : List (String × Entry)
  work : Fields
  executionRelease : List (String × Bool)
  rescueBootId : Option String

def State.document (s : State) : Value :=
  .dict [("schema", .str "ylx.network-controller-state.v1"), ("authority_epoch", .str s.authorityEpoch),
    ("source_revision", .int s.sourceRevision), ("saved", .bool s.saved), ("verified", .bool s.verified), ("desired", s.desired),
    ("transaction", .dict [("current", s.current.elim .none (·.document)), ("latest", s.latest.elim .none (·.document))]),
    ("receipts", .dict (s.receipts.map fun r => (r.1, r.2.document))), ("work", .dict s.work),
    ("execution_release", .dict (s.executionRelease.map fun r => (r.1, .bool r.2))),
    ("rescue_boot_id", s.rescueBootId.elim .none .str)]

/-- `_valid_receipts`. -/
def validReceipts (receipts : List (String × Entry)) (authorityEpoch : String) (sourceRevision : ℕ) : Bool :=
  receipts.all fun (scope, entry) =>
    let t := entry.receipt.transaction
    sha256 scope && sha256 entry.requestFingerprint && t.valid && t.status = .accepted &&
      t.authorityEpoch = authorityEpoch && t.sourceRevision ≤ sourceRevision && entry.receipt.acceptedAt = t.acceptedAt

/-- `_valid_state`. -/
def State.valid (s : State) : Bool :=
  uuidV4 s.authorityEpoch && (!s.verified || s.saved) && validDesiredState s.desired && s.current.all (·.valid) &&
    s.latest.all (·.valid) && s.current.all (!·.status.terminal) && s.latest.all (·.status.terminal) &&
    (s.current.all fun t => t.authorityEpoch = s.authorityEpoch && t.sourceRevision ≤ s.sourceRevision) &&
    (s.latest.all fun t => t.authorityEpoch = s.authorityEpoch && t.sourceRevision ≤ s.sourceRevision) &&
    validReceipts s.receipts s.authorityEpoch s.sourceRevision && s.rescueBootId.all validBootId &&
    (s.executionRelease.all fun r => uuidV7 r.1) &&
    (match s.current with
      | none => s.executionRelease.isEmpty
      | some t => (s.executionRelease.map (·.1)).toFinset = {t.transactionId}) &&
    !containsForbiddenKey s.document

def Transaction.stored (t : Transaction) : Transaction :=
  { t with desired := t.desired.stored, deadline := t.deadline.stored, error := t.error.stored }

def Entry.stored (e : Entry) : Entry :=
  { e with receipt := { e.receipt with transaction := e.receipt.transaction.stored } }

/-- What a load gives for a state. -/
def State.stored (s : State) : State :=
  { s with
    desired := s.desired.stored
    current := s.current.map (·.stored)
    latest := s.latest.map (·.stored)
    receipts := s.receipts.map fun r => (r.1, r.2.stored)
    work := Value.storedFields s.work }

/-! ### The calls -/

structure NetworkStateError where
  code : String
  message : String
  retryable : Bool

def stateInvalid : NetworkStateError := ⟨"state_invalid", "network controller state is invalid", false⟩

def transactionInputInvalid : NetworkStateError := ⟨"state_input_invalid", "network transaction input is invalid", false⟩

def transitionInputInvalid : NetworkStateError := ⟨"state_input_invalid", "network transition is invalid", false⟩

def bootIdInvalid : NetworkStateError := ⟨"state_input_invalid", "Linux boot ID is invalid", false⟩

def idempotencyConflict : NetworkStateError :=
  ⟨"idempotency_conflict", "idempotency key was already used for another request", false⟩

def controllerBusy : NetworkStateError := ⟨"controller_busy", "another network transaction is still active", true⟩

def transactionNotFound : NetworkStateError := ⟨"transaction_not_found", "active transaction was not found", false⟩

inductive Answer where
  | receipt (receipt : Receipt) (replayed : Bool)
  | noReceipt
  | transaction (transaction : Transaction)
  | released (released : Bool)
  | reconciled
  | stamp (authorityEpoch : String) (sourceRevision : ℕ)
  | raised (error : NetworkStateError)
  /-- The `OSError` or `sqlite3.Error` of the write. -/
  | writeRaised

/-- A call answers, and it may write a state first. -/
abbrev Call := Except NetworkStateError (Answer × Option State)

/-- `self._validate(state)` and `self._write_locked(state)`. -/
def validated (answer : Answer) (s : State) : Call := if s.valid then .ok (answer, some s) else .error stateInvalid

/-- `_load_locked`. -/
def State.load (s : State) : Except NetworkStateError State := if s.valid then .ok s else .error stateInvalid

/-- The arguments of `accept_transaction`. -/
structure Acceptance where
  operation : String
  desired : Fields
  principalId : String
  idempotencyKey : String
  requestFingerprint : String
  transactionId : String
  acceptedAt : String
  work : Fields
  executionReleased : Bool
  publishDesired : Bool
  saved : Option Bool
  verified : Option Bool

/-- The arguments of `transition`, the transaction's id apart. -/
structure Transition where
  status : String
  stage : String
  updatedAt : String
  apValidated : Option Bool
  error : Option Fields
  desired : Option Fields
  publishDesired : Bool
  deadline : Option Fields
  recoveryAction : String
  saved : Option Bool
  verified : Option Bool
  retainWork : Bool
  clearAllWork : Bool
  removeWork : List String

section Calls

variable (sha256Hex : ByteArray → String)

/-- `_valid_principal_id` of the controller. -/
def validPrincipalId (text : String) : Bool :=
  1 ≤ text.length && text.length ≤ 128 && text.toList.all fun c => 0x21 ≤ c.toNat && c.toNat ≤ 0x7e

/-- `_valid_idempotency_key` of the controller. -/
def validIdempotencyKey (text : String) : Bool :=
  1 ≤ text.length && text.length ≤ 128 && text.toList.all fun c => c ≠ ' ' && 0x21 ≤ c.toNat && c.toNat ≤ 0x7e

/-- `_scope`. -/
def scope (principalId idempotencyKey : String) : String := sha256Hex (principalId ++ "\x00" ++ idempotencyKey).toByteArray

/-- `replay_receipt`. -/
def State.replayReceipt (s : State) (principalId idempotencyKey requestFingerprint : String) : Call := do
  let s ← s.load
  match s.receipts.lookup (scope sha256Hex principalId idempotencyKey) with
  | none => .ok (.noReceipt, none)
  | some existing =>
    if existing.requestFingerprint ≠ requestFingerprint then .error idempotencyConflict
    else .ok (.receipt existing.receipt true, none)

def Acceptance.valid (a : Acceptance) : Bool :=
  validDesiredState (.dict a.desired) && uuidV7 a.transactionId && a.acceptedAt ≠ "" && sha256 a.requestFingerprint &&
    !containsForbiddenKey (.dict a.work) && !(a.verified = some true && a.saved = some false)

/-- The transaction that is accepted. -/
def Acceptance.transaction (a : Acceptance) (operation : Operation) (authorityEpoch : String) (revision : ℕ) : Transaction where
  authorityEpoch := authorityEpoch
  sourceRevision := revision
  transactionId := a.transactionId
  operation := operation
  status := .accepted
  stage := .accepted
  desired := .dict a.desired
  acceptedAt := a.acceptedAt
  updatedAt := a.acceptedAt
  deadline := .none
  recoveryAction := .awaitDevice
  apValidated := false
  error := .none

def Acceptance.entry (a : Acceptance) (t : Transaction) : Entry := ⟨a.requestFingerprint, a.acceptedAt, t⟩

/-- The state with an accepted transaction. -/
def State.accept (s : State) (a : Acceptance) (t : Transaction) : State :=
  { s with
    sourceRevision := t.sourceRevision
    desired := if a.publishDesired then .dict a.desired else s.desired
    saved :=
      match a.saved with
      | some saved => saved
      | none =>
        if a.publishDesired then (match a.desired.lookup "mode" with | some (.str mode) => mode = "wifi-client" | _ => false)
        else s.saved
    verified :=
      match a.verified with
      | some verified => verified
      | none => if a.publishDesired then false else s.verified
    current := some t
    executionRelease := [(a.transactionId, a.executionReleased)]
    receipts := s.receipts ++ [(scope sha256Hex a.principalId a.idempotencyKey, a.entry t)]
    work := insertOrReplace s.work (a.transactionId, .dict a.work) }

/-- `accept_transaction`. -/
def State.acceptTransaction (s : State) (a : Acceptance) : Call :=
  match Operation.ofName a.operation with
  | none => .error transactionInputInvalid
  | some operation =>
    if !a.valid then .error transactionInputInvalid
    else do
      let s ← s.load
      match s.receipts.lookup (scope sha256Hex a.principalId a.idempotencyKey) with
      | some existing =>
        if existing.requestFingerprint ≠ a.requestFingerprint then .error idempotencyConflict
        else .ok (.receipt existing.receipt true, none)
      | none =>
        if s.current.isSome then .error controllerBusy
        else
          let t := a.transaction operation s.authorityEpoch (s.sourceRevision + 1)
          validated (.receipt (a.entry t).receipt false) (s.accept sha256Hex a t)

end Calls

/-- `mark_boot_reconciled`. -/
def State.markBootReconciled (s : State) (bootId : String) : Call :=
  if !validBootId bootId then .error bootIdInvalid
  else do
    let s ← s.load
    if s.rescueBootId = some bootId then .ok (.reconciled, none)
    else validated .reconciled { s with rescueBootId := some bootId }

/-- `release_execution`. -/
def State.releaseExecution (s : State) (transactionId : String) : Call := do
  let s ← s.load
  if s.current.any (·.transactionId = transactionId) then
    if s.executionRelease.lookup transactionId = some true then .ok (.released true, none)
    else
      validated (.released true) { s with executionRelease := insertOrReplace s.executionRelease (transactionId, true) }
  else .ok (.released false, none)

def Transition.valid (m : Transition) : Bool :=
  m.updatedAt ≠ "" && m.desired.all (validDesiredState <| .dict ·) && validDeadline (m.deadline.elim .none .dict) &&
    !(m.verified = some true && m.saved = some false)

/-- The current transaction behind a transition. -/
def Transition.move (m : Transition) (t : Transaction) (status : Status) (stage : Stage) (action : RecoveryAction)
    (revision : ℕ) : Transaction :=
  { t with
    status := status
    stage := stage
    updatedAt := m.updatedAt
    sourceRevision := revision
    deadline := m.deadline.elim .none .dict
    recoveryAction := action
    apValidated := m.apValidated.getD t.apValidated
    error := m.error.elim .none .dict
    desired := m.desired.elim t.desired .dict }

/-- The work that a transition leaves. -/
def Transition.workAfter (m : Transition) (work : Fields) (transactionId : String) (terminal : Bool) : Fields :=
  if m.clearAllWork then []
  else m.removeWork.foldl delete (if terminal && !m.retainWork then delete work transactionId else work)

/-- The state with a transaction that moved. -/
def State.move (s : State) (m : Transition) (t : Transaction) : State :=
  { s with
    sourceRevision := t.sourceRevision
    desired := if m.publishDesired then m.desired.elim s.desired .dict else s.desired
    saved := m.saved.getD s.saved
    verified := m.verified.getD s.verified
    current := if t.status.terminal then none else some t
    latest := if t.status.terminal then some t else s.latest
    executionRelease := if t.status.terminal then delete s.executionRelease t.transactionId else s.executionRelease
    work := m.workAfter s.work t.transactionId t.status.terminal }

/-- `transition`. -/
def State.transition (s : State) (transactionId : String) (m : Transition) : Call :=
  match Status.ofName m.status, Stage.ofName m.stage, RecoveryAction.ofName m.recoveryAction with
  | some status, some stage, some action =>
    if !m.valid then .error transitionInputInvalid
    else do
      let s ← s.load
      match s.current.filter (·.transactionId = transactionId) with
      | none => .error transactionNotFound
      | some t =>
        let t := m.move t status stage action (s.sourceRevision + 1)
        validated (.transaction t) (s.move m t)
  | _, _, _ => .error transitionInputInvalid

/-- `scan_stamp`. -/
def State.scanStamp (s : State) : Call := do
  let s ← s.load
  validated (.stamp s.authorityEpoch (s.sourceRevision + 1)) { s with sourceRevision := s.sourceRevision + 1 }

/-! ### The database -/

namespace Value

mutual
theorem stored_stored : ∀ value : Value, value.stored.stored = value.stored
  | .none => rfl
  | .bool _ => rfl
  | .int _ => rfl
  | .float _ => rfl
  | .str _ => rfl
  | .list items => congrArg Value.list (storedItems_storedItems items)
  | .tuple items => congrArg Value.list (storedItems_storedItems items)
  | .dict fields => congrArg Value.dict (storedFields_storedFields fields)

theorem storedItems_storedItems : ∀ items : List Value, storedItems (storedItems items) = storedItems items
  | [] => rfl
  | value :: items => congrArg₂ List.cons (stored_stored value) (storedItems_storedItems items)

theorem storedFields_storedFields : ∀ fields : Fields, storedFields (storedFields fields) = storedFields fields
  | [] => rfl
  | (key, value) :: fields =>
    congrArg₂ List.cons (congrArg (Prod.mk key) (stored_stored value)) (storedFields_storedFields fields)
end

end Value

@[simp] theorem Transaction.stored_stored (t : Transaction) : t.stored.stored = t.stored := by
  simp [Transaction.stored, Value.stored_stored]

@[simp] theorem Entry.stored_stored (e : Entry) : e.stored.stored = e.stored := by
  simp [Entry.stored]

theorem State.stored_stored (s : State) : s.stored.stored = s.stored := by
  simp [State.stored, Value.stored_stored, Value.storedFields_storedFields, Function.comp_def]

/-- The document in the database. -/
structure Database where
  state : State
  loaded : state.stored = state

/-- What `put` does: it may raise before it commits, or after it. The document is then read back, which may
raise as well; before the commit it differs from the state, since every call changes what it writes. -/
inductive Write where
  | committed
  | raised
  | raisedCommitted (readable : Bool)

inductive Act where
  | replayReceipt (principalId idempotencyKey requestFingerprint : String)
  | acceptTransaction (arguments : Acceptance) (write : Write)
  | markBootReconciled (bootId : String) (write : Write)
  | releaseExecution (transactionId : String) (write : Write)
  | transition (transactionId : String) (arguments : Transition) (write : Write)
  | scanStamp (write : Write)

def Act.write : Act → Write
  | .replayReceipt _ _ _ => .committed
  | .acceptTransaction _ write => write
  | .markBootReconciled _ write => write
  | .releaseExecution _ write => write
  | .transition _ _ write => write
  | .scanStamp write => write

def Transaction.comesBack (t : Transaction) : Bool := t.desired.comesBack && t.deadline.comesBack && t.error.comesBack

/-- Whether the document that is read back equals the state that was put. -/
def State.comesBack (s : State) : Bool :=
  s.desired.comesBack && s.current.all (·.comesBack) && s.latest.all (·.comesBack) &&
    (s.receipts.all fun r => r.2.receipt.transaction.comesBack) && Value.fieldsComeBack s.work

/-- `_write_locked`, and whether it returns. -/
def Database.put (db : Database) (s : State) : Write → Bool × Database
  | .committed => (true, ⟨s.stored, s.stored_stored⟩)
  | .raised => (false, db)
  | .raisedCommitted readable => (readable && s.comesBack, ⟨s.stored, s.stored_stored⟩)

section Step

variable (sha256Hex : ByteArray → String)

def Act.call (a : Act) (s : State) : Call :=
  match a with
  | .replayReceipt principalId idempotencyKey requestFingerprint =>
    s.replayReceipt sha256Hex principalId idempotencyKey requestFingerprint
  | .acceptTransaction arguments _ => s.acceptTransaction sha256Hex arguments
  | .markBootReconciled bootId _ => s.markBootReconciled bootId
  | .releaseExecution transactionId _ => s.releaseExecution transactionId
  | .transition transactionId arguments _ => s.transition transactionId arguments
  | .scanStamp _ => s.scanStamp

def Database.step (db : Database) (a : Act) : Answer × Database :=
  match a.call sha256Hex db.state with
  | .error error => (.raised error, db)
  | .ok (answer, none) => (answer, db)
  | .ok (answer, some s) =>
    let (returned, db) := db.put s a.write
    (if returned then answer else .writeRaised, db)

def Database.after (db : Database) (acts : List Act) : Database := acts.foldl (fun db a => (db.step sha256Hex a).2) db

end Step

end Conductor.NetworkState
