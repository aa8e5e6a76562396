import Conductor.Control.NetworkState
import Conductor.Control.NetworkCredentials

/-! `_accept_apply` of `network_control.py` and what it calls, with one call of it that may fail.
It runs under the submit lock and the operation lock, which retry, forget, the monitor and the
worker need as well; the credentials that others create meanwhile leave reserved entries alone. -/

namespace Conductor.NetworkApply

open NetworkState (Value Fields Acceptance Receipt Database Write NetworkStateError wifiSecurity)
open NetworkCredentials (Store CredentialError)

/-! ### Requests -/

/-- One number of an address: decimal, up to 255, without leading zeros. -/
def octet (text : List Char) : Option ℕ :=
  let value := text.foldl (fun n c => 10 * n + (c.toNat - '0'.toNat)) 0
  if text ≠ [] && text.length ≤ 3 && text.all Char.isDigit && (text = ['0'] || text.head? ≠ some '0') && value ≤ 255 then
    some value
  else none

/-- `ipaddress.IPv4Address`. What it takes is its own spelling. -/
def ipv4Address (text : String) : Option ℕ :=
  match (text.toList.splitOn '.').map octet with
  | [some a, some b, some c, some d] => some (((a * 256 + b) * 256 + c) * 256 + d)
  | _ => none

def validIpv4 (text : String) : Bool := (ipv4Address text).isSome

structure StaticIpv4 where
  address : String
  prefixLength : ℕ
  gateway : Option String
  dns : List String

inductive Ethernet where
  | dhcp
  | static (ipv4 : StaticIpv4)

structure WifiClient where
  ssid : String
  security : String
  credentialRef : Option String

/-- The desired state of a request, with the keys that its validation asks for. -/
structure Desired where
  mode : String
  wifiClient : Option WifiClient
  ethernet : Option Ethernet

/-- `_valid_network_static_ipv4`. -/
def StaticIpv4.valid (s : StaticIpv4) : Bool :=
  validIpv4 s.address && 1 ≤ s.prefixLength && s.prefixLength ≤ 32 && s.gateway.all validIpv4 && s.dns.length ≤ 3 &&
    s.dns.all validIpv4 && s.dns.Nodup

/-- `valid_network_ethernet`. -/
def Ethernet.valid : Ethernet → Bool
  | .dhcp => true
  | .static ipv4 => ipv4.valid

/-- `_valid_network_apply_wifi_client`. -/
def WifiClient.valid (w : WifiClient) : Bool :=
  w.security ∈ wifiSecurity && 1 ≤ w.ssid.utf8ByteSize && w.ssid.utf8ByteSize ≤ 32 &&
    match w.credentialRef with
    | none => w.security = "open"
    | some credentialRef =>
      w.security ≠ "open" && 1 ≤ credentialRef.length && credentialRef.length ≤ 128 &&
        NetworkCredentials.validRef credentialRef

/-- `_valid_network_apply_desired_state`. -/
def Desired.valid (d : Desired) : Bool :=
  d.mode ∈ ["hotspot", "wifi-client", "ethernet-dhcp", "ethernet-static"] &&
    (if d.mode = "wifi-client" then d.wifiClient.any (·.valid) else d.wifiClient.isNone) && d.ethernet.all (·.valid) &&
    !(d.mode = "ethernet-static" && d.ethernet.isNone)

/-- An apply request, with what is drawn and read while it is handled: the id and the time of the transaction, and the
clock of the credentials at the reservation and at its end. -/
structure Apply (τ : Type) [LinearOrder τ] where
  principalId : String
  idempotencyKey : String
  desired : Desired
  transactionId : String
  acceptedAt : String
  reservedAt : τ
  closedAt : τ
  ordered : reservedAt ≤ closedAt

/-- `_valid_control_request`. -/
def Apply.valid {τ : Type} [LinearOrder τ] (r : Apply τ) : Bool :=
  NetworkState.validPrincipalId r.principalId && NetworkState.validIdempotencyKey r.idempotencyKey && r.desired.valid

/-! ### Failing steps -/

inductive Raised where
  | network (code : String)
  | networkState (error : NetworkStateError)
  | credential (code : String)
  | os
  | sqlite
  | runtime
  | assertion

/-- `except (NetworkError, NetworkStateError, OSError)`. -/
def Raised.discards : Raised → Bool
  | .network _ => true
  | .networkState _ => true
  | .os => true
  | _ => false

/-- What a call of the store raises of its own: its lock a `NetworkError`, its database one of the others. -/
inductive StoreError where
  | network
  | os
  | sqlite
  deriving DecidableEq

def StoreError.raised : StoreError → Raised
  | .network => .network "state_lock_failed"
  | .os => .os
  | .sqlite => .sqlite

/-- The step that fails. A write may fail behind its effect, and what is suppressed has no class. -/
inductive Fault where
  | replayReceipt (error : StoreError)
  | operationLock (code : String)
  | snapshot (error : StoreError)
  /-- The directories and the locks of `prepare_network_candidate`. -/
  | prepare (code : String)
  | writeProfile (written : Bool)
  | writeService (error : Option String)
  | reload (code : String)
  /-- The `stat` of `_validated_candidate`. -/
  | statProfile
  | acceptRead (error : StoreError)
  | acceptWrite (sqlite committed : Bool)
  | discard (removed : Bool)
  deriving DecidableEq

/-! ### Configurations -/

inductive Config where
  | wifi (ssid security : String) (psk : Option (List Char))
  | ethernetDhcp
  | ethernetStatic (static : StaticIpv4)

def Config.mode : Config → String
  | .wifi _ _ _ => "wifi-client"
  | .ethernetDhcp => "ethernet-dhcp"
  | .ethernetStatic _ => "ethernet-static"

def optional (text : Option String) : Value := text.elim .none .str

def StaticIpv4.document (s : StaticIpv4) : Value :=
  .dict [("address", .str s.address), ("prefix_length", .int s.prefixLength), ("gateway", optional s.gateway),
    ("dns", .list (s.dns.map .str))]

def Ethernet.document : Ethernet → Value
  | .dhcp => .dict [("addressing", .str "dhcp"), ("static_ipv4", .none)]
  | .static ipv4 => .dict [("addressing", .str "static"), ("static_ipv4", ipv4.document)]

/-- A desired state of `_desired_and_config`: the mode, the Wi-Fi network and its security, and the wire. -/
structure Normalized where
  mode : String
  wifi : Option (String × String)
  ethernet : Option Ethernet

/-- Its mapping, with the credential state of a protected network. -/
def Normalized.fields (n : Normalized) (credentialState : String) : Fields :=
  [("mode", .str n.mode),
    ("wifi_client", n.wifi.elim .none fun (ssid, security) =>
      .dict [("ssid", .str ssid), ("security", .str security),
        ("credential_state", .str (if security = "open" then "absent" else credentialState))]),
    ("ethernet", n.ethernet.elim .none (·.document))]

/-- `_desired_and_config`. -/
def desiredAndConfig (d : Desired) (credential : Option (List Char)) : Except Raised (Normalized × Option Config) :=
  if d.mode = "wifi-client" then
    match d.wifiClient with
    | none => .error .assertion
    | some w =>
      if w.security ≠ "open" && credential.isNone then .error (.credential "credential_ref_invalid")
      else .ok (⟨d.mode, some (w.ssid, w.security), d.ethernet⟩, some (.wifi w.ssid w.security credential))
  else if d.mode = "hotspot" then .ok (⟨d.mode, none, none⟩, none)
  else if d.mode = "ethernet-dhcp" then .ok (⟨d.mode, none, some .dhcp⟩, some .ethernetDhcp)
  else
    match d.ethernet with
    | some (.static ipv4) => .ok (⟨d.mode, none, some (.static ipv4)⟩, some (.ethernetStatic ipv4))
    | _ => .error .assertion

/-- `_text_field`. -/
def validText (text : List Char) : Bool := text ≠ [] && text.all fun c => 32 ≤ c.toNat

/-- The checks of a static address: usable, off the network of the hotspot, with a gateway on its own. -/
def validStatic (s : StaticIpv4) : Bool :=
  match ipv4Address s.address with
  | none => false
  | some address =>
    let size := 2 ^ (32 - s.prefixLength)
    let network := address / size * size
    let broadcast := network + size - 1
    let hotspot := ((10 * 256 + 42) * 256) * 256
    !(address / 2 ^ 16 = 169 * 256 + 254 || address / 2 ^ 24 = 127 || address / 2 ^ 28 = 14 || address = 0) &&
      !(network ≤ hotspot + 255 && hotspot ≤ broadcast) &&
      match s.gateway with
      | none => true
      | some gateway =>
        match ipv4Address gateway with
        | none => false
        | some gateway => network < gateway && gateway < broadcast

/-- `_validate_config`, for what `_desired_and_config` gives. -/
def Config.valid : Config → Bool
  | .wifi ssid security psk =>
    validText ssid.toList && ssid.utf8ByteSize ≤ 32 && security ∈ wifiSecurity &&
      match psk with
      | none => security = "open"
      | some psk => security ≠ "open" && validText psk && 8 ≤ (NetworkCredentials.utf8 psk).length &&
          (NetworkCredentials.utf8 psk).length ≤ 63
  | .ethernetDhcp => true
  | .ethernetStatic static => validStatic static && static.dns.length ≤ 3 && static.dns.all validIpv4

/-- `_safe_config`. -/
def Config.safe : Config → Fields
  | .wifi ssid security _ => [("mode", .str "wifi-client"), ("ssid", .str ssid), ("security", .str security)]
  | .ethernetDhcp => [("mode", .str "ethernet-dhcp")]
  | .ethernetStatic s =>
    [("mode", .str "ethernet-static"), ("address", .str (s.address ++ "/" ++ toString s.prefixLength))] ++
      (s.gateway.elim [] fun gateway => [("gateway", .str gateway)]) ++ [("dns", .list (s.dns.map .str))]

/-! ### The controller -/

/-- The constants of a controller, and its digests. -/
structure Controller where
  sha256Hex : ByteArray → String
  requestFingerprint : Desired → String
  deferExecutionUntilResponse : Bool

/-- `profiles` are the files of the candidates. -/
structure State (τ : Type) where
  db : Database
  credentials : Store τ
  profiles : List String
  closed : Bool
  queue : List String
  queued : List String
  pending : ℤ
  deferred : List String

/-- `REQUEST_ID_PATTERN`. -/
def validRequestId (text : String) : Bool :=
  text.toList.length ≤ 128 && (text.toList.head?.any Char.isAlphanum) &&
    text.toList.all fun c => c.isAlphanum || c ∈ ['.', '_', ':', '-']

/-- `_profile_name`. -/
def Controller.profileName (c : Controller) (transactionId mode : String) : String :=
  "rp-ylx-" ++ mode ++ "-" ++ String.ofList ((c.sha256Hex transactionId.toByteArray).toList.take 12)

/-- The candidate of a configuration. -/
def Controller.candidate (c : Controller) (transactionId : String) (config : Config) : Fields :=
  [("format", .str "ylx.network-candidate.v1"), ("mode", .str config.mode),
    ("interface", .str (if config.mode = "wifi-client" then "wlan0" else "eth0")),
    ("profile", .str (c.profileName transactionId config.mode)), ("config", .dict config.safe)]

section Steps

variable {τ : Type} [LinearOrder τ]

def State.addProfile (s : State τ) (profile : String) : State τ :=
  { s with profiles := s.profiles.filter (· ≠ profile) ++ [profile] }

def State.removeProfile (s : State τ) (profile : String) : State τ :=
  { s with profiles := s.profiles.filter (· ≠ profile) }

/-- `prepare_network_candidate`. The checks of `_validated_candidate` find in the candidate what was just put there, so
that only its `stat` may fail; that is behind the handler. -/
def prepareNetworkCandidate (c : Controller) (s : State τ) (transactionId : String) (config : Config) (fault : Option Fault) :
    Except Raised Unit × State τ :=
  let profile := c.profileName transactionId config.mode
  if !validRequestId transactionId then (.error (.network "request_id_invalid"), s)
  else if !config.valid then (.error (.network "config_invalid"), s)
  else
    match fault with
    | some (.prepare code) => (.error (.network code), s)
    | some (.writeProfile written) =>
      (.error .os, (if written then s.addProfile profile else s).removeProfile profile)
    | some (.writeService error) =>
      (.error (error.elim .os .network), (s.addProfile profile).removeProfile profile)
    | some (.reload code) => (.error (.network code), (s.addProfile profile).removeProfile profile)
    | some .statProfile => (.error (.network "profile_missing"), s.addProfile profile)
    | _ => (.ok (), s.addProfile profile)

/-- `discard_network_candidate`, with its errors suppressed. -/
def discardNetworkCandidate (c : Controller) (s : State τ) (transactionId : String) (config : Config) (fault : Option Fault) :
    State τ :=
  match fault with
  | some (.discard false) => s
  | _ => s.removeProfile (c.profileName transactionId config.mode)

/-- The arguments of `accept_transaction`. -/
def Controller.acceptance (c : Controller) (r : Apply τ) (n : Normalized) (config : Option Config) : Acceptance where
  operation := "apply"
  desired := n.fields "pending_input"
  principalId := r.principalId
  idempotencyKey := r.idempotencyKey
  requestFingerprint := c.requestFingerprint r.desired
  transactionId := r.transactionId
  acceptedAt := r.acceptedAt
  work :=
    match config with
    | none => [("kind", .str "rescue"), ("desired", .dict (n.fields "stored"))]
    | some config =>
      [("kind", .str "candidate"), ("candidate", .dict (c.candidate r.transactionId config)),
        ("desired", .dict (n.fields "stored"))]
  executionReleased := !c.deferExecutionUntilResponse
  publishDesired := true
  saved := none
  verified := none

def write : Option Fault → Write
  | some (.acceptWrite _ true) => .raisedCommitted true
  | some (.acceptWrite _ false) => .raised
  | _ => .committed

def writeError : Option Fault → Raised
  | some (.acceptWrite true _) => .sqlite
  | _ => .os

/-- `reservation.commit()`. -/
def State.commitReservation (s : State τ) (reservation : Option ℕ) : Except Raised Unit × State τ :=
  match reservation.bind fun i => s.credentials.reservations[i]?.map fun held => (i, held) with
  | none => (.ok (), s)
  | some (i, held) =>
    match s.credentials.commit i held with
    | (.ok (), credentials) => (.ok (), { s with credentials := credentials })
    | (.error _, credentials) => (.error .runtime, { s with credentials := credentials })

/-- `accept_transaction`, and the commit of the reservation. -/
def accept (c : Controller) (s : State τ) (r : Apply τ) (n : Normalized) (config : Option Config)
    (reservation : Option ℕ) (fault : Option Fault) : Except Raised (Receipt × Bool) × State τ :=
  match fault with
  | some (.acceptRead error) => (.error error.raised, s)
  | _ =>
    let (answer, db) := s.db.step c.sha256Hex (.acceptTransaction (c.acceptance r n config) (write fault))
    let s := { s with db := db }
    match answer with
    | .receipt receipt replayed =>
      match s.commitReservation reservation with
      | (.ok (), s) => (.ok (receipt, replayed), s)
      | (.error error, s) => (.error error, s)
    | .raised error => (.error (.networkState error), s)
    | _ => (.error (writeError fault), s)

/-- The handler of what the body raises. It runs behind the reservation, of which it needs nothing. -/
def unwind (c : Controller) (r : Apply τ) (config : Config) (fault : Option Fault) :
    Except Raised (Receipt × Bool) × State τ → Except Raised (Receipt × Bool) × State τ
  | (.error error, s) =>
    (.error error, if error.discards then discardNetworkCandidate c s r.transactionId config fault else s)
  | result => result

/-- The credential of the reservation. -/
def seen (s : Store τ) (reservation : Option ℕ) : Option (List Char) :=
  reservation.bind fun i => s.reservations[i]?.map (·.credential)

/-- The body of the `with` block. -/
def reserved (c : Controller) (s : State τ) (r : Apply τ) (reservation : Option ℕ) (fault : Option Fault) :
    Except Raised (Receipt × Bool) × State τ :=
  match desiredAndConfig r.desired (seen s.credentials reservation) with
  | .error error => (.error error, s)
  | .ok (n, none) => accept c s r n none reservation fault
  | .ok (n, some config) =>
    match prepareNetworkCandidate c s r.transactionId config fault with
    | (.error error, s) => (.error error, s)
    | (.ok (), s) => unwind c r config fault (accept c s r n (some config) reservation fault)

/-- The reference of a protected network. -/
def Desired.protectedRef (d : Desired) : Option String :=
  match d.wifiClient with
  | some w => if d.mode = "wifi-client" && w.security ≠ "open" then some (w.credentialRef.getD "") else none
  | none => none

/-- The `close` of the reservation. -/
def State.closeReservation (s : State τ) (now : τ) (i : ℕ) : State τ :=
  match s.credentials.reservations[i]? with
  | none => s
  | some held => { s with credentials := s.credentials.close now i held }

/-- The `with` block. -/
def withReservation (c : Controller) (s : State τ) (r : Apply τ) (fault : Option Fault) :
    Except Raised (Receipt × Bool) × State τ :=
  match r.desired.protectedRef with
  | none => reserved c s r none fault
  | some credentialRef =>
    match s.credentials.reserve r.reservedAt credentialRef with
    | (.error (.credential code), credentials) => (.error (.credential code), { s with credentials := credentials })
    | (.error (.runtime _), credentials) => (.error .runtime, { s with credentials := credentials })
    | (.ok i, credentials) =>
      let (result, s) := reserved c { s with credentials := credentials } r (some i) fault
      (result, s.closeReservation r.closedAt i)

/-- `_schedule` and `_enqueue`. -/
def schedule (c : Controller) (s : State τ) (transactionId : String) : State τ :=
  if c.deferExecutionUntilResponse then
    if transactionId ∈ s.deferred then s else { s with deferred := s.deferred ++ [transactionId] }
  else if s.closed then s
  else if transactionId ∈ s.queued then s
  else
    { s with
      queued := s.queued ++ [transactionId]
      pending := s.pending + 1
      queue := s.queue ++ [transactionId] }

/-- The end of `_accept_apply`. -/
def scheduled (c : Controller) (r : Apply τ) :
    Except Raised (Receipt × Bool) × State τ → Except Raised (Receipt × Bool) × State τ
  | (.ok result, s) => (.ok result, schedule c s r.transactionId)
  | result => result

/-- `_accept_apply`. -/
def acceptApply (c : Controller) (s : State τ) (r : Apply τ) (fault : Option Fault) :
    Except Raised (Receipt × Bool) × State τ :=
  if s.closed then (.error .runtime, s)
  else
    match fault with
    | some (.replayReceipt error) => (.error error.raised, s)
    | _ =>
      match s.db.state.replayReceipt c.sha256Hex r.principalId r.idempotencyKey (c.requestFingerprint r.desired) with
      | .error error => (.error (.networkState error), s)
      | .ok (.receipt receipt _, _) => (.ok (receipt, true), s)
      | .ok _ =>
        match fault with
        | some (.operationLock code) => (.error (.network code), s)
        | some (.snapshot error) => (.error error.raised, s)
        | _ =>
          if s.db.state.current.isSome then (.error (.networkState NetworkState.controllerBusy), s)
          else scheduled c r (withReservation c s r fault)

end Steps

/-! ### Responses -/

inductive Response where
  | accepted (receipt : Receipt) (replayed : Bool)
  | error (code message : String) (retryable : Bool)

def credentialMessages : List (String × String) :=
  [("credential_ref_invalid", "credential reference is invalid or already consumed"),
    ("credential_ref_expired", "credential reference has expired"), ("credential_invalid", "Wi-Fi credential is invalid"),
    ("credential_store_full", "credential store is temporarily full"),
    ("credential_reference_failed", "credential reference could not be allocated")]

/-- The handlers of `handle_control_request`; what none of them takes goes on to the caller. -/
def Raised.response : Raised → Option Response
  | .credential code =>
    some (.error code ((credentialMessages.lookup code).getD "credential operation failed") (code = "credential_store_full"))
  | .networkState error => some (.error error.code "network transaction could not be accepted" error.retryable)
  | .network code =>
    some (.error code
      (if code = "capture_active" then "capture is active; network mutation was not started"
        else "NetworkManager operation failed") true)
  | .os => some (.error "controller_failure" "network controller failed closed" true)
  | .runtime => some (.error "controller_failure" "network controller failed closed" true)
  | .sqlite => none
  | .assertion => none

/-- `RESPONSE_SECRET_FIELD_NAMES`. -/
def responseSecretFieldNames : List String := ["password", "psk", "secret", "token", "credential", "passphrase"]

def secretField (key : String) : Bool :=
  responseSecretFieldNames.any (·.toList = key.toList.flatMap NetworkState.casefold)

mutual
/-- `_response_contains_secret_field`. -/
def containsSecretField : Value → Bool
  | .dict fields => fieldsContainSecretField fields
  | .list items => itemsContainSecretField items
  | _ => false

def itemsContainSecretField : List Value → Bool
  | [] => false
  | value :: items => containsSecretField value || itemsContainSecretField items

def fieldsContainSecretField : Fields → Bool
  | [] => false
  | (key, value) :: fields => secretField key || containsSecretField value || fieldsContainSecretField fields
end

/-- `_seal_response`; it takes every error of the handlers. -/
def sealResponse : Response → Response
  | .accepted receipt replayed =>
    if receipt.transaction.valid && receipt.acceptedAt = receipt.transaction.acceptedAt &&
        !containsSecretField receipt.transaction.document then .accepted receipt replayed
    else .error "response_invalid" "network-control response was rejected" false
  | response => response

/-- The end of `handle_control_request`. -/
def respond {τ : Type} : Except Raised (Receipt × Bool) × State τ → Option Response × State τ
  | (.ok (receipt, replayed), s) => (some (sealResponse (.accepted receipt replayed)), s)
  | (.error error, s) => (error.response.map sealResponse, s)

/-- `handle_control_request` of an apply request that is valid; without a response an exception leaves it. -/
def handle {τ : Type} [LinearOrder τ] (c : Controller) (s : State τ) (r : Apply τ) (fault : Option Fault) :
    Option Response × State τ :=
  respond (acceptApply c s r fault)

end Conductor.NetworkApply
