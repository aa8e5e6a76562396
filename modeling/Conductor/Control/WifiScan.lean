import Conductor.Api.Wire
import Conductor.Control.ClockSync
import Conductor.Lib.KeyTable
import Conductor.Lib.PyText
import Conductor.Lib.Utf8
import Mathlib.Data.List.Sort
import Mathlib.Data.Prod.Lex
import Mathlib.Data.String.Basic
import Mathlib.Data.List.Infix

/-! The scan for Wi-Fi networks: the rows that `nmcli` prints, how `scan_wifi_networks` reads them, and the
check of the body that carries its list. `upper` is the upper case of a character. -/

namespace Conductor.WifiScan

open PyText

structure NetworkError where
  code : String
  message : String
  deriving DecidableEq

/-! ### The command -/

/-- How a run of `nmcli` ends. -/
inductive Ran where
  | completed (returncode : ℤ) (output : List Char)
  | timeoutExpired
  | osError

structure CompletedProcess where
  returncode : ℤ
  stdout : List Char

/-- `_run_nmcli`, whose output is read in text mode. -/
def runNmcli : Ran → Except NetworkError CompletedProcess
  | .completed returncode output => .ok ⟨returncode, universalNewlines output⟩
  | .timeoutExpired => .error ⟨"network_timeout", "NetworkManager 操作超时"⟩
  | .osError => .error ⟨"network_manager_unavailable", "NetworkManager 不可用"⟩

/-- An access point as `nmcli` sees it. -/
structure AccessPoint where
  ssid : List Char
  security : List Char
  signal : ℤ

/-- A value between the colons of a terse row. -/
def escape (value : List Char) : List Char := value.flatMap fun c => if c = ':' ∨ c = '\\' then ['\\', c] else [c]

def AccessPoint.row (ap : AccessPoint) : List Char :=
  escape ap.ssid ++ ':' :: (escape ap.security ++ ':' :: decimal ap.signal)

def printed (aps : List AccessPoint) : List Char := aps.flatMap fun ap => ap.row ++ ['\n']

/-! ### Reading a row -/

/-- `_split_nmcli_terse`, with the field that was begun. -/
def splitFrom (current : List Char) (escaped : Bool) : List Char → Option (List (List Char))
  | [] => if escaped then none else some [current]
  | character :: rest =>
    if escaped then splitFrom (current ++ [character]) false rest
    else if character = '\\' then splitFrom current true rest
    else if character = ':' then (splitFrom [] false rest).map (current :: ·)
    else splitFrom (current ++ [character]) false rest

def splitNmcliTerse (line : List Char) : Option (List (List Char)) := splitFrom [] false line

/-- `WIFI_SECURITY`. -/
inductive Security where
  /-- `open` -/
  | unsecured
  | wpa2Personal
  | wpa3Personal
  | wpa2Wpa3Personal
  deriving DecidableEq

def Security.name : Security → String
  | .unsecured => "open"
  | .wpa2Personal => "wpa2-personal"
  | .wpa3Personal => "wpa3-personal"
  | .wpa2Wpa3Personal => "wpa2-wpa3-personal"

def wifiSecurity : List String := ["open", "wpa2-personal", "wpa3-personal", "wpa2-wpa3-personal"]

/-- `_scan_security`. -/
def scanSecurity (upper : Char → List Char) (value : List Char) : Option Security :=
  let normalized := (strip value).flatMap upper
  let mentions (marker : String) : Bool := marker.toList <:+: normalized
  if normalized = [] ∨ normalized = "--".toList then some .unsecured
  else if ["802.1X", "ENTERPRISE", "EAP", "WEP"].any mentions then none
  else
    let hasWpa3 := mentions "WPA3" || mentions "SAE"
    let hasWpa2 := mentions "WPA2" || mentions "WPA1" || normalized = "WPA".toList
    if hasWpa2 && hasWpa3 then some .wpa2Wpa3Personal
    else if hasWpa3 then some .wpa3Personal
    else if hasWpa2 then some .wpa2Personal
    else none

/-- An entry of the list. -/
structure Network where
  ssid : Option (List Char)
  hidden : Bool
  security : Security
  signalDbm : ℤ
  credentialRequired : Bool
  deriving DecidableEq

structure Key where
  ssid : Option (List Char)
  security : Security
  deriving DecidableEq

def Network.key (n : Network) : Key := ⟨n.ssid, n.security⟩

/-- `round(signal_percent / 2 - 100)`. -/
def signalDbm (signalPercent : ℤ) : ℤ := roundHalfEven (signalPercent / 2 - 100)

/-- An SSID of 1 to 32 bytes without control characters. -/
def validSsid (ssid : List Char) : Bool :=
  1 ≤ (Utf8.bytes ssid).length && (Utf8.bytes ssid).length ≤ 32 && ssid.all fun c => 32 ≤ c.toNat

/-- What the loop makes of one line. -/
def readRow (upper : Char → List Char) (line : List Char) : Option Network :=
  match splitNmcliTerse line with
  | some [ssidValue, rawSecurity, rawSignal] => do
    let signalPercent ← int rawSignal
    let hidden := ssidValue.isEmpty
    let ssid := if hidden then none else some ssidValue
    let security ← scanSecurity upper rawSecurity
    guard (0 ≤ signalPercent ∧ signalPercent ≤ 100 ∧ ssid.all validSsid)
    return {
      ssid
      hidden
      security
      signalDbm := signalDbm signalPercent
      credentialRequired := security ≠ .unsecured }
  | _ => none

/-! ### The list -/

/-- `strongest[key] = entry`, for a key that the dictionary has. -/
def replaceEntry (strongest : List (Key × Network)) (entry : Network) : List (Key × Network) :=
  strongest.map fun row => if row.1 = entry.key then (row.1, entry) else row

/-- `strongest`, after one more entry. -/
def keepStrongest (strongest : List (Key × Network)) (entry : Network) : List (Key × Network) :=
  match strongest.lookup entry.key with
  | none => strongest ++ [(entry.key, entry)]
  | some previous => if previous.signalDbm < entry.signalDbm then replaceEntry strongest entry else strongest

/-- The sort key. -/
def Network.order (n : Network) : ℤ ×ₗ Bool ×ₗ String ×ₗ String :=
  toLex (-n.signalDbm, toLex (n.ssid.isNone, toLex (String.ofList (n.ssid.getD []), n.security.name)))

/-- `scan_wifi_networks`. -/
def scanWifiNetworks (upper : Char → List Char) (ran : Ran) : Except NetworkError (List Network) := do
  let result ← runNmcli ran
  if result.returncode ≠ 0 then throw ⟨"network_scan_failed", "无法扫描 Wi-Fi 网络"⟩
  let strongest := ((splitlines result.stdout).filterMap (readRow upper)).foldl keepStrongest []
  return ((strongest.map (·.2)).insertionSort fun a b => a.order ≤ b.order).take 256

/-! ### The body -/

def Network.toValue (n : Network) : PyValue :=
  .dict [
    (.text "ssid", (n.ssid.map fun ssid => PyValue.str (.text (String.ofList ssid))).getD .none),
    (.text "hidden", .bool n.hidden),
    (.text "security", .str (.text n.security.name)),
    (.text "signal_dbm", .int n.signalDbm),
    (.text "credential_required", .bool n.credentialRequired)]

/-- What `_scan` answers. -/
def scanBody (authorityEpoch : String) (sourceRevision : ℤ) (scannedAt : String) (networks : List Network) : PyValue :=
  .dict [
    (.text "schema", .str (.text "ylx.network-scan.v1")),
    (.text "authority_epoch", .str (.text authorityEpoch)),
    (.text "source_revision", .int sourceRevision),
    (.text "scanned_at", .str (.text scannedAt)),
    (.text "networks", .list (networks.map Network.toValue))]

/-- One turn of the loop of `_valid_scan_body`. -/
def validNetwork (entry : PyValue) : Except PyError Bool :=
  match entry with
  | .dict items =>
    let get (name : String) := (PyValue.lookup items name).getD .none
    if !Control.ClockSync.keysAre items ["ssid", "hidden", "security", "signal_dbm", "credential_required"] then .ok false
    else
      match get "hidden", get "security", get "signal_dbm", get "credential_required" with
      | .bool hidden, .str (.text security), .int signal, .bool required =>
        if ¬ (security ∈ wifiSecurity ∧ -127 ≤ signal ∧ signal ≤ 0 ∧ required = (security ≠ "open" : Bool)) then .ok false
        else
          match hidden, get "ssid" with
          | true, .none => .ok true
          | false, .str (.text ssid) =>
            .ok (1 ≤ (Utf8.bytes ssid.toList).length && (Utf8.bytes ssid.toList).length ≤ 32)
          | false, .str (.surrogates _) => .error .unicodeEncodeError
          | _, _ => .ok false
      | _, _, _, _ => .ok false
  | _ => .ok false

def validNetworks : List PyValue → Except PyError Bool
  | [] => .ok true
  | entry :: entries => do if ← validNetwork entry then validNetworks entries else return false

/-- `_valid_scan_body`; `isUuid` is whether `uuid.UUID(str(value))` takes a value. A UUID of version 4 that is
its own text is what `UUID_V4` matches. -/
def validScanBody (isUuid : PyValue → Bool) (value : PyValue) : Except PyError Bool :=
  match value with
  | .dict items =>
    let get (name : String) := (PyValue.lookup items name).getD .none
    if !Control.ClockSync.keysAre items ["schema", "authority_epoch", "source_revision", "scanned_at", "networks"] then .ok false
    else if !isUuid (get "authority_epoch") then .ok false
    else
      match get "networks" with
      | .list networks =>
        if 256 < networks.length then .ok false
        else do
          if ← validNetworks networks then
            return (get "schema").eqStr (.text "ylx.network-scan.v1") &&
              (match get "authority_epoch" with
                | .str (.text epoch) => Api.uuidV4 epoch
                | _ => false) &&
              (get "source_revision").asInt.any (0 ≤ ·) &&
              (match get "scanned_at" with
                | .str scannedAt => scannedAt ≠ .text ""
                | _ => false)
          else return false
      | _ => .ok false
  | _ => .ok false

end Conductor.WifiScan
