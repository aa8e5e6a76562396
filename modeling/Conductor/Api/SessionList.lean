import Conductor.Api.DateTime
import Mathlib.Data.List.Sort
import Mathlib.Data.Prod.Lex
import Mathlib.Data.String.Basic
import Mathlib.Algebra.Order.Ring.Rat

/-! Pages of the session catalog: `list_sessions` of the provider and `validate_session_list` of the
gateway. The closed objects are structures; what hashes the catalog and what encodes a cursor are
parameters, as is the `date-time` format that may be registered. -/

namespace Conductor.Api

/-- A note of a verification: the text of the older versions, or a code with its summary. -/
inductive Note where
  | text (summary : String)
  | coded (code summary : String)
  deriving DecidableEq

structure Validator where
  name : String
  version : String
  buildSha256 : String
  deriving DecidableEq

structure Verification where
  actor : String
  validator : Validator
  manifestSha256 : String
  verifiedAt : String
  verdict : String
  diagnostics : List Note
  deriving DecidableEq

structure Device where
  deviceId : String
  deviceLabel : String
  deriving DecidableEq

structure Summary where
  sessionId : String
  producerOutcome : String
  takeId : String
  takeSequence : ℤ
  continuationOf : Option String
  displayName : String
  device : Device
  startedAt : String
  endedAt : String
  durationSeconds : ℚ
  totalBytes : ℤ
  verification : Option Verification
  deriving DecidableEq

structure Diagnostic where
  quarantineId : String
  code : String
  observedAt : String
  message : String
  deriving DecidableEq

structure SessionPage where
  schema : String
  catalogRevision : Option String
  items : List Summary
  diagnostics : List Diagnostic
  nextCursor : Option String

inductive PageError where
  | invalidSourceEvent (message : String)
  | valueError

/-! ### The validation -/

section Validation

variable (conforms : String → Bool)

/-- `_date_time`. -/
def dateTime (text : String) : Bool := rfc3339DateTime text && conforms text

/-- `_date_time_value`. -/
def dateTimeValue (text : String) : Except PageError ℤ :=
  if !dateTime conforms text then .error (.invalidSourceEvent "date-time 字符串无效")
  else
    match fromIsoFormat text with
    | some instant => .ok instant
    | none => .error .valueError

def verificationDiagnosticCodes : List String :=
  ["artifact_digest_mismatch", "artifact_invalid", "manifest_invalid", "verification_failed", "recording_interrupted"]

/-- The label of a device: `YLX-` and eight upper hex digits. -/
def deviceLabelPattern : List (Char → Bool) :=
  [isChar 'Y', isChar 'L', isChar 'X', isChar '-'] ++ List.replicate 8 isUpperHex

/-- `_validate_recording_device`. -/
def validDevice (d : Device) : Bool := uuidV4 d.deviceId && fullmatch deviceLabelPattern d.deviceLabel.toList

def validNote (version : Version) : Note → Bool
  | .coded code summary => version = .v4 && code ∈ verificationDiagnosticCodes && boundedString summary 512
  | .text summary => version ≠ .v4 && boundedString summary 512

/-- `_validate_gateway_verification`. -/
def validVerification (v : Verification) (version : Version) : Bool :=
  v.actor = "gateway" && boundedString v.validator.name 128 && boundedString v.validator.version 64 &&
    sha256 v.validator.buildSha256 && sha256 v.manifestSha256 && dateTime conforms v.verifiedAt &&
    v.verdict ∈ ["usable", "unusable"] && !(v.verdict = "unusable" && v.diagnostics.isEmpty) &&
    v.diagnostics.all (validNote version)

/-- `_validate_session_summary`. -/
def validSummary (s : Summary) (takeId : Option String) (version : Version) : Bool :=
  uuidV7 s.sessionId && s.producerOutcome = "sealed" && uuidV7 s.takeId && takeId.all (· = s.takeId) &&
    1 ≤ s.takeSequence && s.continuationOf.all uuidV7 && boundedString s.displayName 160 &&
    dateTime conforms s.startedAt && dateTime conforms s.endedAt && 0 ≤ s.durationSeconds && 0 ≤ s.totalBytes &&
    validDevice s.device && s.verification.all fun v => validVerification conforms v version

/-- `_validate_session_discovery_diagnostic`. -/
def validDiagnostic (d : Diagnostic) : Bool :=
  uuidV4 d.quarantineId &&
    d.code ∈ ["manifest_unreadable", "unsupported_schema", "manifest_invalid", "manifest_not_sealed"] &&
    dateTime conforms d.observedAt && boundedString d.message 512

/-- `re.fullmatch(r"sha256:[0-9a-f]{64}", revision)`. -/
def validRevision (revision : String) : Bool :=
  fullmatch ("sha256:".toList.map isChar ++ List.replicate 64 isHex) revision.toList

/-- Python's stable sort by a key, the greatest first. -/
def sortReverse {α κ : Type} [LinearOrder κ] (key : α → κ) (l : List α) : List α :=
  l.insertionSort fun a b => key b ≤ key a

/-- `validate_session_list`. -/
def validateSessionList (page : SessionPage) (limit : ℕ) (takeId : Option String) (version : Version) :
    Except PageError Unit :=
  if page.catalogRevision.isSome ≠ decide (version = .v4) then
    .error (.invalidSourceEvent "session list 必须是闭合对象")
  else if page.schema ≠ (if version = .v4 then "ylx.session-list.v3" else "ylx.session-list.v2") ∨
      ¬ page.catalogRevision.all validRevision ∨ limit < page.items.length + page.diagnostics.length ∨
      page.nextCursor = some "" then
    .error (.invalidSourceEvent "session list 基础字段无效")
  else if ¬ page.items.all fun item => validSummary conforms item takeId version then
    .error (.invalidSourceEvent "session summary 无效")
  else if ¬ (page.items.map (·.sessionId)).Nodup then .error (.invalidSourceEvent "session list 不得重复会话")
  else
    let entry (item : Summary) : Except PageError (ℤ ×ₗ String) :=
      (dateTimeValue conforms item.startedAt).map fun instant => toLex (instant, item.sessionId)
    page.items.mapM entry >>= fun order =>
      if order ≠ sortReverse id order then .error (.invalidSourceEvent "session list 排序无效")
      else if ¬ page.diagnostics.all (validDiagnostic conforms) then
        .error (.invalidSourceEvent "session discovery diagnostic 无效")
      else .ok ()

/-- What `list_sessions` pages: the values of the two dictionaries. -/
structure SessionCatalog where
  summaries : List Summary
  diagnostics : List Diagnostic
  distinct : (summaries.map (·.sessionId)).Nodup
  summaries_valid : ∀ s ∈ summaries, validSummary conforms s none .v4
  diagnostics_valid : ∀ d ∈ diagnostics, validDiagnostic conforms d

end Validation

/-! ### The provider -/

structure Cursor where
  catalogRevision : String
  takeId : Option String
  offset : ℕ

/-- `_session_catalog_revision`, `_encode_session_cursor` and `_decode_session_cursor`. -/
structure CursorCodec where
  revision : List Summary → List Diagnostic → String
  revision_valid : ∀ items diagnostics, validRevision (revision items diagnostics)
  encode : Cursor → String
  encode_ne : ∀ cursor, encode cursor ≠ ""
  decode : String → Option Cursor

inductive ListError where
  | invalidCursor
  | catalogChanged (revision : String)

/-- The key of the provider's order: two texts. -/
def Summary.textKey (s : Summary) : String ×ₗ String := toLex (s.startedAt, s.sessionId)

def Note.plain : Note → Note
  | .coded _ summary => .text summary
  | .text summary => .text summary

def Note.isCoded : Note → Bool
  | .coded _ _ => true
  | .text _ => false

/-- An item in the form of the older versions: only the coded notes stay. -/
def Summary.plain (s : Summary) : Summary :=
  { s with verification := s.verification.map fun v =>
      { v with diagnostics := (v.diagnostics.filter Note.isCoded).map Note.plain } }

/-- The page of the older versions, from the position after the cursor's item on. -/
def plainPage (items : List Summary) (diagnostics : List Diagnostic) (cursor : Option String) (limit : ℕ) :
    Except ListError SessionPage :=
  let start : Option ℕ := match cursor with
    | none => some 0
    | some cursor => (items.findIdx? (·.sessionId = cursor)).map (· + 1)
  match start with
  | none => .error .invalidCursor
  | some start =>
    let selected := (items.drop start).take limit
    .ok
      { schema := "ylx.session-list.v2"
        catalogRevision := none
        items := selected.map Summary.plain
        diagnostics := diagnostics.take (limit - selected.length)
        nextCursor :=
          if start + selected.length < items.length then selected.getLast?.map (·.sessionId) else none }

/-- The page of `v4`, which goes on with the diagnostics after the items. -/
def codedPage (codec : CursorCodec) (allItems items : List Summary) (diagnostics : List Diagnostic)
    (cursor : Option String) (limit : ℕ) (takeId : Option String) : Except ListError SessionPage :=
  let revision := codec.revision allItems diagnostics
  let ordered : List (Summary ⊕ Diagnostic) := items.map .inl ++ diagnostics.map .inr
  let start : Except ListError ℕ := match cursor with
    | none => .ok 0
    | some cursor =>
      match codec.decode cursor with
      | none => .error .invalidCursor
      | some decoded =>
        if decoded.takeId ≠ takeId then .error .invalidCursor
        else if decoded.catalogRevision ≠ revision then .error (.catalogChanged revision)
        else if ordered.length ≤ decoded.offset then .error .invalidCursor
        else .ok decoded.offset
  match start with
  | .error e => .error e
  | .ok start =>
    let selected := (ordered.drop start).take limit
    let consumed := start + selected.length
    .ok
      { schema := "ylx.session-list.v3"
        catalogRevision := some revision
        items := selected.filterMap Sum.getLeft?
        diagnostics := selected.filterMap Sum.getRight?
        nextCursor :=
          if consumed < ordered.length then some (codec.encode ⟨revision, takeId, consumed⟩) else none }

/-- `list_sessions`, on the catalog as it is after its refresh. -/
def listSessions {conforms : String → Bool} (codec : CursorCodec) (catalog : SessionCatalog conforms)
    (cursor : Option String) (limit : ℕ) (takeId : Option String) (version : Version) :
    Except ListError SessionPage :=
  let allItems := sortReverse Summary.textKey catalog.summaries
  let items := allItems.filter fun item => takeId.all (· = item.takeId)
  if version ≠ .v4 then plainPage items catalog.diagnostics cursor limit
  else
    let diagnostics := catalog.diagnostics.insertionSort fun a b => a.quarantineId ≤ b.quarantineId
    codedPage codec allItems items diagnostics cursor limit takeId

end Conductor.Api
