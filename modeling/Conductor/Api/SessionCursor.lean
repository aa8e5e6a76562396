import Conductor.Api.SessionList
import Conductor.Lib.Base64
import Conductor.Lib.FlatJson

/-! The revision of the session catalog and the cursors of its pages. The hash is a parameter, and so is
the canonical JSON of a summary and of a diagnostic. `json.loads` reads the objects that can pass the
comparison with their canonical form; every other payload is refused there. -/

namespace Conductor.Api

open FlatJson (Value writeObject readObject)

structure Sha256 where
  digest : List UInt8 → List UInt8
  length_digest : ∀ bytes, (digest bytes).length = 32

/-- `_canonical_json_bytes` of the entries of a catalog. -/
structure EntryJson where
  summary : Summary → List UInt8
  diagnostic : Diagnostic → List UInt8

def utf8 (text : List Char) : List UInt8 := text.flatMap String.utf8EncodeChar

def ascii (text : String) : List UInt8 := utf8 text.toList

/-- `hexdigest`. -/
def hexText (bytes : List UInt8) : List Char :=
  bytes.flatMap fun b => [FlatJson.hexDigit (b.toNat / 16), FlatJson.hexDigit (b.toNat % 16)]

/-! ### The revision -/

/-- `SESSION_CATALOG_REVISION_DOMAIN`. -/
def sessionCatalogRevisionDomain : List UInt8 := ascii "ylx.session-list.v3.catalog-revision" ++ [0]

/-- The canonical JSON of `{"kind": kind, "value": value}`. -/
def kindJson (json : EntryJson) : Summary ⊕ Diagnostic → List UInt8
  | .inl s => ascii "\x7b\"kind\":\"session\",\"value\":" ++ json.summary s ++ ascii "\x7d"
  | .inr d => ascii "\x7b\"kind\":\"diagnostic\",\"value\":" ++ json.diagnostic d ++ ascii "\x7d"

def comma : List UInt8 := ascii ","

/-- The canonical JSON of a list without its brackets. -/
def listJson (json : EntryJson) (batch : List (Summary ⊕ Diagnostic)) : List UInt8 :=
  (batch.map (kindJson json)).intersperse comma |>.flatten

/-- What the digest was fed so far, with the batch and the separator. -/
structure RevisionState where
  fed : List UInt8
  batch : List (Summary ⊕ Diagnostic) := []
  separator : List UInt8 := []

def RevisionState.consumeBatch (json : EntryJson) (s : RevisionState) : RevisionState :=
  { fed := s.fed ++ s.separator ++ listJson json s.batch, batch := [], separator := comma }

def RevisionState.add (json : EntryJson) (s : RevisionState) (entry : Summary ⊕ Diagnostic) : RevisionState :=
  let s := { s with batch := s.batch ++ [entry] }
  if s.batch.length = 64 then s.consumeBatch json else s

/-- What `_session_catalog_revision` feeds the digest. -/
def revisionInput (json : EntryJson) (items : List Summary) (diagnostics : List Diagnostic) : List UInt8 :=
  let start : RevisionState := { fed := sessionCatalogRevisionDomain ++ ascii "\x7b\"entries\":[" }
  let entries : List (Summary ⊕ Diagnostic) := items.map .inl ++ diagnostics.map .inr
  let s := entries.foldl (RevisionState.add json) start
  let s := if s.batch = [] then s else s.consumeBatch json
  s.fed ++ ascii "],\"schema\":\"ylx.session-catalog-revision-input.v1\"\x7d"

/-- `_session_catalog_revision`. -/
def sessionCatalogRevision (sha : Sha256) (json : EntryJson) (items : List Summary)
    (diagnostics : List Diagnostic) : String :=
  String.ofList ("sha256:".toList ++ hexText (sha.digest (revisionInput json items diagnostics)))

/-! ### The cursor -/

/-- `SESSION_CURSOR_DOMAIN`. -/
def sessionCursorDomain : List UInt8 := ascii "ylx.session-list.v3.cursor" ++ [0]

/-- `SESSION_CURSOR_SCHEMA`. -/
def sessionCursorSchema : String := "ylx.session-list.cursor.v1"

def cursorKeys : List String := ["catalog_revision", "offset", "schema", "take_id"]

/-- The dictionary of a cursor, in the order of its keys. -/
def cursorValue (c : Cursor) : List (List Char × Value) :=
  [("catalog_revision".toList, .text c.catalogRevision.toList), ("offset".toList, .int c.offset),
    ("schema".toList, .text sessionCursorSchema.toList),
    ("take_id".toList, (c.takeId.map fun takeId => Value.text takeId.toList).getD .null)]

/-- `_canonical_json_bytes` of a dictionary of texts, integers and nulls. -/
def canonicalJsonBytes (entries : List (List Char × Value)) : List UInt8 :=
  utf8 (writeObject (entries.insertionSort fun a b => a.1 ≤ b.1))

/-- `_encode_session_cursor`. -/
def encodeSessionCursor (sha : Sha256) (c : Cursor) : String :=
  let payload := canonicalJsonBytes (cursorValue c)
  let signature := sha.digest (sessionCursorDomain ++ payload)
  String.ofList (Base64.encode (payload ++ signature))

/-- `json.loads` of a payload. -/
def loads (payload : List UInt8) : Option (List (List Char × Value)) := do
  let text ← payload.toByteArray.utf8Decode?
  readObject text.toList

/-- The checks of the fields. -/
def cursorFields (value : List (List Char × Value)) : Option Cursor := do
  let get (key : String) : Option Value := (value.find? fun entry => entry.1 = key.toList).map (·.2)
  guard (value.all fun entry => cursorKeys.any fun key => entry.1 = key.toList)
  let revision ← get "catalog_revision"
  let offset ← get "offset"
  let schema ← get "schema"
  let takeId ← get "take_id"
  guard (schema = .text sessionCursorSchema.toList)
  match revision, takeId, offset with
  | .text revision, .null, .int (.ofNat (n + 1)) => some ⟨String.ofList revision, none, n + 1⟩
  | .text revision, .text takeId, .int (.ofNat (n + 1)) =>
    some ⟨String.ofList revision, some (String.ofList takeId), n + 1⟩
  | _, _, _ => none

/-- `_decode_session_cursor`; `none` is the invalid cursor. -/
def decodeSessionCursor (sha : Sha256) (cursor : String) : Option Cursor := do
  guard (cursor.length ≤ 2048)
  let decoded ← Base64.decode cursor.toList
  guard (32 < decoded.length)
  let payload := decoded.take (decoded.length - 32)
  let signature := decoded.drop (decoded.length - 32)
  guard (signature = sha.digest (sessionCursorDomain ++ payload))
  let value ← loads payload
  guard (canonicalJsonBytes value = payload)
  cursorFields value

end Conductor.Api
