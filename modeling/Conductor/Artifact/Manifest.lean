import Mathlib.Data.Finset.Card
import Conductor.Lib.Gather
import Conductor.Lib.Utf8

/-! The parsed manifest of a device session and the artifacts that it declares. The device opens and
seals the files through the native reader and serves them through the Python one; both get the
same JSON value. A number is kept by its text, since the two parsers read numbers differently. -/

namespace Conductor.Artifact

inductive Json where
  | null
  | bool (value : Bool)
  /-- The sign, the digits in front, and whether a fraction or an exponent follows. -/
  | number (minus : Bool) (whole : ℕ) (fractional : Bool)
  | string (value : String)
  | array (items : List Json)
  | object (fields : List (String × Json))

/-- The bindings of one object. -/
abbrev Fields := List (String × Json)

namespace Fields

def get (fields : Fields) (key : String) : Option Json := (fields.find? fun field => field.1 = key).map (·.2)

def keys (fields : Fields) : Finset String := (fields.map (·.1)).toFinset

theorem mem_keys_iff {fields : Fields} {key : String} : key ∈ fields.keys ↔ (fields.get key).isSome := by
  simp [keys, get]

end Fields

/-- `ArtifactDescriptor`. -/
structure ArtifactDescriptor where
  artifactId : String
  role : String
  path : String
  mediaType : String
  bytes : ℕ
  sha256 : String

/-- `_DEVICE_SESSION_SCHEMA_IDS`. -/
def deviceSessionSchemas : List String :=
  ["ylx.device-session.v1", "ylx.device-session.v2", "ylx.device-session.v3", "ylx.device-session.v4"]

/-- The pieces between the separators; there is always one. -/
def split (separator : Char) : List Char → List (List Char)
  | [] => [[]]
  | c :: text =>
    if c = separator then [] :: split separator text
    else
      match split separator text with
      | [] => [[c]]
      | piece :: pieces => (c :: piece) :: pieces

/-- The text behind the first occurrence of `.tmp`. -/
def behindTmp : List Char → Option (List Char)
  | [] => none
  | '.' :: 't' :: 'm' :: 'p' :: suffix => some suffix
  | _ :: text => behindTmp text

end Conductor.Artifact
