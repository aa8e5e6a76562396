import Conductor.Api.Wire
import Conductor.Artifact.Manifest

/-! The Python reader of a manifest's artifacts (`api/downloads.py`). A text is measured and scanned
by its code points. -/

namespace Conductor.Artifact.Downloads

/-- `ArtifactAccessError`. -/
structure ArtifactAccessError where
  code : String
  message : String
  deriving DecidableEq

def notVerified (message : String) : ArtifactAccessError := ⟨"not_verified", message⟩

/-- `isinstance(value, Mapping)`. -/
def mapping (value : Option Json) (message : String) : Except ArtifactAccessError Fields :=
  match value with
  | some (.object fields) => .ok fields
  | _ => .error (notVerified message)

/-- `isinstance(value, list)`. -/
def list (value : Option Json) (message : String) : Except ArtifactAccessError (List Json) :=
  match value with
  | some (.array items) => .ok items
  | _ => .error (notVerified message)

/-- A descriptor that is yielded. -/
def artifact (value : Option Json) (message : String) : Except ArtifactAccessError (List Json) := do
  let fields ← mapping value message
  return [.object fields]

def videoSegment (segment : Json) : Except ArtifactAccessError (List Json) := do
  let segment ← mapping (some segment) "manifest video segment 无效"
  let artifacts ← mapping (segment.get "artifacts") "manifest video segment artifact 无效"
  let left ← artifact (artifacts.get "left") "manifest video segment artifact 无效"
  let right ← artifact (artifacts.get "right") "manifest video segment artifact 无效"
  return left ++ right

def isText (value : Option Json) (text : String) : Bool :=
  match value with
  | some (.string other) => other = text
  | _ => false

def videoArtifacts (video : Fields) : Except ArtifactAccessError (List Json) := do
  if isText (video.get "layout") "raw-side-by-side" then
    artifact (video.get "artifact") "manifest video artifact 无效"
  else if isText (video.get "layout") "split-eyes" then
    let segments ← list (video.get "segments") "manifest video segments 无效"
    Gather.gather videoSegment segments
  else .error (notVerified "manifest video layout 无效")

def audioSegment (segment : Json) : Except ArtifactAccessError (List Json) := do
  let segment ← mapping (some segment) "manifest audio segment 无效"
  artifact (segment.get "artifact") "manifest audio artifact 无效"

/-- `manifest.get("audio")` is not told from a null. -/
def audioArtifacts (manifest : Fields) : Except ArtifactAccessError (List Json) :=
  match manifest.get "audio" with
  | none | some .null => .ok []
  | some value => do
    let audio ← mapping (some value) "manifest audio 结构无效"
    if isText (audio.get "state") "not_recorded" then return []
    else
      let segments ← list (audio.get "segments") "manifest audio segments 无效"
      Gather.gather audioSegment segments

def logArtifact (value : Json) : Except ArtifactAccessError (List Json) :=
  artifact (some value) "manifest log artifact 无效"

/-- `manifest.get("logs", [])`. -/
def logArtifacts (manifest : Fields) : Except ArtifactAccessError (List Json) := do
  let logs ← list (some ((manifest.get "logs").getD (.array []))) "manifest logs 无效"
  Gather.gather logArtifact logs

/-- The list of `iter_device_session_v1_artifacts`. -/
def iterDeviceSessionV1Artifacts (manifest : Fields) : Except ArtifactAccessError (List Json) := do
  let video ← mapping (manifest.get "video") "manifest artifact 清单无效"
  let frames ← mapping (manifest.get "frames") "manifest artifact 清单无效"
  let imu ← mapping (manifest.get "imu") "manifest artifact 清单无效"
  let fromVideo ← videoArtifacts video
  let fromFrames ← artifact (frames.get "artifact") "manifest artifact 清单无效"
  let fromImu ← artifact (imu.get "artifact") "manifest artifact 清单无效"
  let fromAudio ← audioArtifacts manifest
  let fromLogs ← logArtifacts manifest
  return fromVideo ++ (fromFrames ++ (fromImu ++ (fromAudio ++ fromLogs)))

def isMediaTokenChar (c : Char) : Bool :=
  'a'.toNat ≤ c.toNat && c.toNat ≤ 'z'.toNat || Api.isDigit c || c ∈ ['!', '#', '$', '&', '^', '_', '.', '+', '-']

/-- `_MEDIA_TYPE.fullmatch`: the first group runs up to the only slash. -/
def mediaType (text : String) : Bool :=
  let left := text.toList.takeWhile isMediaTokenChar
  match text.toList.dropWhile isMediaTokenChar with
  | '/' :: right => !left.isEmpty && !right.isEmpty && right.all isMediaTokenChar
  | _ => false

/-- What `(?:[._-][^/]*)?$` matches. -/
def isTmpSuffix : List Char → Bool
  | [] => true
  | c :: _ => c = '.' || c = '_' || c = '-'

/-- `_TEMP_COMPONENT.fullmatch`: any occurrence of `.tmp` may be the one. -/
def tempComponent (component : List Char) : Bool :=
  component.tails.any fun rest =>
    match rest with
    | '.' :: 't' :: 'm' :: 'p' :: suffix => isTmpSuffix suffix
    | _ => false

def unsafeComponent (component : List Char) : Bool :=
  component.isEmpty || component = ['.'] || component = ['.', '.'] || tempComponent component

def safeRelativeComponents (path : String) : Except ArtifactAccessError (List (List Char)) :=
  let text := path.toList
  if text.isEmpty || 1024 < text.length || text.head? = some '/' then
    .error (notVerified "manifest artifact 路径无效")
  else if '\\' ∈ text || text.any fun c => c.toNat < 32 || 127 ≤ c.toNat && c.toNat ≤ 159 then
    .error (notVerified "manifest artifact 路径无效")
  else
    let components := split '/' text
    if components.any unsafeComponent then .error (notVerified "manifest artifact 路径无效")
    else if components.head? = some "manifest.json".toList || components.head? = some "recording.json".toList then
      .error (notVerified "manifest artifact 路径使用保留名称")
    else .ok components

/-- An integer that is no truth value. -/
def asInt : Json → Option ℤ
  | .number minus whole false => some (if minus then -whole else whole)
  | _ => none

def asText : Json → Option String
  | .string text => some text
  | _ => none

def required (legacy : Bool) : Finset String :=
  {"role", "path", "media_type", "bytes", "sha256"} ∪ if legacy then {"records"} else {"artifact_id"}

/-- `_artifact_descriptor`. -/
def artifactDescriptor (raw : Json) (legacy : Bool) : Except ArtifactAccessError ArtifactDescriptor := do
  let fields ← mapping (some raw) "manifest artifact 描述符无效"
  let optional : Finset String := if legacy then ∅ else {"storage_encoding"}
  if fields.keys \ optional ≠ required legacy then .error (notVerified "manifest artifact 描述符字段无效")
  else
    let sha256 := (fields.get "sha256").bind asText
    let artifactId := if legacy then sha256 else (fields.get "artifact_id").bind asText
    let role := (fields.get "role").bind asText
    match artifactId, sha256, (fields.get "path").bind asText, (fields.get "media_type").bind asText,
      (fields.get "bytes").bind asInt with
    | some artifactId, some sha256, some path, some mediaType, some size =>
      if !Api.sha256 artifactId || !Api.sha256 sha256 || artifactId ≠ sha256 ||
          (!legacy && (role = none || role = some "")) || !Downloads.mediaType mediaType || size < 0 then
        .error (notVerified "manifest artifact 描述符值无效")
      else if legacy && ((fields.get "records").bind asInt).all fun records => records < 0 then
        .error (notVerified "manifest artifact records 无效")
      else
        let _ ← safeRelativeComponents path
        return { artifactId, role := role.getD "", path, mediaType, bytes := size.toNat, sha256 }
    | _, _, _, _, _ => .error (notVerified "manifest artifact 描述符值无效")

/-- The dictionary by artifact id, whose order is that of the first insertions, and the set of paths. -/
structure Descriptors where
  values : List ArtifactDescriptor
  paths : List String

def Descriptors.empty : Descriptors := ⟨[], []⟩

def Descriptors.get (self : Descriptors) (artifactId : String) : Option ArtifactDescriptor :=
  self.values.find? fun descriptor => descriptor.artifactId = artifactId

/-- The body of the loop of `_artifact_descriptors`. -/
def Descriptors.insert (self : Descriptors) (descriptor : ArtifactDescriptor) :
    Except ArtifactAccessError Descriptors :=
  if descriptor.path ∈ self.paths then .error (notVerified "manifest artifact 路径重复")
  else
    match self.get descriptor.artifactId with
    | some existing =>
      if descriptor.bytes ≠ existing.bytes || descriptor.mediaType ≠ existing.mediaType ||
          descriptor.sha256 ≠ existing.sha256 then
        .error (notVerified "同一 artifact 身份的表示元数据不一致")
      else .ok { self with paths := descriptor.path :: self.paths }
    | none => .ok { values := self.values ++ [descriptor], paths := descriptor.path :: self.paths }

/-- `_artifact_descriptors`. -/
def artifactDescriptors (manifest : Fields) : Except ArtifactAccessError (List ArtifactDescriptor) := do
  let legacy := !deviceSessionSchemas.any (isText (manifest.get "schema"))
  let raws ←
    if legacy then list (manifest.get "artifacts") "manifest artifact 清单无效"
    else iterDeviceSessionV1Artifacts manifest
  let descriptors ← raws.foldlM (fun (self : Descriptors) raw => artifactDescriptor raw legacy >>= self.insert) .empty
  if descriptors.values.isEmpty then .error (notVerified "manifest 未声明 artifact")
  else return descriptors.values

end Conductor.Artifact.Downloads
