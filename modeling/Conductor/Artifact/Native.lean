import Conductor.Artifact.Manifest

/-! The native reader of a manifest's artifacts (`session_io.rs`). A text is measured and scanned by
its UTF-8 bytes. -/

namespace Conductor.Artifact.Native

/-- `SessionIoError`. -/
structure SessionIoError where
  code : String
  message : String
  deriving DecidableEq

def invalid (message : String) : SessionIoError := ⟨"manifest_invalid", message⟩

variable {α : Type}

def valueField (object : Fields) (name : String) : Except SessionIoError Json :=
  match object.get name with
  | some value => .ok value
  | none => .error (invalid "manifest 字段缺失")

def objectField (object : Fields) (name message : String) : Except SessionIoError Fields :=
  match object.get name with
  | some (.object fields) => .ok fields
  | _ => .error (invalid message)

def arrayField (object : Fields) (name message : String) : Except SessionIoError (List Json) :=
  match object.get name with
  | some (.array items) => .ok items
  | _ => .error (invalid message)

def stringField (object : Fields) (name : String) : Except SessionIoError String :=
  match object.get name with
  | some (.string text) => .ok text
  | _ => .error (invalid "manifest 字符串字段无效")

/-- `bool_field(object, name)? != Some(true)` as a check. -/
def boolField (object : Fields) (name : String) : Except SessionIoError (Option Bool) :=
  match object.get name with
  | none => .ok none
  | some (.bool value) => .ok (some value)
  | some _ => .error (invalid "manifest bool 字段无效")

/-- `Value::as_object` of a list element. -/
def asObject (value : Json) (message : String) : Except SessionIoError Fields :=
  match value with
  | .object fields => .ok fields
  | _ => .error (invalid message)

/-- `Value::as_str`. -/
def asStr : Json → Option String
  | .string text => some text
  | _ => none

/-- `Value::as_u64`: `-0` is a float and an integer from 2^64 on is one too. -/
def asU64 : Json → Option ℕ
  | .number false whole false => if whole < 2 ^ 64 then some whole else none
  | _ => none

def isLowerHexByte (byte : ℕ) : Bool := 48 ≤ byte && byte ≤ 57 || 97 ≤ byte && byte ≤ 102

def isSha256 (value : String) : Bool :=
  let bytes := Utf8.bytes value.toList
  bytes.length = 64 && bytes.all isLowerHexByte

def isMediaTokenByte (byte : ℕ) : Bool :=
  97 ≤ byte && byte ≤ 122 || 48 ≤ byte && byte ≤ 57 ||
    byte ∈ ['!', '#', '$', '&', '^', '_', '.', '+', '-'].map Char.toNat

/-- `str::split_once`. -/
def splitOnce (separator : Char) : List Char → Option (List Char × List Char)
  | [] => none
  | c :: text =>
    if c = separator then some ([], text) else (splitOnce separator text).map fun parts => (c :: parts.1, parts.2)

def isMediaType (value : String) : Bool :=
  match splitOnce '/' value.toList with
  | none => false
  | some (left, right) =>
    !left.isEmpty && !right.isEmpty && (Utf8.bytes left).all isMediaTokenByte && (Utf8.bytes right).all isMediaTokenByte

/-- `is_temp_component`: only the first `.tmp` counts, and a separator behind it needs more text. -/
def isTempComponent (component : List Char) : Bool :=
  match behindTmp component with
  | none => false
  | some [] => true
  | some (c :: rest) => (c = '.' || c = '_' || c = '-') && !rest.isEmpty

def invalidPathComponent (component : List Char) : Bool :=
  component.isEmpty || component = ['.'] || component = ['.', '.'] || isTempComponent component

def pathInvalid : SessionIoError := invalid "manifest artifact 路径无效"

def validateRelativeRegularPath (path : String) : Except SessionIoError Unit :=
  let text := path.toList
  let bytes := Utf8.bytes text
  if text.isEmpty || 1024 < bytes.length || text.head? = some '/' || '\\' ∈ text then .error pathInvalid
  else if bytes.any fun byte => byte < 32 || 127 ≤ byte && byte ≤ 159 then .error pathInvalid
  else if (split '/' text).any invalidPathComponent then .error pathInvalid
  else .ok ()

def validateRelativeArtifactPath (path : String) : Except SessionIoError Unit := do
  validateRelativeRegularPath path
  let first := (split '/' path.toList).head?
  if first = some "manifest.json".toList || first = some "recording.json".toList then .error pathInvalid
  else .ok ()

def descriptorKeys : List String := ["artifact_id", "role", "path", "media_type", "bytes", "sha256"]

def parseArtifactDescriptor (raw : Json) : Except SessionIoError ArtifactDescriptor := do
  let object ← asObject raw "manifest artifact 描述符无效"
  if !descriptorKeys.all fun key => (object.get key).isSome then
    .error (invalid "manifest artifact 描述符字段无效")
  else if object.keys.card ≠ 6 && !(object.keys.card = 7 && (object.get "storage_encoding").isSome) then
    .error (invalid "manifest artifact 描述符字段无效")
  else
    let artifactId ← stringField object "artifact_id"
    let role ← stringField object "role"
    let path ← stringField object "path"
    let mediaType ← stringField object "media_type"
    let sha256 ← stringField object "sha256"
    match (object.get "bytes").bind asU64 with
    | none => .error (invalid "manifest artifact bytes 无效")
    | some bytes =>
      if !isSha256 artifactId || !isSha256 sha256 || artifactId ≠ sha256 then
        .error (invalid "manifest artifact SHA-256 无效")
      else if !isMediaType mediaType then .error (invalid "manifest artifact media_type 无效")
      else
        validateRelativeArtifactPath path
        return { artifactId, role, path, mediaType, bytes, sha256 }

structure ArtifactCollector where
  descriptors : List ArtifactDescriptor
  byId : List (String × ℕ)
  paths : List String

def ArtifactCollector.empty : ArtifactCollector := ⟨[], [], []⟩

/-- `collect`, from the parsed descriptor on. An index out of bounds would be a panic. -/
def ArtifactCollector.insert (self : ArtifactCollector) (descriptor : ArtifactDescriptor) :
    Except SessionIoError ArtifactCollector :=
  if descriptor.path ∈ self.paths then .error (invalid "manifest artifact 路径重复")
  else
    let paths := descriptor.path :: self.paths
    match self.byId.lookup descriptor.artifactId with
    | some index =>
      match self.descriptors[index]? with
      | some existing =>
        if descriptor.bytes ≠ existing.bytes || descriptor.mediaType ≠ existing.mediaType ||
            descriptor.sha256 ≠ existing.sha256 then
          .error (invalid "同一 artifact 身份的表示元数据不一致")
        else .ok { self with paths }
      | none => .error ⟨"panic", "index out of bounds"⟩
    | none =>
      .ok { descriptors := self.descriptors ++ [descriptor]
            byId := (descriptor.artifactId, self.descriptors.length) :: self.byId
            paths }

def ArtifactCollector.collect (self : ArtifactCollector) (raw : Json) : Except SessionIoError ArtifactCollector :=
  parseArtifactDescriptor raw >>= self.insert

def collectEyes (collector : ArtifactCollector) (segment : Json) : Except SessionIoError ArtifactCollector := do
  let segment ← asObject segment "manifest video segment 无效"
  let artifacts ← objectField segment "artifacts" "manifest video segment artifact 无效"
  let collector ← valueField artifacts "left" >>= collector.collect
  valueField artifacts "right" >>= collector.collect

def collectVideo (collector : ArtifactCollector) (video : Fields) : Except SessionIoError ArtifactCollector := do
  let layout ← stringField video "layout"
  if layout = "raw-side-by-side" then valueField video "artifact" >>= collector.collect
  else if layout = "split-eyes" then
    let segments ← arrayField video "segments" "manifest video segments 无效"
    segments.foldlM collectEyes collector
  else .error (invalid "manifest video layout 无效")

def collectSection (object : Fields) (collector : ArtifactCollector) (name : String) :
    Except SessionIoError ArtifactCollector := do
  let body ← objectField object name "manifest artifact 清单无效"
  valueField body "artifact" >>= collector.collect

def collectAudioSegment (collector : ArtifactCollector) (segment : Json) : Except SessionIoError ArtifactCollector := do
  let segment ← asObject segment "manifest audio segment 无效"
  valueField segment "artifact" >>= collector.collect

/-- `if let Some(audio) = object.get("audio")`: a null is a value and no object. -/
def collectAudio (object : Fields) (collector : ArtifactCollector) : Except SessionIoError ArtifactCollector :=
  match object.get "audio" with
  | none => .ok collector
  | some value => do
    let audio ← asObject value "manifest audio 结构无效"
    if (audio.get "state").bind asStr = some "not_recorded" then return collector
    else
      let segments ← arrayField audio "segments" "manifest audio segments 无效"
      segments.foldlM collectAudioSegment collector

def collectLogs (object : Fields) (collector : ArtifactCollector) : Except SessionIoError ArtifactCollector :=
  match object.get "logs" with
  | none => .ok collector
  | some _ => do
    let logs ← arrayField object "logs" "manifest logs 无效"
    logs.foldlM ArtifactCollector.collect collector

def collectDeviceSessionV1Artifacts (object : Fields) : Except SessionIoError (List ArtifactDescriptor) := do
  let video ← objectField object "video" "manifest video 结构无效"
  let collector ← collectVideo .empty video
  let collector ← ["frames", "imu"].foldlM (collectSection object) collector
  let collector ← collectAudio object collector
  let collector ← collectLogs object collector
  let artifacts := collector.descriptors
  if artifacts.isEmpty then .error (invalid "manifest 未声明 artifact")
  else return artifacts

/-- The checks of `parse_device_session_manifest` on the parsed value. -/
def parseDeviceSessionManifest (root : Json) (expectedSessionId : String) : Except SessionIoError Fields := do
  let object ← asObject root "manifest 必须是对象"
  let schema ← stringField object "schema"
  if schema ∉ deviceSessionSchemas then .error (invalid "manifest 不是支持的 device-session")
  else
    let isSealed ← boolField object "sealed"
    if isSealed ≠ some true then .error (invalid "manifest 尚未 sealed")
    else
      let sessionId ← stringField object "session_id"
      if sessionId ≠ expectedSessionId then .error (invalid "manifest 会话身份不匹配")
      else return object

/-- `device_session_v1_artifacts`. -/
def deviceSessionV1Artifacts (root : Json) (expectedSessionId : String) :
    Except SessionIoError (List ArtifactDescriptor) :=
  parseDeviceSessionManifest root expectedSessionId >>= collectDeviceSessionV1Artifacts

end Conductor.Artifact.Native
