import Conductor.Artifact.Native
import Conductor.Artifact.Downloads
import Mathlib.Algebra.Order.Ring.Nat

/-! The seal of a session directory and its verification. The native seal compares the files with
one expected identity per path (`session_io.rs`); the coordinator reads the sealed session back
through the store and through `validate_device_session_directory`. A directory is the files under
their relative paths; it does not change during a call, except by the seal itself. The operating
system's own failures are left out. The manifest in the directory is the payload that is verified. -/

namespace Conductor.Artifact

/-- `FileIdentity`. -/
structure FileIdentity where
  device : ℕ
  inode : ℕ
  size : ℕ
  modifiedNs : ℤ
  nlink : ℕ
  deriving DecidableEq

structure StoredFile where
  identity : FileIdentity
  regular : Bool
  sha256 : String

abbrev Directory := String → Option StoredFile

namespace Native

/-- `open_relative_regular`. -/
def openRelativeRegular (directory : Directory) (path : String) : Except SessionIoError StoredFile := do
  validateRelativeRegularPath path
  match directory path with
  | none => .error ⟨"artifact_invalid", "无法安全打开 artifact 路径"⟩
  | some file =>
    if !file.regular then .error ⟨"artifact_invalid", "artifact 不是普通文件"⟩
    else if file.identity.nlink ≠ 1 then .error ⟨"artifact_invalid", "artifact 不是独占普通文件"⟩
    else return file

/-- `expected_identity_map`. -/
def expectedIdentityMap (identities : List (String × FileIdentity)) :
    Except SessionIoError (List (String × FileIdentity)) :=
  identities.foldlM (fun byPath item => do
    validateRelativeArtifactPath item.1
    if (byPath.lookup item.1).isSome then .error ⟨"artifact_invalid", "artifact 封存身份路径重复"⟩
    else return item :: byPath) []

/-- The body of the loop of `verify_device_session_artifacts`. -/
def verifyArtifact (directory : Directory) (expected : List (String × FileIdentity)) (artifact : ArtifactDescriptor) :
    Except SessionIoError Unit := do
  match expected.lookup artifact.path with
  | none => .error ⟨"artifact_invalid", "artifact 缺少封存身份"⟩
  | some identity =>
    if identity.size ≠ artifact.bytes then .error ⟨"artifact_invalid", "artifact 大小与 manifest 不一致"⟩
    else
      let actual ← openRelativeRegular directory artifact.path
      if actual.identity ≠ identity then .error ⟨"digest_mismatch", "artifact 在封存前发生变化"⟩
      else return ()

/-- `verify_device_session_artifacts`; the artifacts that it went through, whose number it returns. -/
def verifyDeviceSessionArtifacts (directory : Directory) (manifest : Fields) (expectedSessionId : String)
    (expectedIdentities : List (String × FileIdentity)) : Except SessionIoError (List ArtifactDescriptor) := do
  let artifacts ← deviceSessionV1Artifacts (.object manifest) expectedSessionId
  let expected ← expectedIdentityMap expectedIdentities
  if expected.length ≠ artifacts.length then .error ⟨"artifact_invalid", "artifact 封存身份与 manifest 不一致"⟩
  else
    artifacts.forM (verifyArtifact directory expected)
    return artifacts

def validateControlName (name : String) : Except SessionIoError Unit :=
  if name.toList.isEmpty || '/' ∈ name.toList || '\\' ∈ name.toList || invalidPathComponent name.toList ||
      name = "manifest.json" then
    .error ⟨"write_failed", "录制控制文件名无效"⟩
  else .ok ()

/-- `seal_device_session` of a partial directory without a manifest: the final directory and the
artifacts that were verified in it. -/
def sealDeviceSession (partialRoot : Directory) (finalExists : Bool) (manifest : Fields) (expectedSessionId : String)
    (expectedIdentities : List (String × FileIdentity)) (controlNames : List String) :
    Except SessionIoError (Directory × List ArtifactDescriptor) := do
  if finalExists then .error ⟨"session_exists", "最终会话目录已经存在"⟩
  else
    let _ ← verifyDeviceSessionArtifacts partialRoot manifest expectedSessionId expectedIdentities
    controlNames.forM validateControlName
    let finalRoot : Directory := fun path => if path ∈ controlNames then none else partialRoot path
    let artifacts ← verifyDeviceSessionArtifacts finalRoot manifest expectedSessionId expectedIdentities
    return (finalRoot, artifacts)

/-- The control names that `NativeSessionTransaction.seal` takes when it gets none. -/
def defaultControlNames : List String := ["recording.json", "capture.json"]

/-- `verify_fd`. -/
def verifyFd (file : StoredFile) (expectedBytes : ℕ) (expectedSha256 : String) : Except SessionIoError Unit :=
  if !isSha256 expectedSha256 then .error ⟨"artifact_invalid", "SHA-256 格式无效"⟩
  else if !file.regular then .error ⟨"artifact_invalid", "artifact 不是普通文件"⟩
  else if file.identity.size ≠ expectedBytes then .error ⟨"artifact_invalid", "artifact 大小不匹配"⟩
  else if file.sha256 ≠ expectedSha256 then .error ⟨"digest_mismatch", "artifact 摘要不匹配"⟩
  else .ok ()

end Native

namespace Recording

/-- `DeviceRecordingError`. -/
structure DeviceRecordingError where
  code : String
  message : String

open Downloads

/-- The bindings of a value that has an artifact id count as an artifact, whatever stands around it. -/
def isArtifact (fields : Fields) : Bool := (fields.get "artifact_id").isSome

mutual

/-- `_manifest_artifacts`: the inner `collect`. -/
def collect : Json → List Fields
  | .object fields => if isArtifact fields then [fields] else collectFields fields
  | .array items => collectItems items
  | _ => []

def collectItems : List Json → List Fields
  | [] => []
  | value :: rest => collect value ++ collectItems rest

def collectFields : List (String × Json) → List Fields
  | [] => []
  | (_, value) :: rest => collect value ++ collectFields rest

end

/-- `_manifest_artifacts`. -/
def manifestArtifacts (manifest : Fields) : List Fields := collect (.object manifest)

/-- `_artifact_path_and_bytes`. -/
def artifactPathAndBytes (descriptor : Fields) (code : String) : Except DeviceRecordingError (String × ℕ) :=
  match (descriptor.get "path").bind asText, (descriptor.get "bytes").bind asInt with
  | some path, some bytes =>
    if bytes < 0 then .error ⟨code, "manifest artifact 描述符无效"⟩ else .ok (path, bytes.toNat)
  | _, _ => .error ⟨code, "manifest artifact 描述符无效"⟩

/-- `manifest_artifact_bytes_total`. -/
def manifestArtifactBytesTotal (manifest : Fields) (code : String) : Except DeviceRecordingError ℕ :=
  (manifestArtifacts manifest).foldlM (fun total descriptor => do
    let (_, bytes) ← artifactPathAndBytes descriptor code
    return total + bytes) 0

/-- `total_bytes` of `device_session_v1_summary`. -/
def summaryTotalBytes (manifest : Fields) : Except ArtifactAccessError ℕ := do
  let descriptors ← artifactDescriptors manifest
  return (descriptors.map (·.bytes)).sum

section Schema

/-! The JSON schema of the manifest's version and the semantic checks, as one predicate. -/

variable (valid : Fields → Prop) [DecidablePred valid]

def isTrue (value : Option Json) : Bool :=
  match value with
  | some (.bool b) => b
  | _ => false

/-- `_validated_manifest(payload, session_id, "v4")` from the parsed object on, the value of
`validated_device_session_payload`. -/
def validatedManifest (manifest : Fields) (sessionId : String) : Except ArtifactAccessError Fields :=
  if !isText (manifest.get "session_id") sessionId then .error ⟨"not_found", "会话 manifest 身份不匹配"⟩
  else if !(deviceSessionSchemas.any (isText (manifest.get "schema")) && isTrue (manifest.get "sealed")) then
    .error ⟨"not_found", "会话不存在或尚未封存"⟩
  else if valid manifest then .ok manifest
  else .error (notVerified "manifest 不符合 device-session 契约")

/-- `store.snapshot_verified_identities`, for a manifest whose digest is the verified one. -/
def snapshotVerifiedIdentities (directory : Directory) (manifest : Fields) (sessionId : String) :
    Except ArtifactAccessError (List (String × FileIdentity)) := do
  let manifest ← (validatedManifest valid manifest sessionId).mapError fun _ =>
    notVerified "当前 manifest 无法作为 sealed 会话使用"
  let descriptors ← artifactDescriptors manifest
  descriptors.mapM fun selected => do
    let file ← (Native.openRelativeRegular directory selected.path).mapError fun _ =>
      notVerified "manifest 声明的 artifact 不存在或不安全"
    if file.identity.size ≠ selected.bytes then .error (notVerified "artifact 大小与 manifest 不一致")
    else return (selected.artifactId, file.identity)

/-- `verify_artifact` of `validate_device_session_directory`. -/
def verifyArtifact (directory : Directory) (descriptor : Fields) : Except DeviceRecordingError Unit := do
  let (relative, expectedBytes) ← artifactPathAndBytes descriptor "artifact_invalid"
  match (descriptor.get "sha256").bind asText with
  | none => .error ⟨"artifact_invalid", "manifest artifact 描述符无效"⟩
  | some expectedSha256 =>
    let file ← (Native.openRelativeRegular directory relative).mapError fun error => ⟨"artifact_invalid", error.message⟩
    if 2 ^ 64 ≤ expectedBytes then .error ⟨"native_session_io_failed", "int too big to convert"⟩
    else (Native.verifyFd file expectedBytes expectedSha256).mapError fun error => ⟨error.code, error.message⟩

/-- `validate_device_session_directory`. -/
def validateDeviceSessionDirectory (directory : Directory) (manifest : Fields) (sessionId : String) :
    Except DeviceRecordingError Fields := do
  let manifest ← (validatedManifest valid manifest sessionId).mapError fun error => ⟨"manifest_invalid", error.message⟩
  (manifestArtifacts manifest).forM (verifyArtifact directory)
  return manifest

/-- An artifact id must be a text that was not seen before. -/
def checkArtifactId (seen : List String) (descriptor : Json) : Except DeviceRecordingError (List String) :=
  match descriptor with
  | .object fields =>
    match (Fields.get fields "artifact_id").bind asText with
    | some artifactId =>
      if artifactId ∈ seen then .error ⟨"manifest_invalid", "manifest artifact 描述符无效"⟩
      else .ok (artifactId :: seen)
    | none => .error ⟨"manifest_invalid", "manifest artifact 描述符无效"⟩
  | _ => .error ⟨"manifest_invalid", "manifest artifact 描述符无效"⟩

/-- The loop over `seen_artifact_ids`. -/
def checkArtifactIds (descriptors : List Json) : Except DeviceRecordingError (List String) :=
  descriptors.foldlM checkArtifactId []

/-- `_VerifiedSessionSnapshot`; the manifest's digest stands for the manifest. -/
structure VerifiedSessionSnapshot where
  manifestId : Json
  volumeId : Json
  sealedAt : Json
  artifactIdentities : List (String × FileIdentity)

/-- `snapshot` in `_verify_exact_session_payload`; a key that is missing is a `KeyError`. -/
def snapshot (directory : Directory) (manifest : Fields) (sessionId : String) :
    Except DeviceRecordingError VerifiedSessionSnapshot := do
  let artifactIdentities ← (snapshotVerifiedIdentities valid directory manifest sessionId).mapError fun _ =>
    ⟨"verification_changed", "会话在独立校验期间发生变化"⟩
  match manifest.get "manifest_id", manifest.get "volume_id", manifest.get "sealed_at" with
  | some manifestId, some volumeId, some sealedAt => return { manifestId, volumeId, sealedAt, artifactIdentities }
  | _, _, _ => .error ⟨"KeyError", ""⟩

/-- The `try` around the validation: a digest error is kept and any other raised. -/
def keepDigestError (validated : Except DeviceRecordingError Fields) :
    Except DeviceRecordingError (Option DeviceRecordingError) :=
  match validated with
  | .ok _ => .ok none
  | .error error => if error.code = "digest_mismatch" then .ok (some error) else .error error

/-- `_verify_exact_session_payload`: the snapshot, and the digest error that is kept beside it. -/
def verifyExactSessionPayload (directory : Directory) (manifest : Fields) (sessionId : String) :
    Except DeviceRecordingError (VerifiedSessionSnapshot × Option DeviceRecordingError) := do
  let descriptors ← (iterDeviceSessionV1Artifacts manifest).mapError fun error => ⟨"manifest_invalid", error.message⟩
  let _ ← checkArtifactIds descriptors
  let before ← snapshot valid directory manifest sessionId
  let verificationError ← keepDigestError (validateDeviceSessionDirectory valid directory manifest sessionId)
  let after ← snapshot valid directory manifest sessionId
  if before.artifactIdentities ≠ after.artifactIdentities then
    .error ⟨"verification_changed", "会话在独立校验期间发生变化"⟩
  else return (after, verificationError)

end Schema

end Recording

end Conductor.Artifact
