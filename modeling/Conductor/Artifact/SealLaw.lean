import Mathlib.Algebra.BigOperators.Group.List.Basic
import Conductor.Lib.KeyTable
import Conductor.Artifact.Seal
import Conductor.Artifact.AgreementLaw

/-! Sessions with repeated content. The seal counts one expected identity per path against artifacts
that are merged by identity, the coordinator refuses an identity that comes twice, and the two
totals count an artifact per identity and per descriptor. All of them agree on a session exactly
if every identity stands once and nothing else is wrong with the manifest. -/

namespace Conductor.Artifact

open Checked Gather KeyTable

section Native

variable {directory : Directory}

theorem openRelativeRegular_eq_ok {path : String} {file : StoredFile} :
    Native.openRelativeRegular directory path = .ok file ↔
      Native.validateRelativeRegularPath path = .ok () ∧ directory path = some file ∧ file.regular ∧
        file.identity.nlink = 1 := by
  unfold Native.openRelativeRegular
  simp only [bind_eq_ok]
  rcases directory path with _ | stored
  · simp
  · simp only [ite_error_eq_ok, pure_eq_ok, Option.some.injEq, Bool.not_eq_true', Bool.not_eq_false, not_not]
    constructor
    · rintro ⟨_, hpath, hregular, hlink, rfl⟩
      exact ⟨hpath, rfl, hregular, hlink⟩
    · rintro ⟨hpath, rfl, hregular, hlink⟩
      exact ⟨(), hpath, hregular, hlink, rfl⟩

/-- The map holds the list itself, if the paths are valid and different. -/
theorem expectedIdentityMap_eq_ok {ids r : List (String × FileIdentity)} :
    Native.expectedIdentityMap ids = .ok r ↔
      (∀ item ∈ ids, Native.validateRelativeArtifactPath item.1 = .ok ()) ∧ UniqueKeys ids ∧ r = ids.reverse := by
  unfold Native.expectedIdentityMap
  induction ids using List.reverseRecOn generalizing r with
  | nil =>
    rw [List.foldlM_nil, pure_eq_ok]
    simp [UniqueKeys]
  | append_singleton ids item ih =>
    simp only [List.foldlM_append, List.foldlM_cons, List.foldlM_nil, bind_eq_ok, ih, ite_error_eq_ok, pure_eq_ok]
    have hkeys : UniqueKeys (ids ++ [item]) ↔ UniqueKeys ids ∧ item.1 ∉ ids.map (·.1) := by
      unfold UniqueKeys
      rw [List.map_append, List.map_singleton, List.nodup_append_comm, List.singleton_append, List.nodup_cons, and_comm]
    have hnone : ∀ rows : List (String × FileIdentity), ¬(rows.lookup item.1).isSome ↔ item.1 ∉ rows.map (·.1) := by
      intro rows
      simp only [Option.not_isSome_iff_eq_none, List.lookup_eq_none_iff, List.mem_map, not_exists, not_and, bne_iff_ne,
        ne_eq]
      exact ⟨fun h row hrow heq => h row hrow heq.symm, fun h row hrow heq => h row hrow heq.symm⟩
    constructor
    · rintro ⟨_, ⟨hvalid, hunique, rfl⟩, _, ⟨_, hitem, hfresh, rfl⟩, rfl⟩
      rw [hnone, List.map_reverse, List.mem_reverse] at hfresh
      refine ⟨?_, hkeys.mpr ⟨hunique, hfresh⟩, by simp⟩
      intro other hother
      rcases List.mem_append.mp hother with h | h
      · exact hvalid other h
      · exact List.mem_singleton.mp h ▸ hitem
    · rintro ⟨hvalid, hunique, rfl⟩
      obtain ⟨hunique, hfresh⟩ := hkeys.mp hunique
      refine ⟨_, ⟨fun other h => hvalid other (List.mem_append_left _ h), hunique, rfl⟩, _,
        ⟨(), hvalid item (by simp), ?_, rfl⟩, by simp⟩
      rw [hnone, List.map_reverse, List.mem_reverse]
      exact hfresh

theorem verifyArtifact_eq_ok {expected : List (String × FileIdentity)} {a : ArtifactDescriptor} :
    Native.verifyArtifact directory expected a = .ok () ↔
      ∃ file, expected.lookup a.path = some file.identity ∧ file.identity.size = a.bytes ∧
        Native.openRelativeRegular directory a.path = .ok file := by
  unfold Native.verifyArtifact
  rcases expected.lookup a.path with _ | identity
  · simp
  · simp only [ite_error_eq_ok, bind_eq_ok, pure_eq_ok, not_not, Option.some.injEq, and_true]
    constructor
    · rintro ⟨hsize, file, hopen, rfl⟩
      exact ⟨file, rfl, hsize, hopen⟩
    · rintro ⟨file, rfl, hsize, hopen⟩
      exact ⟨hsize, file, hopen, rfl⟩

theorem verifyArtifacts_eq_ok {m : Fields} {sessionId : String}
    (h : Native.parseDeviceSessionManifest (.object m) sessionId = .ok m)
    {ids : List (String × FileIdentity)} {out : List ArtifactDescriptor} :
    Native.verifyDeviceSessionArtifacts directory m sessionId ids = .ok out ↔
      Native.collectDeviceSessionV1Artifacts m = .ok out ∧
        (∀ item ∈ ids, Native.validateRelativeArtifactPath item.1 = .ok ()) ∧ UniqueKeys ids ∧
          ids.length = out.length ∧
            ∀ a ∈ out, ∃ file, ids.lookup a.path = some file.identity ∧ file.identity.size = a.bytes ∧
              Native.openRelativeRegular directory a.path = .ok file := by
  simp only [Native.verifyDeviceSessionArtifacts, Native.deviceSessionV1Artifacts, h, bind_eq_ok,
    expectedIdentityMap_eq_ok, ite_error_eq_ok, forM_eq_ok_iff, verifyArtifact_eq_ok, pure_eq_ok, not_not]
  have hlookup : UniqueKeys ids → ∀ path, ids.reverse.lookup path = ids.lookup path := by
    intro hunique path
    have hreverse : UniqueKeys ids.reverse := by simpa [UniqueKeys] using hunique
    exact Option.ext fun identity => by
      rw [hreverse.lookup_iff, hunique.lookup_iff, List.mem_reverse]
  constructor
  · rintro ⟨artifacts, ⟨_, ⟨⟩, hcollect⟩, _, ⟨hvalid, hunique, rfl⟩, hlength, _, hall, rfl⟩
    simp only [hlookup hunique, List.length_reverse] at hall hlength
    exact ⟨hcollect, hvalid, hunique, hlength, hall⟩
  · rintro ⟨hcollect, hvalid, hunique, hlength, hall⟩
    refine ⟨out, ⟨m, rfl, hcollect⟩, _, ⟨hvalid, hunique, rfl⟩, by simpa using hlength, (), ?_, rfl⟩
    simpa only [hlookup hunique] using hall

end Native

section Python

open Recording Downloads

variable {valid : Fields → Prop} [DecidablePred valid] {m : Fields} {sessionId : String}

theorem validatedManifest_eq_ok {m' : Fields} :
    validatedManifest valid m sessionId = .ok m' ↔
      isText (m.get "session_id") sessionId ∧
        (deviceSessionSchemas.any (isText (m.get "schema")) && Recording.isTrue (m.get "sealed")) ∧ valid m ∧ m' = m := by
  unfold validatedManifest
  by_cases h : valid m
  · simp only [ite_error_eq_ok, h, if_true, true_and, Except.ok.injEq, Bool.not_eq_true', Bool.not_eq_false, @eq_comm _ m]
  · simp only [ite_error_eq_ok, h, if_false, false_and, and_false, reduceCtorEq]

theorem parsed_of_validated (h : validatedManifest valid m sessionId = .ok m) :
    Native.parseDeviceSessionManifest (.object m) sessionId = .ok m := by
  obtain ⟨hid, hrest, -, -⟩ := validatedManifest_eq_ok.mp h
  obtain ⟨hschema, hsealed⟩ := (Bool.and_eq_true _ _).mp hrest
  obtain ⟨schema, hmem, hget⟩ := List.any_eq_true.mp hschema
  have htext : ∀ {value : Option Json} {text : String}, isText value text → value = some (.string text) := by
    intro value text h
    rw [isText_iff] at h
    obtain ⟨json, rfl, hjson⟩ := Option.bind_eq_some_iff.mp h
    cases json <;> simp_all [Native.asStr]
  have htrue : m.get "sealed" = some (.bool true) := by
    unfold Recording.isTrue at hsealed
    rcases hvalue : m.get "sealed" with _ | value
    · simp [hvalue] at hsealed
    · cases value <;> simp_all
  simp only [Native.parseDeviceSessionManifest, Native.asObject, bind_eq_ok, ite_error_eq_ok, stringField_eq_ok,
    pure_eq_ok, not_not, ne_eq]
  exact ⟨m, rfl, schema, htext hget, hmem, some true, by simp [Native.boolField, htrue], rfl, sessionId, htext hid, rfl, rfl⟩

/-- What `verify_artifact` asks of a descriptor. -/
def VerifiedArtifact (directory : Directory) (fields : Fields) (size : ℕ) : Prop :=
  ∃ path sha256 file, (fields.get "path").bind asText = some path ∧
    (fields.get "bytes").bind asInt = some (size : ℤ) ∧ (fields.get "sha256").bind asText = some sha256 ∧
      Native.validateRelativeRegularPath path = .ok () ∧ directory path = some file ∧ file.regular ∧
        file.identity.nlink = 1 ∧ size < 2 ^ 64 ∧ Api.sha256 sha256 ∧ file.identity.size = size ∧ file.sha256 = sha256

theorem artifactPathAndBytes_eq_ok {fields : Fields} {code path : String} {size : ℕ} :
    artifactPathAndBytes fields code = .ok (path, size) ↔
      (fields.get "path").bind asText = some path ∧ (fields.get "bytes").bind asInt = some (size : ℤ) := by
  unfold artifactPathAndBytes
  rcases (fields.get "path").bind asText with _ | p
  · simp
  · rcases (fields.get "bytes").bind asInt with _ | n
    · simp
    · simp only [ite_error_eq_ok, Except.ok.injEq, Prod.mk.injEq, Option.some.injEq, not_lt]
      constructor
      · rintro ⟨hn, rfl, rfl⟩
        exact ⟨rfl, (Int.toNat_of_nonneg hn).symm⟩
      · rintro ⟨rfl, rfl⟩
        exact ⟨by omega, rfl, by simp⟩

theorem verifyFd_eq_ok {file : StoredFile} {size : ℕ} {sha256 : String} :
    Native.verifyFd file size sha256 = .ok () ↔
      Api.sha256 sha256 ∧ file.regular ∧ file.identity.size = size ∧ file.sha256 = sha256 := by
  unfold Native.verifyFd
  simp only [ite_error_eq_ok, isSha256_eq, Bool.not_eq_true', Bool.not_eq_false, not_not, ne_eq, and_true]

theorem verifyArtifact_iff {directory : Directory} {fields : Fields} :
    Recording.verifyArtifact directory fields = .ok () ↔ ∃ size, VerifiedArtifact directory fields size := by
  unfold Recording.verifyArtifact
  simp only [bind_eq_ok]
  constructor
  · rintro ⟨⟨path, size⟩, hread, h⟩
    obtain ⟨hpath, hsize⟩ := artifactPathAndBytes_eq_ok.mp hread
    rcases hsha : (fields.get "sha256").bind asText with _ | sha256
    · simp [hsha] at h
    · simp only [hsha, bind_eq_ok, mapError_eq_ok, ite_error_eq_ok, openRelativeRegular_eq_ok, verifyFd_eq_ok,
        not_le] at h
      obtain ⟨file, ⟨hvalid, hfile, hregular, hlink⟩, hsmall, hdigest, -, hfsize, hfsha⟩ := h
      exact ⟨size, ⟨path, sha256, file, hpath, hsize, hsha, hvalid, hfile, hregular, hlink, hsmall, hdigest, hfsize, hfsha⟩⟩
  · rintro ⟨size, path, sha256, file, hpath, hsize, hsha, hvalid, hfile, hregular, hlink, hsmall, hdigest, hfsize, hfsha⟩
    refine ⟨(path, size), artifactPathAndBytes_eq_ok.mpr ⟨hpath, hsize⟩, ?_⟩
    simp only [hsha, bind_eq_ok, mapError_eq_ok, ite_error_eq_ok, openRelativeRegular_eq_ok, verifyFd_eq_ok, not_le]
    exact ⟨file, ⟨hvalid, hfile, hregular, hlink⟩, hsmall, hdigest, hregular, hfsize, hfsha⟩

/-- The total adds the sizes of the descriptors, all of which must have one. -/
theorem bytesTotal_eq_ok {code : String} {total : ℕ} :
    manifestArtifactBytesTotal m code = .ok total ↔
      ∃ sizes : List (String × ℕ), List.Forall₂ (fun fields item => artifactPathAndBytes fields code = .ok item)
        (manifestArtifacts m) sizes ∧ total = (sizes.map (·.2)).sum := by
  have hadd : ∀ (sizes : List (String × ℕ)) (n t : ℕ),
      sizes.foldlM (fun (s : ℕ) (item : String × ℕ) => (.ok (s + item.2) : Except DeviceRecordingError ℕ)) n = .ok t ↔
        t = n + (sizes.map (·.2)).sum := by
    intro sizes
    induction sizes with
    | nil =>
      intro n t
      simp [pure, Except.pure, eq_comm]
    | cons item sizes ih =>
      intro n t
      rw [List.foldlM_cons, bind_eq_ok]
      simp only [Except.ok.injEq, exists_eq_left', ih, List.map_cons, List.sum_cons, Nat.add_assoc]
  rw [manifestArtifactBytesTotal, foldlM_parse]
  refine exists_congr fun sizes => and_congr_right fun _ => ?_
  rw [← Nat.zero_add (sizes.map (·.2)).sum]
  exact hadd sizes 0 total

end Python

section Session

open Recording Downloads

def pathOf : Json → Option String
  | .object fields => (Fields.get fields "path").bind asText
  | _ => none

/-- The paths that a manifest declares. -/
def declaredPaths (m : Fields) : List String := ((declared m).getD []).filterMap pathOf

/-- One identity for each path. -/
def identitiesOf (directory : Directory) (paths : List String) : List (String × FileIdentity) :=
  paths.filterMap fun path => (directory path).map fun file => (path, file.identity)

/-- A file of its own that is what a descriptor says. -/
structure FileMatches (directory : Directory) (fields : Fields) (path : String) (file : StoredFile) : Prop where
  found : directory path = some file
  regular : file.regular
  single : file.identity.nlink = 1
  size : ∀ n, (fields.get "bytes").bind asInt = some n → (file.identity.size : ℤ) = n
  digest : ∀ sha256, (fields.get "sha256").bind asText = some sha256 → file.sha256 = sha256

/-- Every declared artifact has its file. -/
def FilesMatch (directory : Directory) (m : Fields) : Prop :=
  ∀ raws, declared m = some raws → ∀ fields, .object fields ∈ raws → ∀ path,
    (Fields.get fields "path").bind asText = some path → ∃ file, FileMatches directory fields path file

/-- The artifacts in the two objects that the schemas leave open. -/
def extensionArtifacts (m : Fields) : List Fields :=
  ((m.get "capture_audit").elim [] collect) ++ (((object? (m.get "audio")).bind (·.get "capture_clock")).elim [] collect)

/-- What the schemas say: all other objects are closed, so that an artifact id stands in the declared
artifacts and nowhere else; and the keys of the snapshot are there. -/
structure SchemaCloses (valid : Fields → Prop) : Prop where
  closed : ∀ m, valid m → ∃ raws : List Fields, declared m = some (raws.map .object) ∧
    (manifestArtifacts m).Perm (raws ++ extensionArtifacts m)
  named : ∀ m, valid m → (m.get "manifest_id").isSome ∧ (m.get "volume_id").isSome ∧ (m.get "sealed_at").isSome

/-- The directory after the seal. -/
def sealedDirectory (directory : Directory) : Directory := fun path =>
  if path ∈ Native.defaultControlNames then none else directory path

/-- The seal accepts the session and goes through every declared path, the sealed session verifies
without an error, and the two totals are equal. -/
structure OrdinarySession (valid : Fields → Prop) [DecidablePred valid] (directory : Directory) (m : Fields)
    (sessionId : String) : Prop where
  accepted : ∃ final artifacts,
    Native.sealDeviceSession directory false m sessionId (identitiesOf directory (declaredPaths m))
        Native.defaultControlNames = .ok (final, artifacts) ∧
      (∀ path ∈ declaredPaths m, path ∈ artifacts.map (·.path)) ∧
        ∃ snapshot, verifyExactSessionPayload valid final m sessionId = .ok (snapshot, none)
  totals : ∃ total, summaryTotalBytes m = .ok total ∧ manifestArtifactBytesTotal m "manifest_invalid" = .ok total

/-- Both readers take the manifest, every identity stands once, no path is one of the control files
that the seal removes, and what the open objects call an artifact is an empty file. -/
def SingleContents (directory : Directory) (m : Fields) : Prop :=
  ∃ raws ds, Inventory m raws ds ∧ ¬DeviceFault m raws ds ∧ ¬ServerFault ds ∧ (ds.map (·.artifactId)).Nodup ∧
    (∀ d ∈ ds, d.path ∉ Native.defaultControlNames) ∧
      ∀ fields ∈ extensionArtifacts m, VerifiedArtifact (sealedDirectory directory) fields 0

theorem identitiesOf_keys {directory : Directory} {paths : List String} (h : ∀ path ∈ paths, (directory path).isSome) :
    (identitiesOf directory paths).map (·.1) = paths := by
  induction paths with
  | nil => rfl
  | cons path paths ih =>
    obtain ⟨hpath, hrest⟩ := List.forall_mem_cons.mp h
    obtain ⟨file, hfile⟩ := Option.isSome_iff_exists.mp hpath
    have hcons : identitiesOf directory (path :: paths) = (path, file.identity) :: identitiesOf directory paths := by
      simp [identitiesOf, hfile]
    rw [hcons, List.map_cons, ih hrest]

variable {d : ArtifactDescriptor} {fields : Fields} {ds : List ArtifactDescriptor} {raws : List Fields}

theorem Describes.pathText (h : Describes fields d) :
    (fields.get "path").bind asText = some d.path := asText_eq_some.mpr h.path

theorem Inventory.paths {m : Fields} (h : Inventory m raws ds) : declaredPaths m = ds.map (·.path) := by
  have hgen : ∀ {raws : List Fields} {ds : List ArtifactDescriptor}, List.Forall₂ Describes raws ds →
      (raws.map Json.object).filterMap pathOf = ds.map (·.path) := by
    intro raws ds hall
    induction hall with
    | nil => rfl
    | cons hd _ ih =>
      rw [List.map_cons, List.filterMap_cons_some (show pathOf (.object _) = some _ from hd.pathText), ih, List.map_cons]
  rw [declaredPaths, h.declared, Option.getD_some, hgen h.describes]

/-- The file of a descriptor. -/
theorem Inventory.file {directory : Directory} {m : Fields}
    (h : Inventory m raws ds) (hfiles : FilesMatch directory m) (hd : d ∈ ds) :
    ∃ file, directory d.path = some file ∧ file.regular ∧ file.identity.nlink = 1 ∧ file.identity.size = d.bytes ∧
      file.sha256 = d.sha256 := by
  obtain ⟨fields, hfields, hdesc⟩ := exists_of_forall₂ h.describes hd
  obtain ⟨file, hfile⟩ := hfiles _ h.declared fields (List.mem_map_of_mem hfields) d.path hdesc.pathText
  exact ⟨file, hfile.found, hfile.regular, hfile.single, by exact_mod_cast hfile.size _ hdesc.size,
    hfile.digest _ (asText_eq_some.mpr hdesc.sha256)⟩

section Verification

variable {valid : Fields → Prop} [DecidablePred valid] {directory : Directory} {m : Fields} {sessionId : String}

theorem validateDirectory_eq_ok (haccepted : validatedManifest valid m sessionId = .ok m) {m' : Fields} :
    validateDeviceSessionDirectory valid directory m sessionId = .ok m' ↔
      (∀ fields ∈ manifestArtifacts m, ∃ size, VerifiedArtifact directory fields size) ∧ m' = m := by
  simp only [validateDeviceSessionDirectory, haccepted, bind_eq_ok, mapError_eq_ok, forM_eq_ok_iff, verifyArtifact_iff,
    pure_eq_ok]
  constructor
  · rintro ⟨_, ⟨⟩, _, hall, rfl⟩
    exact ⟨hall, rfl⟩
  · rintro ⟨hall, rfl⟩
    exact ⟨m', rfl, (), hall, rfl⟩

theorem exists_snapshot_iff (haccepted : validatedManifest valid m sessionId = .ok m)
    (hnamed : (m.get "manifest_id").isSome ∧ (m.get "volume_id").isSome ∧ (m.get "sealed_at").isSome) :
    (∃ s, snapshot valid directory m sessionId = .ok s) ↔
      ∃ out, artifactDescriptors m = .ok out ∧
        ∀ d ∈ out, ∃ file, Native.openRelativeRegular directory d.path = .ok file ∧ file.identity.size = d.bytes := by
  obtain ⟨manifestId, hid⟩ := Option.isSome_iff_exists.mp hnamed.1
  obtain ⟨volumeId, hvolume⟩ := Option.isSome_iff_exists.mp hnamed.2.1
  obtain ⟨sealedAt, hsealed⟩ := Option.isSome_iff_exists.mp hnamed.2.2
  simp only [snapshot, hid, hvolume, hsealed, bind_eq_ok, mapError_eq_ok, pure_eq_ok, snapshotVerifiedIdentities,
    haccepted]
  constructor
  · rintro ⟨_, identities, ⟨_, ⟨⟩, out, hout, hall⟩, -⟩
    refine ⟨out, hout, fun d hd => ?_⟩
    obtain ⟨item, hitem⟩ := exists_mapM_eq_ok.mp ⟨identities, hall⟩ d hd
    simp only [bind_eq_ok, mapError_eq_ok, ite_error_eq_ok, not_not] at hitem
    obtain ⟨file, hfile, hsize, -⟩ := hitem
    exact ⟨file, hfile, hsize⟩
  · rintro ⟨out, hout, hall⟩
    obtain ⟨identities, hidentities⟩ : ∃ identities, out.mapM (fun selected => do
        let file ← (Native.openRelativeRegular directory selected.path).mapError fun _ =>
          notVerified "manifest 声明的 artifact 不存在或不安全"
        if file.identity.size ≠ selected.bytes then .error (notVerified "artifact 大小与 manifest 不一致")
        else return (selected.artifactId, file.identity)) = .ok identities := by
      refine exists_mapM_eq_ok.mpr fun d hd => ?_
      obtain ⟨file, hfile, hsize⟩ := hall d hd
      refine ⟨(d.artifactId, file.identity), ?_⟩
      simp only [bind_eq_ok, mapError_eq_ok, ite_error_eq_ok, not_not, pure_eq_ok]
      exact ⟨file, hfile, hsize, rfl⟩
    exact ⟨_, identities, ⟨m, rfl, out, hout, hidentities⟩, rfl⟩

/-- Identities that stand once pass the coordinator's check. -/
theorem checkArtifactIds_ok (h : List.Forall₂ Describes raws ds) (hnodup : (ds.map (·.artifactId)).Nodup) :
    ∃ seen, checkArtifactIds (raws.map .object) = .ok seen := by
  have hgen : ∀ seen : List String, (∀ d ∈ ds, d.artifactId ∉ seen) → ∃ seen', (raws.map Json.object).foldlM
      (fun seen descriptor => checkArtifactId seen descriptor) seen = .ok seen' := by
    induction h with
    | nil => exact fun seen _ => ⟨seen, rfl⟩
    | @cons fields d raws ds hd _ ih =>
      intro seen hfresh
      obtain ⟨hnew, hrest⟩ := List.nodup_cons.mp hnodup
      obtain ⟨hd', hds⟩ := List.forall_mem_cons.mp hfresh
      obtain ⟨seen', hseen'⟩ := ih hrest (d.artifactId :: seen) fun e he => by
        simp only [List.mem_cons, not_or]
        exact ⟨fun heq => hnew (List.mem_map.mpr ⟨e, he, heq⟩), hds e he⟩
      refine ⟨seen', ?_⟩
      rw [List.map_cons, List.foldlM_cons, bind_eq_ok]
      refine ⟨_, ?_, hseen'⟩
      simp only [checkArtifactId, asText_eq_some.mpr hd.artifactId, if_neg hd']
  exact hgen [] fun d _ => List.not_mem_nil

theorem keepDigestError_eq_none {validated : Except DeviceRecordingError Fields} :
    keepDigestError validated = .ok none ↔ ∃ m', validated = .ok m' := by
  rcases validated with e | m'
  · by_cases h : e.code = "digest_mismatch" <;> simp [keepDigestError, h]
  · simp [keepDigestError]

/-- The verification succeeds without an error exactly if the snapshot can be taken, the identities
pass and every artifact in the manifest verifies. -/
theorem verifyExact_ok_iff (haccepted : validatedManifest valid m sessionId = .ok m) :
    (∃ s, verifyExactSessionPayload valid directory m sessionId = .ok (s, none)) ↔
      (∃ raws seen, iterDeviceSessionV1Artifacts m = .ok raws ∧ checkArtifactIds raws = .ok seen) ∧
        (∃ s, snapshot valid directory m sessionId = .ok s) ∧
          ∀ fields ∈ manifestArtifacts m, ∃ size, VerifiedArtifact directory fields size := by
  simp only [verifyExactSessionPayload, bind_eq_ok, mapError_eq_ok, ite_error_eq_ok, pure_eq_ok]
  constructor
  · rintro ⟨s, raws, hraws, seen, hseen, before, hbefore, error, herror, after, hafter, hsame, heq⟩
    cases heq
    obtain ⟨m', hdir⟩ := keepDigestError_eq_none.mp herror
    exact ⟨⟨raws, seen, hraws, hseen⟩, ⟨before, hbefore⟩, ((validateDirectory_eq_ok haccepted).mp hdir).1⟩
  · rintro ⟨⟨raws, seen, hraws, hseen⟩, ⟨s, hs⟩, hall⟩
    have hdir := (validateDirectory_eq_ok haccepted).mpr ⟨hall, rfl⟩
    exact ⟨s, raws, hraws, seen, hseen, s, hs, none, keepDigestError_eq_none.mpr ⟨m, hdir⟩, s, hs, by simp, rfl⟩

end Verification

/-- The size that a descriptor states. -/
def statedSize (fields : Fields) : ℕ := ((fields.get "bytes").bind asInt).elim 0 Int.toNat

theorem Describes.statedSize (h : Describes fields d) : statedSize fields = d.bytes := by
  simp [Artifact.statedSize, h.size]

theorem stated_sum (h : List.Forall₂ Describes raws ds) : (raws.map statedSize).sum = (ds.map (·.bytes)).sum := by
  induction h with
  | nil => rfl
  | cons hd _ ih => rw [List.map_cons, List.sum_cons, hd.statedSize, ih, List.map_cons, List.sum_cons]

/-- The total is the sum of the stated sizes, if every artifact has a path and a size. -/
theorem bytesTotal_iff {m : Fields} {code : String} {total : ℕ} :
    manifestArtifactBytesTotal m code = .ok total ↔
      (∀ fields ∈ manifestArtifacts m, ∃ item, artifactPathAndBytes fields code = .ok item) ∧
        total = ((manifestArtifacts m).map statedSize).sum := by
  rw [bytesTotal_eq_ok]
  have hgen : ∀ {fs : List Fields} {sizes : List (String × ℕ)},
      List.Forall₂ (fun fields item => artifactPathAndBytes fields code = .ok item) fs sizes →
        sizes.map (·.2) = fs.map statedSize := by
    intro fs sizes h
    induction h with
    | nil => rfl
    | @cons fields item fs sizes hitem _ ih =>
      obtain ⟨path, size⟩ := item
      have hsize := (artifactPathAndBytes_eq_ok.mp hitem).2
      simp [statedSize, hsize, ih]
  constructor
  · rintro ⟨sizes, hall, rfl⟩
    rw [hgen hall]
    refine ⟨fun fields hfields => ?_, rfl⟩
    obtain ⟨item, -, hitem⟩ := exists_of_forall₂ hall.flip hfields
    exact ⟨item, hitem⟩
  · rintro ⟨hall, rfl⟩
    obtain ⟨sizes, hsizes⟩ := exists_forall₂ hall
    exact ⟨sizes, hsizes, by rw [hgen hsizes]⟩

variable {valid : Fields → Prop} [DecidablePred valid] {directory : Directory} {m : Fields} {sessionId : String}

variable {out : List ArtifactDescriptor}

/-- The seal verifies the same artifacts before and after the control files go. -/
theorem seal_eq_ok {ids : List (String × FileIdentity)} {final : Directory} :
    Native.sealDeviceSession directory false m sessionId ids Native.defaultControlNames = .ok (final, out) ↔
      final = sealedDirectory directory ∧
        (∃ before, Native.verifyDeviceSessionArtifacts directory m sessionId ids = .ok before) ∧
          Native.verifyDeviceSessionArtifacts (sealedDirectory directory) m sessionId ids = .ok out := by
  have hnames : Native.defaultControlNames.forM Native.validateControlName = .ok () := by decide +kernel
  simp only [Native.sealDeviceSession, Bool.false_eq_true, if_false, bind_eq_ok, pure_eq_ok, Prod.mk.injEq]
  constructor
  · rintro ⟨before, hbefore, _, -, artifacts, hartifacts, rfl, rfl⟩
    exact ⟨rfl, ⟨before, hbefore⟩, hartifacts⟩
  · rintro ⟨rfl, ⟨before, hbefore⟩, hout⟩
    exact ⟨before, hbefore, (), hnames, out, hout, rfl, rfl⟩

theorem Inventory.merged_of_nodup (h : Inventory m raws ds)
    (hnodup : (ds.map (·.artifactId)).Nodup) : Merged ds ds := by
  obtain ⟨out, ⟨s, hs, rfl⟩, hne⟩ := h.merged
  have heq := (insertAll_values hs).2.2 hnodup
  exact ⟨⟨s, hs, heq⟩, heq ▸ hne⟩

theorem Merged.eq_of_nodup (h : Merged ds out) (hnodup : (ds.map (·.artifactId)).Nodup) : out = ds := by
  obtain ⟨⟨s, hs, rfl⟩, -⟩ := h
  exact (insertAll_values hs).2.2 hnodup

theorem Inventory.path_ok (h : Inventory m raws ds) (hfault : ¬DeviceFault m raws ds) (hd : d ∈ ds) :
    Native.validateRelativeArtifactPath d.path = .ok () := by
  obtain ⟨fields, -, hdesc⟩ := exists_of_forall₂ h.describes hd
  exact (native_path_iff d.path).mpr ⟨hdesc.shared, fun hbad => hfault (.inr (.inr ⟨d, hd, hbad⟩))⟩

theorem regular_of_artifact_path {path : String} (h : Native.validateRelativeArtifactPath path = .ok ()) :
    Native.validateRelativeRegularPath path = .ok () := (bind_eq_ok.mp h).elim fun _ hpath => hpath.1

/-- A declared artifact opens in the sealed directory, unless its path is a control file. -/
theorem Inventory.opens (h : Inventory m raws ds)
    (hfiles : FilesMatch directory m) (hfault : ¬DeviceFault m raws ds) (hd : d ∈ ds)
    (hcontrol : d.path ∉ Native.defaultControlNames) :
    ∃ file, directory d.path = some file ∧ file.identity.size = d.bytes ∧ file.sha256 = d.sha256 ∧
      Native.openRelativeRegular directory d.path = .ok file ∧
        Native.openRelativeRegular (sealedDirectory directory) d.path = .ok file := by
  obtain ⟨file, hfile, hregular, hlink, hsize, hdigest⟩ := h.file hfiles hd
  have hpath := regular_of_artifact_path (h.path_ok hfault hd)
  have hsealed : sealedDirectory directory d.path = some file := by rw [sealedDirectory, if_neg hcontrol, hfile]
  exact ⟨file, hfile, hsize, hdigest, openRelativeRegular_eq_ok.mpr ⟨hpath, hfile, hregular, hlink⟩,
    openRelativeRegular_eq_ok.mpr ⟨hpath, hsealed, hregular, hlink⟩⟩

/-- The expected identities of a session: one for each artifact, found under its path. -/
theorem Inventory.identities (h : Inventory m raws ds) (hfiles : FilesMatch directory m) :
    (identitiesOf directory (declaredPaths m)).map (·.1) = ds.map (·.path) ∧
      UniqueKeys (identitiesOf directory (declaredPaths m)) ∧ ∀ d ∈ ds, ∀ file, directory d.path = some file →
          (identitiesOf directory (declaredPaths m)).lookup d.path = some file.identity := by
  have hkeys : (identitiesOf directory (declaredPaths m)).map (·.1) = ds.map (·.path) := by
    rw [h.paths]
    refine identitiesOf_keys fun path hpath => ?_
    obtain ⟨d, hd, rfl⟩ := List.mem_map.mp hpath
    obtain ⟨file, hfile, -⟩ := h.file hfiles hd
    exact Option.isSome_iff_exists.mpr ⟨file, hfile⟩
  have hunique : UniqueKeys (identitiesOf directory (declaredPaths m)) := by
    rw [UniqueKeys, hkeys]
    exact h.mergeable.paths
  refine ⟨hkeys, hunique, fun d hd file hfile => hunique.lookup_iff.mpr ?_⟩
  refine List.mem_filterMap.mpr ⟨d.path, ?_, by rw [hfile, Option.map_some]⟩
  rw [h.paths]
  exact List.mem_map_of_mem hd

/-- The seal of a session that the device reads: identities stand once and no path goes. -/
theorem Inventory.seal_iff (h : Inventory m raws ds)
    (hparsed : Native.parseDeviceSessionManifest (.object m) sessionId = .ok m) (hfiles : FilesMatch directory m)
    (hfault : ¬DeviceFault m raws ds) {final : Directory} :
    Native.sealDeviceSession directory false m sessionId (identitiesOf directory (declaredPaths m))
        Native.defaultControlNames = .ok (final, out) ↔
      final = sealedDirectory directory ∧ out = ds ∧ (ds.map (·.artifactId)).Nodup ∧
        ∀ d ∈ ds, d.path ∉ Native.defaultControlNames := by
  obtain ⟨hkeys, hunique, hlookup⟩ := h.identities hfiles
  have hlength : (identitiesOf directory (declaredPaths m)).length = ds.length := by
    rw [← List.length_map (·.1), hkeys, List.length_map]
  have hvalid : ∀ item ∈ identitiesOf directory (declaredPaths m),
      Native.validateRelativeArtifactPath item.1 = .ok () := by
    intro item hitem
    have hmem : item.1 ∈ ds.map (·.path) := hkeys ▸ List.mem_map_of_mem hitem
    obtain ⟨d, hd, heq⟩ := List.mem_map.mp hmem
    exact heq ▸ h.path_ok hfault hd
  simp only [seal_eq_ok, verifyArtifacts_eq_ok hparsed]
  refine and_congr_right fun _ => ⟨?_, ?_⟩
  · rintro ⟨-, hcollect, -, -, hsame, hall⟩
    obtain ⟨raws', ds', hinv', -, hmerged⟩ := (native_iff m out).mp hcollect
    obtain ⟨-, rfl⟩ := h.unique hinv'
    have hnodup : (ds.map (·.artifactId)).Nodup := by
      obtain ⟨⟨s, hs, rfl⟩, -⟩ := hmerged
      exact (insertAll_length hs).mp (hsame.symm.trans hlength)
    obtain rfl := hmerged.eq_of_nodup hnodup
    refine ⟨rfl, hnodup, fun d hd hcontrol => ?_⟩
    obtain ⟨file, -, -, hopen⟩ := hall d hd
    have hfound := (openRelativeRegular_eq_ok.mp hopen).2.1
    rw [sealedDirectory, if_pos hcontrol] at hfound
    cases hfound
  · rintro ⟨rfl, hnodup, hcontrol⟩
    have hcollect := (native_iff m out).mpr ⟨raws, out, h, hfault, h.merged_of_nodup hnodup⟩
    refine ⟨⟨out, hcollect, hvalid, hunique, hlength, fun d hd => ?_⟩, hcollect, hvalid, hunique, hlength, fun d hd => ?_⟩
    · obtain ⟨file, hfile, hsize, -, hopen, -⟩ := h.opens hfiles hfault hd (hcontrol d hd)
      exact ⟨file, hlookup d hd file hfile, hsize, hopen⟩
    · obtain ⟨file, hfile, hsize, -, -, hopen⟩ := h.opens hfiles hfault hd (hcontrol d hd)
      exact ⟨file, hlookup d hd file hfile, hsize, hopen⟩

/-- A declared artifact verifies in the sealed directory. -/
theorem Inventory.verified (h : Inventory m raws ds)
    (hfiles : FilesMatch directory m) (hfault : ¬DeviceFault m raws ds)
    (hcontrol : ∀ d ∈ ds, d.path ∉ Native.defaultControlNames) (hfields : fields ∈ raws) :
    ∃ size, VerifiedArtifact (sealedDirectory directory) fields size := by
  obtain ⟨d, hd, hdesc⟩ := exists_of_forall₂ h.describes.flip hfields
  obtain ⟨file, -, hsize, hdigest, -, hopen⟩ := h.opens hfiles hfault hd (hcontrol d hd)
  obtain ⟨hpath, hfound, hregular, hlink⟩ := openRelativeRegular_eq_ok.mp hopen
  have hsmall : d.bytes < 2 ^ 64 := by
    have hread : ¬SizeFault fields := fun hbad => hfault (.inr (.inl ⟨fields, hfields, hbad⟩))
    obtain ⟨n, hn⟩ := Option.ne_none_iff_exists'.mp hread
    obtain ⟨value, hvalue, hu64⟩ := Option.bind_eq_some_iff.mp hn
    have hint := hdesc.size
    rw [hvalue, Option.bind_some, asInt_of_asU64 hu64, Option.some.injEq, Int.natCast_inj] at hint
    exact hint ▸ asU64_lt hu64
  exact ⟨d.bytes, d.path, d.sha256, file, hdesc.pathText, hdesc.size, asText_eq_some.mpr hdesc.sha256, hpath, hfound,
    hregular, hlink, hsmall, hdesc.identity ▸ hdesc.digest, hsize, hdigest⟩

/-- A manifest describes an ordinary session exactly if it satisfies `SingleContents`. -/
theorem repeated_content_ordinary_iff (hschema : SchemaCloses valid)
    (haccepted : validatedManifest valid m sessionId = .ok m) (hfiles : FilesMatch directory m) :
    OrdinarySession valid directory m sessionId ↔ SingleContents directory m := by
  have hvalid := (validatedManifest_eq_ok.mp haccepted).2.2.1
  have hparsed := parsed_of_validated haccepted
  have hschemaKey := schema_of_parsed hparsed
  obtain ⟨raws', hdeclared, hperm⟩ := hschema.closed m hvalid
  constructor
  · rintro ⟨⟨final, out, hseal, -, hverify⟩, total, hsummary, htotal⟩
    obtain ⟨raws, ds, hinv, hfault, -⟩ := (native_iff m out).mp
      ((verifyArtifacts_eq_ok hparsed).mp (seal_eq_ok.mp hseal).2.2).1
    obtain ⟨rfl, -, hnodup, hcontrol⟩ := (hinv.seal_iff hparsed hfiles hfault).mp hseal
    obtain ⟨-, hsnapshot, hall⟩ := (verifyExact_ok_iff haccepted).mp hverify
    obtain ⟨out', hout', -⟩ := (exists_snapshot_iff haccepted (hschema.named m hvalid)).mp hsnapshot
    obtain ⟨raws₂, ds₂, hinv₂, hserver, hmerged⟩ := (python_iff hschemaKey out').mp hout'
    obtain ⟨-, rfl⟩ := hinv.unique hinv₂
    obtain rfl := hmerged.eq_of_nodup hnodup
    have hraws : raws' = raws := List.map_injective_iff.mpr (fun _ _ => Json.object.inj)
      (Option.some.inj (hdeclared.symm.trans hinv.declared))
    subst hraws
    have hsum : ((extensionArtifacts m).map statedSize).sum = 0 := by
      have hds : total = (out'.map (·.bytes)).sum := by
        obtain ⟨out'', hdescriptors, htotal''⟩ := bind_eq_ok.mp hsummary
        rw [hout'] at hdescriptors
        cases hdescriptors
        exact pure_eq_ok.mp htotal''
      have hboth := (bytesTotal_iff.mp htotal).2
      rw [(hperm.map statedSize).sum_eq, List.map_append, List.sum_append, stated_sum hinv.describes, ← hds] at hboth
      omega
    refine ⟨raws', out', hinv, hfault, hserver, hnodup, hcontrol, fun fields hfields => ?_⟩
    obtain ⟨size, hsize⟩ := hall fields (hperm.symm.subset (List.mem_append_right _ hfields))
    have hzero : statedSize fields = 0 := List.sum_eq_zero_iff_forall_eq_nat.mp hsum _ (List.mem_map_of_mem hfields)
    have hstated : statedSize fields = size := by
      obtain ⟨-, -, -, -, hbytes, -⟩ := hsize
      simp [statedSize, hbytes]
    exact hstated.symm.trans hzero ▸ hsize
  · rintro ⟨raws, ds, hinv, hfault, hserver, hnodup, hcontrol, hext⟩
    have hraws : raws' = raws := List.map_injective_iff.mpr (fun _ _ => Json.object.inj)
      (Option.some.inj (hdeclared.symm.trans hinv.declared))
    subst hraws
    have hout := (python_iff hschemaKey ds).mpr ⟨raws', ds, hinv, hserver, hinv.merged_of_nodup hnodup⟩
    have hall : ∀ fields ∈ manifestArtifacts m, ∃ size, VerifiedArtifact (sealedDirectory directory) fields size := by
      intro fields hfields
      rcases List.mem_append.mp (hperm.subset hfields) with h | h
      · exact hinv.verified hfiles hfault hcontrol h
      · exact ⟨0, hext fields h⟩
    refine ⟨⟨_, ds, (hinv.seal_iff hparsed hfiles hfault).mpr ⟨rfl, rfl, hnodup, hcontrol⟩, ?_, ?_⟩, ?_⟩
    · rw [hinv.paths]
      exact fun path hpath => hpath
    · obtain ⟨seen, hseen⟩ := checkArtifactIds_ok hinv.describes hnodup
      refine (verifyExact_ok_iff haccepted).mpr ⟨⟨_, seen, (iter_reads m _).mpr hinv.declared, hseen⟩, ?_, hall⟩
      refine (exists_snapshot_iff haccepted (hschema.named m hvalid)).mpr ⟨ds, hout, fun d hd => ?_⟩
      obtain ⟨file, -, hsize, -, -, hopen⟩ := hinv.opens hfiles hfault hd (hcontrol d hd)
      exact ⟨file, hopen, hsize⟩
    · refine ⟨(ds.map (·.bytes)).sum, bind_eq_ok.mpr ⟨ds, hout, rfl⟩, bytesTotal_iff.mpr ⟨fun fields hfields => ?_, ?_⟩⟩
      · obtain ⟨size, path, -, -, hpath, hbytes, -⟩ := hall fields hfields
        exact ⟨(path, size), artifactPathAndBytes_eq_ok.mpr ⟨hpath, hbytes⟩⟩
      · have hzero : ((extensionArtifacts m).map statedSize).sum = 0 := by
          refine List.sum_eq_zero_iff_forall_eq_nat.mpr fun n hn => ?_
          obtain ⟨fields, hfields, rfl⟩ := List.mem_map.mp hn
          obtain ⟨-, -, -, -, hbytes, -⟩ := hext fields hfields
          simp [statedSize, hbytes]
        rw [(hperm.map statedSize).sum_eq, List.map_append, List.sum_append, stated_sum hinv.describes, hzero,
          Nat.add_zero]

/-- The check of `FilesMatch`, one descriptor at a time. -/
def fileChecked (directory : Directory) (fields : Fields) : Bool :=
  match (fields.get "path").bind asText with
  | none => true
  | some path =>
    match directory path with
    | none => false
    | some file =>
      file.regular && file.identity.nlink = 1 &&
        ((fields.get "bytes").bind asInt).all (fun n => (file.identity.size : ℤ) = n) &&
          ((fields.get "sha256").bind asText).all fun sha256 => file.sha256 = sha256

theorem filesMatch_of_checked
    (hdeclared : declared m = some (raws.map .object)) (h : raws.all (fileChecked directory)) :
    FilesMatch directory m := by
  intro xs hxs fields hmem path hpath
  rw [hdeclared, Option.some.injEq] at hxs
  subst hxs
  obtain ⟨other, hother, heq⟩ := List.mem_map.mp hmem
  cases heq
  have hfields := List.all_eq_true.mp h fields hother
  unfold fileChecked at hfields
  rw [hpath] at hfields
  rcases hfile : directory path with _ | file
  · simp [hfile] at hfields
  · simp only [hfile, Bool.and_eq_true, decide_eq_true_eq, Option.all_eq_true] at hfields
    exact ⟨file, hfile, hfields.1.1.1, hfields.1.1.2, hfields.1.2, hfields.2⟩

section Sample

def sessionSampleId : String := "eeeeeeee-0000-7000-8000-000000000000"

/-- A session of one second with the given logs. -/
def sessionSample (logs : List Json) : Fields :=
  let uuid (digit : Char) (version : String) := Json.string
    (String.ofList (List.replicate 8 digit) ++ "-0000-" ++ version ++ "000-8000-000000000000")
  let instant (second : String) := Json.string ("2026-03-29T10:00:" ++ second ++ "Z")
  let int (n : ℕ) := Json.number false n false
  [("schema", .string "ylx.device-session.v4"), ("manifest_id", uuid 'a' "7"), ("sealed", .bool true),
    ("sealed_at", instant "09"), ("session_id", .string sessionSampleId), ("volume_id", uuid 'b' "4"),
    ("capture_mode", .string "production"), ("display_name", .string "demo"),
    ("device", .object [("device_id", uuid 'c' "4"), ("device_label", .string "YLX-00000001"),
      ("hardware_fingerprint", .string ("sha256:" ++ String.ofList (List.replicate 64 '1'))),
      ("platform", .string "rdk-x5"), ("software_version", .string "1.0"),
      ("commit", .string (String.ofList (List.replicate 40 '2')))]),
    ("time", .object [("started_at", instant "00"), ("ended_at", instant "01"), ("timezone", .string "Asia/Shanghai"),
      ("duration_seconds", int 1)]),
    ("take", .object [("take_id", uuid 'd' "7"), ("sequence", int 1), ("continuation_of", .null)]),
    ("camera", .object [("width", int 3840), ("height", int 1080), ("eye_width", int 1920), ("sensor_fps", int 30),
      ("frame_decimation", int 1), ("effective_fps", int 30), ("coordinate_frame", .string "opencv_optical")]),
    ("video", .object [("layout", .string "split-eyes"), ("codec", .string "h264"), ("container", .string "mp4"),
      ("segments", .array [.object [("index", int 0), ("start_frame", int 0), ("end_frame", int 30),
        ("start_time_seconds", int 0), ("end_time_seconds", int 1),
        ("artifacts", .object [("left", descriptorSample '3' "video.left" "video/left-0.mp4" "video/mp4" 9),
          ("right", descriptorSample '4' "video.right" "video/right-0.mp4" "video/mp4" 9)])]]),
      ("encoding", .object [("schema", .string "openaria.recording-encoding.v1"), ("codec", .string "h264"),
        ("rate_control", .string "fixqp"), ("profile", .string "high"), ("pixel_format", .string "yuv420p"),
        ("bit_depth", int 8), ("b_frames", int 0), ("bitrate_kbps", .null), ("min_qp", .null), ("max_qp", .null),
        ("intra_qp", int 20), ("initial_qp", int 20), ("gop_frames", int 30), ("vbv_ms", .null)])]),
    ("frames", .object [("artifact", descriptorSample '5' "frames.index" "frames.ndjson" "application/x-ndjson" 4),
      ("count", int 30)]),
    ("imu", .object [("artifact", descriptorSample '6' "imu.samples" "imu.ndjson" "application/x-ndjson" 4),
      ("sample_count", int 2), ("units", .string "raw_int16"), ("coordinate_frame", .string "raw_device_axes")]),
    ("audio", .object [("state", .string "not_recorded"), ("requested_mode", .string "disabled"),
      ("resolved_mode", .string "disabled"), ("reason", .string "user_disabled")]),
    ("logs", .array logs),
    ("integrity", .object [("verified_at", instant "05"), ("dropped_frames", int 0), ("drop_events", .array []),
      ("fatal_errors", .array [])])]

/-- The files of the session, with two logs of one content. -/
def filesSample : Directory := fun path =>
  let file (inode size : ℕ) (digit : Char) : StoredFile :=
    ⟨⟨1, inode, size, 0, 1⟩, true, String.ofList (List.replicate 64 digit)⟩
  [("video/left-0.mp4", file 1 9 '3'), ("video/right-0.mp4", file 2 9 '4'), ("frames.ndjson", file 3 4 '5'),
    ("imu.ndjson", file 4 4 '6'), ("logs/a.log", file 5 1 '7'), ("logs/b.log", file 6 1 '7')].lookup path

def logSample (path : String) : Json := descriptorSample '7' "log.device" path "text/plain" 1

def twoLogs : Fields := sessionSample [logSample "logs/a.log", logSample "logs/b.log"]

def oneLog : Fields := sessionSample [logSample "logs/a.log"]

theorem schemaCloses_single (hdeclared : declared m = some (raws.map .object))
    (hraws : manifestArtifacts m = raws ++ extensionArtifacts m)
    (hnamed : (m.get "manifest_id").isSome ∧ (m.get "volume_id").isSome ∧ (m.get "sealed_at").isSome) :
    SchemaCloses (· = m) := by
  constructor
  · rintro _ rfl
    exact ⟨raws, hdeclared, .of_eq hraws⟩
  · rintro _ rfl
    exact hnamed

open Classical in
/-- Two logs of one content: the seal finds six expected identities and five artifacts. -/
theorem repeated_log_refused :
    SchemaCloses (· = twoLogs) ∧ validatedManifest (· = twoLogs) twoLogs sessionSampleId = .ok twoLogs ∧
      (declaredPaths twoLogs).Nodup ∧ FilesMatch filesSample twoLogs ∧
        ¬OrdinarySession (· = twoLogs) filesSample twoLogs sessionSampleId := by
  have hdeclared : declared twoLogs = some ((manifestArtifacts twoLogs).map .object) := rfl
  have haccepted : validatedManifest (· = twoLogs) twoLogs sessionSampleId = .ok twoLogs :=
    validatedManifest_eq_ok.mpr ⟨by decide +kernel, by decide +kernel, rfl, rfl⟩
  refine ⟨schemaCloses_single hdeclared rfl ⟨rfl, rfl, rfl⟩, haccepted, by decide +kernel,
    filesMatch_of_checked hdeclared (by decide +kernel), fun h => ?_⟩
  obtain ⟨final, out, hseal, -⟩ := h.accepted
  obtain ⟨before, hbefore⟩ := (seal_eq_ok.mp hseal).2.1
  have hrefused : ¬(Native.verifyDeviceSessionArtifacts filesSample twoLogs sessionSampleId
      (identitiesOf filesSample (declaredPaths twoLogs))).isOk := by decide +kernel
  rw [hbefore] at hrefused
  exact hrefused rfl

open Classical in
/-- With one log the seal, the verification and the totals agree. -/
theorem repeated_content_ordinary_sample :
    SchemaCloses (· = oneLog) ∧ validatedManifest (· = oneLog) oneLog sessionSampleId = .ok oneLog ∧
      FilesMatch filesSample oneLog ∧ SingleContents filesSample oneLog ∧
        OrdinarySession (· = oneLog) filesSample oneLog sessionSampleId := by
  have hdeclared : declared oneLog = some ((manifestArtifacts oneLog).map .object) := rfl
  have hschema : SchemaCloses (· = oneLog) := schemaCloses_single hdeclared rfl ⟨rfl, rfl, rfl⟩
  have haccepted : validatedManifest (· = oneLog) oneLog sessionSampleId = .ok oneLog :=
    validatedManifest_eq_ok.mpr ⟨by decide +kernel, by decide +kernel, rfl, rfl⟩
  have hparsed := parsed_of_validated haccepted
  have hfiles : FilesMatch filesSample oneLog := filesMatch_of_checked hdeclared (by decide +kernel)
  obtain ⟨⟨final, out⟩, hseal⟩ := exists_of_isOk (show (Native.sealDeviceSession filesSample false oneLog sessionSampleId
    (identitiesOf filesSample (declaredPaths oneLog)) Native.defaultControlNames).isOk by decide +kernel)
  obtain ⟨out', hout'⟩ := exists_of_isOk (show (Downloads.artifactDescriptors oneLog).isOk by decide +kernel)
  obtain ⟨raws, ds, hinv, hfault, -⟩ := (native_iff oneLog out).mp
    ((verifyArtifacts_eq_ok hparsed).mp (seal_eq_ok.mp hseal).2.2).1
  obtain ⟨raws', ds', hinv', hserver, -⟩ := (python_iff (schema_of_parsed hparsed) out').mp hout'
  obtain ⟨-, rfl⟩ := hinv.unique hinv'
  obtain ⟨-, -, hnodup, hcontrol⟩ := (hinv.seal_iff hparsed hfiles hfault).mp hseal
  have hnone : extensionArtifacts oneLog = [] := by decide +kernel
  have hsingle : SingleContents filesSample oneLog :=
    ⟨raws, ds, hinv, hfault, hserver, hnodup, hcontrol, fun fields hfields => by rw [hnone] at hfields; cases hfields⟩
  exact ⟨hschema, haccepted, hfiles, hsingle, (repeated_content_ordinary_iff hschema haccepted hfiles).mpr hsingle⟩

end Sample

end Session

end Conductor.Artifact
