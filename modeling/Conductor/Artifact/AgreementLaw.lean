import Conductor.Artifact.MergeLaw
import Conductor.Artifact.PathLaw

/-! The two readers on one manifest. Both accept a declared artifact only if its fields describe it
(`Describes`); the device adds that its size is an unsigned 64-bit number and its path passes the
byte scan, the server that its role is not empty and no component of its path looks temporary to
the pattern. Both then merge the artifacts with one identity and refuse a path that is declared twice,
so on a manifest that both read the lists are the same. -/

namespace Conductor.Artifact

open Checked Gather

section Descriptor

/-- What both readers take from the fields of a descriptor. -/
structure Describes (fields : Fields) (d : ArtifactDescriptor) : Prop where
  keys : fields.keys \ {"storage_encoding"} = Downloads.required false
  artifactId : fields.get "artifact_id" = some (.string d.artifactId)
  role : fields.get "role" = some (.string d.role)
  path : fields.get "path" = some (.string d.path)
  mediaType : fields.get "media_type" = some (.string d.mediaType)
  sha256 : fields.get "sha256" = some (.string d.sha256)
  size : (fields.get "bytes").bind Downloads.asInt = some (d.bytes : ℤ)
  digest : Api.sha256 d.artifactId
  identity : d.artifactId = d.sha256
  media : Downloads.mediaType d.mediaType
  shared : SharedPath d.path

variable {d : ArtifactDescriptor}

theorem Describes.unique {fields : Fields} {e : ArtifactDescriptor} (hd : Describes fields d)
    (he : Describes fields e) : d = e := by
  have hid := hd.artifactId.symm.trans he.artifactId
  have hrole := hd.role.symm.trans he.role
  have hpath := hd.path.symm.trans he.path
  have hmedia := hd.mediaType.symm.trans he.mediaType
  have hsha := hd.sha256.symm.trans he.sha256
  have hsize := hd.size.symm.trans he.size
  simp only [Option.some.injEq, Json.string.injEq, Int.natCast_inj] at hid hrole hpath hmedia hsha hsize
  cases d
  cases e
  simp_all

theorem Describes.eta {fields : Fields} (h : Describes fields d) :
    ⟨d.artifactId, d.role, d.path, d.mediaType, d.bytes, d.artifactId⟩ = d := by
  have := h.identity
  cases d
  simp_all

/-- The device reads no size: a negative zero, or a number from 2^64 on. -/
def SizeFault (fields : Fields) : Prop := (fields.get "bytes").bind Native.asU64 = none

theorem objectKeys_iff (fields : Fields) :
    (Native.descriptorKeys.all fun key => (fields.get key).isSome) ∧
        (fields.keys.card = 6 ∨ fields.keys.card = 7 ∧ (fields.get "storage_encoding").isSome) ↔
      fields.keys \ {"storage_encoding"} = Downloads.required false := by
  have hsub : (Native.descriptorKeys.all fun key => (fields.get key).isSome) ↔
      Downloads.required false ⊆ fields.keys := by
    have hkeys : Downloads.required false = Native.descriptorKeys.toFinset := by decide
    simp only [hkeys, List.all_eq_true, Finset.subset_iff, List.mem_toFinset, Fields.mem_keys_iff]
  rw [hsub, ← Fields.mem_keys_iff]
  constructor
  · rintro ⟨hsix, hcard | ⟨hcard, hextra⟩⟩
    · rw [← Finset.eq_of_subset_of_card_le hsix (by rw [hcard]; decide)]
      decide
    · have hseven : insert "storage_encoding" (Downloads.required false) ⊆ fields.keys :=
        Finset.insert_subset hextra hsix
      rw [← Finset.eq_of_subset_of_card_le hseven (by rw [hcard]; decide)]
      decide
  · intro h
    have hcard : (Downloads.required false).card = 6 := by decide
    refine ⟨h ▸ Finset.sdiff_subset, ?_⟩
    by_cases hextra : "storage_encoding" ∈ fields.keys
    · refine .inr ⟨?_, hextra⟩
      have := Finset.card_erase_add_one hextra
      rw [Finset.erase_eq, h, hcard] at this
      exact this.symm
    · rw [Finset.sdiff_singleton_eq_erase, Finset.erase_eq_of_notMem hextra] at h
      exact .inl (h ▸ hcard)

theorem asInt_of_asU64 {value : Json} {n : ℕ} (h : Native.asU64 value = some n) :
    Downloads.asInt value = some (n : ℤ) := by
  unfold Native.asU64 at h
  split at h
  · split_ifs at h
    cases h
    rfl
  · cases h

theorem asU64_lt {value : Json} {n : ℕ} (h : Native.asU64 value = some n) : n < 2 ^ 64 := by
  unfold Native.asU64 at h
  split at h
  · split_ifs at h with hlt
    cases h
    exact hlt
  · cases h

theorem stringField_eq_ok {object : Fields} {name text : String} :
    Native.stringField object name = .ok text ↔ object.get name = some (.string text) := by
  unfold Native.stringField
  split <;> simp_all

theorem asText_eq_some {value : Option Json} {text : String} :
    value.bind Downloads.asText = some text ↔ value = some (.string text) := by
  rcases value with _ | value
  · simp
  · cases value <;> simp [Downloads.asText]

theorem native_descriptor_iff {raw : Json} : Native.parseArtifactDescriptor raw = .ok d ↔
      ∃ fields, raw = .object fields ∧ Describes fields d ∧ ¬SizeFault fields ∧ ¬NativePathFault d.path := by
  cases raw with
  | object fields =>
    simp only [Native.parseArtifactDescriptor, Native.asObject, bind_eq_ok, ite_error_eq_ok, stringField_eq_ok]
    constructor
    · rintro ⟨_, ⟨⟩, hkeys, hcard, id, hid, role, hrole, path, hpath, media, hmedia, sha, hsha, h⟩
      rcases hsize : (Fields.get fields "bytes").bind Native.asU64 with _ | n
      · simp [hsize] at h
      · simp only [hsize, ite_error_eq_ok, bind_eq_ok, pure_eq_ok] at h
        obtain ⟨hdigest, hmt, ⟨⟩, hvalid, rfl⟩ := h
        obtain ⟨hshared, hfault⟩ := (native_path_iff path).mp hvalid
        simp only [isSha256_eq, isMediaType_eq, Bool.or_eq_true, Bool.not_eq_true', decide_eq_true_eq, not_or,
          Bool.not_eq_false, not_not] at hdigest hmt
        refine ⟨fields, rfl, ⟨(objectKeys_iff fields).mp ⟨by simpa [Option.isSome_iff_ne_none] using hkeys, ?_⟩, hid, hrole, hpath, hmedia, hsha, ?_,
          hdigest.1.1, hdigest.2, hmt, hshared⟩, ?_, hfault⟩
        · by_cases h6 : (Fields.keys fields).card = 6
          · exact .inl h6
          · exact .inr (by simpa [h6, Option.isSome_iff_ne_none] using hcard)
        · obtain ⟨value, hvalue, hn⟩ := Option.bind_eq_some_iff.mp hsize
          rw [hvalue, Option.bind_some, asInt_of_asU64 hn]
        · simp [SizeFault, hsize]
    · rintro ⟨_, ⟨⟩, hd, hsize, hfault⟩
      obtain ⟨hall, hcard⟩ := (objectKeys_iff fields).mpr hd.keys
      refine ⟨fields, rfl, by simp only [hall, Bool.not_true, Bool.false_eq_true, not_false_eq_true], ?_, _, hd.artifactId, _, hd.role, _, hd.path, _, hd.mediaType, _, hd.sha256,
        ?_⟩
      · rcases hcard with h6 | h7 <;> simp_all
      · obtain ⟨n, hn⟩ := Option.ne_none_iff_exists'.mp hsize
        obtain ⟨value, hvalue, hu64⟩ := Option.bind_eq_some_iff.mp hn
        have hbytes : n = d.bytes := by
          have hint := hd.size
          rw [hvalue, Option.bind_some, asInt_of_asU64 hu64] at hint
          exact_mod_cast Option.some.inj hint
        have hvalid := (native_path_iff d.path).mpr ⟨hd.shared, hfault⟩
        have hmt : Downloads.mediaType d.mediaType = true := hd.media
        have hdig : Api.sha256 d.sha256 = true := hd.identity ▸ hd.digest
        simp only [hn, isSha256_eq, isMediaType_eq, hd.identity, hdig, hmt, hvalid, hbytes, bind, Except.bind, pure,
          Except.pure]
        simp [← hd.identity, hd.eta]
  | _ => simp [Native.parseArtifactDescriptor, Native.asObject, bind, Except.bind]

theorem python_descriptor_iff {raw : Json} : Downloads.artifactDescriptor raw false = .ok d ↔
      ∃ fields, raw = .object fields ∧ Describes fields d ∧ d.role ≠ "" ∧ ¬PythonPathFault d.path := by
  cases raw with
  | object fields =>
    simp only [Downloads.artifactDescriptor, Downloads.mapping, bind_eq_ok, ite_error_eq_ok, Bool.false_eq_true, if_false,
      Bool.not_false, Bool.true_and, Bool.false_and, not_not]
    constructor
    · rintro ⟨_, ⟨⟩, hkeys, h⟩
      rcases hid : (Fields.get fields "artifact_id").bind Downloads.asText with _ | id
      · simp [hid] at h
      rcases hsha : (Fields.get fields "sha256").bind Downloads.asText with _ | sha
      · simp [hid, hsha] at h
      rcases hpath : (Fields.get fields "path").bind Downloads.asText with _ | path
      · simp [hid, hsha, hpath] at h
      rcases hmedia : (Fields.get fields "media_type").bind Downloads.asText with _ | media
      · simp [hid, hsha, hpath, hmedia] at h
      rcases hsize : (Fields.get fields "bytes").bind Downloads.asInt with _ | size
      · simp [hid, hsha, hpath, hmedia, hsize] at h
      simp only [hid, hsha, hpath, hmedia, hsize, ite_error_eq_ok, bind_eq_ok, pure_eq_ok, Bool.or_eq_true,
        Bool.not_eq_true', decide_eq_true_eq, not_or, Bool.not_eq_false, not_not] at h
      obtain ⟨⟨⟨⟨⟨⟨hdigest, -⟩, hidentity⟩, hsome, hempty⟩, hmt⟩, hneg⟩, components, hsafe, rfl⟩ := h
      obtain ⟨role, hrole⟩ := Option.ne_none_iff_exists'.mp hsome
      obtain ⟨hshared, hfault⟩ := (python_path_iff path).mp ⟨components, hsafe⟩
      rw [asText_eq_some] at hid hsha hpath hmedia
      refine ⟨fields, rfl, ⟨hkeys, hid, ?_, hpath, hmedia, hsha, ?_, hdigest, hidentity, hmt, hshared⟩, ?_, hfault⟩
      · rw [hrole]
        exact asText_eq_some.mp hrole
      · rw [hsize, Int.toNat_of_nonneg (by omega)]
      · rw [hrole] at hempty ⊢
        exact fun h => hempty (congrArg some h)
    · rintro ⟨_, ⟨⟩, hd, hrole, hfault⟩
      obtain ⟨components, hsafe⟩ := (python_path_iff d.path).mpr ⟨hd.shared, hfault⟩
      have hmt : Downloads.mediaType d.mediaType = true := hd.media
      have hdig : Api.sha256 d.sha256 = true := hd.identity ▸ hd.digest
      refine ⟨fields, rfl, hd.keys, ?_⟩
      rw [asText_eq_some.mpr hd.artifactId, asText_eq_some.mpr hd.sha256, asText_eq_some.mpr hd.path,
        asText_eq_some.mpr hd.mediaType, asText_eq_some.mpr hd.role, hd.size]
      have hint : ¬((d.bytes : ℤ) < 0) := by omega
      simp only [hd.identity, hdig, hmt, hint, hsafe, bind, Except.bind, pure, Except.pure]
      simp [hrole, ← hd.identity, hd.eta]
  | _ => simp [Downloads.artifactDescriptor, Downloads.mapping, bind, Except.bind]

end Descriptor

section Walk

/-- `isinstance(value, Mapping)` in both readers. -/
def object? : Option Json → Option Fields
  | some (.object fields) => some fields
  | _ => none

def array? : Option Json → Option (List Json)
  | some (.array items) => some items
  | _ => none

def item? (value : Option Json) : Option (List Json) := do return [.object (← object? value)]

def declaredEyes (segment : Json) : Option (List Json) := do
  let artifacts ← object? ((← object? (some segment)).get "artifacts")
  return (← item? (artifacts.get "left")) ++ (← item? (artifacts.get "right"))

def declaredVideo (video : Fields) : Option (List Json) :=
  if Downloads.isText (video.get "layout") "raw-side-by-side" then item? (video.get "artifact")
  else if Downloads.isText (video.get "layout") "split-eyes" then do
    gather declaredEyes (← array? (video.get "segments"))
  else none

def declaredAudioSegment (segment : Json) : Option (List Json) := do
  item? ((← object? (some segment)).get "artifact")

def declaredAudio (m : Fields) : Option (List Json) :=
  match m.get "audio" with
  | none | some .null => some []
  | value => do
    let audio ← object? value
    if Downloads.isText (audio.get "state") "not_recorded" then some []
    else gather declaredAudioSegment (← array? (audio.get "segments"))

def declaredLogs (m : Fields) : Option (List Json) :=
  match m.get "logs" with
  | none => some []
  | value => do gather (fun log => item? (some log)) (← array? value)

/-- The descriptors that a manifest declares, in the order of the walk. -/
def declared (m : Fields) : Option (List Json) := do
  let video ← object? (m.get "video")
  let frames ← object? (m.get "frames")
  let imu ← object? (m.get "imu")
  return (← declaredVideo video) ++ ((← item? (frames.get "artifact")) ++ ((← item? (imu.get "artifact")) ++
    ((← declaredAudio m) ++ (← declaredLogs m))))

theorem mapping_reads (value : Option Json) (message : String) :
    Reads (Downloads.mapping value message) (object? value) := by
  rcases value with _ | value
  · exact Reads.error _
  · cases value with
    | object fields => exact Reads.ok fields
    | _ => exact Reads.error _

theorem list_reads (value : Option Json) (message : String) : Reads (Downloads.list value message) (array? value) := by
  rcases value with _ | value
  · exact Reads.error _
  · cases value with
    | array items => exact Reads.ok items
    | _ => exact Reads.error _

theorem artifact_reads (value : Option Json) (message : String) :
    Reads (Downloads.artifact value message) (item? value) :=
  (mapping_reads value message).bind fun _ => Reads.ok _

theorem videoSegment_reads (segment : Json) : Reads (Downloads.videoSegment segment) (declaredEyes segment) :=
  (mapping_reads _ _).bind fun _ => (mapping_reads _ _).bind fun _ =>
    (artifact_reads _ _).bind fun _ => (artifact_reads _ _).bind fun _ => Reads.ok _

theorem videoArtifacts_reads (video : Fields) : Reads (Downloads.videoArtifacts video) (declaredVideo video) := by
  unfold Downloads.videoArtifacts declaredVideo
  split_ifs
  · exact artifact_reads _ _
  · exact (list_reads _ _).bind fun segments => Reads.gather videoSegment_reads segments
  · exact Reads.error _

theorem audioSegment_reads (segment : Json) : Reads (Downloads.audioSegment segment) (declaredAudioSegment segment) :=
  (mapping_reads _ _).bind fun _ => artifact_reads _ _

theorem audioArtifacts_reads (m : Fields) : Reads (Downloads.audioArtifacts m) (declaredAudio m) := by
  unfold Downloads.audioArtifacts declaredAudio
  rcases m.get "audio" with _ | value
  · exact Reads.ok []
  · cases value with
    | null => exact Reads.ok []
    | _ =>
      refine (mapping_reads _ _).bind fun audio => ?_
      split_ifs
      · exact Reads.ok []
      · exact (list_reads _ _).bind fun segments => Reads.gather audioSegment_reads segments

theorem logArtifacts_reads (m : Fields) : Reads (Downloads.logArtifacts m) (declaredLogs m) := by
  unfold Downloads.logArtifacts declaredLogs
  rcases m.get "logs" with _ | value
  · exact Reads.ok []
  · exact (list_reads _ _).bind fun logs => Reads.gather (fun log => artifact_reads (some log) _) logs

/-- The Python walk gives what is declared. -/
theorem iter_reads (m : Fields) : Reads (Downloads.iterDeviceSessionV1Artifacts m) (declared m) :=
  (mapping_reads _ _).bind fun _ => (mapping_reads _ _).bind fun _ => (mapping_reads _ _).bind fun _ =>
    (videoArtifacts_reads _).bind fun _ => (artifact_reads _ _).bind fun _ => (artifact_reads _ _).bind fun _ =>
      (audioArtifacts_reads _).bind fun _ => (logArtifacts_reads _).bind fun _ => Reads.ok _

theorem asObject_reads (value : Json) (message : String) :
    Reads (Native.asObject value message) (object? (some value)) := by
  cases value with
  | object fields => exact Reads.ok fields
  | _ => exact Reads.error _

theorem objectField_reads (object : Fields) (name message : String) :
    Reads (Native.objectField object name message) (object? (object.get name)) := by
  unfold Native.objectField
  rcases object.get name with _ | value
  · exact Reads.error _
  · cases value with
    | object fields => exact Reads.ok fields
    | _ => exact Reads.error _

theorem arrayField_reads (object : Fields) (name message : String) :
    Reads (Native.arrayField object name message) (array? (object.get name)) := by
  unfold Native.arrayField
  rcases object.get name with _ | value
  · exact Reads.error _
  · cases value with
    | array items => exact Reads.ok items
    | _ => exact Reads.error _

/-- The collector refuses what is no object. -/
theorem collect_feeds (value : Json) :
    Feeds Native.ArtifactCollector.collect (·.collect value) (item? (some value)) := by
  cases value with
  | object fields => exact Feeds.item (Json.object fields)
  | _ =>
    exact Feeds.refused fun s s' h => by
      obtain ⟨d, hd, -⟩ := bind_eq_ok.mp h
      obtain ⟨fields, hfields, -⟩ := native_descriptor_iff.mp hd
      cases hfields

theorem field_feeds (object : Fields) (name : String) :
    Feeds Native.ArtifactCollector.collect (fun c => Native.valueField object name >>= c.collect)
      (item? (object.get name)) := by
  unfold Native.valueField
  rcases object.get name with _ | value
  · exact Feeds.refused fun s s' h => by cases h
  · exact collect_feeds value

theorem collectEyes_feeds (segment : Json) :
    Feeds Native.ArtifactCollector.collect (Native.collectEyes · segment) (declaredEyes segment) :=
  Feeds.read (asObject_reads _ _) fun _ => Feeds.read (objectField_reads _ _ _) fun artifacts =>
    (field_feeds artifacts "left").seq (field_feeds artifacts "right")

theorem collectVideo_feeds (video : Fields) :
    Feeds Native.ArtifactCollector.collect (Native.collectVideo · video) (declaredVideo video) := by
  unfold Native.collectVideo declaredVideo Native.stringField
  rcases hlayout : video.get "layout" with _ | value
  · exact Feeds.refused fun s s' h => by cases h
  · cases value with
    | string layout =>
      by_cases hraw : layout = "raw-side-by-side"
      · simpa [bind, Except.bind, Downloads.isText, hraw] using field_feeds video "artifact"
      · by_cases hsplit : layout = "split-eyes"
        · simpa [bind, Except.bind, Downloads.isText, hsplit] using!
            Feeds.read (arrayField_reads video "segments" "manifest video segments 无效") fun segments =>
              Feeds.loop collectEyes_feeds segments
        · simpa [bind, Except.bind, Downloads.isText, hraw, hsplit] using
            Feeds.refused fun s s' h => by cases h
    | _ => exact Feeds.refused fun s s' h => by cases h

theorem collectSection_feeds (m : Fields) (name : String) :
    Feeds Native.ArtifactCollector.collect (Native.collectSection m · name)
      (do item? ((← object? (m.get name)).get "artifact")) :=
  Feeds.read (objectField_reads _ _ _) fun body => field_feeds body "artifact"

theorem collectAudioSegment_feeds (segment : Json) :
    Feeds Native.ArtifactCollector.collect (Native.collectAudioSegment · segment) (declaredAudioSegment segment) :=
  Feeds.read (asObject_reads _ _) fun segment => field_feeds segment "artifact"

/-- A null for the audio is refused by the device alone. -/
def nullAudio (m : Fields) : Bool :=
  match m.get "audio" with
  | some .null => true
  | _ => false

def deviceAudio (m : Fields) : Option (List Json) := if nullAudio m then none else declaredAudio m

theorem isText_iff {value : Option Json} {text : String} :
    Downloads.isText value text ↔ value.bind Native.asStr = some text := by
  rcases value with _ | value
  · simp [Downloads.isText]
  · cases value <;> simp [Downloads.isText, Native.asStr]

theorem collectAudio_feeds (m : Fields) :
    Feeds Native.ArtifactCollector.collect (Native.collectAudio m) (deviceAudio m) := by
  unfold Native.collectAudio deviceAudio nullAudio declaredAudio
  rcases m.get "audio" with _ | value
  · exact Feeds.done
  · cases value with
    | object audio =>
      refine Feeds.read (asObject_reads _ _) fun audio => ?_
      simp only [isText_iff]
      by_cases hstate : (audio.get "state").bind Native.asStr = some "not_recorded"
      · simpa only [hstate, if_true] using! Feeds.done
      · simpa only [hstate, if_false] using!
          Feeds.read (arrayField_reads audio "segments" "manifest audio segments 无效") fun segments =>
            Feeds.loop collectAudioSegment_feeds segments
    | _ => exact Feeds.refused fun s s' h => by cases h

theorem collectLogs_feeds (m : Fields) :
    Feeds Native.ArtifactCollector.collect (Native.collectLogs m) (declaredLogs m) := by
  unfold Native.collectLogs declaredLogs
  rcases hlogs : m.get "logs" with _ | value
  · exact Feeds.done
  · have h := Feeds.read (arrayField_reads m "logs" "manifest logs 无效") fun logs =>
      Feeds.loop (fun log => collect_feeds log) logs
    rw [hlogs] at h
    exact h

def declaredSection (m : Fields) (name : String) : Option (List Json) := do
  item? ((← object? (m.get name)).get "artifact")

/-- What the native walk hands to the collector, in its own order of reading. -/
def handed (m video : Fields) : Option (List Json) := do
  return (← declaredVideo video) ++ (← (do
    return (← gather (declaredSection m) ["frames", "imu"]) ++ (← (do
      return (← deviceAudio m) ++ (← declaredLogs m)))))

theorem handed_iff (m : Fields) (raws : List Json) :
    (∃ video, object? (m.get "video") = some video ∧ handed m video = some raws) ↔
      declared m = some raws ∧ ¬nullAudio m := by
  cases hnull : nullAudio m
  · simp only [handed, deviceAudio, declared, declaredSection, gather, hnull]
    rcases object? (m.get "video") with _ | video
    · simp
    rcases object? (m.get "frames") with _ | frames
    · simp
    rcases object? (m.get "imu") with _ | imu
    · simp
    simp [Option.bind_assoc]
  · simp [handed, deviceAudio, hnull]

/-- The native walk collects what is declared, in the same order. -/
theorem collect_all_iff (m : Fields) (out : List ArtifactDescriptor) :
    Native.collectDeviceSessionV1Artifacts m = .ok out ↔
      ∃ raws c, declared m = some raws ∧ ¬nullAudio m ∧
        raws.foldlM Native.ArtifactCollector.collect .empty = .ok c ∧ c.descriptors = out ∧ out ≠ [] := by
  let walk (video : Fields) (c : Native.ArtifactCollector) : Except Native.SessionIoError Native.ArtifactCollector :=
    Native.collectVideo c video >>= fun c =>
      ["frames", "imu"].foldlM (Native.collectSection m) c >>= fun c => Native.collectAudio m c >>= Native.collectLogs m
  have hfeed : ∀ video, Feeds Native.ArtifactCollector.collect (walk video) (handed m video) := fun video =>
    (collectVideo_feeds video).seq
      ((Feeds.loop (fun name => collectSection_feeds m name) ["frames", "imu"]).seq
        ((collectAudio_feeds m).seq (collectLogs_feeds m)))
  have hread := objectField_reads m "video" "manifest video 结构无效"
  unfold Native.collectDeviceSessionV1Artifacts
  simp only [bind_eq_ok, ite_error_eq_ok, pure_eq_ok, List.isEmpty_iff]
  constructor
  · rintro ⟨video, hvideo, c₁, h₁, c₂, h₂, c₃, h₃, c, h₄, hne, rfl⟩
    have hrun : walk video .empty = .ok c := bind_eq_ok.mpr ⟨c₁, h₁, bind_eq_ok.mpr ⟨c₂, h₂, bind_eq_ok.mpr ⟨c₃, h₃, h₄⟩⟩⟩
    obtain ⟨raws, hraws, hfold⟩ := (hfeed video _ c).mp hrun
    obtain ⟨hdeclared, hnull⟩ := (handed_iff m raws).mp ⟨video, (hread video).mp hvideo, hraws⟩
    exact ⟨raws, c, hdeclared, hnull, hfold, rfl, hne⟩
  · rintro ⟨raws, c, hdeclared, hnull, hfold, rfl, hne⟩
    obtain ⟨video, hvideo, hraws⟩ := (handed_iff m raws).mpr ⟨hdeclared, hnull⟩
    have hrun := (hfeed video _ c).mpr ⟨raws, hraws, hfold⟩
    obtain ⟨c₁, h₁, hrun⟩ := bind_eq_ok.mp hrun
    obtain ⟨c₂, h₂, hrun⟩ := bind_eq_ok.mp hrun
    obtain ⟨c₃, h₃, h₄⟩ := bind_eq_ok.mp hrun
    exact ⟨video, (hread video).mpr hvideo, c₁, h₁, c₂, h₂, c₃, h₃, c, h₄, hne, rfl⟩

end Walk

section Agreement

/-- What both readers ask of a manifest: its walk gives objects that describe artifacts, and these
can be merged. -/
structure Inventory (m : Fields) (raws : List Fields) (ds : List ArtifactDescriptor) : Prop where
  declared : declared m = some (raws.map .object)
  describes : List.Forall₂ Describes raws ds
  mergeable : Mergeable ds

/-- What the device alone refuses: a null for the audio, a size it cannot read, the bytes of a path. -/
def DeviceFault (m : Fields) (raws : List Fields) (ds : List ArtifactDescriptor) : Prop :=
  nullAudio m ∨ (∃ raw ∈ raws, SizeFault raw) ∨ ∃ d ∈ ds, NativePathFault d.path

/-- What the server alone refuses: an empty role, a late temporary name in a path. -/
def ServerFault (ds : List ArtifactDescriptor) : Prop := ∃ d ∈ ds, d.role = "" ∨ PythonPathFault d.path

theorem forall₂_objects {R : Json → ArtifactDescriptor → Prop} {P : Fields → Prop} {Q : ArtifactDescriptor → Prop}
    (h : ∀ raw d, R raw d ↔ ∃ fields, raw = .object fields ∧ Describes fields d ∧ P fields ∧ Q d)
    (xs : List Json) (ds : List ArtifactDescriptor) :
    List.Forall₂ R xs ds ↔
      ∃ raws : List Fields, xs = raws.map .object ∧ List.Forall₂ Describes raws ds ∧ (∀ raw ∈ raws, P raw) ∧
        ∀ d ∈ ds, Q d := by
  constructor
  · intro hall
    induction hall with
    | nil => exact ⟨[], rfl, .nil, by simp, by simp⟩
    | cons hx _ ih =>
      obtain ⟨fields, rfl, hd, hp, hq⟩ := (h _ _).mp hx
      obtain ⟨raws, rfl, hall, hps, hqs⟩ := ih
      exact ⟨fields :: raws, rfl, .cons hd hall, List.forall_mem_cons.mpr ⟨hp, hps⟩, List.forall_mem_cons.mpr ⟨hq, hqs⟩⟩
  · rintro ⟨raws, rfl, hall, hps, hqs⟩
    induction hall with
    | nil => exact .nil
    | cons hd _ ih =>
      obtain ⟨hp, hps⟩ := List.forall_mem_cons.mp hps
      obtain ⟨hq, hqs⟩ := List.forall_mem_cons.mp hqs
      exact .cons ((h _ _).mpr ⟨_, rfl, hd, hp, hq⟩) (ih hps hqs)

variable {m : Fields}

theorem Inventory.unique {raws raws' : List Fields} {ds ds' : List ArtifactDescriptor}
    (h : Inventory m raws ds) (h' : Inventory m raws' ds') : raws = raws' ∧ ds = ds' := by
  have hraws : raws = raws' :=
    List.map_injective_iff.mpr (fun _ _ => Json.object.inj) (Option.some.inj (h.declared.symm.trans h'.declared))
  subst hraws
  refine ⟨rfl, ?_⟩
  have hright : Relator.RightUnique Describes := fun _ _ _ => Describes.unique
  exact List.right_unique_forall₂' hright h.describes h'.describes

/-- The descriptors after the merge, in the order of the first of each identity. -/
def Merged (ds out : List ArtifactDescriptor) : Prop :=
  (∃ s, ds.foldlM Downloads.Descriptors.insert .empty = .ok s ∧ s.values = out) ∧ out ≠ []

/-- The device lists a manifest exactly if both readers' common checks pass and none of its own fails. -/
theorem native_iff (m : Fields) (out : List ArtifactDescriptor) :
    Native.collectDeviceSessionV1Artifacts m = .ok out ↔
      ∃ raws ds, Inventory m raws ds ∧ ¬DeviceFault m raws ds ∧ Merged ds out := by
  have hparse := forall₂_objects (R := fun raw d => Native.parseArtifactDescriptor raw = .ok d)
    fun raw d => native_descriptor_iff
  rw [collect_all_iff]
  constructor
  · rintro ⟨xs, c, hdeclared, hnull, hfold, hout, hne⟩
    obtain ⟨ds, hall, hins⟩ := foldlM_parse.mp hfold
    obtain ⟨raws, rfl, hdesc, hsizes, hpaths⟩ := (hparse xs ds).mp hall
    obtain ⟨s, hs, hvalues⟩ := (merge_iff ds out).mp ⟨c, hins, hout⟩
    refine ⟨raws, ds, ⟨hdeclared, hdesc, (mergeable_iff ds).mpr ⟨s, hs⟩⟩, ?_, ⟨s, hs, hvalues⟩, hne⟩
    rintro (h | ⟨raw, hraw, h⟩ | ⟨d, hd, h⟩)
    · exact hnull h
    · exact hsizes raw hraw h
    · exact hpaths d hd h
  · rintro ⟨raws, ds, hinv, hfault, hmerged, hne⟩
    simp only [DeviceFault, not_or, not_exists, not_and] at hfault
    obtain ⟨c, hins, hout⟩ := (merge_iff ds out).mpr hmerged
    have hall := (hparse _ ds).mpr ⟨raws, rfl, hinv.describes, hfault.2.1, hfault.2.2⟩
    exact ⟨_, c, hinv.declared, hfault.1, foldlM_parse.mpr ⟨ds, hall, hins⟩, hout, hne⟩

/-- The server lists a manifest exactly if the common checks pass and none of its own fails. -/
theorem python_iff (hschema : ∃ schema ∈ deviceSessionSchemas, m.get "schema" = some (.string schema))
    (out : List ArtifactDescriptor) : Downloads.artifactDescriptors m = .ok out ↔
      ∃ raws ds, Inventory m raws ds ∧ ¬ServerFault ds ∧ Merged ds out := by
  have hparse := forall₂_objects (R := fun raw d => Downloads.artifactDescriptor raw false = .ok d) (P := fun _ => True)
    (Q := fun d => d.role ≠ "" ∧ ¬PythonPathFault d.path) fun raw d => by
      simpa only [true_and] using python_descriptor_iff
  have hlegacy : (!deviceSessionSchemas.any (Downloads.isText (m.get "schema"))) = false := by
    obtain ⟨schema, hmem, hget⟩ := hschema
    rw [Bool.not_eq_false', List.any_eq_true]
    exact ⟨schema, hmem, by simp [Downloads.isText, hget]⟩
  unfold Downloads.artifactDescriptors
  simp only [hlegacy, Bool.false_eq_true, if_false, bind_eq_ok, iter_reads _ _, ite_error_eq_ok, pure_eq_ok,
    List.isEmpty_iff]
  constructor
  · rintro ⟨xs, hdeclared, s, hfold, hne, rfl⟩
    obtain ⟨ds, hall, hins⟩ := foldlM_parse.mp hfold
    obtain ⟨raws, rfl, hdesc, -, hclean⟩ := (hparse xs ds).mp hall
    refine ⟨raws, ds, ⟨hdeclared, hdesc, (mergeable_iff ds).mpr ⟨s, hins⟩⟩, ?_, ⟨s, hins, rfl⟩, hne⟩
    rintro ⟨d, hd, h | h⟩
    · exact (hclean d hd).1 h
    · exact (hclean d hd).2 h
  · rintro ⟨raws, ds, hinv, hfault, ⟨s, hins, rfl⟩, hne⟩
    have hclean : ∀ d ∈ ds, d.role ≠ "" ∧ ¬PythonPathFault d.path := fun d hd =>
      ⟨fun h => hfault ⟨d, hd, .inl h⟩, fun h => hfault ⟨d, hd, .inr h⟩⟩
    have hall := (hparse _ ds).mpr ⟨raws, rfl, hinv.describes, fun _ _ => trivial, hclean⟩
    exact ⟨_, hinv.declared, s, foldlM_parse.mpr ⟨ds, hall, hins⟩, hne, rfl⟩

/-- The frames alone declare an artifact. -/
theorem declared_ne_nil {raws : List Json} (h : declared m = some raws) : raws ≠ [] := by
  simp only [declared, item?, Option.bind_eq_bind, Option.bind_eq_some_iff, Option.pure_def, Option.some.injEq] at h
  obtain ⟨-, -, frames, -, -, -, v, -, f, ⟨fields, -, rfl⟩, -, -, -, -, -, -, rfl⟩ := h
  simp

theorem Inventory.merged {raws : List Fields} {ds : List ArtifactDescriptor} (h : Inventory m raws ds) :
    ∃ out, Merged ds out := by
  obtain ⟨s, hs⟩ := (mergeable_iff ds).mp h.mergeable
  refine ⟨s.values, ⟨s, hs, rfl⟩, fun hnil => ?_⟩
  have hget := ((insertAll_spec ds).2 s hs).get
  have hraws : raws ≠ [] := fun he => declared_ne_nil h.declared (by rw [he, List.map_nil])
  cases hdesc : h.describes with
  | nil => exact hraws rfl
  | @cons _ d _ ds _ _ =>
    have := hget d.artifactId
    simp [Downloads.Descriptors.get, hnil] at this

theorem Merged.unique {ds out out' : List ArtifactDescriptor} (h : Merged ds out) (h' : Merged ds out') : out = out' := by
  obtain ⟨⟨s, hs, rfl⟩, -⟩ := h
  obtain ⟨⟨s', hs', rfl⟩, -⟩ := h'
  rw [hs] at hs'
  cases hs'
  rfl

/-- One reader succeeds exactly if the other does, and then with the same list. -/
def Agree (m : Fields) : Prop :=
  ((∃ out, Native.collectDeviceSessionV1Artifacts m = .ok out) ↔ ∃ out, Downloads.artifactDescriptors m = .ok out) ∧
    ∀ out out', Native.collectDeviceSessionV1Artifacts m = .ok out → Downloads.artifactDescriptors m = .ok out' →
      out = out'

/-- One path validator accepts a path exactly if the other does. -/
def PathsAgree (path : String) : Prop :=
  Native.validateRelativeArtifactPath path = .ok () ↔
    ∃ components, Downloads.safeRelativeComponents path = .ok components

theorem schema_of_parsed {m' : Fields} {sessionId : String}
    (h : Native.parseDeviceSessionManifest (.object m) sessionId = .ok m') :
    ∃ schema ∈ deviceSessionSchemas, m.get "schema" = some (.string schema) := by
  simp only [Native.parseDeviceSessionManifest, Native.asObject, bind_eq_ok, ite_error_eq_ok, stringField_eq_ok] at h
  obtain ⟨_, ⟨⟩, schema, hget, hmem, -⟩ := h
  exact ⟨schema, not_not.mp hmem, hget⟩

/-- The readers agree on a manifest exactly if it fails a common check, or has a fault of the
device exactly if it has one of the server; the validators agree on a path alike. -/
theorem inventories_agree_iff {m : Fields} {sessionId : String}
    (h : Native.parseDeviceSessionManifest (.object m) sessionId = .ok m) :
    (Agree m ↔ ∀ raws ds, Inventory m raws ds → (DeviceFault m raws ds ↔ ServerFault ds)) ∧
      ∀ path, PathsAgree path ↔ (SharedPath path → (NativePathFault path ↔ PythonPathFault path)) := by
  have hschema := schema_of_parsed h
  refine ⟨⟨fun hagree raws ds hinv => ?_, fun hcond => ⟨?_, ?_⟩⟩, fun path => ?_⟩
  · obtain ⟨out, hout⟩ := hinv.merged
    have hnative : (∃ out, Native.collectDeviceSessionV1Artifacts m = .ok out) ↔ ¬DeviceFault m raws ds := by
      constructor
      · rintro ⟨out', hok⟩
        obtain ⟨raws', ds', hinv', hfault, -⟩ := (native_iff m out').mp hok
        obtain ⟨rfl, rfl⟩ := hinv.unique hinv'
        exact hfault
      · exact fun hfault => ⟨out, (native_iff m out).mpr ⟨raws, ds, hinv, hfault, hout⟩⟩
    have hpython : (∃ out, Downloads.artifactDescriptors m = .ok out) ↔ ¬ServerFault ds := by
      constructor
      · rintro ⟨out', hok⟩
        obtain ⟨raws', ds', hinv', hfault, -⟩ := (python_iff hschema out').mp hok
        obtain ⟨-, rfl⟩ := hinv.unique hinv'
        exact hfault
      · exact fun hfault => ⟨out, (python_iff hschema out).mpr ⟨raws, ds, hinv, hfault, hout⟩⟩
    exact not_iff_not.mp (hnative.symm.trans (hagree.1.trans hpython))
  · simp only [native_iff, python_iff hschema]
    constructor
    · rintro ⟨out, raws, ds, hinv, hfault, hout⟩
      exact ⟨out, raws, ds, hinv, (not_congr (hcond raws ds hinv)).mp hfault, hout⟩
    · rintro ⟨out, raws, ds, hinv, hfault, hout⟩
      exact ⟨out, raws, ds, hinv, (not_congr (hcond raws ds hinv)).mpr hfault, hout⟩
  · intro out out' hn hp
    obtain ⟨raws, ds, hinv, -, hout⟩ := (native_iff m out).mp hn
    obtain ⟨raws', ds', hinv', -, hout'⟩ := (python_iff hschema out').mp hp
    obtain ⟨-, rfl⟩ := hinv.unique hinv'
    exact hout.unique hout'
  · rw [PathsAgree, native_path_iff, python_path_iff, and_congr_right_iff, not_iff_not]

/-- A descriptor whose digest repeats one digit. -/
def descriptorSample (digit : Char) (role path mediaType : String) (bytes : ℕ) : Json :=
  let digest := String.ofList (List.replicate 64 digit)
  .object [("artifact_id", .string digest), ("role", .string role), ("path", .string path),
    ("media_type", .string mediaType), ("bytes", .number false bytes false), ("sha256", .string digest)]

/-- A sealed session with one log under the path. -/
def manifestSample (logPath : String) : Fields :=
  [("schema", .string "ylx.device-session.v4"), ("sealed", .bool true), ("session_id", .string "session"),
    ("video", .object [("layout", .string "raw-side-by-side"),
      ("artifact", descriptorSample 'a' "video" "video/raw.mp4" "video/mp4" 9)]),
    ("frames", .object [("artifact", descriptorSample 'b' "frames" "frames.csv" "text/csv" 4)]),
    ("imu", .object [("artifact", descriptorSample 'c' "imu" "imu.csv" "text/csv" 4)]),
    ("logs", .array [descriptorSample 'd' "log" logPath "text/plain" 1])]

theorem exists_of_isOk {ε α : Type} {r : Except ε α} (h : r.isOk = true) : ∃ out, r = .ok out := by
  cases r with
  | error e => cases h
  | ok out => exact ⟨out, rfl⟩

/-- The device refuses a path for the middle byte of a character that the server takes. -/
theorem readers_disagree :
    (∃ m sessionId, Native.parseDeviceSessionManifest (.object m) sessionId = .ok m ∧ ¬Agree m) ∧
      ∃ path, ¬PathsAgree path := by
  refine ⟨⟨manifestSample "logs/视.txt", "session", rfl, fun h => ?_⟩, "logs/视.txt", fun h => ?_⟩
  · have hpython : (Downloads.artifactDescriptors (manifestSample "logs/视.txt")).isOk := by decide +kernel
    have hnative : ¬(Native.collectDeviceSessionV1Artifacts (manifestSample "logs/视.txt")).isOk := by decide +kernel
    obtain ⟨out', hn⟩ := h.1.mpr (exists_of_isOk hpython)
    rw [hn] at hnative
    exact hnative rfl
  · have hnative : Native.validateRelativeArtifactPath "logs/视.txt" ≠ .ok () := by decide +kernel
    exact hnative (h.mpr ⟨[['l', 'o', 'g', 's'], ['视', '.', 't', 'x', 't']], by decide +kernel⟩)

/-- With an ASCII path both readers list the artifacts. -/
theorem inventories_agree_sample :
    Native.parseDeviceSessionManifest (.object (manifestSample "logs/device.txt")) "session" =
        .ok (manifestSample "logs/device.txt") ∧
      (Native.collectDeviceSessionV1Artifacts (manifestSample "logs/device.txt")).isOk ∧
      (Downloads.artifactDescriptors (manifestSample "logs/device.txt")).isOk ∧ Agree (manifestSample "logs/device.txt") := by
  have hparse : Native.parseDeviceSessionManifest (.object (manifestSample "logs/device.txt")) "session" =
      .ok (manifestSample "logs/device.txt") := rfl
  have hnative : (Native.collectDeviceSessionV1Artifacts (manifestSample "logs/device.txt")).isOk := by decide +kernel
  have hpython : (Downloads.artifactDescriptors (manifestSample "logs/device.txt")).isOk := by decide +kernel
  obtain ⟨out, hout⟩ := exists_of_isOk hnative
  obtain ⟨out', hout'⟩ := exists_of_isOk hpython
  obtain ⟨raws₁, ds₁, hinv₁, hfault, -⟩ := (native_iff _ _).mp hout
  obtain ⟨raws₂, ds₂, hinv₂, hserver, -⟩ := (python_iff (schema_of_parsed hparse) _).mp hout'
  refine ⟨hparse, hnative, hpython, (inventories_agree_iff hparse).1.2 fun raws ds hinv => ?_⟩
  obtain ⟨rfl, rfl⟩ := hinv.unique hinv₁
  obtain ⟨-, rfl⟩ := hinv.unique hinv₂
  exact iff_of_false hfault hserver

end Agreement

end Conductor.Artifact
