import Conductor.Artifact.Native
import Conductor.Artifact.Downloads

/-! The two path validators. What both of them refuse is `SharedPath`'s complement; beyond that the
native one refuses a path for its bytes and the Python one for a temporary component that is not
the first of its kind. The digests and the media types are read alike. -/

namespace Conductor.Artifact

open Checked

section Components

theorem behindTmp_eq_some {component suffix : List Char} (h : behindTmp component = some suffix) :
    '.' :: 't' :: 'm' :: 'p' :: suffix ∈ component.tails := by
  fun_induction behindTmp component with
  | case1 => cases h
  | case2 => 
    cases h
    exact (List.mem_tails _ _).mpr (List.suffix_refl _)
  | case3 c text _ ih =>
    have := (List.mem_tails _ _).mp (ih h)
    exact (List.mem_tails _ _).mpr (this.trans (List.suffix_cons c text))

/-- What the native scan takes for a temporary name, the pattern does too. -/
theorem tempComponent_of_isTempComponent {component : List Char} (h : Native.isTempComponent component) :
    Downloads.tempComponent component := by
  unfold Native.isTempComponent at h
  rw [Downloads.tempComponent, List.any_eq_true]
  split at h
  · cases h
  · next hb => exact ⟨_, behindTmp_eq_some hb, rfl⟩
  · next c rest hb =>
    refine ⟨_, behindTmp_eq_some hb, ?_⟩
    simp only [Bool.and_eq_true, Bool.or_eq_true, decide_eq_true_eq] at h
    simpa [Downloads.isTmpSuffix] using h.1

/-- A temporary name to the pattern alone. -/
def lateTemp (component : List Char) : Bool :=
  Downloads.tempComponent component && !Native.isTempComponent component

theorem unsafeComponent_iff (component : List Char) :
    Downloads.unsafeComponent component ↔ Native.invalidPathComponent component ∨ lateTemp component := by
  have := @tempComponent_of_isTempComponent component
  simp only [Downloads.unsafeComponent, Native.invalidPathComponent, lateTemp, Bool.or_eq_true, Bool.and_eq_true,
    Bool.not_eq_true']
  cases h : Native.isTempComponent component <;> simp_all

end Components

section Paths

def isControl (c : Char) : Bool := c.toNat < 32 || 127 ≤ c.toNat && c.toNat ≤ 159

/-- What both validators ask of a path. -/
structure SharedPath (path : String) : Prop where
  nonempty : path.toList ≠ []
  short : path.toList.length ≤ 1024
  relative : path.toList.head? ≠ some '/'
  slashes : '\\' ∉ path.toList
  controls : ∀ c ∈ path.toList, ¬isControl c
  components : ∀ component ∈ split '/' path.toList, ¬Native.invalidPathComponent component
  manifest : (split '/' path.toList).head? ≠ some "manifest.json".toList
  recording : (split '/' path.toList).head? ≠ some "recording.json".toList

/-- A path that only the native validator refuses: too many bytes, or a character outside ASCII one
of whose bytes looks like a control character. -/
def NativePathFault (path : String) : Prop :=
  1024 < (Utf8.bytes path.toList).length ∨ ∃ byte ∈ Utf8.bytes path.toList, 128 ≤ byte ∧ byte ≤ 159

/-- A path that only the Python validator refuses. -/
def PythonPathFault (path : String) : Prop := ∃ component ∈ split '/' path.toList, lateTemp component

instance (path : String) : Decidable (NativePathFault path) := by unfold NativePathFault; infer_instance

instance (path : String) : Decidable (PythonPathFault path) := by unfold PythonPathFault; infer_instance

/-- The byte scan refuses the control characters and the bytes from 128 to 159. -/
theorem control_bytes (text : List Char) :
    (∃ byte ∈ Utf8.bytes text, byte < 32 ∨ 127 ≤ byte ∧ byte ≤ 159) ↔
      (∃ c ∈ text, isControl c) ∨ ∃ byte ∈ Utf8.bytes text, 128 ≤ byte ∧ byte ≤ 159 := by
  simp only [isControl, Bool.or_eq_true, Bool.and_eq_true, decide_eq_true_eq]
  constructor
  · rintro ⟨byte, hbyte, hrange⟩
    rcases Nat.lt_or_ge byte 128 with hlow | hhigh
    · obtain ⟨c, hc, hmem⟩ := Utf8.mem_bytes.mp hbyte
      rcases Nat.lt_or_ge c.toNat 128 with hc' | hc'
      · rw [Utf8.encode_ascii hc', List.mem_singleton] at hmem
        subst hmem
        exact .inl ⟨c, hc, hrange⟩
      · have := Utf8.high_of_mem_encode hc' hmem
        omega
    · exact .inr ⟨byte, hbyte, hhigh, by omega⟩
  · rintro (⟨c, hc, hrange⟩ | ⟨byte, hbyte, hrange⟩)
    · rcases Nat.lt_or_ge c.toNat 128 with hc' | hc'
      · refine ⟨c.toNat, Utf8.mem_bytes.mpr ⟨c, hc, ?_⟩, hrange⟩
        rw [Utf8.encode_ascii hc']
        exact List.mem_singleton_self _
      · exact ⟨c.toNat, Utf8.mem_bytes.mpr ⟨c, hc, Utf8.control_mem_encode hc' (by omega)⟩, hrange⟩
    · exact ⟨byte, hbyte, .inr ⟨by omega, hrange.2⟩⟩

theorem native_path_iff (path : String) :
    Native.validateRelativeArtifactPath path = .ok () ↔ SharedPath path ∧ ¬NativePathFault path := by
  have hlength := Utf8.length_le_bytes path.toList
  have hcontrol := control_bytes path.toList
  unfold Native.validateRelativeArtifactPath Native.validateRelativeRegularPath
  simp only [bind_eq_ok, ite_error_eq_ok, Bool.or_eq_true, Bool.and_eq_true, decide_eq_true_eq, List.any_eq_true,
    hcontrol, not_or, List.isEmpty_iff]
  constructor
  · rintro ⟨-, ⟨⟨⟨⟨hne, hlong⟩, hroot⟩, hslash⟩, ⟨hctl, hbytes⟩, hparts, -⟩, hres, -⟩
    refine ⟨⟨hne, by omega, hroot, hslash, fun c hc hbad => hctl ⟨c, hc, hbad⟩,
      fun part hpart hbad => hparts ⟨part, hpart, hbad⟩, hres.1, hres.2⟩, ?_⟩
    · rintro (h | h)
      · exact hlong h
      · exact hbytes h
  · rintro ⟨hs, hfault⟩
    simp only [NativePathFault, not_or] at hfault
    refine ⟨(), ⟨⟨⟨⟨hs.nonempty, hfault.1⟩, hs.relative⟩, hs.slashes⟩, ⟨?_, hfault.2⟩, ?_, trivial⟩,
      ⟨hs.manifest, hs.recording⟩, trivial⟩
    · rintro ⟨c, hc, hbad⟩
      exact hs.controls c hc hbad
    · rintro ⟨part, hpart, hbad⟩
      exact hs.components part hpart hbad

theorem python_path_iff (path : String) :
    (∃ components, Downloads.safeRelativeComponents path = .ok components) ↔
      SharedPath path ∧ ¬PythonPathFault path := by
  unfold Downloads.safeRelativeComponents
  simp only [ite_error_eq_ok, Bool.or_eq_true, Bool.and_eq_true, decide_eq_true_eq, List.any_eq_true, not_or,
    List.isEmpty_iff, unsafeComponent_iff]
  constructor
  · rintro ⟨components, ⟨⟨hne, hlong⟩, hroot⟩, ⟨hslash, hctl⟩, hparts, hres, -⟩
    refine ⟨⟨hne, by omega, hroot, hslash, ?_, fun part hpart hbad => hparts ⟨part, hpart, .inl hbad⟩,
      hres.1, hres.2⟩, ?_⟩
    · intro c hc hbad
      exact hctl ⟨c, hc, by simpa [isControl] using hbad⟩
    · rintro ⟨part, hpart, hbad⟩
      exact hparts ⟨part, hpart, .inr hbad⟩
  · rintro ⟨hs, hfault⟩
    have hlong := hs.short
    refine ⟨_, ⟨⟨hs.nonempty, by omega⟩, hs.relative⟩, ⟨hs.slashes, ?_⟩, ?_, ⟨hs.manifest, hs.recording⟩, rfl⟩
    · rintro ⟨c, hc, hbad⟩
      exact hs.controls c hc (by simpa [isControl] using hbad)
    · rintro ⟨part, hpart, hbad | hbad⟩
      · exact hs.components part hpart hbad
      · exact hfault ⟨part, hpart, hbad⟩

end Paths

section Texts

theorem isLowerHexByte_ascii (byte : ℕ) (h : Native.isLowerHexByte byte) : byte < 128 := by
  simp only [Native.isLowerHexByte, Bool.or_eq_true, Bool.and_eq_true, decide_eq_true_eq] at h
  omega

theorem isSha256_eq (value : String) : Native.isSha256 value = Api.sha256 value := by
  have hall := Utf8.all_bytes isLowerHexByte_ascii value.toList
  have hhex : (fun c : Char => Native.isLowerHexByte c.toNat) = Api.isHex := rfl
  rw [hhex] at hall
  rw [Native.isSha256, Api.sha256, Api.fullmatch_replicate, ← hall, Bool.eq_iff_iff]
  simp only [Bool.and_eq_true, decide_eq_true_eq]
  refine and_congr_left fun h => ?_
  rw [Utf8.length_bytes_ascii (Utf8.ascii_of_all isLowerHexByte_ascii h)]

theorem isMediaTokenByte_ascii (byte : ℕ) (h : Native.isMediaTokenByte byte) : byte < 128 := by
  simp only [Native.isMediaTokenByte, Bool.or_eq_true, Bool.and_eq_true, decide_eq_true_eq] at h
  rcases h with h | h
  · omega
  · obtain ⟨c, hc, rfl⟩ := List.mem_map.mp h
    have hall : ['!', '#', '$', '&', '^', '_', '.', '+', '-'].all fun c => decide (c.toNat < 128) := by decide
    exact of_decide_eq_true (List.all_eq_true.mp hall c hc)

theorem isMediaTokenByte_toNat (c : Char) : Native.isMediaTokenByte c.toNat = Downloads.isMediaTokenChar c := by
  have hmem : c.toNat ∈ ['!', '#', '$', '&', '^', '_', '.', '+', '-'].map Char.toNat ↔
      c ∈ ['!', '#', '$', '&', '^', '_', '.', '+', '-'] :=
    List.mem_map_of_injective fun a b => Char.toNat_inj.mp
  rw [Bool.eq_iff_iff]
  simp only [Native.isMediaTokenByte, Downloads.isMediaTokenChar, Api.isDigit, Bool.or_eq_true, decide_eq_true_eq,
    hmem]
  rfl

theorem eq_append_of_splitOnce {separator : Char} {text left right : List Char}
    (h : Native.splitOnce separator text = some (left, right)) : text = left ++ separator :: right := by
  induction text generalizing left with
  | nil => cases h
  | cons c text ih =>
    unfold Native.splitOnce at h
    split at h
    · next hc =>
      cases h
      rw [hc, List.nil_append]
    · obtain ⟨⟨left', right'⟩, hrest, heq⟩ := Option.map_eq_some_iff.mp h
      cases heq
      rw [ih hrest, List.cons_append]

theorem splitOnce_append {separator : Char} {left : List Char} (h : separator ∉ left) (right : List Char) :
    Native.splitOnce separator (left ++ separator :: right) = some (left, right) := by
  induction left with
  | nil => simp [Native.splitOnce]
  | cons c left ih =>
    obtain ⟨hc, hleft⟩ := not_or.mp (mt List.mem_cons.mpr h)
    rw [List.cons_append, Native.splitOnce, if_neg (Ne.symm hc), ih hleft, Option.map_some]

/-- Two nonempty runs of token characters around a slash. -/
def MediaType (text : List Char) : Prop :=
  ∃ left right, text = left ++ '/' :: right ∧ left ≠ [] ∧ right ≠ [] ∧ left.all Downloads.isMediaTokenChar ∧
    right.all Downloads.isMediaTokenChar

theorem native_mediaType_iff (value : String) : Native.isMediaType value ↔ MediaType value.toList := by
  have hall := fun text => Utf8.all_bytes isMediaTokenByte_ascii text
  simp only [isMediaTokenByte_toNat] at hall
  constructor
  · intro h
    unfold Native.isMediaType at h
    split at h
    · cases h
    · next left right hsplit =>
      simp only [Bool.and_eq_true, Bool.not_eq_true', List.isEmpty_eq_false_iff, hall] at h
      exact ⟨left, right, eq_append_of_splitOnce hsplit, h.1.1.1, h.1.1.2, h.1.2, h.2⟩
  · rintro ⟨left, right, heq, hl, hr, hleft, hright⟩
    have hslash : '/' ∉ left := fun hmem => absurd (List.all_eq_true.mp hleft _ hmem) (by decide)
    simp [Native.isMediaType, heq, splitOnce_append hslash, hall, hl, hr, hleft, hright]

theorem python_mediaType_iff (value : String) : Downloads.mediaType value ↔ MediaType value.toList := by
  constructor
  · intro h
    unfold Downloads.mediaType at h
    split at h
    · next right hdrop =>
      simp only [Bool.and_eq_true, Bool.not_eq_true', List.isEmpty_eq_false_iff] at h
      refine ⟨_, right, ?_, h.1.1, h.1.2, List.all_takeWhile, h.2⟩
      rw [← hdrop, List.takeWhile_append_dropWhile]
    · cases h
  · rintro ⟨left, right, heq, hl, hr, hleft, hright⟩
    have htokens := List.all_eq_true.mp hleft
    have htake : value.toList.takeWhile Downloads.isMediaTokenChar = left := by
      rw [heq, List.takeWhile_append_of_pos htokens, List.takeWhile_cons_of_neg (by decide), List.append_nil]
    have hdrop : value.toList.dropWhile Downloads.isMediaTokenChar = '/' :: right := by
      rw [heq, List.dropWhile_append_of_pos htokens, List.dropWhile_cons_of_neg (by decide)]
    simp [Downloads.mediaType, htake, hdrop, hl, hr, hright]

theorem isMediaType_eq (value : String) : Native.isMediaType value = Downloads.mediaType value :=
  Bool.eq_iff_iff.mpr ((native_mediaType_iff value).trans (python_mediaType_iff value).symm)

end Texts

end Conductor.Artifact
