import Mathlib.Data.List.Pairwise
import Conductor.Artifact.Native
import Conductor.Artifact.Downloads

/-! Merging by identity. The native collector keeps positions in a map and the Python loop a
dictionary of the descriptors themselves; the two accept the same lists and hold the same
descriptors. A list is merged exactly if its paths differ and descriptors of one identity have one content. -/

namespace Conductor.Artifact

open Checked

/-- Two descriptors of one identity say the same about its content. -/
def SameContent (a b : ArtifactDescriptor) : Prop :=
  a.artifactId = b.artifactId → a.bytes = b.bytes ∧ a.mediaType = b.mediaType ∧ a.sha256 = b.sha256

instance (a b : ArtifactDescriptor) : Decidable (SameContent a b) := by unfold SameContent; infer_instance

theorem SameContent.symm {a b : ArtifactDescriptor} (h : SameContent a b) : SameContent b a := by
  intro hid
  obtain ⟨hb, hm, hs⟩ := h hid.symm
  exact ⟨hb.symm, hm.symm, hs.symm⟩

instance : Std.Symm SameContent := ⟨fun _ _ => SameContent.symm⟩

/-- The paths differ and equal identities have equal contents. -/
structure Mergeable (ds : List ArtifactDescriptor) : Prop where
  paths : (ds.map (·.path)).Nodup
  contents : ds.Pairwise SameContent

section Python

open Downloads

variable {s : Descriptors} {d : ArtifactDescriptor}

theorem insert_eq_ok {s' : Descriptors} : s.insert d = .ok s' ↔
      d.path ∉ s.paths ∧ (∀ e, s.get d.artifactId = some e → SameContent d e) ∧
        s' = ⟨if (s.get d.artifactId).isSome then s.values else s.values ++ [d], d.path :: s.paths⟩ := by
  unfold Descriptors.insert
  rw [ite_error_eq_ok]
  refine and_congr_right fun _ => ?_
  rcases hget : s.get d.artifactId with _ | e
  · simp [eq_comm]
  · have hid : e.artifactId = d.artifactId := by simpa using List.find?_some hget
    simp only [ite_error_eq_ok, Bool.or_eq_true, decide_eq_true_eq, not_or, not_not, Option.some.injEq, forall_eq',
      SameContent, hid, forall_const, Option.isSome_some, if_true, Except.ok.injEq, and_assoc, @eq_comm _ s']

/-- The dictionary after a list. -/
structure Holds (s : Descriptors) (ds : List ArtifactDescriptor) : Prop where
  paths : ∀ path, path ∈ s.paths ↔ path ∈ ds.map (·.path)
  get : ∀ id, s.get id = ds.find? fun d => d.artifactId = id

variable {ds : List ArtifactDescriptor}

theorem Holds.insert {s' : Descriptors} (h : Holds s ds) (hins : s.insert d = .ok s') : Holds s' (ds ++ [d]) := by
  obtain ⟨-, -, rfl⟩ := insert_eq_ok.mp hins
  constructor
  · intro path
    simp [h.paths, or_comm]
  · intro id
    have hget := h.get d.artifactId
    rw [List.find?_append, ← h.get id]
    rcases hd : s.get d.artifactId with _ | e
    · simp [Descriptors.get]
    · by_cases hid : d.artifactId = id
      · subst hid
        simp only [hd, Option.isSome_some, if_true, Option.some_or]
        exact hd
      · simp [Descriptors.get, hid]

/-- Agreement with the first descriptor of an identity is agreement with all of them. -/
theorem contents_of_first (hds : ds.Pairwise SameContent) (d : ArtifactDescriptor) :
    (∀ e, (ds.find? fun e => e.artifactId = d.artifactId) = some e → SameContent d e) ↔
      ∀ e ∈ ds, SameContent e d := by
  constructor
  · intro h e he hid
    obtain ⟨first, hfirst⟩ : ∃ first, (ds.find? fun e => e.artifactId = d.artifactId) = some first :=
      Option.isSome_iff_exists.mp (List.find?_isSome.mpr ⟨e, he, by simpa using hid⟩)
    have hfid : first.artifactId = d.artifactId := by simpa using List.find?_some hfirst
    have hpair : SameContent e first :=
      List.Pairwise.forall_of_forall (fun _ _ _ => ⟨rfl, rfl, rfl⟩) hds he (List.mem_of_find?_eq_some hfirst)
    obtain ⟨hb, hm, hs⟩ := hpair (hid.trans hfid.symm)
    obtain ⟨hb', hm', hs'⟩ := h first hfirst hfid.symm
    exact ⟨hb.trans hb'.symm, hm.trans hm'.symm, hs.trans hs'.symm⟩
  · intro h e he
    exact (h e (List.mem_of_find?_eq_some he)).symm

theorem insertAll_spec (ds : List ArtifactDescriptor) :
    (Mergeable ds ↔ ∃ s, ds.foldlM Descriptors.insert .empty = .ok s) ∧
      ∀ s, ds.foldlM Descriptors.insert .empty = .ok s → Holds s ds := by
  induction ds using List.reverseRecOn with
  | nil =>
    refine ⟨⟨fun _ => ⟨_, rfl⟩, fun _ => ⟨List.nodup_nil, .nil⟩⟩, fun s hs => ?_⟩
    cases hs
    exact ⟨by simp [Descriptors.empty], by simp [Descriptors.empty, Descriptors.get]⟩
  | append_singleton ds d ih =>
    obtain ⟨hiff, hholds⟩ := ih
    have hstep : ∀ s', (ds ++ [d]).foldlM Descriptors.insert .empty = .ok s' ↔
        ∃ s, ds.foldlM Descriptors.insert .empty = .ok s ∧ s.insert d = .ok s' := by
      intro s'
      simp [List.foldlM_append, bind_eq_ok]
    constructor
    · constructor
      · rintro ⟨hpaths, hcontents⟩
        rw [List.map_append, List.nodup_append] at hpaths
        rw [List.pairwise_append] at hcontents
        obtain ⟨s, hs⟩ := hiff.mp ⟨hpaths.1, hcontents.1⟩
        have hh := hholds s hs
        refine ⟨_, (hstep _).mpr ⟨s, hs, insert_eq_ok.mpr ⟨?_, ?_, rfl⟩⟩⟩
        · rw [hh.paths]
          exact fun hmem => hpaths.2.2 _ hmem _ (by simp) rfl
        · rw [hh.get]
          exact (contents_of_first hcontents.1 d).mpr fun e he => hcontents.2.2 e he d (by simp)
      · rintro ⟨s', hs'⟩
        obtain ⟨s, hs, hins⟩ := (hstep s').mp hs'
        obtain ⟨hpaths, hcontents⟩ := hiff.mpr ⟨s, hs⟩
        have hh := hholds s hs
        obtain ⟨hfresh, hsame, -⟩ := insert_eq_ok.mp hins
        rw [hh.paths] at hfresh
        rw [hh.get, contents_of_first hcontents] at hsame
        constructor
        · rw [List.map_append, List.nodup_append]
          refine ⟨hpaths, by simp, fun a ha b hb => ?_⟩
          rintro rfl
          simp only [List.map_cons, List.map_nil, List.mem_singleton] at hb
          exact hfresh (hb ▸ ha)
        · rw [List.pairwise_append]
          refine ⟨hcontents, by simp, fun e he b hb => ?_⟩
          rw [List.mem_singleton] at hb
          exact hb ▸ hsame e he
    · intro s' hs'
      obtain ⟨s, hs, hins⟩ := (hstep s').mp hs'
      exact (hholds s hs).insert hins

/-- The dictionary keeps a part of the list, with every identity once; all of it if the list has
every identity once. -/
theorem insertAll_values (h : ds.foldlM Descriptors.insert .empty = .ok s) :
    s.values.Sublist ds ∧ (s.values.map (·.artifactId)).Nodup ∧ ((ds.map (·.artifactId)).Nodup → s.values = ds) := by
  induction ds using List.reverseRecOn generalizing s with
  | nil =>
    cases h
    simp [Descriptors.empty]
  | append_singleton ds d ih =>
    rw [List.foldlM_append, bind_eq_ok] at h
    obtain ⟨t, ht, h⟩ := h
    obtain ⟨u, hins, hu⟩ := bind_eq_ok.mp h
    cases hu
    obtain ⟨hsub, hnodup, hall⟩ := ih ht
    obtain ⟨-, -, rfl⟩ := insert_eq_ok.mp hins
    rcases hget : t.get d.artifactId with _ | e
    · have hfresh : d.artifactId ∉ t.values.map (·.artifactId) := by
        simpa [Descriptors.get] using hget
      simp only [Option.isSome_none, Bool.false_eq_true, if_false, List.map_append, List.nodup_append]
      refine ⟨hsub.append (List.Sublist.refl _), ⟨hnodup, by simp, ?_⟩, fun h => by rw [hall h.1]⟩
      intro a ha b hb hab
      rw [List.map_singleton, List.mem_singleton] at hb
      exact hfresh (hb ▸ hab ▸ ha)
    · simp only [Option.isSome_some, if_true, List.map_append, List.nodup_append]
      refine ⟨hsub.trans (List.sublist_append_left ds [d]), hnodup, fun h => ?_⟩
      have hid : e.artifactId = d.artifactId := by simpa using List.find?_some hget
      have he : e ∈ ds := hsub.subset (List.mem_of_find?_eq_some hget)
      exact absurd hid (h.2.2 _ (List.mem_map_of_mem he) _ (by simp))

theorem insertAll_length (h : ds.foldlM Descriptors.insert .empty = .ok s) :
    s.values.length = ds.length ↔ (ds.map (·.artifactId)).Nodup := by
  obtain ⟨hsub, hnodup, hall⟩ := insertAll_values h
  exact ⟨fun hlength => hsub.eq_of_length hlength ▸ hnodup, fun hids => by rw [hall hids]⟩

end Python

section Native

/-- One list, one set of paths, and an index that finds what the dictionary finds. -/
structure Mirrors (c : Native.ArtifactCollector) (s : Downloads.Descriptors) : Prop where
  descriptors : c.descriptors = s.values
  paths : c.paths = s.paths
  bounds : ∀ id i, c.byId.lookup id = some i → i < c.descriptors.length
  index : ∀ id, (c.byId.lookup id).bind (c.descriptors[·]?) = s.get id

theorem Mirrors.empty : Mirrors .empty .empty :=
  ⟨rfl, rfl, by simp [Native.ArtifactCollector.empty], by
    simp [Native.ArtifactCollector.empty, Downloads.Descriptors.empty, Downloads.Descriptors.get]⟩

variable {c : Native.ArtifactCollector} {s : Downloads.Descriptors}

theorem Mirrors.insert (h : Mirrors c s) (d : ArtifactDescriptor) :
    (∃ c' s', c.insert d = .ok c' ∧ s.insert d = .ok s' ∧ Mirrors c' s') ∨
      (∃ e, c.insert d = .error e) ∧ ∃ e, s.insert d = .error e := by
  unfold Native.ArtifactCollector.insert Downloads.Descriptors.insert
  have hindex := h.index d.artifactId
  by_cases hpath : d.path ∈ s.paths
  · exact .inr ⟨⟨_, if_pos (h.paths ▸ hpath)⟩, _, if_pos hpath⟩
  rw [h.paths, if_neg hpath, if_neg hpath]
  rcases hlookup : c.byId.lookup d.artifactId with _ | i
  · have hget : s.get d.artifactId = none := by rw [← hindex, hlookup, Option.bind_none]
    rw [hget]
    refine .inl ⟨_, _, rfl, rfl, by rw [h.descriptors], rfl, fun id i hi => ?_, fun id => ?_⟩
    · rw [List.lookup_cons] at hi
      rw [List.length_append]
      split at hi
      · cases hi
        simp
      · have := h.bounds id i hi
        omega
    · rw [List.lookup_cons, Downloads.Descriptors.get, List.find?_append, ← h.descriptors]
      have hid := h.index id
      rw [Downloads.Descriptors.get, ← h.descriptors] at hid
      by_cases hnew : id = d.artifactId
      · subst hnew
        rw [hlookup, Option.bind_none] at hid
        simp [← hid]
      · rw [← hid, beq_false_of_ne hnew]
        rcases hold : c.byId.lookup id with _ | i
        · simp [Ne.symm hnew]
        · have := h.bounds id i hold
          simp [List.getElem?_append_left this, List.getElem?_eq_getElem this]
  · have hbound := h.bounds _ _ hlookup
    rw [hlookup, Option.bind_some, List.getElem?_eq_getElem hbound] at hindex
    simp only [← hindex, List.getElem?_eq_getElem hbound]
    by_cases hsame : d.bytes ≠ c.descriptors[i].bytes || d.mediaType ≠ c.descriptors[i].mediaType ||
        d.sha256 ≠ c.descriptors[i].sha256
    · exact .inr ⟨⟨_, if_pos hsame⟩, _, if_pos hsame⟩
    · exact .inl ⟨_, _, if_neg hsame, if_neg hsame, h.descriptors, rfl, h.bounds, h.index⟩

theorem Mirrors.insertAll (h : Mirrors c s) (ds : List ArtifactDescriptor) :
    (∃ c' s', ds.foldlM Native.ArtifactCollector.insert c = .ok c' ∧
        ds.foldlM Downloads.Descriptors.insert s = .ok s' ∧ Mirrors c' s') ∨
      (∃ e, ds.foldlM Native.ArtifactCollector.insert c = .error e) ∧
        ∃ e, ds.foldlM Downloads.Descriptors.insert s = .error e := by
  induction ds generalizing c s with
  | nil => exact .inl ⟨c, s, rfl, rfl, h⟩
  | cons d ds ih =>
    rcases h.insert d with ⟨c', s', hc, hs, hm⟩ | ⟨⟨e, hc⟩, f, hs⟩
    · simpa only [List.foldlM_cons, hc, hs, bind, Except.bind] using ih hm
    · exact .inr ⟨⟨e, by simp [List.foldlM_cons, hc, bind, Except.bind]⟩, f,
        by simp [List.foldlM_cons, hs, bind, Except.bind]⟩

/-- Both readers merge a list of descriptors alike, if it can be merged. -/
theorem merge_iff (ds out : List ArtifactDescriptor) :
    (∃ c, ds.foldlM Native.ArtifactCollector.insert .empty = .ok c ∧ c.descriptors = out) ↔
      ∃ s, ds.foldlM Downloads.Descriptors.insert .empty = .ok s ∧ s.values = out := by
  rcases Mirrors.empty.insertAll ds with ⟨c, s, hc, hs, hm⟩ | ⟨⟨e, hc⟩, f, hs⟩
  · simp [hc, hs, hm.descriptors]
  · simp [hc, hs]

theorem mergeable_iff (ds : List ArtifactDescriptor) :
    Mergeable ds ↔ ∃ s, ds.foldlM Downloads.Descriptors.insert .empty = .ok s := (insertAll_spec ds).1

end Native

end Conductor.Artifact
