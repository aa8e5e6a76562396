import Conductor.Deployment.RuntimeArchive
import Conductor.Lib.Gather
import Mathlib.Data.List.Perm.Subperm

/-! A published runtime archive is the source with its links replaced by the files that they lead to. -/

namespace Conductor.Deployment.RuntimeArchive

open PosixPath Checked Gather

variable {m : TarInfo}

theorem not_isdir_of_isfile (h : m.isfile = true) : m.isdir = false := by
  cases hentry : m.entry <;> simp_all [TarInfo.isfile, TarInfo.isdir]

/-! ### Links -/

section Links

variable (source : List TarInfo)

/-- The link stands for another member: the walk along its text, from the directory of its name, ends at that name. -/
def Target (m t : TarInfo) : Prop :=
  ∃ linkname size, m.entry = .symbolicLink linkname size ∧ isAbsolute linkname = false ∧ t ∈ source ∧
    walk (components m.name).dropLast (components linkname) = some (components t.name)

/-- Following the links from a member ends at a regular file. -/
inductive Leads : TarInfo → TarInfo → Prop
  | file {m : TarInfo} : m.isfile = true → Leads m m
  | link {m t u : TarInfo} : Target source m t → Leads t u → Leads m u

/-- The text of a link is absolute, leaves the archive or its root, or names no member. -/
def Loose (c : TarInfo) : Prop :=
  ∃ linkname size, c.entry = .symbolicLink linkname size ∧
    (isAbsolute linkname = true ∨ walk (components c.name).dropLast (components linkname) = none ∨
      ∃ path, walk (components c.name).dropLast (components linkname) = some path ∧
        (path.head? ≠ (components c.name).head? ∨ ∀ t ∈ source, components t.name ≠ path))

/-- A link from which one comes to a loose link, to a cycle or to a directory. -/
def BadLink (m : TarInfo) : Prop :=
  m.issym = true ∧ ∃ c, Relation.ReflTransGen (Target source) m c ∧
    (Loose source c ∨ Relation.TransGen (Target source) c c ∨ c.isdir = true)

end Links

/-- What the checks of the source give. -/
structure Valid (source : List TarInfo) (root : Text) : Prop where
  known : root = python ∨ root = runtime
  plain : ∀ m ∈ source, ∀ c ∈ components m.name, Plain c
  rooted : ∀ m ∈ source, ∃ rest, rest ≠ [] ∧ components m.name = root :: rest
  nodup : (source.map (·.name)).Nodup
  kind : ∀ m ∈ source, m.isdir = true ∨ m.isfile = true ∨ m.issym = true

section Following

variable {source : List TarInfo} {root : Text} (h : Valid source root)

include h

variable {t : TarInfo}

theorem Valid.same (hm : m ∈ source) (ht : t ∈ source)
    (hname : components m.name = components t.name) : m = t := List.inj_on_of_nodup_map h.nodup hm ht (components_injective hname)

theorem Valid.length (hm : m ∈ source) : 2 ≤ (components m.name).length := by
  obtain ⟨rest, hrest, hcomponents⟩ := h.rooted m hm
  have := List.length_pos_iff.2 hrest
  rw [hcomponents, List.length_cons]
  omega

theorem Target.unique {u : TarInfo} (ht : Target source m t) (hu : Target source m u) : t = u := by
  obtain ⟨linkname, size, hentry, -, htm, hwalk⟩ := ht
  obtain ⟨linkname', size', hentry', -, hum, hwalk'⟩ := hu
  cases hentry.symm.trans hentry'
  exact h.same htm hum (Option.some.inj (hwalk.symm.trans hwalk'))

omit h in
theorem not_target_of_isfile (hm : m.isfile = true) : ¬ Target source m t := by
  rintro ⟨linkname, size, hentry, -⟩
  simp [TarInfo.isfile, hentry] at hm

theorem Leads.acyclic (hm : Leads source m t) : ¬ Relation.TransGen (Target source) m m := by
  induction hm with
  | file hfile =>
    intro hcycle
    obtain ⟨x, hx, -⟩ := Relation.TransGen.head'_iff.1 hcycle
    exact not_target_of_isfile hfile hx
  | link htarget _ ih =>
    intro hcycle
    obtain ⟨x, hx, hback⟩ := Relation.TransGen.head'_iff.1 hcycle
    obtain rfl := htarget.unique h hx
    exact ih (Relation.TransGen.tail' hback htarget)

theorem Leads.onward {c : TarInfo} (hm : Leads source m t) (hpath : Relation.ReflTransGen (Target source) m c) :
    Leads source c t := by
  induction hpath with
  | refl => exact hm
  | tail _ hstep ih =>
    cases ih with
    | file hfile => exact absurd hstep (not_target_of_isfile hfile)
    | link htarget hrest => rwa [← htarget.unique h hstep]

omit h in
theorem mem_of_path {c : TarInfo} (hm : m ∈ source) (hpath : Relation.ReflTransGen (Target source) m c) :
    c ∈ source := by
  cases hpath with
  | refl => exact hm
  | tail _ hstep =>
    obtain ⟨_, _, _, _, hc, _⟩ := hstep
    exact hc

/-- A link that leads to a file is not bad. -/
theorem Leads.not_bad (hmem : m ∈ source) (hm : Leads source m t) : ¬ BadLink source m := by
  rintro ⟨-, c, hpath, hbad⟩
  have hc := hm.onward h hpath
  have hcmem := mem_of_path hmem hpath
  rcases hbad with ⟨linkname, size, hentry, hloose⟩ | hcycle | hdir
  · cases hc with
    | file hfile => simp [TarInfo.isfile, hentry] at hfile
    | link htarget _ =>
      obtain ⟨linkname', size', hentry', hrelative, hmem', hwalk⟩ := htarget
      cases hentry.symm.trans hentry'
      rcases hloose with habsolute | hnone | ⟨path, hsome, hroot | hnothing⟩
      · rw [hrelative] at habsolute
        cases habsolute
      · rw [hnone] at hwalk
        cases hwalk
      · cases hsome.symm.trans hwalk
        obtain ⟨rest, -, hrest⟩ := h.rooted _ hmem'
        obtain ⟨rest', -, hrest'⟩ := h.rooted c hcmem
        exact hroot (by rw [hrest, hrest']; rfl)
      · cases hsome.symm.trans hwalk
        exact hnothing _ hmem' rfl
  · exact hc.acyclic h hcycle
  · cases hc with
    | file hfile =>
      rw [not_isdir_of_isfile hfile] at hdir
      cases hdir
    | link htarget _ =>
      obtain ⟨_, _, hentry, -⟩ := htarget
      simp [TarInfo.isdir, hentry] at hdir

/-! ### resolve -/

theorem follow_ok {current : TarInfo} {fuel : ℕ} {seen : List Text} (hcurrent : current ∈ source)
    (hf : follow source root m fuel seen current = .ok t) : Leads source current t ∧ t ∈ source ∧ t.isfile = true := by
  induction fuel generalizing seen current with
  | zero => cases hf
  | succ fuel ih =>
    unfold follow at hf
    split at hf
    · next linkname size hentry =>
      split at hf
      · cases hf
      · next hlink =>
        rw [not_or, Bool.not_eq_true] at hlink
        dsimp only at hf
        split at hf
        · cases hf
        · next target hfind =>
          split at hf
          · cases hf
          · have hmem := List.mem_of_find?_eq_some hfind
            have hname : target.name = normpath (join (dirname current.name) linkname) := by
              simpa using List.find?_some hfind
            have hwalk := (target_eq_iff (h.plain current hcurrent) (h.length hcurrent) hlink.2
              (h.plain target hmem)).1 hname.symm
            obtain ⟨hleads, hrest⟩ := ih hmem hf
            exact ⟨.link ⟨linkname, size, hentry, hlink.2, hmem, hwalk⟩ hleads, hrest⟩
    · split at hf
      · next hfile =>
        cases hf
        exact ⟨.file hfile, hcurrent, hfile⟩
      · cases hf

omit h in
/-- The names that were seen are different names of members, so the passes do not run out. -/
theorem follow_terminates {current : TarInfo} {fuel : ℕ} {seen : List Text} (hcurrent : current ∈ source)
    (hnodup : seen.Nodup) (hseen : seen ⊆ source.map (·.name)) (hfuel : source.length < fuel + seen.length) :
    follow source root m fuel seen current ≠ .error .outOfFuel := by
  induction fuel generalizing seen current with
  | zero =>
    have := (hnodup.subperm hseen).length_le
    rw [List.length_map] at this
    omega
  | succ fuel ih =>
    unfold follow
    split
    · split
      · simp [runtimeUnsafe]
      · next hlink =>
        rw [not_or] at hlink
        dsimp only
        split
        · simp [runtimeUnsafe]
        · next target hfind =>
          split
          · simp [runtimeUnsafe]
          · refine ih (List.mem_of_find?_eq_some hfind) (List.nodup_cons.2 ⟨hlink.1, hnodup⟩) ?_ ?_
            · exact List.cons_subset.2 ⟨List.mem_map_of_mem hcurrent, hseen⟩
            · rw [List.length_cons]
              omega
    · split
      · simp
      · simp [runtimeUnsafe]

end Following

/-! ### The source -/

theorem plain_of_not_crooked {name : Text} (h : ¬ crooked name) : ∀ c ∈ components name, Plain c := by
  intro c hc
  unfold crooked at h
  push Not at h
  obtain ⟨hempty, hhere, hup⟩ := h c hc
  exact ⟨hempty, hhere, hup, mem_components_slash hc⟩

/-- What the scan knows of the members that it has passed. -/
structure Scanned (s : Scan) : Prop where
  plain : ∀ m ∈ s.byName, ∀ c ∈ components m.name, Plain c
  rooted : ∀ m ∈ s.byName, ∃ root ∈ s.roots, ∃ rest, rest ≠ [] ∧ components m.name = root :: rest
  known : ∀ root ∈ s.roots, root = python ∨ root = runtime
  nodup : (s.byName.map (·.name)).Nodup
  kind : ∀ m ∈ s.byName, m.isdir = true ∨ m.isfile = true ∨ m.issym = true

theorem Scanned.empty : Scanned {} := ⟨by simp, by simp, by simp, by simp, by simp⟩

theorem scanMember_ok {s s' : Scan} (h : Scanned s) (hs : scanMember s m = .ok s') :
    Scanned s' ∧ s'.byName = s.byName ++ [m] := by
  unfold scanMember at hs
  dsimp only at hs
  split at hs
  · cases hs
  · next hgood =>
    cases hs
    refine ⟨?_, rfl⟩
    simp only [not_or, not_not] at hgood
    obtain ⟨-, hlen, hknown, hcrooked, hnew, -, hkind, -⟩ := hgood
    have hplain := plain_of_not_crooked hcrooked
    rw [parts_of_plain hplain] at hlen hknown
    rw [parts_of_plain hplain]
    obtain ⟨root, rest, hcomponents⟩ := List.exists_cons_of_ne_nil (components_ne_nil m.name)
    simp only [hcomponents, List.headD_cons]
    have hroot : root = python ∨ root = runtime := by simpa [hcomponents] using hknown
    have hrest : rest ≠ [] := by
      rintro rfl
      simp [hcomponents] at hlen
    have hroots : root ∈ (if root ∈ s.roots then s.roots else s.roots ++ [root]) ∧
        s.roots ⊆ (if root ∈ s.roots then s.roots else s.roots ++ [root]) ∧
        ∀ r ∈ (if root ∈ s.roots then s.roots else s.roots ++ [root]), r = python ∨ r = runtime := by
      split
      · next hmem => exact ⟨hmem, List.Subset.refl _, h.known⟩
      · refine ⟨by simp, List.subset_append_left _ _, fun r hr => ?_⟩
        rcases mem_concat.1 hr with hr | hr
        · exact h.known r hr
        · rwa [hr]
    obtain ⟨hmem, hsub, hall⟩ := hroots
    refine ⟨?_, ?_, hall, ?_, ?_⟩
    · intro t ht
      rcases mem_concat.1 ht with ht | ht
      · exact h.plain t ht
      · rwa [ht]
    · intro t ht
      rcases mem_concat.1 ht with ht | rfl
      · obtain ⟨r, hr, hrooted⟩ := h.rooted t ht
        exact ⟨r, hsub hr, hrooted⟩
      · exact ⟨root, hmem, rest, hrest, hcomponents⟩
    · show ((s.byName ++ [m]).map (·.name)).Nodup
      rw [List.map_append, List.map_singleton, List.nodup_append]
      refine ⟨h.nodup, List.nodup_singleton _, ?_⟩
      rintro a ha _ hb rfl
      exact hnew (List.mem_singleton.1 hb ▸ ha)
    · refine forall_mem_concat h.kind ?_
      tauto

theorem scanAll_ok {source : List TarInfo} {s s' : Scan} (h : Scanned s) (hs : source.foldlM scanMember s = .ok s') :
    Scanned s' ∧ s'.byName = s.byName ++ source := by
  induction source generalizing s with
  | nil =>
    cases hs
    exact ⟨h, by simp⟩
  | cons m source ih =>
    rw [List.foldlM_cons] at hs
    obtain ⟨t, ht, hrest⟩ := bind_eq_ok.1 hs
    obtain ⟨hscanned, hname⟩ := scanMember_ok h ht
    obtain ⟨hlast, hall⟩ := ih hscanned hrest
    exact ⟨hlast, by rw [hall, hname, List.append_assoc]; rfl⟩

theorem scan_ok {source byName : List TarInfo} {root : Text} (h : scan source = .ok (byName, root)) :
    byName = source ∧ Valid source root := by
  unfold scan at h
  dsimp only at h
  split at h
  · cases h
  obtain ⟨s, hs, h⟩ := bind_eq_ok.1 h
  obtain ⟨hscanned, hname⟩ := scanAll_ok Scanned.empty hs
  rw [show s.byName = source from hname] at h
  split at h
  · next r hroots =>
    cases h
    have hname : s.byName = source := hname
    have hone : ∀ r ∈ s.roots, r = root := fun r hr => by simpa [hroots] using hr
    refine ⟨rfl, ?_, hname ▸ hscanned.plain, ?_, hname ▸ hscanned.nodup, hname ▸ hscanned.kind⟩
    · exact hscanned.known root (by simp [hroots])
    · intro m hm
      obtain ⟨r, hr, hrooted⟩ := hscanned.rooted m (hname ▸ hm)
      rwa [hone r hr] at hrooted
  · cases h

/-! ### The output -/

/-- A member of the output beside its source. -/
structure Flat (source : List TarInfo) (root : Text) (m o : TarInfo) : Prop where
  name : ∃ rest, m.name = root ++ '/' :: rest ∧ o.name = runtime ++ '/' :: rest
  directory : m.isdir = true → o.isdir = true ∧ o.mode = 0o755
  file : m.isdir = false → ∃ t ∈ source, ∃ content, Leads source m t ∧ t.entry = .regular content ∧
    o.entry = .regular content ∧ o.mode = if t.mode &&& 0o111 ≠ 0 then 0o755 else 0o644

variable {fuel : ℕ} {fails : Io → Bool} {members : List TarInfo}

theorem rewriteMember_ok {source : List TarInfo} {root : Text} (h : Valid source root) {o : TarInfo}
    (hm : m ∈ source) (ho : rewriteMember source root fuel m = .ok o) : Flat source root m o := by
  obtain ⟨rest, hrest, hcomponents⟩ := h.rooted m hm
  have hname : ∃ rest, m.name = root ++ '/' :: rest ∧ normalizedName m.name = runtime ++ '/' :: rest := by
    refine ⟨slashed rest, ?_, ?_⟩
    · rw [← slashed_components m.name, hcomponents, slashed_cons hrest]
    · rw [normalizedName, parts_of_plain (h.plain m hm), hcomponents, List.tail_cons, slashed_cons hrest]
  unfold rewriteMember at ho
  split at ho
  · next hdir =>
    cases ho
    exact ⟨hname, fun _ => ⟨rfl, rfl⟩, fun hnot => by rw [hdir] at hnot; cases hnot⟩
  · next hdir =>
    obtain ⟨t, ht, ho⟩ := bind_eq_ok.1 ho
    obtain ⟨hleads, htm, -⟩ := follow_ok h hm ht
    split at ho
    · next content hcontent =>
      cases ho
      exact ⟨hname, fun hyes => absurd hyes hdir, fun _ => ⟨t, htm, content, hleads, hcontent, rfl, rfl⟩⟩
    · cases ho

variable {out : List TarInfo}

theorem rewrite_ok {source : List TarInfo} {root : Text} (h : Valid source root) {index : ℕ}
    (hm : members ⊆ source)
    (ho : rewrite fails source root fuel index members = .ok out) : List.Forall₂ (Flat source root) members out := by
  induction members generalizing index out with
  | nil =>
    cases ho
    exact .nil
  | cons m members ih =>
    obtain ⟨hmem, hrest⟩ := List.cons_subset.1 hm
    unfold rewrite at ho
    obtain ⟨o, hflat, ho⟩ := bind_eq_ok.1 ho
    dsimp only at ho
    split at ho
    · cases ho
    obtain ⟨others, hothers, ho⟩ := bind_eq_ok.1 ho
    cases ho
    exact .cons (rewriteMember_ok h hmem hflat) (ih hrest hothers)

/-- The passes of the loops are enough. -/
def Finishes {α : Type} (x : Except Failure α) : Prop := x ≠ .error .outOfFuel

theorem Finishes.bind {α β : Type} {x : Except Failure α} {f : α → Except Failure β} (hx : Finishes x)
    (hf : ∀ a, Finishes (f a)) : Finishes (x >>= f) := by
  cases x with
  | error e =>
    intro heq
    exact hx (congrArg Except.error (Except.error.inj heq))
  | ok a => exact hf a

theorem Finishes.foldlM {α β : Type} {f : β → α → Except Failure β} (hf : ∀ b a, Finishes (f b a)) (l : List α)
    (b : β) : Finishes (l.foldlM f b) := by
  induction l generalizing b with
  | nil => exact nofun
  | cons a l ih =>
    rw [List.foldlM_cons]
    exact Finishes.bind (hf b a) ih

theorem scan_finishes (source : List TarInfo) : Finishes (scan source) := by
  unfold scan
  dsimp only
  split
  · exact fun heq => by cases heq
  · refine Finishes.bind (Finishes.foldlM (fun s m => ?_) _ _) fun s => ?_
    · unfold scanMember
      dsimp only
      split
      · exact fun heq => by cases heq
      · exact nofun
    · split
      · exact nofun
      · exact fun heq => by cases heq

theorem inspect_finishes (fails : Io → Bool) (members : List TarInfo) : Finishes (inspectRuntime fails members) := by
  unfold inspectRuntime
  split
  · exact fun heq => by cases heq
  · have hvalidated : Finishes (validatedRuntimeMembers members) := by
      unfold validatedRuntimeMembers
      dsimp only
      split
      · exact fun heq => by cases heq
      · refine Finishes.bind (Finishes.foldlM (fun s m => ?_) _ _) fun s => ?_
        · unfold validateMember
          dsimp only
          split
          · exact fun heq => by cases heq
          · exact nofun
        · split
          · exact fun heq => by cases heq
          · exact nofun
    cases hv : validatedRuntimeMembers members with
    | error e =>
      rw [hv] at hvalidated
      exact fun heq => hvalidated (congrArg Except.error (Except.error.inj heq))
    | ok v => exact nofun

theorem rewriteMember_finishes {source : List TarInfo} {root : Text} (hm : m ∈ source)
    (hfuel : source.length < fuel) : Finishes (rewriteMember source root fuel m) := by
  unfold rewriteMember
  split
  · exact nofun
  · refine Finishes.bind (follow_terminates hm List.nodup_nil (List.nil_subset _) (by simpa using hfuel)) fun t => ?_
    split
    · exact nofun
    · exact fun heq => by cases heq

theorem rewrite_finishes {source : List TarInfo} {root : Text} {index : ℕ}
    (hm : members ⊆ source) (hfuel : source.length < fuel) :
    Finishes (rewrite fails source root fuel index members) := by
  induction members generalizing index with
  | nil => exact nofun
  | cons m members ih =>
    obtain ⟨hmem, hrest⟩ := List.cons_subset.1 hm
    unfold rewrite
    refine Finishes.bind (rewriteMember_finishes hmem hfuel) fun o => ?_
    dsimp only
    split
    · exact fun heq => by cases heq
    · exact Finishes.bind (ih hrest) fun _ => nofun

/-- What the validator of the bundle format accepts. -/
theorem validateMember_ok {s s' : Validated} (h : validateMember s m = .ok s') :
    m.issym = false ∧ m.islnk = false ∧ m.name ∉ s.names ∧ s'.names = m.name :: s.names ∧
      s'.unpackedBytes = s.unpackedBytes + m.size ∧ s'.unpackedBytes ≤ maxUnpackedBytes := by
  unfold validateMember at h
  dsimp only at h
  split at h
  · cases h
  · next hgood =>
    cases h
    simp only [not_or, not_not, Bool.not_eq_true, not_lt] at hgood
    obtain ⟨-, -, -, -, hnew, hsym, hlnk, -, hbytes⟩ := hgood
    exact ⟨hsym, hlnk, hnew, rfl, rfl, hbytes⟩

theorem validateAll_ok {s s' : Validated} (hs : s.unpackedBytes ≤ maxUnpackedBytes)
    (h : members.foldlM validateMember s = .ok s') :
    (∀ m ∈ members, m.issym = false ∧ m.islnk = false) ∧ (members.map (·.name)).Nodup ∧
      (∀ m ∈ members, m.name ∉ s.names) ∧ s.unpackedBytes + (members.map (·.size)).sum ≤ maxUnpackedBytes := by
  induction members generalizing s with
  | nil => exact ⟨by simp, List.nodup_nil, by simp, by simpa using hs⟩
  | cons m members ih =>
    rw [List.foldlM_cons] at h
    obtain ⟨t, ht, hrest⟩ := bind_eq_ok.1 h
    obtain ⟨hsym, hlnk, hnew, hnames, hbytes, hle⟩ := validateMember_ok ht
    obtain ⟨hlinks, hnodup, hfresh, hsum⟩ := ih hle hrest
    rw [hnames] at hfresh
    refine ⟨List.forall_mem_cons.2 ⟨⟨hsym, hlnk⟩, hlinks⟩, ?_, ?_, ?_⟩
    · rw [List.map_cons, List.nodup_cons]
      refine ⟨fun hmem => ?_, hnodup⟩
      obtain ⟨n, hn, heq⟩ := List.mem_map.1 hmem
      exact hfresh n hn (heq ▸ List.mem_cons_self)
    · exact List.forall_mem_cons.2 ⟨hnew, fun n hn hmem => hfresh n hn (List.mem_cons_of_mem _ hmem)⟩
    · rw [List.map_cons, List.sum_cons]
      omega

/-- The output that stands for a source. -/
structure Flattened (source out : List TarInfo) : Prop where
  accepted : validatedRuntimeMembers out = .ok out
  members : ∃ root, (root = python ∨ root = runtime) ∧ List.Forall₂ (Flat source root) source out
  distinct : (source.map (·.name)).Nodup ∧ (out.map (·.name)).Nodup
  no_links : ∀ o ∈ out, o.issym = false ∧ o.islnk = false
  bounded : (out.map (·.size)).sum ≤ maxUnpackedBytes

theorem accepted_of_inspect (h : inspectRuntime fails out = .ok ()) :
    validatedRuntimeMembers out = .ok out ∧ ∃ v, out.foldlM validateMember {} = .ok v := by
  unfold inspectRuntime at h
  split at h
  · cases h
  unfold validatedRuntimeMembers at h ⊢
  dsimp only at h ⊢
  split at h
  · cases h
  · next hlen =>
    rw [if_neg hlen]
    cases hv : out.foldlM validateMember {} with
    | error e =>
      rw [hv] at h
      cases h
    | ok v =>
      refine ⟨?_, v, rfl⟩
      rw [hv] at h
      cases hfound : v.executableFound with
      | true => simp [bind, Except.bind, hfound, pure, Except.pure]
      | false =>
        simp [bind, Except.bind, hfound, throw, throwThe, MonadExceptOf.throw, Except.map] at h

theorem flattened {source : List TarInfo} {root : Text} (h : Valid source root)
    (hrewrite : rewrite fails source root fuel 0 source = .ok out) (hinspect : inspectRuntime fails out = .ok ()) :
    Flattened source out := by
  obtain ⟨haccepted, v, hv⟩ := accepted_of_inspect hinspect
  obtain ⟨hlinks, hnodup, -, hsum⟩ := validateAll_ok (Nat.zero_le _) hv
  exact ⟨haccepted, ⟨root, h.known, rewrite_ok h (List.Subset.refl _) hrewrite⟩, ⟨h.nodup, hnodup⟩, hlinks,
    by simpa using hsum⟩

/-! ### A bad link -/

theorem not_badLink {source : List TarInfo} {root : Text} (h : Valid source root)
    (hrewrite : rewrite fails source root fuel 0 source = .ok out) (hm : m ∈ source) : ¬ BadLink source m := by
  intro hbad
  have hflat := rewrite_ok h (List.Subset.refl _) hrewrite
  obtain ⟨o, -, ho⟩ := exists_of_forall₂ hflat.flip hm
  have hdir : m.isdir = false := by
    have hsym := hbad.1
    cases hentry : m.entry <;> simp_all [TarInfo.issym, TarInfo.isdir]
  obtain ⟨t, -, content, hleads, -⟩ := ho.file hdir
  exact hleads.not_bad h hm hbad

/-! ### The whole -/

/-- How the writing of the output ends. -/
theorem writeOutput_cases (fails : Io → Bool) (fuel : ℕ) (source byName : List TarInfo) (root : Text) (disk : Disk) :
    let r := writeOutput fails fuel source byName root disk
    (∃ e, r.1 = .error e ∧ r.2.output = disk.output) ∨
    ∃ out, rewrite fails byName root fuel 0 source = .ok out ∧ inspectRuntime fails out = .ok () ∧
      r.2.output = some out ∧ (r.1 = .ok () ∨ r.1 = .error .osError ∧ fails .syncDirectory = true) := by
  unfold writeOutput
  split
  · exact .inl ⟨_, rfl, rfl⟩
  · split
    · next e he => exact .inl ⟨e, rfl, rfl⟩
    · next out hout =>
      split
      · next e he => exact .inl ⟨e, rfl, rfl⟩
      · next hin =>
        split
        · exact .inl ⟨_, rfl, rfl⟩
        · refine .inr ⟨out, hout, hin, rfl, ?_⟩
          split
          · next hsync => exact .inr ⟨rfl, hsync⟩
          · exact .inl rfl

theorem writeOutput_finishes (root : Text) (disk : Disk) (hfuel : source.length < fuel) :
    Finishes (writeOutput fails fuel source source root disk).1 := by
  have hrewrite : Finishes (rewrite fails source root fuel 0 source) := rewrite_finishes (List.Subset.refl source) hfuel
  unfold writeOutput
  split
  · exact nofun
  · split
    · next e he => exact fun heq => hrewrite (by rw [he, Except.error.inj heq])
    · next out hout =>
      split
      · next e he => exact fun heq => inspect_finishes fails out (he.trans heq)
      · split
        · exact nofun
        · split
          · exact nofun
          · exact nofun

/-- The output is as it was when an error is raised, unless the directory could not be synchronised or the temporary
file not removed after the replacement; otherwise it stands for the source. -/
structure Faithful (fails : Io → Bool) (source : List TarInfo) (disk : Disk) (r : Except Failure Unit × Disk) :
    Prop where
  terminates : Finishes r.1
  outcome : (∃ e, r.1 = .error e) ∧ r.2.output = disk.output ∨ ∃ out, r.2.output = some out ∧ Flattened source out ∧
    (r.1 = .ok () ∨ (∃ e, r.1 = .error e) ∧ (fails .syncDirectory = true ∨ fails .unlink = true))
  bad_links : ∀ m ∈ source, BadLink source m → (∃ e, r.1 = .error e) ∧ r.2.output = disk.output

theorem mapError_raised {x : Except Failure Unit} (hx : Finishes x) : Finishes (x.mapError raised) := by
  cases x with
  | error e =>
    cases e with
    | deploymentError code message => exact nofun
    | osError => exact nofun
    | outOfFuel => exact absurd rfl hx
  | ok a => exact nofun

theorem normalize_faithful (fails : Io → Bool) {source : List TarInfo} (hfuel : source.length < fuel)
    (disk : Disk) : Faithful fails source disk (normalizeRuntimeArchive fails fuel source disk) := by
  unfold normalizeRuntimeArchive
  split
  · exact ⟨nofun, .inl ⟨⟨_, rfl⟩, rfl⟩, fun _ _ _ => ⟨⟨_, rfl⟩, rfl⟩⟩
  cases hscan : scan source with
  | error e =>
    have hfinish := scan_finishes source
    rw [hscan] at hfinish
    exact ⟨mapError_raised (x := .error e) fun heq => hfinish (congrArg Except.error (Except.error.inj heq)),
      .inl ⟨⟨_, rfl⟩, rfl⟩, fun _ _ _ => ⟨⟨_, rfl⟩, rfl⟩⟩
  | ok scanned =>
    obtain ⟨byName, root⟩ := scanned
    obtain ⟨rfl, hvalid⟩ := scan_ok hscan
    have hfinish : Finishes (writeOutput fails fuel byName byName root disk).1 := writeOutput_finishes root disk hfuel
    have hcases := writeOutput_cases fails fuel byName byName root disk
    dsimp only at hcases ⊢
    generalize writeOutput fails fuel byName byName root disk = w at hfinish hcases ⊢
    obtain ⟨x, after⟩ := w
    unfold unlinkTemporary
    have hend : Finishes (if fails .unlink then (.error .osError, after)
        else (x, { after with temporary := false }) : Except Failure Unit × Disk).1 := by
      split
      · exact nofun
      · exact hfinish
    rcases hcases with ⟨e, he, hsame⟩ | ⟨out, hout, hin, houtput, hok⟩
    · obtain rfl : x = .error e := he
      have hraised : (∃ e', (if fails .unlink then (.error .osError, after)
          else (.error e, { after with temporary := false }) : Except Failure Unit × Disk).1.mapError raised =
            .error e') ∧
          (if fails .unlink then (.error .osError, after)
          else (.error e, { after with temporary := false }) : Except Failure Unit × Disk).2.output = disk.output := by
        split
        · exact ⟨⟨_, rfl⟩, hsame⟩
        · exact ⟨⟨_, rfl⟩, hsame⟩
      exact ⟨mapError_raised hend, .inl hraised, fun _ _ _ => hraised⟩
    · have hflat := flattened hvalid hout hin
      refine ⟨mapError_raised hend, .inr ⟨out, ?_, hflat, ?_⟩,
        fun m hm hbad => absurd hbad (not_badLink hvalid hout hm)⟩
      · split
        · exact houtput
        · exact houtput
      · split
        · next hunlink => exact .inr ⟨⟨_, rfl⟩, .inr hunlink⟩
        · rcases hok with hok | ⟨hok, hsync⟩
          · obtain rfl : x = .ok () := hok
            exact .inl rfl
          · obtain rfl : x = .error .osError := hok
            exact .inr ⟨⟨_, rfl⟩, .inl hsync⟩

/-- Whatever fails, an output stands for the source or is as it was. With files that do not fail, an archive is flattened
or refused with the output as it was, and one with a bad link is refused. -/
theorem runtime_archives_flattened {fuel : ℕ} {source : List TarInfo} (hfuel : source.length < fuel) (disk : Disk) :
    (∀ fails, Faithful fails source disk (normalizeRuntimeArchive fails fuel source disk)) ∧
    let r := normalizeRuntimeArchive (fun _ => false) fuel source disk
    r.1 ≠ .error .outOfFuel ∧
    ((∃ e, r.1 = .error e) ∧ r.2.output = disk.output ∨
      r.1 = .ok () ∧ ∃ out, r.2.output = some out ∧ Flattened source out) ∧
    ∀ m ∈ source, BadLink source m → (∃ e, r.1 = .error e) ∧ r.2.output = disk.output := by
  have h := normalize_faithful (fun _ => false) hfuel disk
  refine ⟨fun fails => normalize_faithful fails hfuel disk, h.terminates, ?_, h.bad_links⟩
  rcases h.outcome with hraised | ⟨out, hout, hflat, hok | ⟨-, hfault⟩⟩
  · exact .inl hraised
  · exact .inr ⟨hok, out, hout, hflat⟩
  · simp at hfault

/-- A link beside its target. -/
def sampleSource : List TarInfo :=
  [⟨"python/bin".toList, 0o755, .directory 0⟩, ⟨"python/bin/python3.11".toList, 0o755, .regular [1, 2, 3]⟩,
    ⟨"python/bin/python3".toList, 0o777, .symbolicLink "../bin/python3.11".toList 0⟩]

def sampleOutput : List TarInfo :=
  [⟨"runtime/bin".toList, 0o755, .directory 0⟩, ⟨"runtime/bin/python3.11".toList, 0o755, .regular [1, 2, 3]⟩,
    ⟨"runtime/bin/python3".toList, 0o755, .regular [1, 2, 3]⟩]

theorem runtime_archives_flattened_sample :
    normalizeRuntimeArchive (fun _ => false) 4 sampleSource ⟨none, false⟩ = (.ok (), ⟨some sampleOutput, false⟩) ∧
      Flattened sampleSource sampleOutput := by
  have hpublished : normalizeRuntimeArchive (fun _ => false) 4 sampleSource ⟨none, false⟩ =
      (.ok (), ⟨some sampleOutput, false⟩) := by decide +kernel
  obtain ⟨-, -, houtcome, -⟩ := runtime_archives_flattened (show sampleSource.length < 4 by decide) ⟨none, false⟩
  rw [hpublished] at houtcome
  rcases houtcome with ⟨⟨e, he⟩, -⟩ | ⟨-, out, hout, hflat⟩
  · cases he
  · cases hout
    exact ⟨hpublished, hflat⟩

end Conductor.Deployment.RuntimeArchive
