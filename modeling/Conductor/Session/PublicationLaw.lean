import Conductor.Session.Publication

/-! A take is never lost, as long as no step of the publication raises while the directory has no
`capture.json` and is not published. Before that window the originals recover; inside it the
manifest is complete, so that a process that only stops there leaves the next restart to publish. -/

namespace Conductor.Session.Publication

open Outcomes Prog Runs

variable {Content : Type} {f : Formats Content} {x : Faults Content} {t u : Take Content}

/-! ### Frames -/

namespace Take

theorem set_files_self (t : Take Content) (path : Path) (c : Option Content) :
    (t.set path c).files path = c :=
  Function.update_self ..

variable {path : Path}

theorem set_files_of_ne {other : Path} (h : other ≠ path) (t : Take Content) (c : Option Content) :
    (t.set path c).files other = t.files other := Function.update_of_ne h ..

theorem inputs_set (h : path.isInput = false) (t : Take Content) (c : Option Content) :
    (t.set path c).inputs = t.inputs := by
  funext other
  simp only [inputs]
  split
  · rename_i hother
    apply set_files_of_ne
    rintro rfl
    rw [h] at hother
    cases hother
  · rfl

theorem inputs_eq_some {c : Content} (h : t.inputs path = some c) : t.files path = some c := by
  simp only [inputs] at h
  split at h
  · exact h
  · cases h

end Take

/-- A valid manifest lists no control file. -/
def Listed (f : Formats Content) (c : Content) : Prop :=
  ∀ artifacts, f.artifacts c = some artifacts → ∀ a ∈ artifacts, a.path ∉ controls

variable {c : Content}

theorem Listed.of_invalid (h : f.artifacts c = none) : Listed f c := by
  intro artifacts hartifacts
  rw [h] at hartifacts
  cases hartifacts

def Take.Clean (f : Formats Content) (t : Take Content) : Prop :=
  ∀ c, t.files manifestPath = some c → Listed f c

namespace Take.Clean

theorem of_absent (h : t.files manifestPath = none) : t.Clean f := by
  intro c hc
  rw [h] at hc
  cases hc

theorem set_manifest (h : Listed f c) : (t.set manifestPath (some c)).Clean f := by
  intro c' hc
  rw [set_files_self] at hc
  cases hc
  exact h

theorem set (h : t.Clean f) {path : Path} (hpath : manifestPath ≠ path) (c : Option Content) :
    (t.set path c).Clean f := by
  intro c' hc
  rw [set_files_of_ne hpath] at hc
  exact h c' hc

end Take.Clean

theorem Take.has_set {artifacts : List Artifact} {path : Path} (h : ∀ a ∈ artifacts, a.path ≠ path)
    (t : Take Content) (c : Option Content) : (t.set path c).has f artifacts = t.has f artifacts := by
  simp only [Take.has]
  rw [Bool.eq_iff_iff, List.all_eq_true, List.all_eq_true]
  refine forall₂_congr fun a ha => ?_
  rw [set_files_of_ne (h a ha)]

theorem Take.inspect_iff : t.inspect f = true ↔ ∃ c artifacts,
    t.files manifestPath = some c ∧ f.artifacts c = some artifacts ∧ t.has f artifacts = true := by
  simp only [Take.inspect, Option.any_eq_true, Option.bind_eq_some_iff]
  constructor
  · rintro ⟨artifacts, ⟨c, hc, ha⟩, hhas⟩
    exact ⟨c, artifacts, hc, ha, hhas⟩
  · rintro ⟨c, artifacts, hc, ha, hhas⟩
    exact ⟨artifacts, ⟨c, hc, ha⟩, hhas⟩

/-- Control files come and go under a manifest. -/
theorem Take.Clean.inspect_set (h : t.Clean f) (path : Path) (hpath : manifestPath ≠ path)
    (hcontrol : path ∈ controls) (c : Option Content) (hinspect : t.inspect f = true) : (t.set path c).inspect f = true := by
  obtain ⟨m, artifacts, hm, ha, hhas⟩ := Take.inspect_iff.1 hinspect
  refine Take.inspect_iff.2 ⟨m, artifacts, ?_, ha, ?_⟩
  · rwa [set_files_of_ne hpath]
  · rw [Take.has_set]
    · exact hhas
    · rintro a hmem rfl
      exact h m hm artifacts ha a hmem hcontrol

/-! ### What the phases know -/

/-- The files after the outputs of a recovery are installed. -/
def installed : List (String × Content) → Files Content → Files Content
  | [], files => files
  | (name, c) :: outputs, files => installed outputs (Function.update files (.recovery name) (some c))

/-- The manifest of a recovery is valid in any directory that has its inputs and its outputs. -/
def Recovery.Sound (f : Formats Content) (inputs : Files Content) (r : Recovery Content) : Prop :=
  ∃ artifacts, f.artifacts r.manifest = some artifacts ∧ ∀ a ∈ artifacts,
    a.path ∉ controls ∧ ∃ c, installed r.outputs inputs a.path = some c ∧ f.bytes c = a.bytes

/-- The inputs of `recover_device_session` have a valid prefix, whatever the recording state. -/
def Take.Recoverable (f : Formats Content) (t : Take Content) : Prop :=
  ∃ recovered, f.recovered t.inputs = some recovered ∧ ∀ c, (recovered c).Sound f t.inputs

structure Take.Ready (f : Formats Content) (t : Take Content) : Prop where
  partialName : t.published = false
  clean : t.Clean f
  recoverable : t.Recoverable f

/-- Between the removal of `capture.json` and the rename. -/
structure Take.Sealed (f : Formats Content) (t : Take Content) : Prop where
  partialName : t.published = false
  clean : t.Clean f
  inspect : t.inspect f = true
  absent : t.files capturePath = none

structure Take.Published (f : Formats Content) (t : Take Content) : Prop where
  finalName : t.published = true
  inspect : t.inspect f = true

inductive Take.Safe (f : Formats Content) (t : Take Content) : Prop where
  | ready (h : t.Ready f)
  | sealed (h : t.Sealed f)
  | published (h : t.Published f)

/-- A recording that goes on: nothing of a publication is there, and its recovery would succeed. -/
structure Take.Recording (f : Formats Content) (t : Take Content) : Prop where
  partialName : t.published = false
  absent : t.files manifestPath = none
  recoverable : t.Recoverable f

/-- No step of the two publications that raise into a handler does so between the removal of
`capture.json` and the rename. -/
def Faults.Meets (x : Faults Content) : Prop :=
  ∀ site t, x.raises site t = true → site = .stop ∨ site = .restart → t.published = false →
    t.files capturePath ≠ none

/-- Where a program breaks off. -/
structure Broken (f : Formats Content) (x : Faults Content) (t : Take Content) : Prop where
  fault : x.stops = true ∨ ∃ site t, x.raises site t = true
  safe : t.Safe f

namespace Take

theorem Recording.ready (h : t.Recording f) : t.Ready f := ⟨h.partialName, .of_absent h.absent, h.recoverable⟩

theorem Recoverable.journals (h : t.Recoverable f) : ∀ name ∈ journals, t.files (.top name) ≠ none := by
  obtain ⟨recovered, hr, -⟩ := h
  intro name hname habsent
  refine f.recovered_journals t.inputs (by rw [hr]; rfl) name hname ?_
  simp only [inputs, habsent, ite_self]

theorem Recoverable.capture (h : t.Recoverable f) : t.files capturePath ≠ none :=
  h.journals "capture.json" (by simp [Publication.journals])

theorem Recoverable.set (h : t.Recoverable f) {path : Path} (hpath : path.isInput = false)
    (c : Option Content) : (t.set path c).Recoverable f := by
  unfold Recoverable
  rw [inputs_set hpath]
  exact h

namespace Ready

theorem set_control (h : t.Ready f) (path : Path) (hpath : path.isInput = false) (hne : manifestPath ≠ path)
    (c : Option Content) : (t.set path c).Ready f :=
  ⟨h.partialName, h.clean.set hne c, h.recoverable.set hpath c⟩

theorem set_manifest (h : t.Ready f) (hc : Listed f c) : (t.set manifestPath (some c)).Ready f :=
  ⟨h.partialName, .set_manifest hc, h.recoverable.set rfl _⟩

theorem unset_manifest (h : t.Ready f) : (t.set manifestPath none).Ready f :=
  ⟨h.partialName, .of_absent (set_files_self ..), h.recoverable.set rfl _⟩

end Ready

theorem Sealed.set_control (h : t.Sealed f) (path : Path) (hcontrol : path ∈ controls)
    (hne : manifestPath ≠ path) (hcapture : capturePath ≠ path) (c : Option Content) :
    (t.set path c).Sealed f := by
  refine ⟨h.partialName, h.clean.set hne c, h.clean.inspect_set path hne hcontrol c h.inspect, ?_⟩
  rw [set_files_of_ne hcapture]
  exact h.absent

/-- The name does not matter to an inspection. -/
theorem Sealed.publish (h : t.Sealed f) : ({ t with published := true } : Take Content).Published f :=
  ⟨rfl, h.inspect⟩

end Take

/-! ### Steps -/

section Steps

variable {site : Site} {op : Op Content} {Q : Unit → Take Content → Prop} {R C : Take Content → Prop}

theorem spec_perform (hQ : ∀ u, op.apply f t = some u → Q () u) (hnone : op.apply f t = none → R t)
    (hR : x.raises site t = true → R (op.torn f t)) (hC : x.stops = true → C (op.torn f t)) :
    Spec (perform f x site op) t Q R C := by
  intro r hr
  obtain hr | hr | hr : r ∈ _ ∨ r ∈ _ ∨ r ∈ _ := by simpa only [perform, List.mem_append, or_assoc] using hr
  · split at hr
    · rename_i hstops
      rw [List.mem_singleton.1 hr]
      exact hC hstops
    · cases hr
  · split at hr
    · rename_i hraises
      rw [List.mem_singleton.1 hr]
      exact hR hraises
    · cases hr
  · rw [List.mem_singleton.1 hr]
    cases happly : op.apply f t with
    | none => exact hnone happly
    | some u => exact hQ u happly

/-- A step that does `u`, and what follows it. -/
theorem spec_step {k : Unit → Prog (Take Content) Unit} (happly : op.apply f t = some u)
    (hR : x.raises site t = true → R (op.torn f t)) (hC : x.stops = true → C (op.torn f t))
    (hk : Spec (k ()) u Q R C) : Spec (perform f x site op >>= k) t Q R C := by
  refine spec_bind (spec_perform ?_ ?_ hR hC)
  · intro v hv
    rw [happly] at hv
    cases hv
    exact hk
  · intro hnone
    rw [happly] at hnone
    cases hnone

theorem spec_last (happly : op.apply f t = some u) (hQ : Q () u)
    (hR : x.raises site t = true → R (op.torn f t)) (hC : x.stops = true → C (op.torn f t)) : Spec (perform f x site op) t Q R C := by
  refine spec_perform ?_ ?_ hR hC
  · intro v hv
    rw [happly] at hv
    cases hv
    exact hQ
  · intro hnone
    rw [happly] at hnone
    cases hnone

/-- `write_json_atomic` installs its file or leaves the directory alone. -/
theorem writeJsonAtomic_spec {path : Path} (hQ : Q () (t.set path (some c)))
    (hR : ∀ u, (∃ site t, x.raises site t = true) → u = t ∨ u = t.set path (some c) → R u)
    (hC : ∀ u, x.stops = true → u = t ∨ u = t.set path (some c) → C u) :
    Spec (writeJsonAtomic f x site path c) t Q R C := by
  have hclean : ∀ (P : Unit → Take Content → Prop) u, P () u → u = t ∨ u = t.set path (some c) →
      Spec (suppress (perform f x site .temporary)) u P R C := by
    intro P u hP hu
    exact spec_suppress (spec_last rfl hP (fun _ => hP) fun hstop => hC u hstop hu)
  have hraise : ∀ u, x.raises site u = true → u = t ∨ u = t.set path (some c) →
      Spec (suppress (perform f x site .temporary)) u (fun _ => R) R C := by
    intro u hu heq
    exact hclean (fun _ => R) u (hR u ⟨site, u, hu⟩ heq) heq
  refine spec_ensure ?_
  iterate 4 refine spec_step rfl (fun h => hraise t h (.inl rfl)) (fun h => hC t h (.inl rfl)) ?_
  exact spec_last rfl (hclean Q _ hQ (.inr rfl)) (fun h => hraise _ h (.inr rfl)) fun h => hC _ h (.inr rfl)

/-- A suppressed removal of the manifest before the window. -/
theorem discard_spec (h : t.Ready f) :
    Spec (suppress (perform f x .other (.unlink manifestPath))) t (fun _ u => u.Ready f) R (Broken f x) :=
  spec_suppress (spec_last rfl h.unset_manifest (fun _ => h) fun hstop => ⟨.inl hstop, .ready h⟩)

end Steps

/-! ### The failure handlers -/

theorem markFailed_spec {R : Take Content → Prop} (h : t.Ready f) :
    Spec (markFailed f x) t (fun _ u => u.Ready f) R (Broken f x) := by
  refine spec_bind (spec_get ?_)
  rw [if_neg (by simp [h.partialName])]
  refine spec_bind ((discard_spec h).mono ?_ (fun _ h => h) fun _ h => h)
  intro _ u hu
  have hset := hu.set_control recordingPath rfl (by decide) (some f.failed)
  refine spec_suppress (writeJsonAtomic_spec hset ?_ ?_)
  · rintro v - (rfl | rfl)
    · exact hu
    · exact hset
  · rintro v hstop (rfl | rfl)
    · exact ⟨.inl hstop, .ready hu⟩
    · exact ⟨.inl hstop, .ready hset⟩

theorem stopHandler_spec {R : Take Content → Prop} (h : t.Ready f ∨ t.Published f) :
    Spec (stopHandler f x) t (fun _ u => u.Ready f ∨ u.Published f) R (Broken f x) := by
  refine spec_bind (spec_get ?_)
  rcases h with h | h
  · rw [if_neg (by simp [h.partialName])]
    refine spec_bind ((discard_spec h).mono ?_ (fun _ h => h) fun _ h => h)
    intro _ u hu
    exact (markFailed_spec hu).mono (fun _ _ hv => .inl hv) (fun _ h => h) fun _ h => h
  · rw [if_pos h.finalName]
    exact spec_pure (.inr h)

/-! ### `stop` -/

/-- The manifest of `stop` is there, and valid. -/
structure Sealing.Written (sealing : Sealing f) (t : Take Content) : Prop where
  manifest : t.files manifestPath = some sealing.payload
  has : t.has f sealing.artifacts = true

structure Sealing.Done (sealing : Sealing f) (t : Take Content) : Prop where
  finalName : t.published = true
  written : sealing.Written t

namespace Sealing

variable {sealing : Sealing f}

theorem listed (sealing : Sealing f) : Listed f sealing.payload := by
  intro artifacts hartifacts a ha
  obtain rfl : sealing.artifacts = artifacts := Option.some.inj (sealing.valid.symm.trans hartifacts)
  exact (sealing.kept a ha).1

theorem Written.inspect (h : sealing.Written t) : t.inspect f = true :=
  Take.inspect_iff.2 ⟨_, _, h.manifest, sealing.valid, h.has⟩

theorem Written.set (h : sealing.Written t) (path : Path) (hpath : path ∈ controls ∨ path ∈ sealing.originals)
    (hne : manifestPath ≠ path) (c : Option Content) : sealing.Written (t.set path c) := by
  constructor
  · rw [Take.set_files_of_ne hne]
    exact h.manifest
  · rw [Take.has_set]
    · exact h.has
    · rintro a ha rfl
      obtain ⟨hcontrol, horiginal⟩ := sealing.kept a ha
      exact hpath.elim hcontrol horiginal

theorem Done.published (h : sealing.Done t) : t.Published f := ⟨h.finalName, h.written.inspect⟩

end Sealing

theorem Broken.stop (hstop : x.stops = true) (h : t.Safe f) : Broken f x t := ⟨.inl hstop, h⟩

theorem Broken.raise {site : Site} (hraise : x.raises site u = true) (h : t.Safe f) : Broken f x t :=
  ⟨.inr ⟨site, u, hraise⟩, h⟩

/-- From the removal of the control files: here the condition is needed. -/
theorem unlinkControls_spec (hx : x.Meets) {sealing : Sealing f} (h : t.Ready f) (hw : sealing.Written t) :
    Spec
      (do
        perform f x .stop (.unlink recordingPath)
        perform f x .stop (.unlink capturePath)
        perform f x .stop .sync
        perform f x .stop .publish)
      t (fun _ => sealing.Done) (Take.Ready f) (Broken f x) := by
  refine spec_step rfl (fun _ => h) (fun hstop => .stop hstop (.ready h)) ?_
  have h₁ := h.set_control recordingPath rfl (by decide) none
  have hw₁ := hw.set recordingPath (.inl (by simp [controls])) (by decide) none
  -- `u` is the directory in the window
  obtain ⟨u, hu⟩ : ∃ u, (t.set recordingPath none).set capturePath none = u := ⟨_, rfl⟩
  have hw₂ : sealing.Written u := hu ▸ hw₁.set capturePath (.inl (by simp [controls])) (by decide) none
  have h₂ : u.Sealed f := by
    subst hu
    exact ⟨h₁.partialName, h₁.clean.set (by decide) none, hw₂.inspect, Take.set_files_self ..⟩
  have hwindow : x.raises .stop u = true → u.Ready f := by
    intro hraise
    exact absurd h₂.absent (hx .stop u hraise (.inl rfl) h₂.partialName)
  refine spec_step (congrArg some hu) (fun _ => h₁) (fun hstop => .stop hstop (.ready h₁)) ?_
  refine spec_step rfl hwindow (fun hstop => .stop hstop (.sealed h₂)) ?_
  refine spec_last (if_neg (by simp [h₂.partialName])) ?_ hwindow fun hstop => .stop hstop (.sealed h₂)
  exact ⟨rfl, hw₂.manifest, hw₂.has⟩

theorem sealDirectory_spec (hx : x.Meets) (sealing : Sealing f) (h : t.Ready f) :
    Spec (sealDirectory x sealing) t (fun _ => sealing.Done) (Take.Ready f) (Broken f x) := by
  refine spec_bind (spec_perform ?_ (fun _ => h) (fun _ => h) fun hstop => .stop hstop (.ready h))
  intro t₁ hcreate
  have h₁ : t₁.Ready f := by
    simp only [Op.apply] at hcreate
    split at hcreate
    · cases hcreate
    · cases hcreate
      exact h.set_manifest (.of_invalid f.empty_rejected)
  refine spec_step rfl (fun _ => h₁) (fun hstop => .stop hstop (.ready h₁)) ?_
  refine spec_bind (spec_perform ?_ (fun _ => h₁) (fun _ => h₁) fun hstop => .stop hstop (.ready h₁))
  intro t₂ hvalidate
  obtain ⟨hhas, rfl⟩ : t₁.has f sealing.artifacts = true ∧ t₁ = t₂ := by
    simpa [Op.apply, sealing.valid] using hvalidate
  have htorn := h₁.set_manifest (.of_invalid (f.torn_rejected sealing.payload))
  refine spec_step rfl (fun _ => htorn) (fun hstop => .stop hstop (.ready htorn)) ?_
  have h₃ := h₁.set_manifest sealing.listed
  have hw : sealing.Written (t₁.set manifestPath (some sealing.payload)) := by
    refine ⟨Take.set_files_self .., ?_⟩
    rw [Take.has_set]
    · exact hhas
    · intro a ha hpath
      exact (sealing.kept a ha).1 (by simp [hpath, controls])
  refine spec_step rfl (fun _ => h₃) (fun hstop => .stop hstop (.ready h₃)) ?_
  refine spec_step rfl (fun _ => h₃) (fun hstop => .stop hstop (.ready h₃)) ?_
  exact unlinkControls_spec hx h₃ hw

theorem unlinkOriginals_spec {sealing : Sealing f} {R : Take Content → Prop} (h : sealing.Done t) :
    Spec (unlinkOriginals x sealing) t (fun _ => sealing.Done) R (Broken f x) := by
  refine (spec_forM (I := fun paths u => (∀ path ∈ paths, path ∈ sealing.originals) ∧ sealing.Done u)
    ⟨fun _ h => h, h⟩ ?_).mono (fun _ _ h => h.2) (fun _ h => h) fun _ h => h
  rintro path paths u ⟨hpaths, hu⟩
  obtain ⟨horiginal, hrest⟩ := List.forall_mem_cons.1 hpaths
  have hne : manifestPath ≠ path := fun heq => sealing.manifest_kept (heq ▸ horiginal)
  have hdone : sealing.Done (u.set path none) := ⟨hu.finalName, hu.written.set path (.inr horiginal) hne none⟩
  exact spec_suppress
    (spec_last rfl ⟨hrest, hdone⟩ (fun _ => ⟨hrest, hu⟩) fun hstop => .stop hstop (.published hu.published))

/-- A check of the published take. -/
theorem checkDone_spec {sealing : Sealing f} {op : Op Content} (h : sealing.Done t)
    (happly : op.apply f t = some t) (htorn : op.torn f t = t) :
    Spec (perform f x .stop op) t (fun _ => sealing.Done) (Take.Published f) (Broken f x) := by
  refine spec_last happly h ?_ ?_
  · intro _
    rw [htorn]
    exact h.published
  · intro hstop
    rw [htorn]
    exact .stop hstop (.published h.published)

theorem Sealing.Done.validates {sealing : Sealing f} (h : sealing.Done t) :
    (Op.validate sealing.payload).apply f t = some t :=
  if_pos (by simp [sealing.valid, h.written.has])

theorem publishStop_spec (hx : x.Meets) (sealing : Sealing f) (native : Bool) (h : t.Ready f) :
    Spec (publishStop x sealing native) t (fun _ u => u.Published f) (fun u => u.Ready f ∨ u.Published f)
      (Broken f x) := by
  refine spec_bind (spec_perform ?_ (fun _ => .inl h) (fun _ => .inl h) fun hstop => .stop hstop (.ready h))
  intro t₁ hvalidate
  obtain ⟨-, rfl⟩ : t.has f sealing.artifacts = true ∧ t = t₁ := by
    simpa [Op.apply, sealing.valid] using hvalidate
  refine spec_step rfl (fun _ => .inl h) (fun hstop => .stop hstop (.ready h)) ?_
  refine spec_bind ((sealDirectory_spec hx sealing h).mono ?_ (fun _ hu => .inl hu) fun _ hu => hu)
  intro _ u hu
  refine Spec.mono (R := Take.Published f) (Q := fun _ => sealing.Done) ?_ (fun _ _ hv => hv.published)
    (fun _ hv => .inr hv) fun _ hv => hv
  cases native with
  | true =>
    refine spec_bind ((checkDone_spec hu rfl rfl).mono ?_ (fun _ hv => hv) fun _ hv => hv)
    intro _ v hv
    refine spec_bind ((checkDone_spec hv hv.validates rfl).mono ?_ (fun _ hv => hv) fun _ hv => hv)
    intro _ w hw
    exact unlinkOriginals_spec hw
  | false =>
    refine spec_bind ((unlinkOriginals_spec hu).mono ?_ (fun _ hv => hv) fun _ hv => hv)
    intro _ v hv
    refine spec_bind ((checkDone_spec hv rfl rfl).mono ?_ (fun _ hv => hv) fun _ hv => hv)
    intro _ w hw
    exact checkDone_spec hw hw.validates rfl

theorem stop_spec {R : Take Content → Prop} (hx : x.Meets) (sealing : Sealing f) (native : Bool)
    (h : t.Ready f) : Spec (stop x sealing native) t (fun _ u => u.Ready f ∨ u.Published f) R (Broken f x) :=
  spec_attempt ((publishStop_spec hx sealing native h).mono (fun _ _ hu => .inr hu)
    (fun _ hu => stopHandler_spec hu) fun _ hu => hu)

/-! ### `recover_device_session` -/

theorem installed_mono {outputs : List (String × Content)} {files files' : Files Content}
    (h : ∀ path c, files path = some c → files' path = some c) (path : Path) (c : Content)
    (hc : installed outputs files path = some c) : installed outputs files' path = some c := by
  induction outputs generalizing files files' with
  | nil => exact h path c hc
  | cons output outputs ih =>
    refine ih ?_ hc
    intro other c' hother
    by_cases heq : other = .recovery output.1
    · subst heq
      rw [Function.update_self] at hother ⊢
      exact hother
    · rw [Function.update_of_ne heq] at hother ⊢
      exact h other c' hother

/-- While outputs remain to be installed. -/
structure Installing (f : Formats Content) (inputs goal : Files Content) (outputs : List (String × Content))
    (t : Take Content) : Prop where
  ready : t.Ready f
  inputs_eq : t.inputs = inputs
  reaches : ∀ path c, goal path = some c → installed outputs t.files path = some c

variable {recovery : Recovery Content}

theorem outputs_spec (h : t.Ready f) :
    Spec (recovery.outputs.forM fun (name, c) => writeJsonAtomic f x .recover (.recovery name) c) t
      (fun _ => Installing f t.inputs (installed recovery.outputs t.inputs) []) (Broken f x) (Broken f x) := by
  refine spec_forM (I := Installing f t.inputs (installed recovery.outputs t.inputs)) ⟨h, rfl, ?_⟩ ?_
  · exact installed_mono fun _ _ => Take.inputs_eq_some
  · rintro ⟨name, c⟩ outputs u hu
    have hset := hu.ready.set_control (.recovery name) rfl nofun (some c)
    refine writeJsonAtomic_spec ⟨hset, ?_, hu.reaches⟩ ?_ ?_
    · rw [Take.inputs_set rfl]
      exact hu.inputs_eq
    · rintro v ⟨site, w, hraise⟩ (rfl | rfl)
      · exact .raise hraise (.ready hu.ready)
      · exact .raise hraise (.ready hset)
    · rintro v hstop (rfl | rfl)
      · exact .stop hstop (.ready hu.ready)
      · exact .stop hstop (.ready hset)

/-- The manifest of a sound recovery is accepted where its outputs are. -/
theorem Recovery.Sound.inspect {inputs : Files Content} (h : recovery.Sound f inputs)
    (hu : Installing f inputs (installed recovery.outputs inputs) [] u) :
    (u.set manifestPath (some recovery.manifest)).inspect f = true := by
  obtain ⟨artifacts, hartifacts, hall⟩ := h
  refine Take.inspect_iff.2 ⟨_, artifacts, Take.set_files_self .., hartifacts, ?_⟩
  refine List.all_eq_true.2 fun a ha => ?_
  obtain ⟨hcontrol, c, hc, hbytes⟩ := hall a ha
  have hne : a.path ≠ manifestPath := fun heq => hcontrol (by simp [heq, controls])
  have hfile : u.files a.path = some c := hu.reaches a.path c hc
  rw [Take.set_files_of_ne hne, hfile]
  exact decide_eq_true hbytes

theorem Recovery.Sound.listed {inputs : Files Content}
    (h : recovery.Sound f inputs) : Listed f recovery.manifest := by
  obtain ⟨artifacts, hartifacts, hall⟩ := h
  intro artifacts' hartifacts' a ha
  obtain rfl : artifacts = artifacts' := Option.some.inj (hartifacts.symm.trans hartifacts')
  exact (hall a ha).1

/-- `capture.json` goes to `recovery` under an accepted manifest. -/
theorem Take.Ready.archive (h : t.Ready f) (hinspect : t.inspect f = true) :
    ((t.set (.recovery "capture.json") (some c)).set capturePath none).Sealed f := by
  have h₁ := h.set_control (.recovery "capture.json") rfl (by decide) (some c)
  have hinspect₁ :=
    h.clean.inspect_set (.recovery "capture.json") (by decide) (by simp [controls]) (some c) hinspect
  exact ⟨h.partialName, h₁.clean.set (by decide) none,
    h₁.clean.inspect_set capturePath (by decide) (by simp [controls]) none hinspect₁, set_files_self ..⟩

theorem Take.Sealed.archive (h : t.Sealed f) :
    ((t.set (.recovery "recording.json") (some c)).set recordingPath none).Sealed f :=
  have h₁ := h.set_control (.recovery "recording.json") (by simp [controls]) (by decide) (by decide) (some c)
  h₁.set_control recordingPath (by simp [controls]) (by decide) (by decide) none

theorem replace_apply {source target : Path} (h : t.files source = some c) :
    (Op.replace source target).apply f t = some ((t.set target (some c)).set source none) := by
  simp only [Op.apply, h]

/-- A step of a program for which any failure is safe. -/
theorem spec_step_broken {site : Site} {op : Op Content} {k : Unit → Prog (Take Content) Unit}
    {Q : Unit → Take Content → Prop} (happly : op.apply f t = some u) (htorn : op.torn f t = t) (h : t.Safe f)
    (hk : Spec (k ()) u Q (Broken f x) (Broken f x)) :
    Spec (perform f x site op >>= k) t Q (Broken f x) (Broken f x) := by
  refine spec_step happly ?_ ?_ hk
  · intro hraise
    rw [htorn]
    exact .raise hraise h
  · intro hstop
    rw [htorn]
    exact .stop hstop h

theorem spec_last_broken {site : Site} {op : Op Content} {Q : Unit → Take Content → Prop}
    (happly : op.apply f t = some u) (htorn : op.torn f t = t) (h : t.Safe f) (hQ : Q () u) :
    Spec (perform f x site op) t Q (Broken f x) (Broken f x) := by
  refine spec_last happly hQ ?_ ?_
  · intro hraise
    rw [htorn]
    exact .raise hraise h
  · intro hstop
    rw [htorn]
    exact .stop hstop h

/-- From the removal of `capture.json` in `recover_device_session`. -/
theorem recoverRest_spec (h : t.Sealed f) :
    Spec
      (do
        archive "recording.json" (perform f x .recover (.replace recordingPath (.recovery "recording.json")))
        perform f x .recover .sync
        perform f x .recover .sync
        perform f x .recover .publish
        perform f x .recover .sync
        perform f x .recover .check)
      t (fun _ => Take.Published f) (Broken f x) (Broken f x) := by
  refine spec_bind (Spec.mono (Q := fun _ => Take.Sealed f) (R := Broken f x) (C := Broken f x) ?_ ?_
    (fun _ h => h) fun _ h => h)
  · refine spec_bind (spec_get ?_)
    cases hfile : t.files recordingPath with
    | none =>
      rw [if_neg (by simp)]
      exact spec_pure h
    | some c =>
      rw [if_pos Option.isSome_some]
      exact spec_last_broken (replace_apply hfile) rfl (.sealed h) h.archive
  · intro _ u hu
    have hp := hu.publish
    refine spec_step_broken rfl rfl (.sealed hu) ?_
    refine spec_step_broken rfl rfl (.sealed hu) ?_
    refine spec_step_broken (if_neg (by simp [hu.partialName])) rfl (.sealed hu) ?_
    refine spec_step_broken rfl rfl (.published hp) ?_
    exact spec_last_broken rfl rfl (.published hp) hp

/-- A failure leaves the manifest, so that no condition is needed. -/
theorem recover_spec (h : t.Ready f) :
    Spec (recover f x) t (fun _ => Take.Published f) (Broken f x) (Broken f x) := by
  obtain ⟨recovered, hrecovered, hsound⟩ := h.recoverable
  refine spec_bind (spec_get ?_)
  rw [if_neg (by simp [h.partialName]), hrecovered]
  refine spec_step_broken rfl rfl (.ready h) ?_
  refine spec_bind ((outputs_spec h).mono ?_ (fun _ hu => hu) fun _ hu => hu)
  intro _ u hu
  have hset := hu.ready.set_manifest (hsound (t.files recordingPath)).listed
  have hinspect := (hsound (t.files recordingPath)).inspect hu
  refine spec_bind (writeJsonAtomic_spec ?_ ?_ ?_)
  · refine spec_bind (spec_get ?_)
    rw [if_pos hinspect]
    refine spec_step_broken rfl rfl (.ready hset) ?_
    refine spec_bind (spec_bind (spec_get ?_))
    obtain ⟨c, hc⟩ := Option.ne_none_iff_exists'.1 hset.recoverable.capture
    rw [if_pos (by simp [hc])]
    exact spec_last_broken (replace_apply hc) rfl (.ready hset) (recoverRest_spec (hset.archive hinspect))
  · rintro v ⟨site, w, hraise⟩ (rfl | rfl)
    · exact .raise hraise (.ready hu.ready)
    · exact .raise hraise (.ready hset)
  · rintro v hstop (rfl | rfl)
    · exact .stop hstop (.ready hu.ready)
    · exact .stop hstop (.ready hset)

theorem fail_spec {R : Take Content → Prop} (mediaLost : Bool) (h : t.Ready f) :
    Spec (fail f x mediaLost) t (fun _ => Take.Safe f) R (Broken f x) := by
  refine spec_bind ((markFailed_spec h).mono ?_ (fun _ h => h) fun _ h => h)
  intro _ u hu
  cases mediaLost with
  | true => exact spec_pure (.ready hu)
  | false =>
    exact spec_suppress ((recover_spec hu).mono (fun _ _ hv => .published hv) (fun _ hv => hv.safe)
      fun _ hv => hv)

/-! ### A restart -/

/-- One pass over a control file in the window. -/
theorem archiveRestart_spec (hx : x.Meets) (h : t.Sealed f) :
    Spec (archiveRestart f x "recording.json") t (fun _ => Take.Sealed f) (fun _ => False) (Broken f x) := by
  have hwindow : ∀ u : Take Content, u.Sealed f → x.raises .restart u = true → False :=
    fun u hu hraise => hx .restart u hraise (.inr rfl) hu.partialName hu.absent
  refine spec_bind (spec_get ?_)
  cases hfile : t.files recordingPath with
  | none =>
    rw [if_neg (by simp)]
    exact spec_pure h
  | some c =>
    rw [if_pos Option.isSome_some]
    refine spec_step rfl (hwindow t h) (fun hstop => .stop hstop (.sealed h)) ?_
    refine spec_step rfl (hwindow t h) (fun hstop => .stop hstop (.sealed h)) ?_
    refine spec_step (replace_apply hfile) (hwindow t h) (fun hstop => .stop hstop (.sealed h)) ?_
    exact spec_last rfl h.archive (hwindow _ h.archive) fun hstop => .stop hstop (.sealed h.archive)

/-- `capture.json` goes first: a failure before it leaves the originals. -/
theorem archiveCapture_spec (hx : x.Meets) (h : t.Ready f ∨ t.Sealed f) (hinspect : t.inspect f = true) :
    Spec (archiveRestart f x "capture.json") t (fun _ => Take.Sealed f) (Take.Ready f) (Broken f x) := by
  refine spec_bind (spec_get ?_)
  rcases h with h | h
  · obtain ⟨c, hc⟩ := Option.ne_none_iff_exists'.1 h.recoverable.capture
    rw [if_pos (by simp [hc])]
    refine spec_step rfl (fun _ => h) (fun hstop => .stop hstop (.ready h)) ?_
    refine spec_step rfl (fun _ => h) (fun hstop => .stop hstop (.ready h)) ?_
    have h₁ := h.archive (c := c) hinspect
    refine spec_step (replace_apply hc) (fun _ => h) (fun hstop => .stop hstop (.ready h)) ?_
    refine spec_last rfl h₁ (fun hraise => ?_) fun hstop => .stop hstop (.sealed h₁)
    exact absurd h₁.absent (hx .restart _ hraise (.inr rfl) h₁.partialName)
  · rw [if_neg (by simp [h.absent])]
    exact spec_pure h

theorem publishRestart_spec (hx : x.Meets) (h : t.Ready f ∨ t.Sealed f) :
    Spec (publishRestart f x) t (fun _ => Take.Published f) (fun u => u.Ready f ∨ u.Published f)
      (Broken f x) := by
  refine spec_bind (spec_get ?_)
  by_cases hinspect : t.inspect f = true
  · rw [if_pos hinspect]
    refine spec_bind ((archiveCapture_spec hx h hinspect).mono ?_ (fun _ hu => .inl hu) fun _ hu => hu)
    intro _ u hu
    refine spec_bind ((archiveRestart_spec hx hu).mono ?_ (fun _ hu => hu.elim) fun _ hu => hu)
    intro _ v hv
    have hwindow : x.raises .restart v = true → v.Ready f ∨ v.Published f :=
      fun hraise => absurd hv.absent (hx .restart v hraise (.inr rfl) hv.partialName)
    refine spec_step rfl hwindow (fun hstop => .stop hstop (.sealed hv)) ?_
    refine spec_step (if_neg (by simp [hv.partialName])) hwindow (fun hstop => .stop hstop (.sealed hv)) ?_
    exact spec_last rfl hv.publish (fun _ => .inr hv.publish) fun hstop => .stop hstop (.published hv.publish)
  · rw [if_neg hinspect]
    exact spec_raise (h.imp_right fun hs => absurd hs.inspect hinspect)

theorem restartHandler_spec {R : Take Content → Prop} (h : t.Ready f ∨ t.Published f) :
    Spec (restartHandler f x) t (fun _ u => u.Ready f ∨ u.Published f) R (Broken f x) := by
  refine spec_bind (spec_get ?_)
  rcases h with h | h
  · rw [if_neg (by simp [h.partialName])]
    exact (discard_spec h).mono (fun _ _ hu => .inl hu) (fun _ hu => hu) fun _ hu => hu
  · rw [if_pos h.finalName]
    exact spec_pure (.inr h)

theorem settlePartial_spec {R : Take Content → Prop} (h : t.Ready f) :
    Spec (settlePartial f x) t (fun _ => Take.Ready f) R (Broken f x) := by
  refine spec_bind ((discard_spec h).mono ?_ (fun _ h => h) fun _ h => h)
  intro _ u hu
  refine spec_bind (spec_get ?_)
  split
  · exact spec_pure hu
  · rename_i c _
    refine spec_suppress ?_
    refine spec_step rfl (fun _ => hu) (fun hstop => .stop hstop (.ready hu)) ?_
    have hu₁ := hu.unset_manifest
    have hu₂ := hu₁.set_control recordingPath rfl (by decide) (some c)
    refine writeJsonAtomic_spec hu₂ ?_ ?_
    · rintro v - (rfl | rfl)
      · exact hu₁
      · exact hu₂
    · rintro v hstop (rfl | rfl)
      · exact .stop hstop (.ready hu₁)
      · exact .stop hstop (.ready hu₂)

/-- After the manifest, if there was one, was published or dropped. -/
theorem restartTail_spec (h : t.Ready f ∨ t.Published f) :
    Spec
      (do
        let t ← get
        if t.published then pure ()
        else
          settlePartial f x
          suppress (recover f x))
      t (fun _ u => u.Published f ∨ Broken f x u) (fun _ => False) (Broken f x) := by
  refine spec_bind (spec_get ?_)
  rcases h with h | h
  · rw [if_neg (by simp [h.partialName])]
    refine spec_bind ((settlePartial_spec h).mono ?_ (fun _ hu => hu) fun _ hu => hu)
    intro _ u hu
    exact spec_suppress ((recover_spec hu).mono (fun _ _ hv => .inl hv) (fun _ hv => .inr hv) fun _ hv => hv)
  · rw [if_pos h.finalName]
    exact spec_pure (.inl h)

/-- A restart publishes the take, or one of its steps broke off. -/
theorem restart_spec (hx : x.Meets) (h : t.Safe f) :
    Spec (recoverPartialDirectory f x) t (fun _ u => u.Published f ∨ Broken f x u) (fun _ => False)
      (Broken f x) := by
  refine spec_bind (spec_get ?_)
  have hpublish : ∀ h : t.Ready f ∨ t.Sealed f, Spec (attempt (publishRestart f x) (restartHandler f x)) t
      (fun _ u => u.Ready f ∨ u.Published f) (fun _ => False) (Broken f x) := fun h =>
    spec_attempt ((publishRestart_spec hx h).mono (fun _ _ hu => .inr hu) (fun _ hu => restartHandler_spec hu)
      fun _ hu => hu)
  rcases h with h | h | h
  · rw [if_neg (by simp [h.partialName])]
    dsimp only
    split
    · refine spec_bind ((hpublish (.inl h)).mono ?_ (fun _ hu => hu) fun _ hu => hu)
      intro _ u hu
      exact restartTail_spec hu
    · exact restartTail_spec (.inl h)
  · rw [if_neg (by simp [h.partialName])]
    obtain ⟨c, -, hc, -⟩ := Take.inspect_iff.1 h.inspect
    rw [if_pos (by simp [hc])]
    refine spec_bind ((hpublish (.inr h)).mono ?_ (fun _ hu => hu) fun _ hu => hu)
    intro _ u hu
    exact restartTail_spec hu
  · rw [if_pos h.finalName]
    exact spec_pure (.inl h)

/-! ### Runs -/

theorem noFaults_meets : (noFaults : Faults Content).Meets := nofun

theorem Broken.of_noFaults (h : Broken f noFaults t) : False := by
  obtain ⟨hstop | ⟨_, _, hraise⟩, -⟩ := h
  · cases hstop
  · cases hraise

/-- Every outcome of a spec whose parts all give `P`. -/
theorem of_mem {p : Prog (Take Content) Unit} {P : Take Content → Prop} (h : Spec p t (fun _ => P) P P)
    (hu : u ∈ (p t).map (·.2)) : P u := by
  obtain ⟨⟨o, v⟩, hr, rfl⟩ := List.mem_map.1 hu
  have h := h _ hr
  cases o with
  | value _ => exact h
  | raised => exact h
  | stopped => exact h

theorem takes_safe (hx : x.Meets) {event : Event f} (hready : event ≠ .restart → t.Ready f) (h : t.Safe f)
    (hu : u ∈ event.takes f x t) : u.Safe f := by
  cases event with
  | stop sealing native =>
    refine of_mem ((stop_spec hx sealing native (hready nofun)).mono ?_ (fun _ hv => hv) fun _ hv => hv.safe) hu
    intro _ v hv
    exact hv.elim .ready .published
  | fail mediaLost =>
    refine of_mem ((fail_spec mediaLost (hready nofun)).mono ?_ (fun _ hv => hv) fun _ hv => hv.safe) hu
    intro _ v hv
    exact hv
  | crash =>
    rw [List.mem_singleton.1 hu]
    exact h
  | restart =>
    refine of_mem ((restart_spec hx h).mono ?_ (fun _ hv => hv.elim) fun _ hv => hv.safe) hu
    intro _ v hv
    exact hv.elim .published Broken.safe

/-- The invariant of the runs. -/
structure State.Inv (f : Formats Content) (s : State Content) : Prop where
  safe : s.take.Safe f
  active_ready : s.active = true → s.take.Ready f

variable {s s' : State Content}

theorem step_inv (hx : x.Meets) {a : Event f × ℕ} (h : s.Inv f) (hstep : step f x s a = some s') : s'.Inv f := by
  obtain ⟨event, i⟩ := a
  simp only [step] at hstep
  split at hstep
  · rename_i henabled
    obtain ⟨u, hu, rfl⟩ := Option.map_eq_some_iff.1 hstep
    refine ⟨takes_safe hx ?_ h.safe (List.mem_of_getElem? hu), nofun⟩
    intro hne
    refine h.active_ready ?_
    cases event with
    | restart => exact absurd rfl hne
    | stop sealing native => exact henabled
    | fail mediaLost => exact henabled
    | crash => exact henabled
  · cases hstep

/-! ### Progress -/

theorem perform_total (site : Site) (op : Op Content) : (perform f x site op).Total :=
  ⟨fun _ => List.append_ne_nil_of_right_ne_nil _ (List.cons_ne_nil _ _)⟩

theorem writeJsonAtomic_total (site : Site) (path : Path) (c : Content) :
    (writeJsonAtomic f x site path c).Total := by
  refine Total.ensure ?_ (perform_total ..).suppress
  refine (perform_total ..).bind fun _ => (perform_total ..).bind fun _ => (perform_total ..).bind fun _ => ?_
  exact (perform_total ..).bind fun _ => perform_total ..

theorem archive_total (name : String) {steps : Prog (Take Content) Unit} (h : steps.Total) :
    (archive name steps).Total := by
  refine total_get.bind fun t => ?_
  split
  · exact h
  · exact total_pure ()

theorem recover_total : (recover f x).Total := by
  refine total_get.bind fun t => ?_
  split
  · exact total_pure ()
  · split
    · exact total_raise
    · refine (perform_total ..).bind fun _ => ?_
      refine (total_forM (fun _ => writeJsonAtomic_total ..) _).bind fun _ => ?_
      refine (writeJsonAtomic_total ..).bind fun _ => total_get.bind fun u => ?_
      split
      · refine (perform_total ..).bind fun _ => (archive_total _ (perform_total ..)).bind fun _ => ?_
        refine (archive_total _ (perform_total ..)).bind fun _ => (perform_total ..).bind fun _ => ?_
        refine (perform_total ..).bind fun _ => (perform_total ..).bind fun _ => ?_
        exact (perform_total ..).bind fun _ => perform_total ..
      · exact total_raise

theorem archiveRestart_total (name : String) : (archiveRestart f x name).Total := by
  refine archive_total name ((perform_total ..).bind fun _ => (perform_total ..).bind fun _ => ?_)
  exact (perform_total ..).bind fun _ => perform_total ..

theorem publishRestart_total : (publishRestart f x).Total := by
  refine total_get.bind fun t => ?_
  split
  · refine (archiveRestart_total _).bind fun _ => (archiveRestart_total _).bind fun _ => ?_
    exact (perform_total ..).bind fun _ => (perform_total ..).bind fun _ => perform_total ..
  · exact total_raise

theorem restartHandler_total : (restartHandler f x).Total := by
  refine total_get.bind fun t => ?_
  split
  · exact total_pure ()
  · exact (perform_total ..).suppress

theorem settlePartial_total : (settlePartial f x).Total := by
  refine (perform_total ..).suppress.bind fun _ => total_get.bind fun t => ?_
  split
  · exact total_pure ()
  · exact ((perform_total ..).bind fun _ => writeJsonAtomic_total ..).suppress

theorem recoverPartialDirectory_total : (recoverPartialDirectory f x).Total := by
  have htail : Total (do
      let t ← get
      if t.published then pure ()
      else
        settlePartial f x
        suppress (recover f x)) := by
    refine total_get.bind fun t => ?_
    split
    · exact total_pure ()
    · exact settlePartial_total.bind fun _ => recover_total.suppress
  refine total_get.bind fun t => ?_
  split
  · exact total_pure ()
  · dsimp only
    split
    · exact (publishRestart_total.attempt restartHandler_total).bind fun _ => htail
    · exact htail

/-! ### The result -/

/-- `recover_device_session` succeeds, without a fault of its own, and the journals are all there. -/
def Take.Recovers (f : Formats Content) (t : Take Content) : Prop :=
  (∀ name ∈ journals, t.files (.top name) ≠ none) ∧ recover f noFaults t ≠ [] ∧
    ∀ r ∈ recover f noFaults t, r.1 = .value () ∧ r.2.published = true ∧ r.2.inspect f = true

theorem Take.Ready.recovers (h : t.Ready f) : t.Recovers f := by
  refine ⟨h.recoverable.journals, recover_total.outcome t, ?_⟩
  rintro ⟨o, u⟩ hr
  have hspec := recover_spec h _ hr
  cases o with
  | value _ => exact ⟨rfl, hspec.finalName, hspec.inspect⟩
  | raised => exact (Broken.of_noFaults hspec).elim
  | stopped => exact (Broken.of_noFaults hspec).elim

theorem restart_published {a : Event f × ℕ} (h : s.take.Safe f)
    (hrestart : a.1 = .restart) (hstep : step f noFaults s a = some s') :
    s'.take.Published f ∧ s'.active = false := by
  obtain ⟨event, i⟩ := a
  obtain rfl : event = .restart := hrestart
  simp only [step] at hstep
  split at hstep
  · obtain ⟨u, hu, rfl⟩ := Option.map_eq_some_iff.1 hstep
    refine ⟨?_, rfl⟩
    refine of_mem ((restart_spec noFaults_meets h).mono ?_ (fun _ hv => hv.elim)
      fun _ hv => hv.of_noFaults.elim) (List.mem_of_getElem? hu)
    intro _ v hv
    exact hv.elim id fun hbroken => hbroken.of_noFaults.elim
  · cases hstep

theorem restarts_published {restarts : List (Event f × ℕ)} (hne : restarts ≠ [])
    (hall : ∀ a ∈ restarts, a.1 = .restart) (h : s.take.Safe f)
    (hrun : run (step f noFaults) s restarts = some s') : s'.take.Published f := by
  induction restarts generalizing s with
  | nil => exact absurd rfl hne
  | cons a restarts ih =>
    obtain ⟨hrestart, hrest⟩ := List.forall_mem_cons.1 hall
    obtain ⟨s₁, hstep, hrun⟩ := run_cons_eq_some.1 hrun
    obtain ⟨hpublished, -⟩ := restart_published h hrestart hstep
    cases restarts with
    | nil =>
      cases hrun
      exact hpublished
    | cons b restarts => exact ih (List.cons_ne_nil _ _) hrest (.published hpublished) hrun

theorem restarts_run (n : ℕ) (t : Take Content) :
    ∃ s, run (step f noFaults) ⟨t, false⟩ (List.replicate n (.restart, 0)) = some s := by
  induction n generalizing t with
  | zero => exact ⟨_, rfl⟩
  | succ n ih =>
    have htotal : (recoverPartialDirectory f noFaults).Total := recoverPartialDirectory_total
    obtain ⟨r, rs, hr⟩ := List.exists_cons_of_ne_nil (htotal.outcome t)
    obtain ⟨s, hs⟩ := ih r.2
    refine ⟨s, run_cons_eq_some.2 ⟨⟨r.2, false⟩, ?_, hs⟩⟩
    simp [step, Event.enabled, Event.takes, hr]

/-- Contents are their own numbers of bytes; 8 is the manifest of a `stop`, 9 that of a recovery. -/
def sample : Formats ℕ where
  bytes c := c
  artifacts c :=
    if c = 8 then some [⟨.top "left.mp4", 40⟩]
    else if c = 9 then some [⟨.top "left.mp4", 40⟩, ⟨.recovery "interruption.json", 3⟩]
    else none
  empty := 0
  torn _ := 1
  recovered files :=
    if ∀ name ∈ "left.mp4" :: journals, files (.top name) = some (if name = "left.mp4" then 40 else 10) then
      some fun _ => ⟨[("interruption.json", 3)], 9⟩
    else none
  settled _ _ := none
  failed := 5
  empty_rejected := rfl
  torn_rejected _ := rfl
  recovered_journals files h name hname := by
    split at h
    · rename_i hall
      rw [hall name (List.mem_cons_of_mem _ hname)]
      exact Option.some_ne_none _
    · cases h

def sampleTake : Take ℕ where
  published := false
  files path :=
    match path with
    | .top "left.mp4" => some 40
    | .top name => if name ∈ "recording.json" :: journals then some 10 else none
    | .recovery _ => none

def sampleSealing : Sealing sample where
  payload := 8
  originals := []
  artifacts := [⟨.top "left.mp4", 40⟩]
  valid := rfl
  kept := by simp [controls]
  manifest_kept := List.not_mem_nil

theorem sampleTake_recording : sampleTake.Recording sample := by
  refine ⟨rfl, rfl, fun _ => ⟨[("interruption.json", 3)], 9⟩, rfl, fun _ => ⟨_, rfl, ?_⟩⟩
  intro a ha
  simp only [List.mem_cons, List.not_mem_nil, or_false] at ha
  rcases ha with rfl | rfl
  · exact ⟨by decide, 40, rfl, rfl⟩
  · exact ⟨by decide, 3, rfl, rfl⟩

/-- A take is never lost in a run whose faults meet the condition: a directory with the final
name has an accepted manifest, any other has one too or recovers, and the next restart without a
fault publishes it. -/
theorem take_never_lost (ht : t.Recording f) (hx : x.Meets) {events : List (Event f × ℕ)} {s : State Content}
    (hrun : run (step f x) ⟨t, true⟩ events = some s) :
    (s.take.published = true → s.take.inspect f = true) ∧
      (s.take.published = false → (s.take.inspect f = true ∨ s.take.Recovers f) ∧
        (s.take.files manifestPath ≠ none ∨ s.take.files capturePath ≠ none)) ∧
      (∀ n, ∃ s', run (step f noFaults) ⟨s.take, false⟩ (List.replicate n (.restart, 0)) = some s') ∧
      ∀ restarts, restarts ≠ [] → (∀ a ∈ restarts, a.1 = .restart) → ∀ s',
        run (step f noFaults) ⟨s.take, false⟩ restarts = some s' →
        s'.take.published = true ∧ s'.take.inspect f = true := by
  have hstart : State.Inv f ⟨t, true⟩ := ⟨.ready ht.ready, fun _ => ht.ready⟩
  have hinv : s.Inv f := run_invariant (fun _ _ _ => step_inv hx) hstart hrun
  refine ⟨fun hpublished => ?_, fun hpart => ?_, fun n => restarts_run n _, ?_⟩
  · rcases hinv.safe with h | h | h
    · exact absurd hpublished (by simp [h.partialName])
    · exact h.inspect
    · exact h.inspect
  · rcases hinv.safe with h | h | h
    · exact ⟨.inr h.recovers, .inr h.recoverable.capture⟩
    · refine ⟨.inl h.inspect, .inl ?_⟩
      obtain ⟨c, -, hc, -⟩ := Take.inspect_iff.1 h.inspect
      simp [hc]
    · exact absurd h.finalName (by simp [hpart])
  · intro restarts hne hall s' hrun'
    have hpublished := restarts_published hne hall (s := ⟨s.take, false⟩) hinv.safe hrun'
    exact ⟨hpublished.finalName, hpublished.inspect⟩

/-- The process stops before the rename. -/
theorem take_never_lost_sample :
    ∃ s, run (step sample ⟨fun _ _ => false, true⟩) ⟨sampleTake, true⟩
        [(.stop sampleSealing false, 11)] = some s ∧
      s.take.files capturePath = none ∧ s.take.published = false ∧
      (s.take.inspect sample = true ∨ s.take.Recovers sample) := by
  have hrun : ∃ s, run (step sample ⟨fun _ _ => false, true⟩) ⟨sampleTake, true⟩
        [(.stop sampleSealing false, 11)] = some s ∧
      s.take.files capturePath = none ∧ s.take.published = false := ⟨_, rfl, rfl, rfl⟩
  obtain ⟨s, hs, hcapture, hpart⟩ := hrun
  have hmeets : (⟨fun _ _ => false, true⟩ : Faults ℕ).Meets := fun _ _ hraise => by cases hraise
  exact ⟨s, hs, hcapture, hpart, ((take_never_lost sampleTake_recording hmeets hs).2.1 hpart).1⟩

/-- The rename of `stop` fails. -/
def renameFails : Faults ℕ :=
  ⟨fun site t => site = .stop ∧ t.published = false ∧ t.files capturePath = none, false⟩

/-- A single failure: the handler removes the manifest after the control files are gone, and no
restart can publish the take. -/
theorem rename_failure_loses_take : sampleTake.Recording sample ∧
    ∃ s, run (step sample renameFails) ⟨sampleTake, true⟩ [(.stop sampleSealing false, 1)] = some s ∧
      s.take.published = false ∧ s.take.files manifestPath = none ∧ s.take.files capturePath = none ∧
      ¬ s.take.Recovers sample ∧
      ∀ r ∈ recoverPartialDirectory sample noFaults s.take, r.2.published = false :=
  ⟨sampleTake_recording, _, rfl, rfl, rfl, rfl, fun h => h.1 "capture.json" (by decide) rfl, by decide⟩

end Conductor.Session.Publication
