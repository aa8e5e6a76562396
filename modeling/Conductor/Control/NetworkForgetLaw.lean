import Conductor.Lib.Concat
import Conductor.Control.NetworkForget

/-! A profile is seen as the pair of its two files. A call moves through few such pairs: a staged profile is
quarantined until it is unlinked, the others are as before. The same description serves a call that fails
anywhere and one in which no step fails. -/

namespace Conductor.NetworkForget

open Outcomes Prog

variable {γ : Type}

/-! ### The two files of a profile -/

section Disks

/-- The file under the own name and the one under the quarantine name. -/
def Disk.pair (d : Disk γ) (id : String) : Option (File γ) × Option (File γ) :=
  (d.files (.profile id), d.files (.quarantine id))

/-- The file of a profile. -/
def Disk.file (d : Disk γ) (id : String) : Option (File γ) := (d.pair id).1.or (d.pair id).2

variable {d : Disk γ}

theorem Disk.ext {e : Disk γ} (hids : d.ids = e.ids) (hpair : ∀ id, d.pair id = e.pair id) (hlkg : d.lkg = e.lkg)
    (hjournal : d.journal = e.journal) : d = e := by
  have hfiles : d.files = e.files := by
    funext slot
    cases slot with
    | profile id => exact congrArg Prod.fst (hpair id)
    | quarantine id => exact congrArg Prod.snd (hpair id)
  cases d
  cases e
  simp only at hids hfiles hlkg hjournal
  subst hids hfiles hlkg hjournal
  rfl

theorem pair_setAside (d : Disk γ) (id other : String) :
    (d.setAside id).pair other = if other = id then (none, (d.pair id).1) else d.pair other := by
  by_cases h : other = id <;> simp [Disk.pair, Disk.setAside, Disk.replace, h]

theorem pair_putBack (d : Disk γ) (id other : String) :
    (d.putBack id).pair other = if other = id then ((d.pair id).2, none) else d.pair other := by
  by_cases h : other = id <;> simp [Disk.pair, Disk.putBack, Disk.replace, h]

theorem pair_unlink (d : Disk γ) (id other : String) :
    (d.unlink (.quarantine id)).pair other = if other = id then ((d.pair id).1, none) else d.pair other := by
  by_cases h : other = id <;> simp [Disk.pair, Disk.unlink, h]

/-- The files are client profiles that the device has written: their ids are of the right form and every file is a
regular one with mode 0600. -/
def Managed (d : Disk γ) : Prop :=
  ∀ slot file, d.files slot = some file → validId slot.id = true ∧ file.valid = true

/-- No profile has two files. -/
def Single (d : Disk γ) : Prop := ∀ id, (d.pair id).1 = none ∨ (d.pair id).2 = none

variable {id : String}

theorem mem_leftovers : id ∈ d.leftovers ↔ (d.pair id).2 ≠ none := by
  unfold Disk.leftovers
  rw [List.mem_filter, Option.isSome_iff_ne_none]
  exact ⟨And.right, fun h => ⟨d.listed (.quarantine id) h, h⟩⟩

theorem mem_profiles : id ∈ d.profiles ↔ (d.pair id).1 ≠ none := by
  unfold Disk.profiles
  rw [List.mem_filter, Option.isSome_iff_ne_none]
  exact ⟨And.right, fun h => ⟨d.listed (.profile id) h, h⟩⟩

theorem Single.pair_profile (h : Single d) (hid : (d.pair id).1 ≠ none) : d.pair id = (d.file id, none) := by
  have hnone := (h id).resolve_left hid
  obtain ⟨file, hfile⟩ := Option.ne_none_iff_exists'.1 hid
  refine Prod.ext ?_ hnone
  simp [Disk.file, hfile]

theorem Single.pair_leftover (h : Single d) (hid : (d.pair id).2 ≠ none) : d.pair id = (none, d.file id) := by
  have hnone := (h id).resolve_right hid
  refine Prod.ext hnone ?_
  simp [Disk.file, hnone]

theorem Single.nodup (h : Single d) : (d.leftovers ++ d.profiles).Nodup := by
  refine List.nodup_append.2 ⟨d.nodup.filter _, d.nodup.filter _, ?_⟩
  rintro id hleft _ hprofile rfl
  rw [mem_leftovers] at hleft
  rw [mem_profiles] at hprofile
  exact hprofile ((h id).resolve_right hleft)

theorem file_cases {file : File γ} (h : d.file id = some file) :
    d.files (.profile id) = some file ∨ d.files (.quarantine id) = some file := by
  unfold Disk.file at h
  rcases Option.or_eq_some_iff.1 h with h | ⟨-, h⟩
  · exact Or.inl h
  · exact Or.inr h

theorem Managed.file (h : Managed d) {file : File γ} (hfile : d.file id = some file) :
    validId id = true ∧ file.valid = true := by
  rcases file_cases hfile with hfile | hfile
  · exact h _ _ hfile
  · exact h _ _ hfile

end Disks

/-! ### Rules -/

section Rules

variable {faulty : Bool} {s : Vars γ} {Q : Unit → Vars γ → Prop} {R C : Vars γ → Prop}

variable {f : Vars γ → Vars γ}

theorem spec_step {errors : List Error} (hQ : Q () (f s))
    (hR : faulty = true → ∀ e ∈ errors, R { s with error := e }) (hC : faulty = true → C s) :
    Spec (step faulty errors f) s Q R C := by
  intro r hr
  rcases List.mem_cons.1 hr with rfl | hr
  · exact hQ
  · cases hf : faulty with
    | false => simp [hf] at hr
    | true =>
      rw [hf, if_pos rfl] at hr
      rcases List.mem_cons.1 hr with rfl | hr
      · exact hC hf
      · obtain ⟨e, he, rfl⟩ := List.mem_map.1 hr
        exact hR hf e he

theorem spec_modify (hQ : Q () (f s)) : Spec (modify f) s Q R C := by
  intro r hr
  rw [List.mem_singleton.1 hr]
  exact hQ

theorem spec_check {b : Vars γ → Bool} {e : Error} (hQ : b s = true → Q () s)
    (hR : b s = false → R { s with error := e }) : Spec (check b e) s Q R C := by
  intro r hr
  unfold check at hr
  cases hb : b s with
  | true =>
    rw [hb, if_pos rfl] at hr
    rw [List.mem_singleton.1 hr]
    exact hQ hb
  | false =>
    rw [hb, if_neg (by decide)] at hr
    rw [List.mem_singleton.1 hr]
    exact hR hb

theorem spec_fail {α : Type} {Q : α → Vars γ → Prop} {e : Error} (hR : R { s with error := e }) :
    Spec (fail e : Prog (Vars γ) α) s Q R C := by
  intro r hr
  rw [List.mem_singleton.1 hr]
  exact hR

/-- A program reads the variables first. -/
theorem spec_get_bind {α : Type} {Q : α → Vars γ → Prop} {f : Vars γ → Prog (Vars γ) α} (h : Spec (f s) s Q R C) :
    Spec (get >>= f) s Q R C := spec_bind (spec_get h)

theorem total_step (errors : List Error) (f : Vars γ → Vars γ) : Total (step faulty errors f) :=
  ⟨fun _ => List.cons_ne_nil _ _⟩

theorem sub_step (errors : List Error) (f : Vars γ → Vars γ) : Sub (step false errors f) (step true errors f) := by
  intro s r hr
  rw [show r = (.value (), f s) from List.mem_singleton.1 hr]
  exact List.mem_cons_self

end Rules

/-! ### The way forward -/

section Forward

/-- A record is on the disk, or remembered. -/
structure Records (e : Disk γ) (s : Vars γ) : Prop where
  lkg : s.disk.lkg = e.lkg ∨ s.disk.lkg = none ∧ s.lkgRecord = e.lkg
  lkgRecord : s.lkgRecord = none ∨ s.lkgRecord = e.lkg
  journal : s.disk.journal = e.journal ∨ s.disk.journal = none ∧ s.journalRecord = e.journal
  journalRecord : s.journalRecord = none ∨ s.journalRecord = e.journal

/-- Where a call is: what was staged is quarantined, or unlinked, and the rest as in the beginning. -/
structure At (e : Disk γ) (gone : List String) (s : Vars γ) : Prop where
  ids : s.disk.ids = e.ids
  pairs : ∀ id, s.disk.pair id = if id ∈ s.staged then (none, if id ∈ gone then none else e.file id) else e.pair id
  records : Records e s
  staged : ∀ id ∈ gone, id ∈ s.staged
  present : ∀ id ∈ s.staged, e.file id ≠ none
  nodup : s.staged.Nodup
  fine : s.rollbackFailed = false

variable {e : Disk γ} {faulty : Bool} {gone : List String} {s : Vars γ}

theorem At.start (e : Disk γ) : At e [] (start e) where
  ids := rfl
  pairs _ := rfl
  records := ⟨Or.inl rfl, Or.inl rfl, Or.inl rfl, Or.inl rfl⟩
  staged _ h := by cases h
  present _ h := by cases h
  nodup := List.nodup_nil
  fine := rfl

/-- The exception is not looked at. -/
theorem At.error (h : At e gone s) (x : Error) : At e gone { s with error := x } :=
  ⟨h.ids, h.pairs, ⟨h.records.lkg, h.records.lkgRecord, h.records.journal, h.records.journalRecord⟩, h.staged, h.present, h.nodup,
    h.fine⟩

/-- Where the call may be left, by an exception or by the end of the process. -/
def Left (e : Disk γ) (faulty : Bool) (s : Vars γ) : Prop := faulty = true ∧ ∃ gone, At e gone s

theorem At.left (h : At e gone s) (hf : faulty = true) : Left e faulty s := ⟨hf, gone, h⟩

/-- A step of the way forward. -/
theorem At.step {errors : List Error} {f : Vars γ → Vars γ} {Q : Unit → Vars γ → Prop} (h : At e gone s)
    (hQ : Q () (f s)) : Spec (step faulty errors f) s Q (Left e faulty) (Left e faulty) :=
  spec_step hQ (fun hf x _ => (h.error x).left hf) fun hf => h.left hf

variable {id : String}

theorem At.stage_one (h : At e [] s) (hpair : s.disk.pair id = (none, e.file id)) (hnew : id ∉ s.staged)
    (hfile : e.file id ≠ none) : At e [] { s with staged := s.staged ++ [id] } where
  ids := h.ids
  pairs other := by
    have hold := h.pairs other
    by_cases heq : other = id
    · rw [heq, hpair]
      simp
    · simp only [List.mem_append, List.mem_singleton, heq, or_false]
      exact hold
  records := ⟨h.records.lkg, h.records.lkgRecord, h.records.journal, h.records.journalRecord⟩
  staged _ hid := by cases hid
  present := forall_mem_concat h.present hfile
  nodup := nodup_concat h.nodup hnew
  fine := h.fine

variable (he : Managed e) (hsingle : Single e)

include he hsingle

theorem spec_stageLeftover (h : At e [] s) (hid : id ∈ e.leftovers) (hnew : id ∉ s.staged) :
    Spec (stageLeftover faulty id) s (fun _ t => At e [] t ∧ t.staged = s.staged ++ [id]) (Left e faulty)
      (Left e faulty) := by
  have hpair : s.disk.pair id = (none, e.file id) := by
    rw [h.pairs, if_neg hnew, hsingle.pair_leftover (mem_leftovers.1 hid)]
  obtain ⟨file, hfile⟩ : ∃ file, e.file id = some file := by
    have := mem_leftovers.1 hid
    rw [hsingle.pair_leftover this] at this
    exact Option.ne_none_iff_exists'.1 this
  obtain ⟨hvalidId, hvalid⟩ := he.file hfile
  have hprofile : s.disk.files (.profile id) = none := congrArg Prod.fst hpair
  have hquarantine : s.disk.files (.quarantine id) = some file := (congrArg Prod.snd hpair).trans hfile
  refine spec_bind (spec_check (fun _ => ?_) fun hb => absurd hvalidId (by simp [hb]))
  refine spec_bind (spec_check (fun _ => ?_) fun hb => by simp [hprofile] at hb)
  refine spec_bind (h.step ?_)
  refine spec_bind (spec_check (fun _ => ?_) fun hb => absurd hvalid (by simpa [hquarantine] using hb))
  exact spec_modify ⟨h.stage_one hpair hnew (by simp [hfile]), rfl⟩

theorem spec_stageProfile (h : At e [] s) (hid : id ∈ e.profiles) (hnew : id ∉ s.staged) :
    Spec (stageProfile faulty id) s (fun _ t => At e [] t ∧ t.staged = s.staged ++ [id]) (Left e faulty)
      (Left e faulty) := by
  have hpair : s.disk.pair id = (e.file id, none) := by
    rw [h.pairs, if_neg hnew, hsingle.pair_profile (mem_profiles.1 hid)]
  obtain ⟨file, hfile⟩ : ∃ file, e.file id = some file := by
    have := mem_profiles.1 hid
    rw [hsingle.pair_profile this] at this
    exact Option.ne_none_iff_exists'.1 this
  obtain ⟨hvalidId, hvalid⟩ := he.file hfile
  have hprofile : s.disk.files (.profile id) = some file := (congrArg Prod.fst hpair).trans hfile
  have hquarantine : s.disk.files (.quarantine id) = none := congrArg Prod.snd hpair
  refine spec_bind (spec_check (fun _ => ?_) fun hb => absurd hvalidId (by simp [hb]))
  refine spec_bind (h.step ?_)
  refine spec_bind (spec_check (fun _ => ?_) fun hb => absurd hvalid (by simpa [hprofile] using hb))
  refine spec_bind (spec_check (fun _ => ?_) fun hb => by simp [hquarantine] at hb)
  refine spec_bind (h.step (spec_modify ⟨?_, rfl⟩))
  -- the profile is in quarantine before it is staged
  constructor
  · exact h.ids
  · intro other
    have hold := h.pairs other
    simp only [pair_setAside, List.mem_append, List.mem_singleton]
    by_cases heq : other = id
    · simp [heq, hpair]
    · simp only [heq, or_false, if_false]
      exact hold
  · exact ⟨h.records.lkg, h.records.lkgRecord, h.records.journal, h.records.journalRecord⟩
  · intro _ hid
    cases hid
  · exact forall_mem_concat h.present (by simp [hfile])
  · exact nodup_concat h.nodup hnew
  · exact h.fine

theorem spec_stage : Spec (stage faulty e.leftovers e.profiles) (start e)
    (fun _ t => At e [] t ∧ t.staged = e.leftovers ++ e.profiles) (Left e faulty) (Left e faulty) := by
  have hnodup := hsingle.nodup
  refine Spec.bind (M := fun _ t => At e [] t ∧ t.staged = e.leftovers) ?_ ?_
  · have hloop := spec_forM (R := Left e faulty) (C := Left e faulty) (f := stageLeftover faulty)
      (I := fun l t => At e [] t ∧ t.staged ++ l = e.leftovers) (s := start e) (l := e.leftovers) ⟨At.start e, rfl⟩ ?_
    · refine hloop.mono (fun _ t ht => ⟨ht.1, ?_⟩) (fun _ h => h) fun _ h => h
      simpa using ht.2
    · rintro id l t ⟨ht, hlist⟩
      have hmem : id ∈ e.leftovers := hlist ▸ by simp
      have hnew : id ∉ t.staged := by
        intro hin
        have hdup := (List.nodup_append.1 hnodup).1
        rw [← hlist] at hdup
        exact (List.nodup_append.1 hdup).2.2 id hin id List.mem_cons_self rfl
      refine (spec_stageLeftover he hsingle ht hmem hnew).mono (fun _ u hu => ⟨hu.1, ?_⟩) (fun _ h => h) fun _ h => h
      rw [hu.2, List.append_assoc]
      exact hlist
  · rintro _ t ⟨ht, hstaged⟩
    have hloop := spec_forM (R := Left e faulty) (C := Left e faulty) (f := stageProfile faulty)
      (I := fun l t => At e [] t ∧ t.staged ++ l = e.leftovers ++ e.profiles ∧ l ⊆ e.profiles) (s := t)
      (l := e.profiles) ⟨ht, by rw [hstaged], List.Subset.refl _⟩ ?_
    · refine hloop.mono (fun _ t ht => ⟨ht.1, ?_⟩) (fun _ h => h) fun _ h => h
      simpa using ht.2.1
    · rintro id l u ⟨hu, hlist, hsub⟩
      have hnew : id ∉ u.staged := by
        intro hin
        rw [← hlist] at hnodup
        exact (List.nodup_append.1 hnodup).2.2 id hin id List.mem_cons_self rfl
      refine (spec_stageProfile he hsingle hu (hsub List.mem_cons_self) hnew).mono (fun _ v hv => ⟨hv.1, ?_, ?_⟩)
        (fun _ h => h) fun _ h => h
      · rw [hv.2, List.append_assoc]
        exact hlist
      · exact List.Subset.trans (List.subset_cons_self _ _) hsub

omit he hsingle

theorem spec_announce (h : At e gone s) :
    Spec (announce faulty) s (fun _ t => t = s) (Left e faulty) (Left e faulty) := by
  refine spec_get_bind ?_
  split_ifs
  · refine spec_bind (h.step (h.step rfl))
  · exact spec_pure rfl

theorem spec_syncStaged (h : At e gone s) :
    Spec (syncStaged faulty) s (fun _ t => t = s) (Left e faulty) (Left e faulty) := by
  refine spec_get_bind ?_
  split_ifs
  · exact h.step rfl
  · exact spec_pure rfl

theorem spec_syncRecords (h : At e gone s) :
    Spec (syncRecords faulty) s (fun _ t => t = s) (Left e faulty) (Left e faulty) := by
  refine spec_get_bind ?_
  split_ifs
  · exact h.step rfl
  · exact spec_pure rfl

theorem spec_dropLkg (h : At e gone s) :
    Spec (dropLkg faulty) s (fun _ t => At e gone t ∧ t.staged = s.staged ∧ t.disk.lkg = none) (Left e faulty)
      (Left e faulty) := by
  refine spec_bind (h.step (spec_get_bind ?_))
  simp only [id_eq]
  split_ifs with hsome
  · have hlkg : s.disk.lkg = e.lkg := by
      rcases h.records.lkg with hlkg | ⟨hnone, -⟩
      · exact hlkg
      · rw [hnone] at hsome
        cases hsome
    have hnoted : At e gone { s with lkgRecord := s.disk.lkg } :=
      ⟨h.ids, h.pairs, ⟨Or.inl hlkg, Or.inr hlkg, h.records.journal, h.records.journalRecord⟩, h.staged, h.present, h.nodup, h.fine⟩
    refine spec_bind (spec_modify (hnoted.step ⟨?_, rfl, rfl⟩))
    exact ⟨h.ids, h.pairs, ⟨Or.inr ⟨rfl, hlkg⟩, Or.inr hlkg, h.records.journal, h.records.journalRecord⟩, h.staged, h.present, h.nodup,
      h.fine⟩
  · exact spec_pure ⟨h, rfl, by simpa using hsome⟩

theorem spec_dropJournal (h : At e gone s) :
    Spec (dropJournal faulty) s (fun _ t => At e gone t ∧ t.staged = s.staged ∧ t.disk.lkg = s.disk.lkg ∧
      t.disk.journal.any Record.isClient = false) (Left e faulty) (Left e faulty) := by
  refine spec_bind (h.step (spec_get_bind ?_))
  simp only [id_eq]
  split_ifs with hclient
  · have hjournal : s.disk.journal = e.journal := by
      rcases h.records.journal with hjournal | ⟨hnone, -⟩
      · exact hjournal
      · rw [hnone] at hclient
        cases hclient
    have hnoted : At e gone { s with journalRecord := s.disk.journal } :=
      ⟨h.ids, h.pairs, ⟨h.records.lkg, h.records.lkgRecord, Or.inl hjournal, Or.inr hjournal⟩, h.staged, h.present, h.nodup, h.fine⟩
    refine spec_bind (spec_modify (hnoted.step ⟨?_, rfl, rfl, rfl⟩))
    exact ⟨h.ids, h.pairs, ⟨h.records.lkg, h.records.lkgRecord, Or.inr ⟨rfl, hjournal⟩, Or.inr hjournal⟩, h.staged, h.present, h.nodup,
      h.fine⟩
  · exact spec_pure ⟨h, rfl, rfl, by simpa using hclient⟩

theorem At.unlink (h : At e gone s) (hid : id ∈ s.staged) :
    At e (gone ++ [id]) { s with disk := s.disk.unlink (.quarantine id) } where
  ids := h.ids
  pairs other := by
    have hold := h.pairs other
    have hfirst := congrArg Prod.fst (h.pairs id)
    rw [if_pos hid] at hfirst
    simp only [pair_unlink, List.mem_append, List.mem_singleton]
    by_cases heq : other = id
    · simp [heq, hid, hfirst]
    · simp only [heq, or_false, if_false]
      exact hold
  records := ⟨h.records.lkg, h.records.lkgRecord, h.records.journal, h.records.journalRecord⟩
  staged := forall_mem_concat h.staged hid
  present := h.present
  nodup := h.nodup
  fine := h.fine

include hsingle in
/-- Each staged file is there to be unlinked. -/
theorem spec_unlinkStaged (h : At e [] s) (hstaged : s.staged = e.leftovers ++ e.profiles) :
    Spec (unlinkStaged faulty) s (fun _ t => At e t.staged t ∧ t.staged = s.staged ∧ t.disk.lkg = s.disk.lkg ∧
      t.disk.journal = s.disk.journal) (Left e faulty) (Left e faulty) := by
  have hnodup := hsingle.nodup
  refine spec_get_bind ?_
  have hloop := spec_forM (R := Left e faulty) (C := Left e faulty) (l := s.staged) (s := s)
    (f := fun id => do
      check (fun s : Vars γ => (s.disk.files (.quarantine id)).isSome) .osError
      call faulty fun s => { s with disk := s.disk.unlink (.quarantine id) })
    (I := fun l t => ∃ gone, At e gone t ∧ gone ++ l = s.staged ∧ t.staged = s.staged ∧ t.disk.lkg = s.disk.lkg ∧
      t.disk.journal = s.disk.journal) ⟨[], h, rfl, rfl, rfl, rfl⟩ ?_
  · refine hloop.mono ?_ (fun _ h => h) fun _ h => h
    rintro _ t ⟨gone, ht, hgone, hsame, hlkg, hjournal⟩
    rw [List.append_nil] at hgone
    refine ⟨?_, hsame, hlkg, hjournal⟩
    rw [hsame, ← hgone]
    exact ht
  · rintro id l t ⟨gone, ht, hgone, hsame, hlkg, hjournal⟩
    have hid : id ∈ t.staged := by
      rw [hsame, ← hgone]
      simp
    have hnot : id ∉ gone := by
      intro hin
      rw [← hstaged, ← hgone] at hnodup
      exact (List.nodup_append.1 hnodup).2.2 id hin id List.mem_cons_self rfl
    have hfile := ht.present id hid
    have hquarantine : t.disk.files (.quarantine id) = e.file id := by
      have hpair := ht.pairs id
      rw [if_pos hid, if_neg hnot] at hpair
      exact congrArg Prod.snd hpair
    refine spec_bind (spec_check (fun _ => ?_) fun hb => ?_)
    · exact ht.step ⟨gone ++ [id], ht.unlink hid, by rw [List.append_assoc]; exact hgone, hsame, hlkg, hjournal⟩
    · rw [hquarantine] at hb
      exact absurd (by simpa using hb) hfile

/-- No client profile, no quarantined file, no Wi-Fi LKG and no journal of a client. -/
structure Removed (d : Disk γ) : Prop where
  files : ∀ slot, d.files slot = none
  lkg : d.lkg = none
  journal : ∀ j, d.journal = some j → j.isClient = false

include he hsingle in
/-- The whole block: what it returns with, and what it leaves otherwise. -/
theorem spec_remove :
    Spec (Conductor.NetworkForget.remove faulty e.leftovers e.profiles) (NetworkForget.start e)
      (fun _ t => At e t.staged t ∧ t.staged = e.leftovers ++ e.profiles ∧ Removed t.disk) (Left e faulty)
      (Left e faulty) := by
  refine (spec_stage he hsingle).bind fun _ s1 ⟨h1, hstaged⟩ => ?_
  refine (spec_announce h1).bind fun _ s2 hs2 => ?_
  rw [hs2]
  refine (spec_dropLkg h1).bind fun _ s3 ⟨h3, hstaged3, hlkg3⟩ => ?_
  refine (spec_dropJournal h3).bind fun _ s4 ⟨h4, hstaged4, hlkg4, hjournal4⟩ => ?_
  refine (spec_syncRecords h4).bind fun _ s5 hs5 => ?_
  rw [hs5]
  have hall : s4.staged = e.leftovers ++ e.profiles := by rw [hstaged4, hstaged3, hstaged]
  refine (spec_unlinkStaged hsingle h4 hall).mono ?_ (fun _ h => h) fun _ h => h
  rintro _ t ⟨ht, hsame, hlkg, hjournal⟩
  have hstagedt : t.staged = e.leftovers ++ e.profiles := hsame.trans hall
  have hpair : ∀ id, t.disk.pair id = (none, none) := by
    intro id
    rw [ht.pairs]
    split_ifs with hid
    · rfl
    · rw [hstagedt, List.mem_append, not_or, mem_leftovers, mem_profiles, not_not, not_not] at hid
      exact Prod.ext hid.2 hid.1
  refine ⟨ht, hstagedt, ?_, by rw [hlkg, hlkg4, hlkg3], ?_⟩
  · intro slot
    cases slot with
    | profile id => exact congrArg Prod.fst (hpair id)
    | quarantine id => exact congrArg Prod.snd (hpair id)
  · intro j hj
    rw [hjournal] at hj
    simpa [hj] using hjournal4

end Forward

/-! ### The way back -/

section Backward

/-- What the end of the process or a failed rollback may leave. -/
structure Within (e f : Disk γ) : Prop where
  pairs : ∀ id, f.pair id = e.pair id ∨ f.pair id = (e.file id, none) ∨ f.pair id = (none, e.file id) ∨
    f.pair id = (none, none)
  lkg : f.lkg = e.lkg ∨ f.lkg = none

/-- The staged files `l` are still to be put back. -/
structure Back (e : Disk γ) (faulty : Bool) (gone staged l : List String) (t : Vars γ) : Prop where
  ids : t.disk.ids = e.ids
  other : ∀ id, id ∉ staged → t.disk.pair id = e.pair id
  waiting : ∀ id ∈ l, t.disk.pair id = (none, if id ∈ gone then none else e.file id)
  restored : ∀ id ∈ staged, id ∉ l → id ∉ gone ∧ t.disk.pair id = (e.file id, none) ∨
    t.rollbackFailed = true ∧ (id ∈ gone ∧ t.disk.pair id = (none, none) ∨
      id ∉ gone ∧ faulty = true ∧ t.disk.pair id = (none, e.file id))
  failed : t.rollbackFailed = true → faulty = true ∨ ∃ id ∈ staged, id ∈ gone

variable {e : Disk γ} {faulty : Bool} {gone staged l : List String} {s : Vars γ}

theorem At.within (h : At e gone s) : Within e s.disk where
  pairs id := by
    rw [h.pairs]
    split_ifs
    · exact Or.inr (Or.inr (Or.inr rfl))
    · exact Or.inr (Or.inr (Or.inl rfl))
    · exact Or.inl rfl
  lkg := h.records.lkg.imp_right And.left

theorem Back.within (h : Back e faulty gone staged l s) (hrecords : s.disk.lkg = e.lkg ∨ s.disk.lkg = none) :
    Within e s.disk where
  pairs id := by
    by_cases hid : id ∈ staged
    · by_cases hwait : id ∈ l
      · rw [h.waiting id hwait]
        split_ifs
        · exact Or.inr (Or.inr (Or.inr rfl))
        · exact Or.inr (Or.inr (Or.inl rfl))
      · rcases h.restored id hid hwait with ⟨-, hpair⟩ | ⟨-, ⟨-, hpair⟩ | ⟨-, -, hpair⟩⟩
        · exact Or.inr (Or.inl hpair)
        · exact Or.inr (Or.inr (Or.inr hpair))
        · exact Or.inr (Or.inr (Or.inl hpair))
    · exact Or.inl (h.other id hid)
  lkg := hrecords

theorem At.back (h : At e gone s) : Back e faulty gone s.staged s.staged.reverse s where
  ids := h.ids
  other id hid := by rw [h.pairs, if_neg hid]
  waiting id hid := by rw [h.pairs, if_pos (List.mem_reverse.1 hid)]
  restored id hid hnot := absurd (List.mem_reverse.2 hid) hnot
  failed hf := by
    rw [h.fine] at hf
    cases hf

variable {Q : Unit → Vars γ → Prop} {C : Vars γ → Prop}

/-- What a step of the handler does when it fails, or the process dies there. -/
theorem spec_attempt_failed {p : Prog (Vars γ) Unit} {R : Vars γ → Prop}
    (hp : Spec p s Q (fun t => Q () { t with rollbackFailed := true }) C) : Spec (attempt p setFailed) s Q R C :=
  spec_attempt (hp.mono (fun _ _ h => h) (fun _ h => spec_modify h) fun _ h => h)

/-- One file is put back, unless it was unlinked or the step fails. -/
theorem spec_restoreProfile {id : String} (h : Back e faulty gone staged (id :: l) s) (hnodup : (id :: l).Nodup)
    (hid : id ∈ staged) (hfile : e.file id ≠ none) (hrecords : Records e s) :
    Spec (restoreProfile faulty id) s (fun _ t => Back e faulty gone staged l t ∧ Records e t)
      (fun _ => False) (fun t => faulty = true ∧ Within e t.disk) := by
  have hnot : id ∉ l := (List.nodup_cons.1 hnodup).1
  have hwaiting := h.waiting id List.mem_cons_self
  have hquarantine : s.disk.files (.quarantine id) = if id ∈ gone then none else e.file id := congrArg Prod.snd hwaiting
  -- the handler goes on with the file where it is
  have hstay : (faulty = true ∨ id ∈ gone) → ∀ x : Error,
      Back e faulty gone staged l { s with error := x, rollbackFailed := true } := by
    intro hwhy x
    refine ⟨h.ids, h.other, fun other hother => h.waiting other (List.mem_cons_of_mem _ hother), ?_, fun _ => ?_⟩
    · intro other hother hrest
      by_cases heq : other = id
      · refine Or.inr ⟨rfl, ?_⟩
        rw [heq]
        by_cases hgone : id ∈ gone
        · exact Or.inl ⟨hgone, by rw [hwaiting, if_pos hgone]⟩
        · exact Or.inr ⟨hgone, hwhy.resolve_right hgone, by rw [hwaiting, if_neg hgone]⟩
      · rcases h.restored other hother (by simp [heq, hrest]) with hdone | hdone
        · exact Or.inl hdone
        · exact Or.inr ⟨rfl, hdone.2⟩
    · exact hwhy.imp_right fun hgone => ⟨id, hid, hgone⟩
  have hwithin : Within e s.disk := h.within (hrecords.lkg.imp_right And.left)
  refine spec_get_bind ?_
  split_ifs with hnone
  · have hgone : id ∈ gone := by
      by_contra hgone
      rw [hquarantine, if_neg hgone] at hnone
      exact hfile (by simpa using hnone)
    refine spec_modify ⟨hstay (Or.inr hgone) s.error, ?_⟩
    exact ⟨hrecords.lkg, hrecords.lkgRecord, hrecords.journal, hrecords.journalRecord⟩
  · refine spec_attempt_failed (spec_step ⟨?_, ?_⟩ (fun hf x _ => ⟨hstay (Or.inl hf) x, ?_⟩) fun hf => ⟨hf, hwithin⟩)
    · have hgone : id ∉ gone := by
        intro hgone
        rw [hquarantine, if_pos hgone] at hnone
        exact hnone rfl
      refine ⟨h.ids, ?_, ?_, ?_, h.failed⟩
      · intro other hother
        have hne : other ≠ id := fun heq => hother (heq ▸ hid)
        simp only [pair_putBack, if_neg hne]
        exact h.other other hother
      · intro other hother
        have hne : other ≠ id := fun heq => hnot (heq ▸ hother)
        simp only [pair_putBack, if_neg hne]
        exact h.waiting other (List.mem_cons_of_mem _ hother)
      · intro other hother hrest
        simp only [pair_putBack]
        by_cases heq : other = id
        · refine Or.inl ⟨heq ▸ hgone, ?_⟩
          rw [if_pos heq, hwaiting, if_neg hgone, heq]
        · rw [if_neg heq]
          exact h.restored other hother (by simp [heq, hrest])
    · exact ⟨hrecords.lkg, hrecords.lkgRecord, hrecords.journal, hrecords.journalRecord⟩
    · exact ⟨hrecords.lkg, hrecords.lkgRecord, hrecords.journal, hrecords.journalRecord⟩

/-- The records are back, unless a step has failed. -/
structure RecordsBack (e : Disk γ) (faulty : Bool) (t : Vars γ) : Prop where
  lkg : t.disk.lkg = e.lkg ∨ faulty = true ∧ t.rollbackFailed = true ∧ t.disk.lkg = none
  journal : t.disk.journal = e.journal ∨ faulty = true ∧ t.rollbackFailed = true

/-- A record is written back, where one is remembered. -/
theorem spec_writeJson {f : Vars γ → Vars γ}
    (hdone : Q () (f s)) (hbefore : faulty = true → ∀ x : Error, Q () { s with error := x, rollbackFailed := true })
    (hafter : faulty = true → ∀ x : Error, Q () { f s with error := x, rollbackFailed := true })
    (hstopped : faulty = true → C s) (hstopped' : faulty = true → C (f s)) :
    Spec (attempt (writeJson faulty f) setFailed) s Q (fun _ => False) C := by
  apply spec_attempt_failed
  refine spec_bind (spec_step ?_ (fun hf x _ => hbefore hf x) hstopped)
  exact spec_step hdone (fun hf x _ => hafter hf x) hstopped'

theorem Back.frame {t : Vars γ} (h : Back e faulty gone staged l s) (hids : t.disk.ids = s.disk.ids)
    (hfiles : t.disk.files = s.disk.files)
    (hfailed : t.rollbackFailed = s.rollbackFailed ∨ faulty = true ∧ t.rollbackFailed = true) :
    Back e faulty gone staged l t := by
  have hpair : ∀ id, t.disk.pair id = s.disk.pair id := fun id => by rw [Disk.pair, hfiles, Disk.pair]
  have hset : s.rollbackFailed = true → t.rollbackFailed = true := by
    intro hs
    rcases hfailed with hsame | ⟨-, ht⟩
    · rw [hsame, hs]
    · exact ht
  constructor
  · rw [hids, h.ids]
  · intro id hid
    rw [hpair, h.other id hid]
  · intro id hid
    rw [hpair, h.waiting id hid]
  · intro id hid hnot
    rw [hpair]
    exact (h.restored id hid hnot).imp_right fun hrest => ⟨hset hrest.1, hrest.2⟩
  · intro ht
    rcases hfailed with hsame | ⟨hf, -⟩
    · exact h.failed (hsame ▸ ht)
    · exact Or.inl hf

/-- The LKG comes back. -/
theorem spec_restoreLkg (h : Back e faulty gone staged [] s) (hrecords : Records e s) :
    Spec (restoreLkg faulty) s
      (fun _ t => Back e faulty gone staged [] t ∧
        (t.disk.lkg = e.lkg ∨ faulty = true ∧ t.rollbackFailed = true ∧ t.disk.lkg = none) ∧
        t.disk.journal = s.disk.journal ∧ t.journalRecord = s.journalRecord)
      (fun _ => False) (fun t => faulty = true ∧ Within e t.disk) := by
  have hlkg : s.disk.lkg = e.lkg ∨ s.disk.lkg = none := hrecords.lkg.imp_right And.left
  refine spec_get_bind ?_
  split_ifs with hsome
  · have hrecord : s.lkgRecord = e.lkg := by
      rcases hrecords.lkgRecord with hnone | hsame
      · rw [hnone] at hsome
        cases hsome
      · exact hsame
    refine spec_writeJson ?_ (fun hf x => ?_) (fun hf x => ?_) (fun hf => ⟨hf, h.within hlkg⟩) fun hf => ⟨hf, ?_⟩
    · exact ⟨h.frame rfl rfl (Or.inl rfl), Or.inl hrecord, rfl, rfl⟩
    · exact ⟨h.frame rfl rfl (Or.inr ⟨hf, rfl⟩), hlkg.imp_right fun hnone => ⟨hf, rfl, hnone⟩, rfl, rfl⟩
    · exact ⟨h.frame rfl rfl (Or.inr ⟨hf, rfl⟩), Or.inl hrecord, rfl, rfl⟩
    · exact (h.frame (t := { s with disk := { s.disk with lkg := s.lkgRecord } }) rfl rfl (Or.inl rfl)).within
        (Or.inl hrecord)
  · have hnone : s.lkgRecord = none := by simpa using hsome
    refine spec_pure ⟨h, Or.inl ?_, rfl, rfl⟩
    rcases hrecords.lkg with hsame | ⟨hdisk, hrecord⟩
    · exact hsame
    · rw [hdisk, ← hrecord, hnone]

/-- The journal comes back. -/
theorem spec_restoreJournal (h : Back e faulty gone staged [] s)
    (hlkg : s.disk.lkg = e.lkg ∨ faulty = true ∧ s.rollbackFailed = true ∧ s.disk.lkg = none)
    (hjournal : s.disk.journal = e.journal ∨ s.disk.journal = none ∧ s.journalRecord = e.journal)
    (hrecord : s.journalRecord = none ∨ s.journalRecord = e.journal) :
    Spec (restoreJournal faulty) s
      (fun _ t => Back e faulty gone staged [] t ∧ RecordsBack e faulty t)
      (fun _ => False) (fun t => faulty = true ∧ Within e t.disk) := by
  have hdisk : s.disk.lkg = e.lkg ∨ s.disk.lkg = none := hlkg.imp_right fun hrest => hrest.2.2
  have hset : s.disk.lkg = e.lkg ∨ faulty = true ∧ true = true ∧ s.disk.lkg = none :=
    hlkg.imp_right fun hrest => ⟨hrest.1, rfl, hrest.2.2⟩
  refine spec_get_bind ?_
  split_ifs with hsome
  · have hsame : s.journalRecord = e.journal := by
      rcases hrecord with hnone | hsame
      · rw [hnone] at hsome
        cases hsome
      · exact hsame
    refine spec_writeJson ?_ (fun hf x => ?_) (fun hf x => ?_) (fun hf => ⟨hf, h.within hdisk⟩) fun hf => ⟨hf, ?_⟩
    · exact ⟨h.frame rfl rfl (Or.inl rfl), hlkg, Or.inl hsame⟩
    · exact ⟨h.frame rfl rfl (Or.inr ⟨hf, rfl⟩), hset, Or.inr ⟨hf, rfl⟩⟩
    · exact ⟨h.frame rfl rfl (Or.inr ⟨hf, rfl⟩), hset, Or.inl hsame⟩
    · exact (h.frame (t := { s with disk := { s.disk with journal := s.journalRecord } }) rfl rfl (Or.inl rfl)).within hdisk
  · have hnone : s.journalRecord = none := by simpa using hsome
    refine spec_pure ⟨h, hlkg, Or.inl ?_⟩
    rcases hjournal with hsame | ⟨hempty, hsame⟩
    · exact hsame
    · rw [hempty, ← hsame, hnone]

theorem spec_announceRollback (h : Back e faulty gone staged [] s) (hrecords : RecordsBack e faulty s) :
    Spec (announceRollback faulty) s (fun _ t => Back e faulty gone staged [] t ∧ RecordsBack e faulty t)
      (fun _ => False) (fun t => faulty = true ∧ Within e t.disk) := by
  have hwithin : Within e s.disk := h.within (hrecords.lkg.imp_right fun hrest => hrest.2.2)
  have hfailed : faulty = true → ∀ x : Error, Back e faulty gone staged [] { s with error := x, rollbackFailed := true } ∧
      RecordsBack e faulty { s with error := x, rollbackFailed := true } := fun hf x =>
    ⟨h.frame rfl rfl (Or.inr ⟨hf, rfl⟩), hrecords.lkg.imp_right fun hrest => ⟨hf, rfl, hrest.2.2⟩, Or.inr ⟨hf, rfl⟩⟩
  apply spec_attempt_failed
  refine spec_bind (spec_step ?_ (fun hf x _ => hfailed hf x) fun hf => ⟨hf, hwithin⟩)
  exact spec_step ⟨h, hrecords⟩ (fun hf x _ => hfailed hf x) fun hf => ⟨hf, hwithin⟩

/-- What the handler leaves and raises. -/
theorem spec_rollback {α : Type} (h : At e gone s) :
    Spec (rollback faulty : Prog (Vars γ) α) s (fun _ _ => False)
      (fun t => Back e faulty gone s.staged [] t ∧ RecordsBack e faulty t ∧
        t.error = if t.rollbackFailed then .networkError "cleanup_pending" else s.error.reraised)
      (fun t => faulty = true ∧ Within e t.disk) := by
  refine spec_get_bind ?_
  refine Spec.bind (M := fun _ t => Back e faulty gone s.staged [] t ∧ Records e t) ?_ ?_
  · have hloop := spec_forM (R := fun _ : Vars γ => False) (C := fun t => faulty = true ∧ Within e t.disk)
      (f := restoreProfile faulty) (l := s.staged.reverse) (s := s)
      (I := fun l t => Back e faulty gone s.staged l t ∧ Records e t ∧ l.Nodup ∧ l ⊆ s.staged)
      ⟨h.back, h.records, List.nodup_reverse.2 h.nodup, fun id hid => List.mem_reverse.1 hid⟩ ?_
    · exact hloop.mono (fun _ t ht => ⟨ht.1, ht.2.1⟩) (fun _ h => h.elim) fun _ h => h
    · rintro id l t ⟨hback, hrecords, hnodup, hsub⟩
      have hid := hsub List.mem_cons_self
      refine (spec_restoreProfile hback hnodup hid (h.present id hid) hrecords).mono ?_ (fun _ h => h) fun _ h => h
      exact fun _ u hu => ⟨hu.1, hu.2, (List.nodup_cons.1 hnodup).2, List.Subset.trans (List.subset_cons_self _ _) hsub⟩
  · rintro _ t ⟨hback, hrecords⟩
    refine ((spec_restoreLkg hback hrecords).mono (fun _ _ h => h) (fun _ h => h.elim) fun _ h => h).bind ?_
    rintro _ u ⟨hback, hlkg, hjournal, hrecord⟩
    have hjournal' : u.disk.journal = e.journal ∨ u.disk.journal = none ∧ u.journalRecord = e.journal := by
      rw [hjournal, hrecord]
      exact hrecords.journal
    have hrecord' : u.journalRecord = none ∨ u.journalRecord = e.journal := by
      rw [hrecord]
      exact hrecords.journalRecord
    refine ((spec_restoreJournal hback hlkg hjournal' hrecord').mono (fun _ _ h => h) (fun _ h => h.elim) fun _ h => h).bind ?_
    rintro _ v ⟨hback, hrecords⟩
    refine ((spec_announceRollback hback hrecords).mono (fun _ _ h => h) (fun _ h => h.elim) fun _ h => h).bind ?_
    rintro _ w ⟨hback, hrecords⟩
    refine spec_get_bind ?_
    split_ifs with hfailed
    · exact spec_fail ⟨hback.frame rfl rfl (Or.inl rfl), ⟨hrecords.lkg, hrecords.journal⟩, by simp [hfailed]⟩
    · exact spec_fail ⟨hback.frame rfl rfl (Or.inl rfl), ⟨hrecords.lkg, hrecords.journal⟩, by simp [hfailed]⟩

end Backward

/-! ### The outcomes that there are -/

section Outcomes

variable {faulty : Bool} {α : Type} {p q : Prog (Vars γ) Unit}

theorem total_fail (e : Error) : Total (fail e : Prog (Vars γ) α) := ⟨fun _ => List.cons_ne_nil _ _⟩

theorem total_modify (f : Vars γ → Vars γ) : Total (modify f) := ⟨fun _ => List.cons_ne_nil _ _⟩

theorem total_check (b : Vars γ → Bool) (e : Error) : Total (check b e) := by
  refine ⟨fun s => ?_⟩
  unfold check fail
  split_ifs <;> exact List.cons_ne_nil _ _

theorem total_ite {c : Prop} [Decidable c] (hp : Total p) (hq : Total q) : Total (if c then p else q) := by
  split_ifs
  · exact hp
  · exact hq

theorem total_stageLeftover (id : String) : Total (stageLeftover faulty id : Prog (Vars γ) Unit) :=
  (total_check _ _).bind fun _ => (total_check _ _).bind fun _ => (total_step _ _).bind fun _ =>
    (total_check _ _).bind fun _ => total_modify _

theorem total_stageProfile (id : String) : Total (stageProfile faulty id : Prog (Vars γ) Unit) :=
  (total_check _ _).bind fun _ => (total_step _ _).bind fun _ => (total_check _ _).bind fun _ =>
    (total_check _ _).bind fun _ => (total_step _ _).bind fun _ => total_modify _

theorem total_stage (leftovers profiles : List String) : Total (stage faulty leftovers profiles : Prog (Vars γ) Unit) :=
  (total_forM total_stageLeftover _).bind fun _ => total_forM total_stageProfile _

theorem total_syncStaged : Total (syncStaged faulty : Prog (Vars γ) Unit) :=
  total_get.bind fun _ => total_ite (total_step _ _) (total_pure ())

theorem total_remove (leftovers profiles : List String) :
    Total (remove faulty leftovers profiles : Prog (Vars γ) Unit) := by
  refine (total_stage _ _).bind fun _ => ?_
  refine (total_get.bind fun _ => total_ite ((total_step _ _).bind fun _ => total_step _ _) (total_pure ())).bind fun _ => ?_
  refine ((total_step _ _).bind fun _ => total_get.bind fun _ =>
    total_ite ((total_modify _).bind fun _ => total_step _ _) (total_pure ())).bind fun _ => ?_
  refine ((total_step _ _).bind fun _ => total_get.bind fun _ =>
    total_ite ((total_modify _).bind fun _ => total_step _ _) (total_pure ())).bind fun _ => ?_
  refine (total_get.bind fun _ => total_ite (total_step _ _) (total_pure ())).bind fun _ => ?_
  exact total_get.bind fun _ => total_forM (fun _ => (total_check _ _).bind fun _ => total_step _ _) _

theorem total_restoreProfile (id : String) : Total (restoreProfile faulty id : Prog (Vars γ) Unit) :=
  total_get.bind fun _ => total_ite (total_modify _) ((total_step _ _).attempt (total_modify _))

theorem total_rollback : Total (rollback faulty : Prog (Vars γ) α) := by
  have hwrite : ∀ f : Vars γ → Vars γ, Total (attempt (writeJson faulty f) setFailed) := fun f =>
    ((total_step _ _).bind fun _ => total_step _ _).attempt (total_modify _)
  refine total_get.bind fun _ => (total_forM total_restoreProfile _).bind fun _ => ?_
  refine (total_get.bind fun _ => total_ite (hwrite _) (total_pure ())).bind fun _ => ?_
  refine (total_get.bind fun _ => total_ite (hwrite _) (total_pure ())).bind fun _ => ?_
  refine (((total_step _ _).bind fun _ => total_step _ _).attempt (total_modify _)).bind fun _ => ?_
  refine total_get.bind fun s => ?_
  cases s.rollbackFailed
  · exact total_fail _
  · exact total_fail _

theorem total_forget : Total (forget faulty : Prog (Vars γ) Result) := by
  refine Total.attempt ?_ (total_get.bind fun _ => total_pure _)
  refine (total_step _ _).bind fun _ => total_get.bind fun _ => ?_
  refine Total.bind ?_ fun _ => total_get.bind fun _ => total_pure _
  exact ((total_remove _ _).bind fun _ => total_syncStaged).attempt total_rollback

/-! A call with faults can do what one without faults does. -/

theorem sub_ite {c : Prop} [Decidable c] {p' q' : Prog (Vars γ) Unit} (hp : Sub p p') (hq : Sub q q') :
    Sub (if c then p else q) (if c then p' else q') := by
  split_ifs
  · exact hp
  · exact hq

theorem sub_stage (leftovers profiles : List String) :
    Sub (stage false leftovers profiles : Prog (Vars γ) Unit) (stage true leftovers profiles) := by
  refine (Sub.forM (fun id => ?_) _).bind fun _ => Sub.forM (fun id => ?_) _
  · exact (Sub.refl _).bind fun _ => (Sub.refl _).bind fun _ => (sub_step _ _).bind fun _ => Sub.refl _
  · exact (Sub.refl _).bind fun _ => (sub_step _ _).bind fun _ => (Sub.refl _).bind fun _ =>
      (Sub.refl _).bind fun _ => (sub_step _ _).bind fun _ => Sub.refl _

theorem sub_remove (leftovers profiles : List String) :
    Sub (remove false leftovers profiles : Prog (Vars γ) Unit) (remove true leftovers profiles) := by
  refine (sub_stage _ _).bind fun _ => ?_
  refine ((Sub.refl _).bind fun _ => sub_ite ((sub_step _ _).bind fun _ => sub_step _ _) (Sub.refl _)).bind fun _ => ?_
  refine ((sub_step _ _).bind fun _ => (Sub.refl _).bind fun _ =>
    sub_ite ((Sub.refl _).bind fun _ => sub_step _ _) (Sub.refl _)).bind fun _ => ?_
  refine ((sub_step _ _).bind fun _ => (Sub.refl _).bind fun _ =>
    sub_ite ((Sub.refl _).bind fun _ => sub_step _ _) (Sub.refl _)).bind fun _ => ?_
  refine ((Sub.refl _).bind fun _ => sub_ite (sub_step _ _) (Sub.refl _)).bind fun _ => ?_
  exact (Sub.refl _).bind fun _ => Sub.forM (fun _ => (Sub.refl _).bind fun _ => sub_step _ _) _

theorem sub_rollback : Sub (rollback false : Prog (Vars γ) α) (rollback true) := by
  have hwrite : ∀ f : Vars γ → Vars γ, Sub (attempt (writeJson false f) setFailed) (attempt (writeJson true f) setFailed) :=
    fun f => ((sub_step _ _).bind fun _ => sub_step _ _).attempt (Sub.refl _)
  refine (Sub.refl _).bind fun _ => (Sub.forM (fun _ => ?_) _).bind fun _ => ?_
  · exact (Sub.refl _).bind fun _ => sub_ite (Sub.refl _) ((sub_step _ _).attempt (Sub.refl _))
  · refine ((Sub.refl _).bind fun _ => sub_ite (hwrite _) (Sub.refl _)).bind fun _ => ?_
    refine ((Sub.refl _).bind fun _ => sub_ite (hwrite _) (Sub.refl _)).bind fun _ => ?_
    exact (((sub_step _ _).bind fun _ => sub_step _ _).attempt (Sub.refl _)).bind fun _ => Sub.refl _

end Outcomes

/-! ### All or nothing -/

section Law

variable {d e : Disk γ} {faulty : Bool}

/-- What is asked of what is left by `cleanup_pending` or by the end of the process: every profile that there was has
its file under one of its names, or no LKG names it, and a call in which no step fails completes the removal. -/
structure Recoverable (d e : Disk γ) : Prop where
  kept : ∀ id file, d.file id = some file → e.files (.profile id) = some file ∨
    e.files (.quarantine id) = some file ∨ ∀ r, e.lkg = some r → r.profile ≠ profileName id
  completes : ∀ r ∈ forget false (start e), ∃ removed t, r = (.value (.returned removed), t) ∧ Removed t.disk

/-- What is asked of one outcome of a call. -/
def Meets (d : Disk γ) : Outcome Result × Vars γ → Prop
  | (.value (.returned _), t) => Removed t.disk
  | (.value (.raised x), t) => if x = .networkError "cleanup_pending" then Recoverable d t.disk else t.disk = d
  | (.stopped, t) => Recoverable d t.disk
  | (.raised, _) => False

/-- Whatever steps fail and wherever the process dies. -/
def AllOrNothing (d : Disk γ) : Prop := ∀ r ∈ forget true (start d), Meets d r

/-- Nothing is left of an earlier attempt, and the LKG names no client profile that is there. -/
def Safe (d : Disk γ) : Prop :=
  (∀ id, d.files (.quarantine id) = none) ∧
    ∀ r, d.lkg = some r → ∀ id, r.profile = profileName id → d.files (.profile id) = none

theorem Safe.single (h : Safe d) : Single d := fun id => Or.inr (h.1 id)

theorem Safe.pair (h : Safe d) (id : String) : d.pair id = (d.file id, none) := by
  have hnone : (d.pair id).2 = none := h.1 id
  refine Prod.ext ?_ hnone
  rw [Disk.file, hnone, Option.or_none]

/-- How a call ends whose disk has one file for each profile. -/
theorem spec_forget (he : Managed e) (hsingle : Single e) :
    Spec (forget faulty) (start e)
      (fun r t => match r with
        | .returned _ => Removed t.disk
        | .raised x => faulty = true ∧ x = t.error ∧
          (t.disk = e ∧ x ≠ .networkError "cleanup_pending" ∨ ∃ gone staged error,
            Back e faulty gone staged [] t ∧ RecordsBack e faulty t ∧
              t.error = if t.rollbackFailed then .networkError "cleanup_pending" else error))
      (fun _ => False) (fun t => faulty = true ∧ Within e t.disk) := by
  refine spec_attempt (spec_bind (spec_step ?_ (fun hf x hx => ?_) fun hf => ⟨hf, (At.start e).within⟩))
  · refine spec_get_bind (spec_bind (spec_attempt ?_))
    have hbody : Spec (do Conductor.NetworkForget.remove faulty e.leftovers e.profiles; syncStaged faulty)
        (start e) (fun _ t => Removed t.disk) (Left e faulty) (Left e faulty) := by
      refine (spec_remove he hsingle).bind fun _ t ⟨ht, _, hremoved⟩ => ?_
      exact (spec_syncStaged ht).mono (fun _ u hu => hu ▸ hremoved) (fun _ h => h) fun _ h => h
    refine hbody.mono (fun _ t ht => spec_get_bind (spec_pure ht)) ?_ fun t ⟨hf, _, ht⟩ => ⟨hf, ht.within⟩
    rintro t ⟨hf, gone, ht⟩
    refine (spec_rollback ht).mono (fun _ _ h => h.elim) ?_ fun _ h => h
    rintro u ⟨hback, hrecords, herror⟩
    exact spec_get_bind (spec_pure ⟨hf, rfl, Or.inr ⟨gone, t.staged, _, hback, hrecords, herror⟩⟩)
  · refine spec_get_bind (spec_pure ⟨hf, rfl, Or.inl ⟨rfl, ?_⟩⟩)
    rintro rfl
    simp at hx

theorem Within.managed (h : Within d e) (hd : Managed d) : Managed e := by
  have hfile : ∀ id file, e.files (.profile id) = some file ∨ e.files (.quarantine id) = some file →
      d.files (.profile id) = some file ∨ d.files (.quarantine id) = some file := by
    intro id file hfile
    have hpair : e.pair id = (e.files (.profile id), e.files (.quarantine id)) := rfl
    rcases h.pairs id with hp | hp | hp | hp
    all_goals
      rw [hpair] at hp
      have h1 := congrArg Prod.fst hp
      have h2 := congrArg Prod.snd hp
      simp only [Disk.pair] at h1 h2
      rw [h1, h2] at hfile
    · exact hfile
    · exact file_cases (by simpa using hfile)
    · exact file_cases (by simpa using hfile)
    · simp at hfile
  intro slot file hslot
  cases slot with
  | profile id =>
    rcases hfile id file (Or.inl hslot) with h' | h'
    · exact hd (.profile id) file h'
    · exact hd (.quarantine id) file h'
  | quarantine id =>
    rcases hfile id file (Or.inr hslot) with h' | h'
    · exact hd (.profile id) file h'
    · exact hd (.quarantine id) file h'

theorem Within.single (h : Within d e) (hd : Single d) : Single e := by
  intro id
  rcases h.pairs id with hp | hp | hp | hp
  · rw [hp]
    exact hd id
  · exact Or.inr (by rw [hp])
  · exact Or.inl (by rw [hp])
  · exact Or.inl (by rw [hp])

theorem Within.recoverable (h : Within d e) (hd : Managed d) (hsafe : Safe d) : Recoverable d e where
  kept id file hfile := by
    have hpair := hsafe.pair id
    have hkeep : ∀ a b, e.pair id = (a, b) → e.files (.profile id) = a ∧ e.files (.quarantine id) = b :=
      fun a b hp => ⟨congrArg Prod.fst hp, congrArg Prod.snd hp⟩
    rcases h.pairs id with hp | hp | hp | hp
    · exact Or.inl ((hkeep _ _ (hp.trans hpair)).1.trans hfile)
    · exact Or.inl ((hkeep _ _ hp).1.trans hfile)
    · exact Or.inr (Or.inl ((hkeep _ _ hp).2.trans hfile))
    · refine Or.inr (Or.inr fun r hr hname => ?_)
      rcases h.lkg with hlkg | hlkg
      · have hnone := hsafe.2 r (hlkg ▸ hr) id hname
        rw [show d.files (.profile id) = d.file id from congrArg Prod.fst hpair, hfile] at hnone
        cases hnone
      · rw [hlkg] at hr
        cases hr
  completes r hr := by
    have hspec := @spec_forget _ _ false (h.managed hd) (h.single hsafe.single) r hr
    obtain ⟨o, t⟩ := r
    cases o with
    | value result =>
      cases result with
      | returned removed => exact ⟨removed, t, rfl, hspec⟩
      | raised x => exact absurd hspec.1 (by decide)
    | raised => exact hspec.elim
    | stopped => exact absurd hspec.1 (by decide)

variable {gone : List String}

/-- A rollback that has not failed has restored everything. -/
theorem Back.exact {staged : List String} {t : Vars γ} (h : Back d faulty gone staged [] t)
    (hrecords : RecordsBack d faulty t) (hsafe : Safe d) (hfine : t.rollbackFailed = false) : t.disk = d := by
  have hno : ∀ {P : Prop}, t.rollbackFailed = true ∧ P → False := fun hp => by
    rw [hfine] at hp
    cases hp.1
  refine Disk.ext h.ids (fun id => ?_) ?_ ?_
  · by_cases hid : id ∈ staged
    · rcases h.restored id hid (List.not_mem_nil) with ⟨-, hpair⟩ | hfailed
      · rw [hpair, hsafe.pair id]
      · exact (hno hfailed).elim
    · exact h.other id hid
  · exact hrecords.lkg.resolve_right fun hrest => hno hrest.2
  · exact hrecords.journal.resolve_right fun hrest => by
      rw [hfine] at hrest
      cases hrest.2

theorem allOrNothing_of_safe (hd : Managed d) (hsafe : Safe d) : AllOrNothing d := by
  intro r hr
  have hspec := @spec_forget _ _ true hd hsafe.single r hr
  obtain ⟨o, t⟩ := r
  cases o with
  | value result =>
    cases result with
    | returned removed => exact hspec
    | raised x =>
      obtain ⟨-, rfl, ⟨hsame, hcode⟩ | ⟨gone, staged, error, hback, hrecords, herror⟩⟩ := hspec
      · show if t.error = _ then _ else _
        rw [if_neg hcode]
        exact hsame
      · have hwithin : Within d t.disk := hback.within (hrecords.lkg.imp_right fun hrest => hrest.2.2)
        show if t.error = _ then _ else _
        split_ifs with hcode
        · exact hwithin.recoverable hd hsafe
        · cases hfine : t.rollbackFailed with
          | false => exact hback.exact hrecords hsafe hfine
          | true =>
            rw [herror, hfine] at hcode
            exact absurd rfl hcode
  | raised => exact hspec.elim
  | stopped => exact hspec.2.recoverable hd hsafe

/-! ### What goes wrong -/

/-- A handler never returns. -/
theorem spec_rollback_raises {α : Type} (s : Vars γ) :
    Spec (rollback faulty : Prog (Vars γ) α) s (fun _ _ => False) (fun _ => True) (fun _ => True) := by
  have htrue : ∀ {β : Type} (p : Prog (Vars γ) β) (t : Vars γ),
      Spec p t (fun _ _ => True) (fun _ => True) (fun _ => True) := by
    rintro β p t ⟨o, u⟩ _
    cases o <;> trivial
  refine spec_get_bind ((htrue _ _).bind fun _ t _ => (htrue _ _).bind fun _ t _ => (htrue _ _).bind fun _ t _ =>
    (htrue _ _).bind fun _ t _ => spec_get_bind ?_)
  split_ifs
  · exact spec_fail trivial
  · exact spec_fail trivial

variable {id : String}

/-- A profile with two files is found among the leftovers. -/
theorem spec_stage_conflict (hprofile : (d.pair id).1 ≠ none) (hleftover : (d.pair id).2 ≠ none) :
    Spec (stage false d.leftovers d.profiles) (start d) (fun _ _ => False) (fun _ => True) (fun _ => True) := by
  have hloop := spec_forM (R := fun _ : Vars γ => True) (C := fun _ => True) (f := stageLeftover false)
    (l := d.leftovers) (s := start d) (I := fun l t => t.disk = d ∧ id ∈ l) ⟨rfl, mem_leftovers.2 hleftover⟩ ?_
  · exact hloop.bind fun _ t ht => by cases ht.2
  · rintro other l t ⟨ht, hmem⟩
    refine spec_bind (spec_check (fun _ => ?_) fun _ => trivial)
    refine spec_bind (spec_check (fun hnone => ?_) fun _ => trivial)
    have hne : id ≠ other := by
      intro heq
      rw [ht, ← heq] at hnone
      exact hprofile (Option.isNone_iff_eq_none.1 hnone)
    refine spec_bind (spec_step ?_ (fun hf => by cases hf) fun hf => by cases hf)
    refine spec_bind (spec_check (fun _ => spec_modify ⟨ht, ?_⟩) fun _ => trivial)
    exact (List.mem_cons.1 hmem).resolve_left hne

theorem single_of_allOrNothing (h : AllOrNothing d) : Single d := by
  by_contra hsingle
  obtain ⟨id, hboth⟩ := not_forall.1 hsingle
  obtain ⟨hprofile, hleftover⟩ := not_or.1 hboth
  -- the process dies at once, and every later call stops at the conflict
  have hstop : (.stopped, start d) ∈ forget true (start d) :=
    mem_attempt_stopped (mem_bind_stopped (List.mem_cons_of_mem _ List.mem_cons_self))
  have hcompletes := (h _ hstop).completes
  have hspec : Spec (forget false) (start d) (fun r _ => ∀ removed, r ≠ .returned removed) (fun _ => True)
      (fun _ => True) := by
    refine spec_attempt (spec_bind (spec_step ?_ (fun hf => by cases hf) fun hf => by cases hf))
    refine spec_get_bind (spec_bind (spec_attempt ?_))
    have hbody : Spec (do Conductor.NetworkForget.remove false d.leftovers d.profiles; syncStaged false) (start d)
        (fun _ _ => False) (fun _ => True) (fun _ => True) := by
      have hremove : Spec (Conductor.NetworkForget.remove false d.leftovers d.profiles) (start d) (fun _ _ => False)
          (fun _ => True) (fun _ => True) := (spec_stage_conflict hprofile hleftover).bind fun _ _ hfalse => hfalse.elim
      exact hremove.bind fun _ _ hfalse => hfalse.elim
    refine hbody.mono (fun _ _ hfalse => hfalse.elim) (fun t _ => ?_) fun _ _ => trivial
    refine (spec_rollback_raises t).mono (fun _ _ hfalse => hfalse.elim) (fun u _ => ?_) fun _ _ => trivial
    exact spec_get_bind (spec_pure fun removed hr => by cases hr)
  obtain ⟨r, hr, hholds⟩ := hspec.exists total_forget
  obtain ⟨removed, t, rfl, -⟩ := hcompletes r hr
  exact hholds removed rfl

/-- The block raises in `t`, the handler runs without a fault. -/
theorem exists_rolledBack {t : Vars γ} (ht : At d gone t) (hraised : (.raised, t) ∈
    (do remove true d.leftovers d.profiles; syncStaged true : Prog (Vars γ) Unit) (start d)) :
    ∃ u, (.value (.raised u.error), u) ∈ forget true (start d) ∧ Back d false gone t.staged [] u ∧
      RecordsBack d false u ∧ u.error = if u.rollbackFailed then .networkError "cleanup_pending" else t.error.reraised := by
  obtain ⟨⟨o, u⟩, hu, hholds⟩ := (@spec_rollback _ _ false _ _ Unit ht).exists total_rollback
  cases o with
  | value => exact hholds.elim
  | stopped => exact absurd hholds.1 (by decide)
  | raised =>
    refine ⟨u, ?_, hholds⟩
    refine mem_attempt (t := u) (mem_bind (a := ()) (t := start d) List.mem_cons_self ?_) ?_
    · exact mem_bind (a := start d) (List.mem_singleton_self _)
        (mem_bind_raised (mem_attempt hraised (sub_rollback _ hu)))
    · exact mem_bind (a := u) (List.mem_singleton_self _) (List.mem_singleton_self _)

/-- A system call may raise. -/
theorem raised_mem_call (f : Vars γ → Vars γ) (s : Vars γ) : (.raised, { s with error := .osError }) ∈ call true f s := by
  simp [call, step]

theorem no_leftovers_of_allOrNothing (hd : Managed d) (h : AllOrNothing d) (id : String) :
    d.files (.quarantine id) = none := by
  have hsingle := single_of_allOrNothing h
  by_contra hleftover
  have hmem : id ∈ d.leftovers := mem_leftovers.2 hleftover
  obtain ⟨⟨o, t⟩, ht, hholds⟩ := (@spec_stage _ _ false hd hsingle).exists (total_stage _ _)
  cases o with
  | raised => exact absurd hholds.1 (by decide)
  | stopped => exact absurd hholds.1 (by decide)
  | value =>
    obtain ⟨hat, hstaged⟩ := hholds
    have hne : t.staged ≠ [] := by
      rw [hstaged]
      exact List.append_ne_nil_of_left_ne_nil (List.ne_nil_of_mem hmem) _
    -- the first sync after the staging raises
    have hannounce : (.raised, { t with error := .osError }) ∈ announce true t := by
      refine mem_bind (a := t) (List.mem_singleton_self _) ?_
      rw [if_pos hne]
      exact mem_bind_raised (raised_mem_call _ t)
    obtain ⟨u, hu, hback, hrecords, herror⟩ := exists_rolledBack (hat.error .osError)
      (mem_bind_raised (mem_bind (sub_stage _ _ _ ht) (mem_bind_raised hannounce)))
    have hfine : u.rollbackFailed = false := by
      cases hfailed : u.rollbackFailed with
      | false => rfl
      | true =>
        rcases hback.failed hfailed with hf | ⟨_, -, hgone⟩
        · cases hf
        · cases hgone
    have hsame := h _ hu
    rw [herror, hfine] at hsame
    have hdisk : u.disk = d := hsame
    have hin : id ∈ t.staged := hstaged ▸ List.mem_append_left _ hmem
    rcases hback.restored id hin List.not_mem_nil with ⟨-, hpair⟩ | ⟨hfailed, -⟩
    · rw [hdisk] at hpair
      exact hleftover (congrArg Prod.snd hpair)
    · rw [hfine] at hfailed
      cases hfailed

/-- The last sync raises behind the removal: the profile stays away, and the records come back. -/
theorem exists_lost (hd : Managed d) (hsingle : Single d) (hprofile : d.files (.profile id) ≠ none) :
    ∃ u, (.value (.raised (.networkError "cleanup_pending")), u) ∈ forget true (start d) ∧
      u.disk.pair id = (none, none) ∧ u.disk.lkg = d.lkg := by
  have hmem : id ∈ d.profiles := mem_profiles.2 hprofile
  obtain ⟨⟨o, t⟩, ht, hholds⟩ := (@spec_remove _ _ false hd hsingle).exists (total_remove _ _)
  cases o with
  | raised => exact absurd hholds.1 (by decide)
  | stopped => exact absurd hholds.1 (by decide)
  | value =>
    obtain ⟨hat, hstaged, -⟩ := hholds
    have hin : id ∈ t.staged := hstaged ▸ List.mem_append_right _ hmem
    have hsync : (.raised, { t with error := .osError }) ∈ syncStaged true t := by
      refine mem_bind (a := t) (List.mem_singleton_self _) ?_
      rw [if_pos (List.ne_nil_of_mem hin)]
      exact raised_mem_call _ t
    obtain ⟨u, hu, hback, hrecords, herror⟩ := exists_rolledBack (hat.error .osError)
      (mem_bind (sub_remove _ _ _ ht) hsync)
    have hpair : u.rollbackFailed = true ∧ u.disk.pair id = (none, none) := by
      rcases hback.restored id hin List.not_mem_nil with ⟨hgone, -⟩ | ⟨hfailed, ⟨-, hpair⟩ | ⟨hgone, -⟩⟩
      · exact absurd hin hgone
      · exact ⟨hfailed, hpair⟩
      · exact absurd hin hgone
    rw [hpair.1, if_pos rfl] at herror
    rw [herror] at hu
    refine ⟨u, hu, hpair.2, ?_⟩
    rcases hrecords.lkg with hlkg | ⟨hf, -⟩
    · exact hlkg
    · cases hf

theorem unnamed_of_allOrNothing (hd : Managed d) (h : AllOrNothing d) {r : Record γ} (hr : d.lkg = some r)
    (hname : r.profile = profileName id) : d.files (.profile id) = none := by
  by_contra hprofile
  obtain ⟨u, hu, hpair, hlkg⟩ := exists_lost hd (single_of_allOrNothing h) hprofile
  have hkept : Recoverable d u.disk := h _ hu
  obtain ⟨file, hfile⟩ : ∃ file, d.file id = some file := by
    obtain ⟨file, hfile⟩ := Option.ne_none_iff_exists'.1 hprofile
    exact ⟨file, by simp [Disk.file, Disk.pair, hfile]⟩
  rcases hkept.kept id file hfile with hown | hquarantine | hnamed
  · exact absurd ((congrArg Prod.fst hpair).symm.trans hown) (by simp)
  · exact absurd ((congrArg Prod.snd hpair).symm.trans hquarantine) (by simp)
  · exact hnamed r (hlkg.trans hr) hname

/-- Forgetting is all or nothing, whatever fails, exactly from the disks where nothing is left of an earlier attempt
and the LKG names no client profile. -/
theorem allOrNothing_iff_safe (d : Disk γ) (hd : Managed d) : AllOrNothing d ↔ Safe d :=
  ⟨fun h => ⟨no_leftovers_of_allOrNothing hd h, fun _ hr _ hname => unnamed_of_allOrNothing hd h hr hname⟩,
    allOrNothing_of_safe hd⟩

/-- One saved network: its profile, and the LKG that names it. -/
def savedDisk : Disk Unit where
  ids := ["0123456789ab"]
  files slot := if slot = .profile "0123456789ab" then some ⟨(), true, 0o600⟩ else none
  lkg := some ⟨"wifi-client", profileName "0123456789ab", ()⟩
  journal := none
  nodup := List.nodup_singleton _
  listed slot h := by
    split_ifs at h with hslot
    · rw [hslot]
      exact List.mem_singleton_self _
    · exact absurd rfl h

theorem savedDisk_managed : Managed savedDisk := by
  intro slot file h
  have hslot : slot = .profile "0123456789ab" ∧ file = ⟨(), true, 0o600⟩ := by
    have hfiles : (if slot = .profile "0123456789ab" then some (⟨(), true, 0o600⟩ : File Unit) else none) = some file := h
    split_ifs at hfiles with hslot
    exact ⟨hslot, (Option.some.inj hfiles).symm⟩
  rw [hslot.1, hslot.2]
  decide

/-- The same without LKG. -/
def unnamedDisk : Disk Unit := { savedDisk with lkg := none }

/-- The last sync fails after the profile is unlinked: it is gone, and no LKG names it. -/
theorem allOrNothing_savedDisk : AllOrNothing unnamedDisk ∧
    ∃ u, (.value (.raised (.networkError "cleanup_pending")), u) ∈ forget true (start unnamedDisk) ∧
      u.disk.pair "0123456789ab" = (none, none) ∧ u.disk.lkg = none :=
  ⟨(allOrNothing_iff_safe unnamedDisk savedDisk_managed).2 ⟨fun _ => rfl, nofun⟩,
    exists_lost (d := unnamedDisk) savedDisk_managed (fun _ => .inr rfl) (by simp [unnamedDisk, savedDisk])⟩

/-- With the LKG that names the profile, the same failure brings the LKG back without it. -/
theorem not_allOrNothing_savedDisk :
    (∃ u, (.value (.raised (.networkError "cleanup_pending")), u) ∈ forget true (start savedDisk) ∧
      u.disk.pair "0123456789ab" = (none, none) ∧
      u.disk.lkg = some ⟨"wifi-client", profileName "0123456789ab", ()⟩) ∧ ¬AllOrNothing savedDisk := by
  refine ⟨exists_lost savedDisk_managed (fun id => .inr rfl) (by simp [savedDisk]), fun h => ?_⟩
  have hnone := unnamed_of_allOrNothing savedDisk_managed h rfl rfl
  exact absurd hnone (by simp [savedDisk])

end Law

end Conductor.NetworkForget
