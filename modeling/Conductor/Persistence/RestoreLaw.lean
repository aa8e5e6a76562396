import Conductor.Lib.Chain
import Conductor.Persistence.Restore

/-! What an interrupted restore leaves, in every run of restores and openings. -/

namespace Conductor.Restore

open Outcomes Prog Runs Relation

variable {s t : State}

/-! ### The files after a change -/

section Files

@[simp] theorem put_files (n m : Name) (file : Option File) :
    (s.put n file).files m = if m = n then file else s.files m := Function.update_apply _ _ _ _

@[simp] theorem rename_files (n m k : Name) :
    (s.rename n m).files k = if k = n then none else if k = m then s.files n else s.files k := by
  simp [State.rename]

@[simp] theorem rename_marker (n m : Name) : (s.rename n m).marker = s.marker := rfl

@[simp] theorem rename_admitted (n m : Name) : (s.rename n m).admitted = s.admitted := rfl

@[simp] theorem rename_bootstraps (n m : Name) : (s.rename n m).bootstraps = s.bootstraps := rfl

variable {name : Suffix → Name} {l : Left}

@[simp] theorem leave_marker : (s.leave name l).marker = s.marker := by
  unfold State.leave
  split <;> rfl

@[simp] theorem leave_admitted : (s.leave name l).admitted = s.admitted := by
  unfold State.leave
  split <;> rfl

@[simp] theorem leave_connections : (s.leave name l).connections = s.connections := by
  unfold State.leave
  split <;> rfl

@[simp] theorem leave_bootstraps : (s.leave name l).bootstraps = s.bootstraps := by
  unfold State.leave
  split <;> rfl

/-- SQLite has no other files. -/
theorem leave_other {n : Name} (hn : ∀ x, n ≠ name x) : (s.leave name l).files n = s.files n := by
  unfold State.leave
  split
  · rfl
  · simp [hn]

theorem leave_none (h : s.files (name .database) = none) : s.leave name l = s := by
  simp [State.leave, h]

theorem leave_live_database {file : File} (h : s.files (.live .database) = some file) :
    (s.leave .live l).files (.live .database) = some ⟨file.owner, l.database⟩ := by
  simp [State.leave, h]

theorem leave_live_owner {file f : File} {x : Suffix} (h : s.files (.live .database) = some file)
    (hf : (s.leave .live l).files (.live x) = some f) : f.owner = file.owner := by
  cases x with
  | database =>
    rw [leave_live_database h, Option.some.injEq] at hf
    rw [← hf]
  | wal | shm | journal =>
    simp [State.leave, h] at hf
    obtain ⟨_, -, rfl⟩ := hf
    rfl

theorem leave_live_isSome : ((s.leave .live l).files (.live .database)).isSome = (s.files (.live .database)).isSome := by
  cases h : s.files (.live .database) with
  | none => rw [leave_none h, h]
  | some file => rw [leave_live_database h]; rfl

theorem leave_prepared_database {token : Token} {file : File} (h : s.files (.prepared token .database) = some file) :
    (s.leave (.prepared token) l).files (.prepared token .database) = some ⟨file.owner, l.database⟩ := by
  simp [State.leave, h]

end Files

/-! ### The moves -/

/-- How often SQLite was at work on the database. -/
def State.connected (s : State) (o : Owner) : ℕ := s.connections.countP (·.database = some o)

/-- What restores and openings change, one step at a time, and when. -/
inductive Moves : State → State → Prop
  | marked (s : State) (text : String) : Moves s (s.mark text)
  | prepared (s : State) (token : Token) (x : Suffix) (file : Option File) : Moves s (s.put (.prepared token x) file)
  | copied (s : State) (token : Token) (l : Left) : Moves s (s.leave (.prepared token) l)
  | admitted (s : State) (token : Token) (bytes : List UInt8) : Moves s (s.accept token bytes)
  | archived {s : State} {token : Token} {x : Suffix} (hmarker : s.marker.isSome)
      (horder : x = .database ∨ s.files (.live .database) = none) (hnew : s.files (.archived token x) = none) :
      Moves s (s.rename (.live x) (.archived token x))
  | published {s : State} {token : Token} {bytes : List UInt8} (hmarker : s.marker.isSome)
      (hnone : ∀ x, s.files (.live x) = none) (hfile : s.files (.prepared token .database) = some ⟨.snapshot token, bytes⟩)
      (hadmitted : (token, bytes) ∈ s.admitted) : Moves s (s.rename (.prepared token .database) (.live .database))
  | connected {s : State} (hlive : (s.files (.live .database)).isSome) : Moves s s.connect
  | written {s : State} (hlive : (s.files (.live .database)).isSome) (l : Left) : Moves s (s.connect.leave .live l)

/-- Each journal that SQLite found was one of that database. -/
def Connection.Own (k : Connection) : Prop := ∀ o ∈ k.journals, k.database = some o

/-- What the live name holds: the old database with its journals, untouched or as SQLite has left
them; nothing, with the marker; or a snapshot that was admitted, with no journal of another. -/
inductive Held (old : Suffix → Option (List UInt8)) (s : State) : Prop
  | untouched (hfiles : ∀ x, s.files (.live x) = (old x).map (File.mk .old))
  | reopened (hold : (old .database).isSome) (hlive : (s.files (.live .database)).isSome)
      (hconnected : 0 < s.connected .old) (howner : ∀ x f, s.files (.live x) = some f → f.owner = .old)
  | nothing (hmarker : s.marker.isSome) (hnone : s.files (.live .database) = none)
  | restored (token : Token) (bytes : List UInt8) (hmarker : s.marker.isSome)
      (hlive : s.files (.live .database) = some ⟨.snapshot token, bytes⟩)
      (hwhole : (token, bytes) ∈ s.admitted ∨ 0 < s.connected (.snapshot token))
      (howner : ∀ x f, s.files (.live x) = some f → f.owner = .snapshot token)

section Moves

variable {old : Suffix → Option (List UInt8)} {a : State}

variable {d : File}

/-- The files beside a live database are its own. -/
theorem Held.own (h : Held old s) {f : File} {x : Suffix} (hd : s.files (.live .database) = some d)
    (hf : s.files (.live x) = some f) : f.owner = d.owner := by
  cases h with
  | untouched hfiles =>
    rw [hfiles, Option.map_eq_some_iff] at hd hf
    obtain ⟨_, -, rfl⟩ := hd
    obtain ⟨_, -, rfl⟩ := hf
    rfl
  | reopened _ _ _ howner => rw [howner _ _ hf, howner _ _ hd]
  | nothing _ hnone =>
    rw [hnone] at hd
    cases hd
  | restored _ _ _ _ _ howner => rw [howner _ _ hf, howner _ _ hd]

/-- A change elsewhere. -/
theorem Held.of_eq (h : Held old s) (hfiles : ∀ x, t.files (.live x) = s.files (.live x))
    (hmarker : s.marker.isSome → t.marker.isSome) (hadmitted : s.admitted ⊆ t.admitted)
    (hconnections : t.connections = s.connections) : Held old t := by
  have hcount : ∀ o, t.connected o = s.connected o := fun o => by rw [State.connected, hconnections, State.connected]
  cases h with
  | untouched h => exact .untouched fun x => (hfiles x).trans (h x)
  | reopened hold hlive hconnected howner =>
    apply Held.reopened hold
    · rw [hfiles]
      exact hlive
    · rw [hcount]
      exact hconnected
    · intro x f hf
      exact howner x f ((hfiles x).symm.trans hf)
  | nothing hm hnone => exact .nothing (hmarker hm) ((hfiles _).trans hnone)
  | restored token bytes hm hlive hwhole howner =>
    apply Held.restored token bytes (hmarker hm) ((hfiles _).trans hlive)
    · rw [hcount]
      exact hwhole.imp_left fun h => hadmitted h
    · intro x f hf
      exact howner x f ((hfiles x).symm.trans hf)

theorem connect_connected (hd : s.files (.live .database) = some d) (o : Owner) :
    s.connect.connected o = s.connected o + if d.owner = o then 1 else 0 := by
  simp [State.connected, State.connect, State.owner, hd, List.countP_append, List.countP_cons]

theorem Held.connect (h : Held old s) (hd : s.files (.live .database) = some d) : Held old s.connect := by
  have hcount := connect_connected hd
  cases h with
  | untouched hfiles =>
    have hown := fun x f => Held.own (.untouched hfiles) hd (x := x) (f := f)
    rw [hfiles, Option.map_eq_some_iff] at hd
    obtain ⟨bytes, hbytes, rfl⟩ := hd
    refine .reopened (by rw [hbytes]; rfl) (by show (s.files _).isSome = true; rw [hfiles, hbytes]; rfl) ?_ hown
    rw [hcount, if_pos rfl]
    exact Nat.succ_pos _
  | reopened hold hlive hconnected howner =>
    refine .reopened hold hlive ?_ howner
    rw [hcount]
    omega
  | nothing _ hnone =>
    rw [hnone] at hd
    cases hd
  | restored token bytes hmarker hlive hwhole howner =>
    refine .restored token bytes hmarker hlive (hwhole.imp_right fun h => ?_) howner
    rw [hcount]
    omega

/-- What SQLite leaves in a database that it has worked on. -/
theorem Held.leave (h : Held old s) (hd : s.files (.live .database) = some d)
    (hconnected : 0 < s.connected d.owner) (l : Left) : Held old (s.leave .live l) := by
  have hlive := leave_live_database (l := l) hd
  have howner := fun x f => leave_live_owner (l := l) (x := x) (f := f) hd
  have hcount : (s.leave .live l).connected = s.connected := by
    funext o
    rw [State.connected, leave_connections, State.connected]
  cases h with
  | untouched hfiles =>
    rw [hfiles, Option.map_eq_some_iff] at hd
    obtain ⟨bytes, hbytes, rfl⟩ := hd
    exact .reopened (by rw [hbytes]; rfl) (by rw [hlive]; rfl) (by rw [hcount]; exact hconnected) howner
  | reopened hold _ _ hown =>
    obtain hdowner := hown _ _ hd
    refine .reopened hold (by rw [hlive]; rfl) ?_ fun x f hf => (howner x f hf).trans hdowner
    rw [hcount, ← hdowner]
    exact hconnected
  | nothing _ hnone =>
    rw [hnone] at hd
    cases hd
  | restored token bytes hmarker hfile _ hown =>
    rw [hfile, Option.some.injEq] at hd
    subst hd
    refine .restored token l.database (by rw [leave_marker]; exact hmarker) hlive (.inr ?_) howner
    rw [hcount]
    exact hconnected

theorem Held.move (h : Held old s) (hmove : Moves s t) : Held old t := by
  cases hmove with
  | marked text => exact h.of_eq (fun _ => rfl) (fun _ => rfl) (List.Subset.refl _) rfl
  | prepared token x file => exact h.of_eq (fun y => by simp) id (List.Subset.refl _) rfl
  | copied token l =>
    exact h.of_eq (fun y => leave_other (by simp)) (by rw [leave_marker]; exact id)
      (by rw [leave_admitted]; exact List.Subset.refl _) leave_connections
  | admitted token bytes => exact h.of_eq (fun _ => rfl) id (List.subset_append_left _ _) rfl
  | archived hmarker horder hnew =>
    refine .nothing hmarker ?_
    rw [rename_files]
    rcases horder with rfl | hnone
    · simp
    · simp [hnone]
  | published hmarker hnone hfile hadmitted =>
    refine .restored _ _ hmarker ?_ (.inl hadmitted) fun x f hf => ?_
    · simp [hfile]
    · cases x <;> simp [hfile, hnone] at hf
      rw [← hf]
  | connected hlive =>
    obtain ⟨d, hd⟩ := Option.isSome_iff_exists.1 hlive
    exact h.connect hd
  | written hlive l =>
    obtain ⟨d, hd⟩ := Option.isSome_iff_exists.1 hlive
    apply (h.connect hd).leave hd
    rw [connect_connected hd, if_pos rfl]
    exact Nat.succ_pos _

/-- Nothing empty is made an authority, and no journal is replayed into a database of another. -/
structure Safe (old : Suffix → Option (List UInt8)) (s : State) : Prop where
  held : Held old s
  bootstraps : s.bootstraps = []
  own : ∀ k ∈ s.connections, k.Own

theorem connect_own (h : Safe old s) (hd : s.files (.live .database) = some d) :
    ∀ k ∈ s.connect.connections, k.Own := by
  refine forall_mem_concat h.own ?_
  intro o ho
  obtain ⟨x, -, hx⟩ := List.mem_filterMap.1 ho
  obtain ⟨f, hf, rfl⟩ := Option.map_eq_some_iff.1 hx
  simp [State.owner, hd, h.held.own hd hf]

theorem Safe.move (h : Safe old s) (hmove : Moves s t) : Safe old t := by
  refine ⟨h.held.move hmove, ?_, ?_⟩
  · cases hmove <;> first | exact h.bootstraps | (rw [leave_bootstraps]; exact h.bootstraps)
  · cases hmove with
    | connected hlive =>
      obtain ⟨d, hd⟩ := Option.isSome_iff_exists.1 hlive
      exact connect_own h hd
    | written hlive l =>
      obtain ⟨d, hd⟩ := Option.isSome_iff_exists.1 hlive
      rw [leave_connections]
      exact connect_own h hd
    | copied token l =>
      rw [leave_connections]
      exact h.own
    | marked => exact h.own
    | prepared => exact h.own
    | admitted => exact h.own
    | archived => exact h.own
    | published => exact h.own

/-- Between two moments: the marker and what is archived stay, and a live file is there still, or archived, unless
SQLite was at work on its database. -/
structure Kept (a s : State) : Prop where
  marker : a.marker.isSome → s.marker.isSome
  connected : ∀ o, a.connected o ≤ s.connected o
  archives : ∀ token x f, a.files (.archived token x) = some f → s.files (.archived token x) = some f
  survives : ∀ x f, a.files (.live x) = some f → s.connected f.owner = a.connected f.owner →
    s.files (.live x) = some f ∨ ∃ token, s.files (.archived token x) = some f

theorem Kept.refl (a : State) : Kept a a := ⟨id, fun _ => Nat.le_refl _, fun _ _ _ h => h, fun _ _ h _ => .inl h⟩

theorem Kept.of_eq (h : Kept a s) (hlive : ∀ x, t.files (.live x) = s.files (.live x))
    (harchived : ∀ token x, t.files (.archived token x) = s.files (.archived token x))
    (hconnections : t.connections = s.connections) (hmarker : s.marker.isSome → t.marker.isSome) : Kept a t := by
  have hcount : t.connected = s.connected := by
    funext o
    rw [State.connected, hconnections, State.connected]
  refine ⟨fun ha => hmarker (h.marker ha), fun o => hcount ▸ h.connected o,
    fun token x f hf => (harchived token x).trans (h.archives token x f hf), ?_⟩
  intro x f hf heq
  rw [hcount] at heq
  simp only [hlive, harchived]
  exact h.survives x f hf heq

/-- What SQLite works on is not promised. -/
theorem Kept.work (h : Kept a s) (hheld : Held old s) (hd : s.files (.live .database) = some d) (hmarker : t.marker = s.marker)
    (harchived : ∀ token x, t.files (.archived token x) = s.files (.archived token x))
    (hcount : ∀ o, t.connected o = s.connected o + if d.owner = o then 1 else 0) : Kept a t := by
  refine ⟨fun ha => hmarker ▸ h.marker ha, fun o => (h.connected o).trans (by rw [hcount]; omega),
    fun token x f hf => (harchived token x).trans (h.archives token x f hf), fun x f hf heq => ?_⟩
  have hle := h.connected f.owner
  rw [hcount] at heq
  have hne : d.owner ≠ f.owner := by
    intro howner
    rw [if_pos howner] at heq
    omega
  rw [if_neg hne, Nat.add_zero] at heq
  rcases h.survives x f hf heq with hlive | ⟨token, hfile⟩
  · exact absurd (hheld.own hd hlive).symm hne
  · exact .inr ⟨token, (harchived token x).trans hfile⟩

theorem Kept.move (h : Kept a s) (hheld : Held old s) (hmove : Moves s t) : Kept a t := by
  cases hmove with
  | marked text => exact h.of_eq (fun _ => rfl) (fun _ _ => rfl) rfl fun _ => rfl
  | prepared token x file => exact h.of_eq (fun _ => by simp) (fun _ _ => by simp) rfl id
  | copied token l =>
    exact h.of_eq (fun _ => leave_other (by simp)) (fun _ _ => leave_other (by simp)) leave_connections
      (by rw [leave_marker]; exact id)
  | admitted token bytes => exact h.of_eq (fun _ => rfl) (fun _ _ => rfl) rfl id
  | @archived token x hmarker horder hnew =>
    refine ⟨h.marker, h.connected, fun token' y f hf => ?_, fun y f hf heq => ?_⟩
    · have hstays := h.archives token' y f hf
      have hne : Name.archived token' y ≠ .archived token x := by
        intro hname
        rw [hname, hnew] at hstays
        cases hstays
      rw [rename_files, if_neg (by simp), if_neg hne]
      exact hstays
    · rcases h.survives y f hf heq with hlive | ⟨token', hfile⟩
      · by_cases hyx : y = x
        · subst hyx
          refine .inr ⟨token, ?_⟩
          simp [hlive]
        · refine .inl ?_
          rw [rename_files, if_neg (by simpa using hyx), if_neg (by simp)]
          exact hlive
      · have hne : Name.archived token' y ≠ .archived token x := by
          intro hname
          rw [hname, hnew] at hfile
          cases hfile
        refine .inr ⟨token', ?_⟩
        rw [rename_files, if_neg (by simp), if_neg hne]
        exact hfile
  | published hmarker hnone hfile hadmitted =>
    refine ⟨h.marker, h.connected, fun token y f hf => ?_, fun y f hf heq => ?_⟩
    · simpa using h.archives token y f hf
    · rcases h.survives y f hf heq with hlive | ⟨token, hfile⟩
      · rw [hnone] at hlive
        cases hlive
      · exact .inr ⟨token, by simpa using hfile⟩
  | connected hlive =>
    obtain ⟨d, hd⟩ := Option.isSome_iff_exists.1 hlive
    exact h.work hheld hd rfl (fun _ _ => rfl) (connect_connected hd)
  | written hlive l =>
    obtain ⟨d, hd⟩ := Option.isSome_iff_exists.1 hlive
    refine h.work hheld hd leave_marker (fun _ _ => leave_other (by simp)) fun o => ?_
    rw [State.connected, leave_connections]
    exact connect_connected hd o

end Moves

/-! ### The steps of the programs -/

section Programs

variable {Q : Unit → State → Prop} {f : State → State}

theorem leads_tick (h : Q () s) : Leads Moves tick s Q := by
  intro r hr
  simp only [tick, List.mem_cons, List.not_mem_nil, or_false] at hr
  rcases hr with rfl | rfl | rfl
  · exact ⟨.refl, h⟩
  · exact .refl
  · exact .refl

theorem leads_act (hmove : Moves s (f s)) (h : Q () (f s)) : Leads Moves (act f) s Q := by
  intro r hr
  simp only [act, List.mem_cons, List.not_mem_nil, or_false] at hr
  rcases hr with rfl | rfl | rfl | rfl
  · exact ⟨.single hmove, h⟩
  · exact .refl
  · exact .refl
  · exact .single hmove

theorem leads_note (hmove : Moves s (f s)) (h : Q () (f s)) : Leads Moves (note f) s Q := by
  intro r hr
  rw [List.mem_singleton.1 hr]
  exact ⟨.single hmove, h⟩

/-- Wherever the work of SQLite ends. -/
theorem work_leads {name : Suffix → Name} {w : Work} (hleave : ∀ l, ReflTransGen Moves t (s.leave name l))
    (hs : ReflTransGen Moves t s) (h : Q () (s.leave name w.after)) :
    Spec (w.leave name) s (fun a u => ReflTransGen Moves t u ∧ Q a u) (ReflTransGen Moves t) (ReflTransGen Moves t) := by
  intro r hr
  rcases List.mem_cons.1 hr with rfl | hr
  · exact ⟨hleave _, h⟩
  · obtain ⟨u, hu, hr⟩ := List.mem_flatMap.1 hr
    have hreached : ReflTransGen Moves t u := by
      rcases List.mem_cons.1 hu with rfl | hu
      · exact hs
      · obtain ⟨l, -, rfl⟩ := List.mem_map.1 hu
        exact hleave l
    simp only [List.mem_cons, List.not_mem_nil, or_false] at hr
    rcases hr with rfl | rfl
    · exact hreached
    · exact hreached

variable {token : Token} {remaining : List Suffix}

theorem leads_copy {w : Work} (h : Q () (s.leave (.prepared token) w.after)) :
    Leads Moves (w.leave (.prepared token)) s Q := work_leads (fun l => .single (.copied s token l)) .refl h

theorem leads_connected {w : Work} (hlive : (s.files (.live .database)).isSome)
    (h : Q () (s.connect.leave .live w.after)) : Leads Moves w.connected s Q := by
  refine spec_bind ?_
  intro r hr
  rw [List.mem_singleton.1 hr]
  exact work_leads (fun l => .single (.written hlive l)) (.single (.connected hlive)) h

theorem leads_refuse {condition : Bool} (h : condition = false → Q () s) : Leads Moves (refuse condition) s Q := by
  cases condition with
  | true => exact leads_raise
  | false => exact leads_pure (h rfl)

theorem leads_only {condition : Bool} {p : Prog State Unit} (hp : condition = true → Leads Moves p s Q)
    (h : condition = false → Q () s) : Leads Moves (only condition p) s Q := by
  cases condition with
  | true => exact hp rfl
  | false => exact leads_pure (h rfl)

theorem leads_createMarker : Leads Moves createMarker s fun _ t =>
    t.marker.isSome ∧ t.files = s.files ∧ t.admitted = s.admitted := by
  refine (leads_act (Q := fun _ t => t.files = s.files ∧ t.admitted = s.admitted) (.marked s _) ⟨rfl, rfl⟩).bind
    fun _ t ht => ?_
  refine (leads_act (Q := fun _ u => u.marker.isSome ∧ u.files = s.files ∧ u.admitted = s.admitted) (.marked t _)
    ⟨rfl, ht⟩).bind fun _ u hu => ?_
  exact leads_tick hu

/-- An opening that finds the marker, or a database that has its schema. -/
def Initialized (s : State) (o : Opening) : Prop :=
  s.marker.isSome ∨ (s.files (.live .database)).isSome ∧ o.reading.version ≠ 0

instance {o : Opening} : Decidable (Initialized s o) := inferInstanceAs (Decidable (_ ∨ _))

theorem refused_of_version {r : Reading} (h : r.version = 0) : r.refused true = true := by
  simp [Reading.refused, h]

theorem leads_initializeDatabase {o : Opening} (h : Initialized s o) :
    Leads Moves (initializeDatabase o) s fun _ _ => True := by
  unfold initializeDatabase
  refine (leads_tick (Q := fun _ t => s = t) rfl).bind ?_
  rintro _ _ rfl
  refine (leads_get (Q := fun a t => s = a ∧ s = t) ⟨rfl, rfl⟩).bind ?_
  rintro _ _ ⟨rfl, rfl⟩
  refine (leads_refuse (Q := fun _ t => s = t ∧ (s.files (.live .database)).isSome) fun hmissing => ⟨rfl, ?_⟩).bind ?_
  · rcases h with hmarker | ⟨hlive, -⟩
    · cases hfile : s.files (.live .database) with
      | none => simp [hfile, hmarker] at hmissing
      | some file => rfl
    · exact hlive
  rintro _ _ ⟨rfl, hlive⟩
  refine (leads_only (Q := fun _ t => s = t) (fun hnone => ?_) fun _ => rfl).bind ?_
  · exact absurd (Option.isNone_iff_eq_none.1 hnone) (Option.isSome_iff_ne_none.1 hlive)
  rintro _ _ rfl
  refine (leads_tick (Q := fun _ t => s = t) rfl).bind ?_
  rintro _ _ rfl
  refine (leads_connected (Q := fun _ t => t.marker = s.marker ∧ (t.files (.live .database)).isSome) hlive
    ⟨leave_marker, leave_live_isSome.trans hlive⟩).bind ?_
  rintro _ t ⟨hmarker, htlive⟩
  refine (leads_get (Q := fun a u => t = a ∧ t = u) ⟨rfl, rfl⟩).bind ?_
  rintro _ _ ⟨rfl, rfl⟩
  refine (leads_refuse (Q := fun _ u => t = u ∧ o.reading.version ≠ 0) fun hrefused => ⟨rfl, ?_⟩).bind ?_
  · rcases h with hsome | ⟨-, hversion⟩
    · intro hzero
      rw [hmarker, hsome, refused_of_version hzero] at hrefused
      cases hrefused
    · exact hversion
  rintro _ _ ⟨rfl, hversion⟩
  refine (leads_only (Q := fun _ u => t = u) (fun hzero => ?_) fun _ => rfl).bind ?_
  · exact absurd (beq_iff_eq.1 hzero) hversion
  rintro _ _ rfl
  refine (leads_connected (Q := fun _ _ => True) htlive trivial).bind fun _ u _ => ?_
  refine leads_only (fun _ => ?_) fun _ => trivial
  exact leads_createMarker.bind fun _ _ _ => leads_tick trivial

/-- While the old files move away: the passes that remain are the last ones of the loop. -/
structure Archiving (token : Token) (bytes : List UInt8) (remaining : List Suffix) (s : State) : Prop where
  passes : remaining <:+ suffixes
  marker : s.marker.isSome
  gone : ∀ x, x ∉ remaining → s.files (.live x) = none
  fresh : ∀ x, x ∈ remaining → s.files (.archived token x) = none
  prepared : s.files (.prepared token .database) = some ⟨.snapshot token, bytes⟩
  admitted : (token, bytes) ∈ s.admitted

/-- The database moves first. -/
theorem database_first {x : Suffix} (h : x :: remaining <:+ suffixes) :
    (x = .database ∨ Suffix.database ∉ x :: remaining) ∧ x ∉ remaining := by
  simp only [suffixes, List.suffix_cons_iff, List.suffix_nil, List.cons.injEq, reduceCtorEq] at h
  rcases h with ⟨rfl, rfl⟩ | ⟨rfl, rfl⟩ | ⟨rfl, rfl⟩ | ⟨rfl, rfl⟩ | h
  · simp
  · simp
  · simp
  · simp
  · exact h.elim

theorem leads_archive {bytes : List UInt8} {x : Suffix} (h : Archiving token bytes (x :: remaining) s) :
    Leads Moves (archive token x) s fun _ => Archiving token bytes remaining := by
  obtain ⟨hfirst, hnot⟩ := database_first h.passes
  have hpasses : remaining <:+ suffixes := (List.suffix_cons x remaining).trans h.passes
  have hnext : ∀ y, y ∉ remaining → y ≠ x → s.files (.live y) = none := by
    intro y hy hne
    exact h.gone y (by simp [hne, hy])
  unfold archive
  refine (leads_get (Q := fun a t => s = a ∧ s = t) ⟨rfl, rfl⟩).bind ?_
  rintro _ _ ⟨rfl, rfl⟩
  refine leads_only (fun _ => leads_act (.archived h.marker ?_ (h.fresh x List.mem_cons_self)) ?_) fun hnone => ?_
  · exact hfirst.imp_right fun hlater => h.gone _ hlater
  · refine ⟨hpasses, h.marker, fun y hy => ?_, fun y hy => ?_, ?_, h.admitted⟩
    · rw [rename_files]
      by_cases hyx : y = x
      · simp [hyx]
      · simp [hyx, hnext y hy hyx]
    · have hyx : y ≠ x := fun heq => hnot (heq ▸ hy)
      simp [hyx, h.fresh y (List.mem_cons_of_mem _ hy)]
    · simp [h.prepared]
  · refine ⟨hpasses, h.marker, fun y hy => ?_, fun y hy => h.fresh y (List.mem_cons_of_mem _ hy), h.prepared, h.admitted⟩
    by_cases hyx : y = x
    · rw [hyx]
      simpa using hnone
    · exact hnext y hy hyx

/-- The snapshot that the restore has made, under names that nothing else has. -/
structure Prepared (token : Token) (bytes : List UInt8) (s : State) : Prop where
  file : s.files (.prepared token .database) = some ⟨.snapshot token, bytes⟩
  fresh : ∀ x, s.files (.archived token x) = none

theorem leads_restorePrepared {r : Restoring} (h : Prepared token r.snapshot s) :
    Leads Moves (restorePrepared token r) s fun _ _ => True := by
  unfold restorePrepared
  refine (leads_tick (Q := fun _ t => s = t) rfl).bind ?_
  rintro _ _ rfl
  refine (leads_refuse (Q := fun _ t => s = t) fun _ => rfl).bind ?_
  rintro _ _ rfl
  refine (leads_note (Q := fun _ t => Prepared token r.snapshot t ∧ (token, r.snapshot) ∈ t.admitted)
    (.admitted s token _) ⟨⟨h.file, h.fresh⟩, by simp [State.accept]⟩).bind ?_
  rintro _ t ⟨hprepared, hadmitted⟩
  refine (leads_get (Q := fun a u => t = a ∧ t = u) ⟨rfl, rfl⟩).bind ?_
  rintro _ _ ⟨rfl, rfl⟩
  refine Leads.bind (M := fun _ => Archiving token r.snapshot suffixes) ?_ fun _ u hu => ?_
  · refine leads_only (fun _ => leads_createMarker.mono ?_) fun hsome => ?_
    · rintro _ u ⟨hmarker, hfiles, hlist⟩
      refine ⟨List.suffix_refl _, hmarker, fun x hx => ?_, fun x _ => ?_, ?_, by rw [hlist]; exact hadmitted⟩
      · exact absurd (by cases x <;> simp [suffixes]) hx
      · rw [hfiles]
        exact hprepared.fresh x
      · rw [hfiles]
        exact hprepared.file
    · refine ⟨List.suffix_refl _, by simpa using hsome, fun x hx => ?_, fun x _ => hprepared.fresh x,
        hprepared.file, hadmitted⟩
      exact absurd (by cases x <;> simp [suffixes]) hx
  refine (leads_tick (Q := fun _ v => u = v) rfl).bind ?_
  rintro _ _ rfl
  refine (leads_forM (I := Archiving token r.snapshot) hu fun x l v hv => leads_archive hv).bind fun _ v hv => ?_
  refine (leads_tick (Q := fun _ w => v = w) rfl).bind ?_
  rintro _ _ rfl
  refine (leads_act (Q := fun _ w => w.marker.isSome)
    (.published hv.marker (fun x => hv.gone x List.not_mem_nil) hv.prepared hv.admitted) hv.marker).bind fun _ w hw => ?_
  refine (leads_tick (Q := fun _ x => w = x) rfl).bind ?_
  rintro _ _ rfl
  exact (leads_initializeDatabase (.inl hw)).bind fun _ _ _ => leads_tick trivial

theorem leads_removePrivateSnapshot : Leads Moves (removePrivateSnapshot token) s fun _ _ => True :=
  leads_forM (I := fun _ _ => True) trivial fun x _ t _ => leads_act (.prepared t token x none) trivial

theorem leads_restore {r : Restoring} (hfresh : s.fresh token = true) :
    Leads Moves (restore token r) s fun _ _ => True := by
  have harchived : ∀ x, s.files (.archived token x) = none := by
    intro x
    have hx := List.all_eq_true.1 hfresh x (by cases x <;> simp [suffixes])
    simp only [Bool.and_eq_true, Option.isNone_iff_eq_none] at hx
    exact hx.2
  unfold restore snapshot
  refine (leads_tick (Q := fun _ t => s = t) rfl).bind ?_
  rintro _ _ rfl
  refine (leads_tick (Q := fun _ t => s = t) rfl).bind ?_
  rintro _ _ rfl
  refine (leads_get (Q := fun a t => s = a ∧ s = t) ⟨rfl, rfl⟩).bind ?_
  rintro _ _ ⟨rfl, rfl⟩
  refine (leads_refuse (Q := fun _ t => s = t) fun _ => rfl).bind ?_
  rintro _ _ rfl
  refine (leads_refuse (Q := fun _ t => s = t) fun _ => rfl).bind ?_
  rintro _ _ rfl
  refine (leads_act (Q := fun _ t => Prepared token [] t) (.prepared s token _ _)
    ⟨by simp, fun x => by simp [harchived x]⟩).bind fun _ t ht => ?_
  refine Leads.bind (M := fun _ _ => True) (Leads.attempt ?_ fun u => ?_) fun _ u _ => leads_removePrivateSnapshot
  · refine (leads_copy (Q := fun _ u => Prepared token r.snapshot u) ⟨leave_prepared_database ht.file, fun x => ?_⟩).bind
      fun _ u hu => ?_
    · rw [leave_other (by simp)]
      exact ht.fresh x
    refine (leads_tick (Q := fun _ v => u = v) rfl).bind ?_
    rintro _ _ rfl
    exact leads_restorePrepared hu
  · exact (leads_removePrivateSnapshot.suppress fun _ => trivial).bind fun _ _ _ => leads_raise

end Programs

/-! ### Runs -/

/-- No opening finds neither the marker nor a database with its schema. -/
def Careful (s : State) (a : Action) : Prop :=
  match a with
  | .restore _ _ _ => True
  | .opening o _ => Initialized s o

instance {a : Action} : Decidable (Careful s a) :=
  match a with
  | .restore _ _ _ => isTrue trivial
  | .opening o _ => inferInstanceAs (Decidable (Initialized s o))

theorem step_moves {a : Action} (hcareful : Careful s a) (h : step s a = some t) : ReflTransGen Moves s t := by
  cases a with
  | restore token r outcome =>
    rw [step, Option.ite_none_right_eq_some, Option.map_eq_some_iff] at h
    obtain ⟨hfresh, p, hp, rfl⟩ := h
    exact (leads_restore hfresh).reached (List.mem_of_getElem? hp)
  | opening o outcome =>
    rw [step, Option.map_eq_some_iff] at h
    obtain ⟨p, hp, rfl⟩ := h
    exact (leads_initializeDatabase hcareful).reached (List.mem_of_getElem? hp)

theorem run_moves {actions : List Action} (h : run step s actions = some t)
    (hcareful : Along step (fun u a _ => Careful u a) s actions) : ReflTransGen Moves s t := by
  induction actions generalizing s with
  | nil =>
    cases h
    exact .refl
  | cons a actions ih =>
    obtain ⟨u, hu, hrest⟩ := run_cons_eq_some.1 h
    obtain ⟨ha, hcareful⟩ := hcareful u hu
    exact (step_moves ha hu).trans (ih hrest hcareful)

section Runs

variable {old : Suffix → Option (List UInt8)}

theorem safe_start (kept left : Token → Suffix → Option File) (marker : Option String) :
    Safe old (start old kept left marker) where
  held := .untouched fun _ => rfl
  bootstraps := rfl
  own := by simp [start]

theorem moves_safe (h : Safe old s) (hmoves : ReflTransGen Moves s t) : Safe old t ∧ Kept s t := by
  induction hmoves with
  | refl => exact ⟨h, .refl s⟩
  | tail _ hlast ih => exact ⟨ih.1.move hlast, ih.2.move ih.1.held hlast⟩

/-- At every moment of every run the live name holds one of the authorities, none is mixed or empty,
and from any earlier moment on nothing is lost. -/
theorem restore_fails_closed {kept left : Token → Suffix → Option File} {marker : Option String}
    {earlier later : List Action} {a b : State} (ha : run step (start old kept left marker) earlier = some a)
    (hb : run step a later = some b)
    (hcareful : Along step (fun u x _ => Careful u x) (start old kept left marker) (earlier ++ later)) :
    Safe old b ∧ Kept a b := by
  obtain ⟨hearlier, hlater⟩ := hcareful.append ha
  have hsafe := (moves_safe (safe_start kept left marker) (run_moves ha hearlier)).1
  exact moves_safe hsafe (run_moves hb hlater)

end Runs

/-! ### Two runs -/

def sampleOpening (version : ℤ) : Opening where
  reads := ⟨[], ⟨[1], fun _ => none⟩⟩
  reading := ⟨version, StateDatabase.applicationId * version, version != 0, true, true⟩
  writes := ⟨[], ⟨[1], fun _ => none⟩⟩

def sampleRestoring : Restoring := ⟨[], [1], true, sampleOpening 1⟩

/-- These old files and no others, with the marker or without it. -/
def sampleStart (old : List Suffix) (marker : Option String) : State :=
  start (fun x => if x ∈ old then some [2] else none) (fun _ _ => none) (fun _ _ => none) marker

/-- A restore dies once the database is archived; an opening is refused, and a later restore ends. -/
theorem restore_fails_closed_sample :
    ∃ a b, run step (sampleStart [.database, .journal] (some "1")) [.restore "a" sampleRestoring 155] = some a ∧
      a.files (.live .database) = none ∧ a.files (.live .journal) = some ⟨.old, [2]⟩ ∧
      run step a [.opening (sampleOpening 1) 0, .restore "b" sampleRestoring 0] = some b ∧
      Safe (fun x => if x ∈ [Suffix.database, .journal] then some [2] else none) b ∧ Kept a b := by
  have hcareful : Along step (fun u x _ => Careful u x) (sampleStart [.database, .journal] (some "1"))
      ([.restore "a" sampleRestoring 155] ++ [.opening (sampleOpening 1) 0, .restore "b" sampleRestoring 0]) := by
    decide +kernel
  exact ⟨_, _, rfl, rfl, rfl, rfl, restore_fails_closed rfl rfl hcareful⟩

/-- A restore dies before it has changed anything. Where there is neither a database nor a marker the
next opening makes an empty authority, beside a journal of the old one; and SQLite, which opens the
old database, removes its journal. -/
theorem restore_fails_closed_fails :
    (∃ s, run step (sampleStart [.journal] none) [.restore "a" sampleRestoring 247, .opening (sampleOpening 0) 0] = some s ∧
      s.bootstraps = [some .created] ∧ ∃ k ∈ s.connections, ¬ k.Own) ∧
    ∃ s, run step (sampleStart [.database, .journal] (some "1"))
        [.restore "a" sampleRestoring 218, .opening (sampleOpening 1) 0] = some s ∧
      s.files (.live .journal) = none ∧ ∀ token, s.files (.archived token .journal) = none := by
  constructor
  · refine ⟨_, rfl, rfl, ⟨some .created, [.old]⟩, List.mem_cons_self, ?_⟩
    intro hown
    cases hown .old List.mem_cons_self
  · exact ⟨_, rfl, rfl, fun token => rfl⟩

end Conductor.Restore
