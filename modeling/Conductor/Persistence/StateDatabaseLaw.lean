import Conductor.Persistence.CaptureStateLaw
import Conductor.Persistence.StateDatabase

/-! A committed authority is never reset. Whether a document is new is inferred from its row, its import
receipt, the tables and the marker; the receipt stays in the file that the path led to when the marker
was created, and no other file gets tables after that. -/

namespace Conductor.StateDatabase

open Checked Persistence Runs Sections

variable {V ρ κ φ : Type}

/-! ### What a transaction commits -/

/-- A first row has revision 1; a committed change of the body raises it by one. -/
def RowLaw : Option DocumentRow → Option DocumentRow → Prop
  | none, none => True
  | none, some new => new.revision = 1
  | some _, none => False
  | some old, some new => new = old ∨ new.body ≠ old.body ∧ new.revision = old.revision + 1

theorem RowLaw.refl (row : Option DocumentRow) : RowLaw row row := by
  cases row with
  | none => trivial
  | some row => exact .inl rfl

structure Commit.Lawful (e : Commit) : Prop where
  rows : ∀ name, RowLaw (e.before.documents name) (e.after.documents name)
  imports : ∀ name ∈ e.before.imports, name ∈ e.after.imports
  initial : ∀ name, e.initialises = some name →
    e.before.documents name = none ∧ name ∉ e.before.imports ∧ name ∈ e.after.imports

/-- What is asked of a transaction's body before it is committed. -/
structure Written.Lawful (file : File) (written : Written V) : Prop where
  tables : file.tables ≠ []
  commit : ∀ call inode, (⟨call, inode, written.initialises, file.db, written.db⟩ : Commit).Lawful

variable {body : PyStr} {history : Bool} {name : String} {w : Written V} {arguments : Put ρ κ φ}

variable {db : Db} {now : String} {db' : Db} {answer : Answer V}

theorem putBody_lawful (h : putBody db name body now history = .ok db') :
    db'.imports = db.imports ∧ RowLaw (db.documents name) (db'.documents name) ∧
      ∀ other, other ≠ name → db'.documents other = db.documents other := by
  unfold putBody at h
  split at h
  · cases h
    exact ⟨rfl, .refl _, fun _ _ => rfl⟩
  · next hchanged =>
    obtain ⟨text, htext, h⟩ := bind_eq_ok.1 h
    obtain rfl := pure_eq_ok.1 h
    obtain rfl := bindText_ok htext
    refine ⟨rfl, ?_, fun other hother => by simp [Function.update_of_ne hother]⟩
    simp only [Function.update_self]
    cases hold : db.documents name with
    | none => rfl
    | some old =>
      refine .inr ⟨fun heq => hchanged ?_, rfl⟩
      simpa [hold] using heq

theorem putBody_rows (h : putBody db name body now history = .ok db') (other : String) :
    RowLaw (db.documents other) (db'.documents other) := by
  obtain ⟨-, hrow, hothers⟩ := putBody_lawful h
  by_cases hname : other = name
  · exact hname ▸ hrow
  · rw [hothers other hname]
    exact .refl _

/-- A commit that makes no document anew. -/
theorem Written.lawful_of_rows {file : File} (htables : file.tables ≠ []) (himports : db.imports = file.db.imports)
    (hrows : ∀ name, RowLaw (file.db.documents name) (db.documents name)) :
    Written.Lawful file ⟨answer, none, db⟩ :=
  ⟨htables, fun _ _ => ⟨hrows, fun _ h => himports ▸ h, nofun⟩⟩

theorem Written.lawful_insert {file : File} {body : String}
    (htables : file.tables ≠ []) (hnone : file.db.documents name = none) (hreceipt : name ∉ file.db.imports) :
    Written.Lawful file ⟨answer, some name, insertDocument file.db name body now history⟩ := by
  refine ⟨htables, fun _ _ => ⟨fun other => ?_, fun _ h => List.mem_append_left _ h, ?_⟩⟩
  · by_cases hname : other = name
    · subst hname
      simp [insertDocument, hnone, RowLaw]
    · simp [insertDocument, Function.update_of_ne hname, RowLaw.refl]
  · rintro other h
    cases h
    exact ⟨hnone, hreceipt, List.mem_append_right _ (List.mem_singleton_self _)⟩

theorem requireTable_ok {file : File} {table : String} {u : Unit} (h : requireTable file table = .ok u) :
    file.tables ≠ [] := by
  rintro hnil
  simp [requireTable, File.has, hnil] at h

theorem requireReceipt_ok {file : File} {u : Unit} (h : requireReceipt file name = .ok u) :
    name ∉ file.db.imports := by
  unfold requireReceipt at h
  split at h
  · cases h
  · assumption

theorem raising_eq_ok {α : Type} {r : Except Persistence.Error α} {a : α} (h : raising r = .ok a) : r = .ok a := by
  cases r with
  | ok b => exact congrArg _ (Except.ok.inj h)
  | error e => cases h

theorem python_eq_ok {α : Type} {r : Except PyError α} {a : α} (h : python r = .ok a) : r = .ok a := by
  cases r with
  | ok b => exact congrArg _ (Except.ok.inj h)
  | error e => cases h

/-- How a call that makes a document anew, or finds it, has committed: the tables of a document
that is there are left alone. -/
def Commit.Settles (name : String) (e : Commit) : Prop :=
  e.initialises = some name ∨ e.initialises = none ∧ (e.before.documents name).isSome ∧ e.after = e.before

theorem initializeDocument_ok {env : Env V ρ κ φ} {value : V} {file : File}
    (h : initializeDocument env name value now file = .ok w) :
    w.Lawful file ∧ ∀ call inode, (⟨call, inode, w.initialises, file.db, w.db⟩ : Commit).Settles name := by
  obtain ⟨u, hdocuments, h⟩ := bind_eq_ok.1 h
  have htables := requireTable_ok hdocuments
  split at h
  · next row hrow =>
    obtain rfl := pure_eq_ok.1 h
    exact ⟨Written.lawful_of_rows htables rfl fun _ => .refl _, fun _ _ => .inr ⟨rfl, by rw [hrow]; rfl, rfl⟩⟩
  · next hnone =>
    obtain ⟨_, -, h⟩ := bind_eq_ok.1 h
    obtain ⟨_, hreceipt, h⟩ := bind_eq_ok.1 h
    iterate 3 obtain ⟨_, -, h⟩ := bind_eq_ok.1 h
    obtain rfl := pure_eq_ok.1 h
    exact ⟨Written.lawful_insert htables hnone (requireReceipt_ok hreceipt), fun _ _ => .inl rfl⟩

theorem update_ok {env : Env V ρ κ φ} {transform : V → Option V} {file : File}
    (h : update env name transform now file = .ok w) : w.Lawful file := by
  obtain ⟨u, hdocuments, h⟩ := bind_eq_ok.1 h
  split at h
  · cases h
  · obtain ⟨_, -, h⟩ := bind_eq_ok.1 h
    split at h
    · cases h
    · obtain ⟨_, -, h⟩ := bind_eq_ok.1 h
      obtain ⟨_, -, h⟩ := bind_eq_ok.1 h
      obtain ⟨db, hdb, h⟩ := bind_eq_ok.1 h
      obtain rfl := pure_eq_ok.1 h
      have hput := raising_eq_ok hdb
      exact Written.lawful_of_rows (requireTable_ok hdocuments) (putBody_lawful hput).1 (putBody_rows hput)

theorem put_lawful {env : Env V ρ κ φ} {value : V} {file : File}
    (h : put env name value history now file = .ok w) : w.Lawful file := by
  obtain ⟨_, -, h⟩ := bind_eq_ok.1 h
  obtain ⟨_, hdocuments, h⟩ := bind_eq_ok.1 h
  iterate 3 obtain ⟨_, -, h⟩ := bind_eq_ok.1 h
  obtain ⟨db, hdb, h⟩ := bind_eq_ok.1 h
  obtain rfl := pure_eq_ok.1 h
  have hput := raising_eq_ok hdb
  exact Written.lawful_of_rows (requireTable_ok hdocuments) (putBody_lawful hput).1 (putBody_rows hput)

/-- The documents and the import receipts that a put of the capture state leaves. -/
theorem statements_rows {fault : Statement → Option String} {k : Codec ρ κ φ} {p : Prepared ρ}
    (h : statements fault k arguments p body db = .ok db') :
    db'.imports = db.imports ∧ ∀ name, RowLaw (db.documents name) (db'.documents name) := by
  unfold statements at h
  iterate 4 obtain ⟨_, -, h⟩ := bind_eq_ok.1 h
  obtain ⟨db1, h1, h⟩ := bind_eq_ok.1 h
  obtain ⟨_, -, h⟩ := bind_eq_ok.1 h
  obtain ⟨db2, h2, h⟩ := bind_eq_ok.1 h
  obtain ⟨_, -, h⟩ := bind_eq_ok.1 h
  obtain ⟨db3, h3, h⟩ := bind_eq_ok.1 h
  obtain ⟨_, -, h⟩ := bind_eq_ok.1 h
  obtain ⟨db4, h4, h⟩ := bind_eq_ok.1 h
  obtain ⟨_, -, h⟩ := bind_eq_ok.1 h
  obtain ⟨db5, h5, h⟩ := bind_eq_ok.1 h
  obtain ⟨_, -, h⟩ := bind_eq_ok.1 h
  obtain rfl := pure_eq_ok.1 h
  obtain rfl := insertEvidence_ok h1
  obtain ⟨himports2, hcapture, hothers2⟩ := putBody_lawful h2
  obtain rfl := deleteRemoved_ok h3
  obtain ⟨rfl, -⟩ := replaceCommands_ok h4
  have hrows2 := putBody_rows h2
  unfold putFocus at h5
  split at h5
  · cases h5
    exact ⟨himports2, hrows2⟩
  · obtain ⟨_, -, h5⟩ := bind_eq_ok.1 h5
    obtain ⟨_, -, h5⟩ := bind_eq_ok.1 h5
    obtain ⟨himports5, hfocus, hothers5⟩ := putBody_lawful h5
    refine ⟨himports5.trans himports2, fun name => ?_⟩
    by_cases hname : name = "camera_focus"
    · subst hname
      rw [← hothers2 "camera_focus" (by decide)]
      exact hfocus
    · rw [hothers5 name hname]
      exact hrows2 name

theorem putCaptureState_ok {env : Env V ρ κ φ} {file : File}
    (h : putCaptureState env arguments file = .ok w) : w.Lawful file := by
  obtain ⟨_, hdocuments, h⟩ := bind_eq_ok.1 h
  iterate 3 obtain ⟨_, -, h⟩ := bind_eq_ok.1 h
  split at h
  · cases h
  next db hput =>
  obtain rfl := pure_eq_ok.1 h
  unfold Persistence.putCaptureState at hput
  split at hput
  · cases hput
  · split at hput
    · cases hput
    · split at hput
      · cases hput
      · unfold Persistence.transaction at hput
        split at hput
        · cases hput
        · next db' hstatements =>
          cases hput
          obtain ⟨himports, hrows⟩ := statements_rows hstatements
          exact Written.lawful_of_rows (requireTable_ok hdocuments) himports hrows

/-! ### The disk -/

/-- What holds between any two sections. Tables are only made while there is no marker, so that all
that was ever committed lies in one file. -/
structure Inv (d : Disk) : Prop where
  fresh : ∀ n, d.nextInode ≤ n → d.files n = {}
  path : ∀ n, d.path = some (.regular n) → n < d.nextInode
  found : d.marker = true → ∀ n, d.path = some (.regular n) → (d.files n).tables ≠ [] → d.authority = some n
  log : ∀ e ∈ d.log, d.marker = true ∧ d.authority = some e.inode
  receipts : ∀ e ∈ d.log, ∀ name, e.initialises = some name →
    (d.files e.inode).tables = [] ∨ name ∈ (d.files e.inode).db.imports
  once : (d.log.filterMap (·.initialises)).Nodup
  lawful : ∀ e ∈ d.log, e.Lawful

/-- What a thread relies on: its locks hold the others off, though a file can be emptied under them. -/
structure Others (i : ℕ) (s t : Disk) : Prop where
  inv : Inv s → Inv t
  inode : s.nextInode ≤ t.nextInode
  marker : s.marker = true → t.marker = true ∧ t.authority = s.authority
  log : ∃ es, t.log = s.log ++ es ∧ ∀ e ∈ es, e.call ≠ i
  bare : s.marker = true → ∀ n, s.authority ≠ some n → (s.files n).tables = [] → (t.files n).tables = []
  writer : ∀ n, s.writer n = some i →
    t.writer n = some i ∧ (t.files n = s.files n ∨ t.files n = {}) ∧ ∀ e ∈ t.log, e.inode = n → e ∈ s.log
  init : s.initLock = some i → t.initLock = some i ∧ t.marker = s.marker

/-- What a section of a call does. Tables change by what it logs, which is what its call may log. -/
structure Moves (T : Commit → Prop) (i : ℕ) (s t : Disk) : Prop where
  inv : Inv s → Inv t
  inode : s.nextInode ≤ t.nextInode
  marker : s.marker = true → t.marker = true ∧ t.authority = s.authority
  log : t.log = s.log ∨ ∃ e, t.log = s.log ++ [e] ∧ e.call = i ∧ s.writer e.inode = some i ∧ T e
  bare : s.marker = true → ∀ n, s.authority ≠ some n → (s.files n).tables = [] → (t.files n).tables = []
  writers : ∀ n j, j ≠ i → s.writer n = some j → t.writer n = some j ∧ t.files n = s.files n
  init : ∀ j, j ≠ i → s.initLock = some j → t.initLock = some j ∧ t.marker = s.marker
  tables : ∀ n, (t.files n).db = (s.files n).db ∨ s.files n = {} ∨
    ∃ e, t.log = s.log ++ [e] ∧ e.inode = n ∧ e.before = (s.files n).db ∧ e.after = (t.files n).db

theorem Others.refl (i : ℕ) (s : Disk) : Others i s s where
  inv h := h
  inode := le_rfl
  marker h := ⟨h, rfl⟩
  log := ⟨[], (List.append_nil _).symm, nofun⟩
  bare _ _ _ h := h
  writer _ h := ⟨h, .inl rfl, fun _ he _ => he⟩
  init h := ⟨h, rfl⟩

theorem Others.trans {i : ℕ} {s t u : Disk} (h : Others i s t) (h' : Others i t u) : Others i s u where
  inv hs := h'.inv (h.inv hs)
  inode := h.inode.trans h'.inode
  marker hs := by
    obtain ⟨ht, hauthority⟩ := h.marker hs
    exact ⟨(h'.marker ht).1, (h'.marker ht).2.trans hauthority⟩
  log := by
    obtain ⟨es, hes, hcalls⟩ := h.log
    obtain ⟨es', hes', hcalls'⟩ := h'.log
    refine ⟨es ++ es', by rw [hes', hes, List.append_assoc], fun e he => ?_⟩
    exact (List.mem_append.1 he).elim (hcalls e) (hcalls' e)
  bare hs n hn hnil := by
    obtain ⟨ht, hauthority⟩ := h.marker hs
    exact h'.bare ht n (hauthority ▸ hn) (h.bare hs n hn hnil)
  writer n hs := by
    obtain ⟨ht, hfile, hlog⟩ := h.writer n hs
    obtain ⟨hu, hfile', hlog'⟩ := h'.writer n ht
    refine ⟨hu, ?_, fun e he hn => hlog e (hlog' e he hn) hn⟩
    rcases hfile' with hfile' | hfile'
    · exact hfile' ▸ hfile
    · exact .inr hfile'
  init hs := by
    obtain ⟨ht, hmarker⟩ := h.init hs
    exact ⟨(h'.init ht).1, (h'.init ht).2.trans hmarker⟩

theorem others_rely (i : ℕ) : Rely (Others i) := ⟨Others.refl i, fun _ _ _ h h' => h.trans h'⟩

variable {T : Commit → Prop}

/-- What a section of one call does is nothing that another one must not see. -/
theorem Moves.others {i j : ℕ} {s t : Disk} (h : Moves T i s t) (hij : i ≠ j) : Others j s t where
  inv := h.inv
  inode := h.inode
  marker := h.marker
  log := by
    rcases h.log with hlog | ⟨e, hlog, hcall, -⟩
    · exact ⟨[], by rw [hlog, List.append_nil], nofun⟩
    · exact ⟨[e], hlog, fun e' he' => List.mem_singleton.1 he' ▸ hcall ▸ hij⟩
  bare := h.bare
  writer n hs := by
    obtain ⟨ht, hfile⟩ := h.writers n j hij.symm hs
    refine ⟨ht, .inl hfile, fun e he hn => ?_⟩
    rcases h.log with hlog | ⟨e', hlog, -, hwriter, -⟩
    · exact hlog ▸ he
    · rw [hlog] at he
      rcases mem_concat.1 he with he | he
      · exact he
      · -- the entry's file is locked by the other call
        rw [← he, hn, hs] at hwriter
        exact absurd (Option.some.inj hwriter).symm hij
  init hs := h.init j hij.symm hs

theorem Moves.refl (i : ℕ) (s : Disk) : Moves T i s s where
  inv h := h
  inode := le_rfl
  marker h := ⟨h, rfl⟩
  log := .inl rfl
  bare _ _ _ h := h
  writers _ _ _ h := ⟨h, rfl⟩
  init _ _ h := ⟨h, rfl⟩
  tables _ := .inl rfl

/-! ### What a call knows -/

/-- The call has committed nothing. -/
structure Idle (i : ℕ) (d : Disk) : Prop where
  inv : Inv d
  log : ∀ e ∈ d.log, e.call ≠ i

/-- It holds the initialization lock. -/
structure Initializing (i : ℕ) (d : Disk) : Prop extends Idle i d where
  lock : d.initLock = some i

/-- It is in a transaction on a file, with what it found there. -/
structure Holds (i inode : ℕ) (file : File) (d : Disk) : Prop where
  given : inode < d.nextInode
  writer : d.writer inode = some i
  content : d.files inode = file ∨ d.files inode = {}

/-- A transaction on documents: a file with tables is the one where all is. -/
structure InTransaction (i inode : ℕ) (file : File) (d : Disk) : Prop extends Idle i d, Holds i inode file d where
  marker : d.marker = true
  authority : file.tables ≠ [] → d.authority = some inode
  receipts : ∀ e ∈ d.log, ∀ name, e.initialises = some name → e.inode = inode → file.tables = [] ∨ name ∈ file.db.imports

theorem stable_idle (i : ℕ) : Stable (Others i) (Idle i) := by
  rintro s t ⟨hinv, hlog⟩ h
  obtain ⟨es, hes, hcalls⟩ := h.log
  refine ⟨h.inv hinv, fun e he => ?_⟩
  rw [hes] at he
  exact (List.mem_append.1 he).elim (hlog e) (hcalls e)

theorem stable_initializing (i : ℕ) : Stable (Others i) (Initializing i) := by
  rintro s t ⟨hidle, hlock⟩ h
  exact ⟨stable_idle i s t hidle h, (h.init hlock).1⟩

theorem stable_holds (i inode : ℕ) (file : File) : Stable (Others i) (Holds i inode file) := by
  rintro s t ⟨hinode, hwriter, hfile⟩ h
  obtain ⟨hwriter', hsame, -⟩ := h.writer inode hwriter
  refine ⟨lt_of_lt_of_le hinode h.inode, hwriter', ?_⟩
  rcases hsame with hsame | hempty
  · exact hsame ▸ hfile
  · exact .inr hempty

theorem stable_inTransaction (i inode : ℕ) (file : File) : Stable (Others i) (InTransaction i inode file) := by
  intro s t hs h
  obtain ⟨hmarker, hauthority⟩ := h.marker hs.marker
  refine ⟨stable_idle i s t hs.toIdle h, stable_holds i inode file s t hs.toHolds h, hmarker,
    fun htables => hauthority ▸ hs.authority htables, fun e he name hname hinode => ?_⟩
  exact hs.receipts e ((h.writer inode hs.writer).2.2 e he hinode) name hname hinode

/-! ### Sections -/

section Sections

variable {i inode : ℕ} {file : File} {α : Type} {P : Disk → Prop}

variable {Q : α → Disk → Prop}

/-- A section that leaves the disk as it is. -/
theorem triple_same {f : Disk → List (Except Raised α × Disk)} (hP : Stable (Others i) P)
    (hQ : ∀ a, Stable (Others i) (Q a)) (h : ∀ d, P d → ∀ r ∈ f d, r.2 = d ∧ ∀ a, r.1 = .ok a → Q a d) :
    Triple (Others i) (Moves T i) P (.critical f) Q fun _ => P := by
  refine triple_critical hP hQ (fun _ => hP) fun d hd r hr => ?_
  obtain ⟨hsame, hgives⟩ := h d hd r hr
  obtain ⟨o, t⟩ := r
  obtain rfl : t = d := hsame
  refine ⟨.refl i t, ?_⟩
  cases o with
  | ok a => exact hgives a rfl
  | error e => exact hd

theorem triple_look {f : Disk → α} (hP : Stable (Others i) P) (hQ : ∀ a, Stable (Others i) (Q a))
    (h : ∀ d, P d → Q (f d) d) : Triple (Others i) (Moves T i) P (look f) Q fun _ => P := by
  refine triple_same hP hQ fun d hd r hr => ?_
  rcases List.mem_pair.1 hr with rfl | rfl
  · refine ⟨rfl, fun a ha => ?_⟩
    cases ha
    exact h d hd
  · exact ⟨rfl, nofun⟩

theorem keeps_look (hP : Stable (Others i) P) (f : Disk → α) : Keeps (Others i) (Moves T i) P (look f) :=
  triple_look hP (fun _ => hP) fun _ h => h

theorem keeps_act (hP : Stable (Others i) P) (error : Raised) : Keeps (Others i) (Moves T i) P (act error) := by
  refine triple_same hP (fun _ => hP) fun d hd r hr => ?_
  rcases List.mem_pair.1 hr with rfl | rfl
  · exact ⟨rfl, fun _ _ => hd⟩
  · exact ⟨rfl, nofun⟩

theorem triple_require (hP : Stable (Others i) P) (condition : Bool) (error : Raised) :
    Triple (Others i) (Moves T i) P (require condition error) (fun _ d => P d ∧ condition = true) fun _ => P := by
  have hQ : Stable (Others i) fun d => P d ∧ condition = true := fun s t hs h => ⟨hP s t hs.1 h, hs.2⟩
  unfold require
  split
  · exact triple_ret (Q := fun _ d => P d ∧ condition = true) hQ fun d hd => ⟨hd, ‹_›⟩
  · exact triple_raise hP fun _ h => h

theorem keeps_require (hP : Stable (Others i) P) (condition : Bool) (error : Raised) :
    Keeps (Others i) (Moves T i) P (require condition error) :=
  (triple_require hP condition error).mono (fun _ h => h) (fun _ _ h => h.1) fun _ _ h => h

/-- What a pure step gives is known to the rest. -/
theorem triple_lift_bind {β : Type} {r : Except Raised β} {g : β → Proc Disk Raised α}
    (hP : Stable (Others i) P) (h : ∀ b, r = .ok b → Triple (Others i) (Moves T i) P (g b) Q fun _ => P) :
    Triple (Others i) (Moves T i) P (Proc.lift r >>= g) Q fun _ => P := by
  cases r with
  | ok b => exact h b rfl
  | error e => exact triple_raise hP fun _ h => h

theorem keeps_requireRegular (hP : Stable (Others i) P) : Keeps (Others i) (Moves T i) P requireRegular := by
  refine (keeps_look hP _).bind (others_rely i) fun metadata => ?_
  split
  · exact keeps_pure hP _
  · exact keeps_raise hP _
  · exact keeps_raise hP _

/-- The connection is to the file that the path leads to when it is opened. -/
theorem triple_connection {Q : ℕ → Disk → Prop} (hP : Stable (Others i) P) (hQ : ∀ n, Stable (Others i) (Q n))
    (h : ∀ d n, P d → d.path = some (.regular n) → Q n d) (hQP : ∀ n d, Q n d → P d) :
    Triple (Others i) (Moves T i) P connection Q fun _ => P := by
  refine triple_bind (others_rely i) (keeps_requireRegular hP) fun _ => ?_
  refine triple_bind (M := Q) (others_rely i) (triple_same hP hQ fun d hd r hr => ?_) fun n => ?_
  · split at hr
    · next n hn =>
      rcases List.mem_pair.1 hr with rfl | rfl
      · refine ⟨rfl, fun a ha => ?_⟩
        cases ha
        obtain ⟨entry, hentry, hinode⟩ := Option.bind_eq_some_iff.1 hn
        cases entry with
        | regular m =>
          cases hinode
          exact h d _ hd hentry
        | special => cases hinode
      · exact ⟨rfl, nofun⟩
    · rw [List.mem_singleton.1 hr]
      exact ⟨rfl, nofun⟩
  · have hact := keeps_act (T := T) (i := i) (hQ n) .sqlite
    refine triple_bind (others_rely i) (hact.mono (fun _ h => h) (fun _ _ h => h) fun _ => hQP n) fun _ => ?_
    exact triple_ret (hQ n) fun _ h => h

end Sections

theorem Inv.congr {d : Disk} (h : Inv d) (writer : ℕ → Option ℕ) (initLock : Option ℕ) :
    Inv { d with writer, initLock } :=
  ⟨h.fresh, h.path, h.found, h.log, h.receipts, h.once, h.lawful⟩

section Locks

variable {i inode : ℕ} {P : Disk → Prop}

theorem moves_begin {d : Disk} (hfree : d.writer inode = none) :
    Moves T i d { d with writer := Function.update d.writer inode (some i) } := by
  refine { Moves.refl i d with inv := fun h => h.congr _ _, writers := fun n j hij hn => ⟨?_, rfl⟩ }
  show Function.update d.writer inode (some i) n = some j
  rw [Function.update_of_ne, hn]
  rintro rfl
  rw [hfree] at hn
  cases hn

theorem triple_begin {Q : File → Disk → Prop} (hP : Stable (Others i) P) (hQ : ∀ file, Stable (Others i) (Q file))
    (h : ∀ d, P d → d.writer inode = none →
      Q (d.files inode) { d with writer := Function.update d.writer inode (some i) }) :
    Triple (Others i) (Moves T i) P (beginImmediate i inode) Q fun _ => P := by
  refine triple_critical hP hQ (fun _ => hP) fun d hd r hr => ?_
  split at hr
  · next hfree =>
    rcases List.mem_pair.1 hr with rfl | rfl
    · exact ⟨moves_begin hfree, h d hd hfree⟩
    · exact ⟨.refl i d, hd⟩
  · rw [List.mem_singleton.1 hr]
    exact ⟨.refl i d, hd⟩

/-- What does not speak of the locks is kept where one is given back. -/
theorem triple_close {E : Raised → Disk → Prop} (hP : Stable (Others i) P) (h : ∀ d writer, P d → P { d with writer }) :
    Triple (Others i) (Moves T i) P (close i inode) (fun _ => P) E := by
  refine triple_update hP hP fun d hd => ?_
  split
  · refine ⟨{ Moves.refl i d with inv := fun h => h.congr _ _, writers := fun n j hij hn => ⟨?_, rfl⟩ }, h d _ hd⟩
    show Function.update d.writer inode none n = some j
    rw [Function.update_of_ne, hn]
    rintro rfl
    exact hij (Option.some.inj (hn.symm.trans ‹_›))
  · exact ⟨.refl i d, hd⟩

end Locks

/-! ### `__init__` -/

section Initialization

variable {i inode : ℕ} {file : File}

/-- The initialization lock is held, and there is no marker. -/
structure Bare (i : ℕ) (d : Disk) : Prop extends Initializing i d where
  marker : d.marker = false

theorem stable_bare (i : ℕ) : Stable (Others i) (Bare i) := by
  intro s t hs h
  exact ⟨stable_initializing i s t hs.toInitializing h, (h.init hs.lock).2.trans hs.marker⟩

variable {d : Disk}

theorem Idle.congr (h : Idle i d) (writer : ℕ → Option ℕ) (initLock : Option ℕ) :
    Idle i { d with writer, initLock } := ⟨h.inv.congr writer initLock, h.log⟩

/-- While there is no marker nothing has been committed. -/
theorem Inv.log_nil (h : Inv d) (hmarker : d.marker = false) : d.log = [] := by
  refine List.eq_nil_iff_forall_not_mem.2 fun e he => ?_
  rw [(h.log e he).1] at hmarker
  cases hmarker

theorem inv_of_log_nil (hlog : d.log = []) (hfresh : ∀ n, d.nextInode ≤ n → d.files n = {})
    (hpath : ∀ n, d.path = some (.regular n) → n < d.nextInode)
    (hfound : d.marker = true → ∀ n, d.path = some (.regular n) → (d.files n).tables ≠ [] → d.authority = some n) :
    Inv d := by
  refine ⟨hfresh, hpath, hfound, ?_, ?_, ?_, ?_⟩ <;> simp [hlog]

theorem keeps_createFile : Keeps (Others i) (Moves T i) (Initializing i) createFile := by
  refine keeps_critical (stable_initializing i) fun d hd r hr => ?_
  split at hr
  · rcases List.mem_pair.1 hr with rfl | rfl
    · have hinv : Inv { d with path := some (.regular d.nextInode), nextInode := d.nextInode + 1 } := by
        refine ⟨fun n hn => hd.inv.fresh n (by dsimp only at hn; omega), ?_, ?_, hd.inv.log, hd.inv.receipts,
          hd.inv.once, hd.inv.lawful⟩
        · rintro n hn
          cases hn
          exact Nat.lt_succ_self _
        · rintro - n hn htables
          cases hn
          rw [hd.inv.fresh _ le_rfl] at htables
          exact absurd rfl htables
      exact ⟨{ Moves.refl i d with inv := fun _ => hinv, inode := Nat.le_succ _ }, ⟨⟨hinv, hd.log⟩, hd.lock⟩⟩
    · exact ⟨.refl i d, hd⟩
  · rw [List.mem_singleton.1 hr]
    exact ⟨.refl i d, hd⟩

/-- The section that commits the tables. -/
theorem moves_schema (created : File) (hd : Bare i d) (hholds : Holds i inode file d) (hdb : created.db = file.db) :
    Moves T i d { d with files := Function.update d.files inode created } ∧
      Bare i { d with files := Function.update d.files inode created } := by
  have hnil := hd.inv.log_nil hd.marker
  have hinv : Inv { d with files := Function.update d.files inode created } := by
    refine inv_of_log_nil hnil (fun n hn => ?_) hd.inv.path fun hmarker => ?_
    · show Function.update d.files inode created n = {}
      have hne : n ≠ inode := by
        have := hholds.given
        dsimp only at hn
        omega
      rw [Function.update_of_ne hne, hd.inv.fresh n hn]
    · exact absurd hmarker (by simp [hd.marker])
  refine ⟨{ Moves.refl i d with
    inv := fun _ => hinv
    bare := fun hmarker => absurd hmarker (by simp [hd.marker])
    writers := fun n j hij hn => ⟨hn, ?_⟩
    tables := fun n => ?_ }, ⟨⟨⟨hinv, hd.log⟩, hd.lock⟩, hd.marker⟩⟩
  · apply Function.update_of_ne
    rintro rfl
    exact hij (Option.some.inj (hn.symm.trans hholds.writer))
  · by_cases hn : n = inode
    · subst hn
      rcases hholds.content with hcontent | hempty
      · refine .inl ?_
        show (Function.update d.files n created n).db = (d.files n).db
        rw [Function.update_self, hdb, hcontent]
      · exact .inr (.inl hempty)
    · refine .inl ?_
      show (Function.update d.files inode created n).db = (d.files n).db
      rw [Function.update_of_ne hn]

theorem triple_createSchema :
    Triple (Others i) (Moves T i) (fun d => Bare i d ∧ inode < d.nextInode) (createSchema i inode)
      (fun _ => Initializing i) fun _ => Initializing i := by
  have hstable : Stable (Others i) fun d => Bare i d ∧ inode < d.nextInode := fun s t hs h =>
    ⟨stable_bare i s t hs.1 h, lt_of_lt_of_le hs.2 h.inode⟩
  have hheld (file : File) : Stable (Others i) fun d => Bare i d ∧ Holds i inode file d := fun s t hs h =>
    ⟨stable_bare i s t hs.1 h, stable_holds i inode file s t hs.2 h⟩
  have hclose : Triple (Others i) (Moves T i) (Initializing i) (close i inode) (fun _ => Initializing i)
      fun _ => Initializing i :=
    triple_close (stable_initializing i) fun d writer hd => ⟨hd.toIdle.congr writer d.initLock, hd.lock⟩
  refine triple_bind (M := fun file d => Bare i d ∧ Holds i inode file d) (others_rely i)
    ((triple_begin hstable hheld fun d hd hfree => ?_).mono (fun _ h => h) (fun _ _ h => h)
      fun _ _ h => h.1.toInitializing) fun file => ?_
  · refine ⟨⟨⟨hd.1.toIdle.congr _ _, hd.1.lock⟩, hd.1.marker⟩, hd.2, ?_, .inl rfl⟩
    exact Function.update_self ..
  · refine triple_ensure (M := fun _ => Initializing i) (N := fun _ => Initializing i) (others_rely i)
      (fun _ => stable_initializing i) (fun _ => stable_initializing i) ?_ (fun _ => hclose) fun _ => hclose
    refine triple_bind (M := fun _ d => Bare i d ∧ Holds i inode file d) (others_rely i)
      ((keeps_require (hheld file) _ _).mono (fun _ h => h) (fun _ _ h => h) fun _ _ h => h.1.toInitializing) fun _ => ?_
    refine triple_critical (hheld file) (fun _ => stable_initializing i) (fun _ => stable_initializing i)
      fun d hd r hr => ?_
    rcases List.mem_pair.1 hr with rfl | rfl
    · obtain ⟨hmoves, hbare⟩ := moves_schema
        { file with applicationId, userVersion := schemaVersion, tables := file.tables ++ stateTables } hd.1 hd.2 rfl
      exact ⟨hmoves, hbare.toInitializing⟩
    · exact ⟨.refl i d, hd.1.toInitializing⟩

/-- The initialization lock is held, and the marker is there. -/
def Marked (i : ℕ) (d : Disk) : Prop := Initializing i d ∧ d.marker = true

theorem stable_marked (i : ℕ) : Stable (Others i) (Marked i) := fun s t hs h =>
  ⟨stable_initializing i s t hs.1 h, (h.marker hs.2).1⟩

theorem triple_createMarker :
    Triple (Others i) (Moves T i) (Initializing i) createMarker (fun _ => Marked i) fun _ => Initializing i := by
  have hR := others_rely i
  have hinit := stable_initializing i
  have hmarked := stable_marked i
  have hact : Triple (Others i) (Moves T i) (Marked i) (act .os) (fun _ => Marked i) fun _ => Initializing i :=
    (keeps_act hmarked _).mono (fun _ h => h) (fun _ _ h => h) fun _ _ h => h.1
  refine triple_bind hR ?_ fun _ => triple_bind hR hact fun _ => hact
  refine triple_critical hinit (fun _ => hmarked) (fun _ => hinit) fun d hd r hr => ?_
  split at hr
  · rw [List.mem_singleton.1 hr]
    exact ⟨.refl i d, hd, ‹_›⟩
  · next hmarker =>
    have hmarker : d.marker = false := by simpa using hmarker
    rcases List.mem_pair.1 hr with rfl | rfl
    · have hinv : Inv { d with marker := true, authority := d.path.bind Entry.inode } := by
        refine inv_of_log_nil (hd.inv.log_nil hmarker) hd.inv.fresh hd.inv.path fun _ n hn _ => ?_
        show d.path.bind Entry.inode = some n
        rw [show d.path = some (.regular n) from hn]
        rfl
      refine ⟨{ Moves.refl i d with
        inv := fun _ => hinv
        marker := fun h => absurd h (by simp [hmarker])
        bare := fun h => absurd h (by simp [hmarker])
        init := fun j hij hj => ?_ }, ⟨⟨hinv, hd.log⟩, hd.lock⟩, rfl⟩
      exact absurd (Option.some.inj (hj.symm.trans hd.lock)) hij
    · exact ⟨.refl i d, hd⟩

/-- A look of `_initialize` whose result the argument does not need. -/
theorem triple_initializing_look {β : Type} {f : Disk → β} {p : β → Proc Disk Raised Unit}
    {Q : Disk → Prop} (hQ : Stable (Others i) Q) (hQi : ∀ d, Q d → Initializing i d)
    (hp : ∀ b, Triple (Others i) (Moves T i) Q (p b) (fun _ => Marked i) fun _ => Initializing i) :
    Triple (Others i) (Moves T i) Q (look f >>= p) (fun _ => Marked i) fun _ => Initializing i :=
  triple_bind (others_rely i) ((keeps_look hQ f).mono (fun _ h => h) (fun _ _ h => h) fun _ => hQi) hp

/-- What `_initialize` knows about a file that it found without a schema: there is no marker. -/
def Unversioned (i inode version : ℕ) (d : Disk) : Prop :=
  Initializing i d ∧ inode < d.nextInode ∧ (version = 0 → d.marker = false)

theorem stable_unversioned (version : ℕ) : Stable (Others i) (Unversioned i inode version) := by
  rintro s t ⟨hinit, hinode, hmarker⟩ h
  exact ⟨stable_initializing i s t hinit h, lt_of_lt_of_le hinode h.inode, fun hv => (h.init hinit.lock).2.trans (hmarker hv)⟩

theorem triple_initializeSchema :
    Triple (Others i) (Moves T i) (fun d => Initializing i d ∧ inode < d.nextInode) (initializeSchema i inode)
      (fun _ => Marked i) fun _ => Initializing i := by
  have hR := others_rely i
  have hinit := stable_initializing i
  have hfound : Stable (Others i) fun d => Initializing i d ∧ inode < d.nextInode := fun s t hs h =>
    ⟨hinit s t hs.1 h, lt_of_lt_of_le hs.2 h.inode⟩
  have hweaken {P : Disk → Prop} {p : Proc Disk Raised Unit} (hP : ∀ d, P d → Initializing i d)
      (hp : Keeps (Others i) (Moves T i) P p) : Triple (Others i) (Moves T i) P p (fun _ => P) fun _ => Initializing i :=
    hp.mono (fun _ h => h) (fun _ _ h => h) fun _ => hP
  refine triple_initializing_look hfound (fun _ h => h.1) fun version => ?_
  refine triple_initializing_look hfound (fun _ h => h.1) fun application => ?_
  refine triple_initializing_look hfound (fun _ h => h.1) fun objects => ?_
  -- from here on: the marker is missing, or the version is not zero
  refine triple_bind (M := fun marked d => (Initializing i d ∧ inode < d.nextInode) ∧ (marked = false → d.marker = false))
    hR ((triple_look hfound ?_ fun d hd => ⟨hd, id⟩).mono (fun _ h => h) (fun _ _ h => h) fun _ _ h => h.1) fun marked => ?_
  · exact fun marked s t hs h => ⟨hfound s t hs.1 h, fun hm => (h.init hs.1.1.lock).2.trans (hs.2 hm)⟩
  have hknown : Stable (Others i) fun d => (Initializing i d ∧ inode < d.nextInode) ∧ (marked = false → d.marker = false) :=
    fun s t hs h => ⟨hfound s t hs.1 h, fun hm => (h.init hs.1.1.lock).2.trans (hs.2 hm)⟩
  refine triple_bind (M := fun _ => Unversioned i inode version) hR
    ((triple_require hknown _ _).mono (fun _ h => h) (fun _ d h => ⟨h.1.1.1, h.1.1.2, ?_⟩) fun _ _ h => h.1.1) fun _ => ?_
  · rintro rfl
    exact h.1.2 (by simpa using h.2)
  have hun : Stable (Others i) (Unversioned i inode version) := stable_unversioned version
  have hsub : ∀ d, Unversioned i inode version d → Initializing i d := fun _ h => h.1
  refine triple_bind hR (hweaken hsub (keeps_require hun _ _)) fun _ => ?_
  refine triple_bind hR (hweaken hsub (keeps_require hun _ _)) fun _ => ?_
  refine triple_bind (M := fun _ => Unversioned i inode version) hR (hweaken hsub ?_) fun _ => ?_
  · unfold checkTables
    split
    · exact (keeps_look hun _).bind hR fun _ => keeps_require hun _ _
    · exact keeps_require hun _ _
  refine triple_initializing_look hun hsub fun sound => ?_
  refine triple_bind hR (hweaken hsub (keeps_require hun _ _)) fun _ => ?_
  refine triple_bind hR (hweaken hsub (keeps_act hun _)) fun _ => ?_
  refine triple_bind (M := fun _ => Initializing i) hR ?_ fun _ => ?_
  · split
    · next hversion =>
      exact triple_createSchema.mono (fun d h => ⟨⟨h.1, h.2.2 hversion⟩, h.2.1⟩) (fun _ _ h => h) fun _ _ h => h
    · exact triple_ret hinit fun _ h => h.1
  · have hmarked := stable_marked i
    refine triple_bind (M := fun marked d => Initializing i d ∧ (marked = true → d.marker = true)) hR
      (triple_look hinit ?_ fun d hd => ⟨hd, id⟩) fun marked => ?_
    · exact fun marked s t hs h => ⟨hinit s t hs.1 h, fun hm => (h.marker (hs.2 hm)).1⟩
    split
    · exact triple_ret (hmarked) fun d hd => ⟨hd.1, hd.2 ‹_›⟩
    · exact triple_createMarker.mono (fun _ h => h.1) (fun _ _ h => h) fun _ _ h => h

theorem triple_initializeDatabase :
    Triple (Others i) (Moves T i) (Initializing i) (initializeDatabase i) (fun _ => Marked i) fun _ => Initializing i := by
  have hR := others_rely i
  have hinit := stable_initializing i
  refine triple_bind hR (keeps_act hinit _) fun _ => triple_bind hR (keeps_look hinit _) fun found => ?_
  refine triple_bind (M := fun _ => Initializing i) hR ?_ fun marked => triple_bind hR (keeps_require hinit _ _) fun _ => ?_
  · split
    · exact keeps_pure hinit _
    · exact keeps_look hinit _
  refine triple_bind hR (keeps_look hinit _) fun metadata => triple_bind (M := fun _ => Initializing i) hR ?_ fun _ => ?_
  · split
    · exact keeps_createFile
    · exact keeps_pure hinit _
  refine triple_bind hR (keeps_requireRegular hinit) fun _ => triple_bind hR (keeps_act hinit _) fun _ => ?_
  refine triple_attempt (M := fun _ => Initializing i) hR ?_ fun error => triple_raise hinit fun _ h => h
  refine triple_bind (M := fun n d => Initializing i d ∧ n < d.nextInode) hR
    (triple_connection hinit (fun n s t hs h => ⟨hinit s t hs.1 h, lt_of_lt_of_le hs.2 h.inode⟩)
      (fun d n hd hpath => ⟨hd, hd.inv.path n hpath⟩) fun _ _ h => h.1) fun n => triple_initializeSchema

/-- An instance is only there once the marker is. -/
def Ready (i : ℕ) (d : Disk) : Prop := Idle i d ∧ d.marker = true

theorem stable_ready (i : ℕ) : Stable (Others i) (Ready i) := fun s t hs h =>
  ⟨stable_idle i s t hs.1 h, (h.marker hs.2).1⟩

theorem triple_construct :
    Triple (Others i) (Moves T i) (Idle i) (construct (V := V) i) (fun _ => Ready i) fun _ => Idle i := by
  have hR := others_rely i
  have hidle := stable_idle i
  have hinit := stable_initializing i
  have hready := stable_ready i
  -- the lock is given back
  have hrelease {Q : Disk → Prop} (hQ : Stable (Others i) Q) (h : ∀ d initLock, Q d → Q { d with initLock }) :
      Triple (Others i) (Moves T i) Q
        (.update fun d => if d.initLock = some i then { d with initLock := none } else d : Proc Disk Raised Unit)
        (fun _ => Q) fun _ => Idle i := by
    refine triple_update hQ hQ fun d hd => ?_
    split
    · next hlock =>
      refine ⟨{ Moves.refl i d with inv := fun h => h.congr _ _, init := fun j hij hj => ?_ }, h d _ hd⟩
      exact absurd (Option.some.inj (hj.symm.trans hlock)) hij
    · exact ⟨.refl i d, hd⟩
  refine triple_bind hR (keeps_act hidle _) fun _ => triple_bind (M := fun _ => Initializing i) hR ?_ fun _ => ?_
  · refine triple_critical hidle (fun _ => hinit) (fun _ => hidle) fun d hd r hr => ?_
    split at hr
    · next hlock =>
      rcases List.mem_pair.1 hr with rfl | rfl
      · refine ⟨{ Moves.refl i d with inv := fun h => h.congr _ _, init := fun j hij hj => ?_ }, hd.congr _ _, rfl⟩
        rw [hlock] at hj
        cases hj
      · exact ⟨.refl i d, hd⟩
    · rw [List.mem_singleton.1 hr]
      exact ⟨.refl i d, hd⟩
  · refine triple_bind (M := fun _ => Ready i) hR ?_ fun _ => triple_ret hready fun _ h => h
    refine triple_ensure (M := fun _ => Marked i) (N := fun _ => Initializing i) hR (fun _ => hready) (fun _ => hidle)
      triple_initializeDatabase (fun _ => ?_) fun _ => ?_
    · exact (hrelease hready fun d lock h => ⟨h.1.congr d.writer lock, h.2⟩).mono (fun d h => ⟨h.1.toIdle, h.2⟩)
        (fun _ _ h => h) fun _ _ h => h
    · exact (hrelease hidle fun d lock h => h.congr d.writer lock).mono (fun d h => h.toIdle) (fun _ _ h => h)
        fun _ _ h => h

end Initialization

/-! ### Transactions -/

section Transactions

variable {i inode : ℕ} {file : File} {d : Disk} {written : Written V}

theorem holds_begin (hd : Ready i d) (hinode : inode < d.nextInode)
    (hauthority : (d.files inode).tables ≠ [] → d.authority = some inode) :
    InTransaction i inode (d.files inode) { d with writer := Function.update d.writer inode (some i) } := by
  refine ⟨hd.1.congr _ _, ⟨hinode, Function.update_self .., .inl rfl⟩, hd.2, hauthority, fun e he name hname hin => ?_⟩
  exact hin ▸ hd.1.inv.receipts e he name hname

/-- The file that a transaction writes holds the receipts of all that was made anew. -/
theorem moves_commit (hd : InTransaction i inode file d) (hw : written.Lawful file)
    (hT : T ⟨i, inode, written.initialises, file.db, written.db⟩) :
    Moves T i d { d with
      files := Function.update d.files inode { file with db := written.db }
      log := d.log ++ [⟨i, inode, written.initialises, file.db, written.db⟩] } := by
  have hauthority := hd.authority hw.tables
  have hlawful := hw.commit i inode
  -- every earlier entry is of this file
  have hentries : ∀ e ∈ d.log, e.inode = inode := fun e he =>
    Option.some.inj ((hd.inv.log e he).2.symm.trans hauthority)
  have hreceipts : ∀ e ∈ d.log, ∀ name, e.initialises = some name → name ∈ file.db.imports := fun e he name hname =>
    (hd.receipts e he name hname (hentries e he)).resolve_left hw.tables
  have hsame : ∀ n, n ≠ inode → Function.update d.files inode { file with db := written.db } n = d.files n :=
    fun n hn => Function.update_of_ne hn _ _
  refine
    { inv := fun _ => ⟨fun n hn => ?_, hd.inv.path, fun hmarker n hn htables => ?_, ?_, ?_, ?_, ?_⟩
      inode := le_rfl
      marker := fun h => ⟨h, rfl⟩
      log := .inr ⟨_, rfl, rfl, hd.writer, hT⟩
      bare := fun _ n hn hnil => ?_
      writers := fun n j hij hn => ⟨hn, ?_⟩
      init := fun j _ hj => ⟨hj, rfl⟩
      tables := fun n => ?_ }
  · have hgiven := hd.given
    dsimp only at hn
    exact (hsame n (by omega)).trans (hd.inv.fresh n hn)
  · by_cases hni : n = inode
    · exact hni ▸ hauthority
    · refine hd.inv.found hmarker n hn fun hnil => htables ?_
      exact (congrArg File.tables (hsame n hni)).trans hnil
  · exact forall_mem_concat hd.inv.log ⟨hd.marker, hauthority⟩
  · intro e he name hname
    have hnow : (Function.update d.files inode { file with db := written.db } inode).db = written.db := by
      rw [Function.update_self]
    rcases mem_concat.1 he with he | rfl
    · refine .inr ?_
      show name ∈ (Function.update d.files inode { file with db := written.db } e.inode).db.imports
      rw [hentries e he, hnow]
      exact hlawful.imports name (hreceipts e he name hname)
    · refine .inr ?_
      show name ∈ (Function.update d.files inode { file with db := written.db } inode).db.imports
      rw [hnow]
      exact (hlawful.initial name hname).2.2
  · show ((d.log ++ [_]).filterMap Commit.initialises).Nodup
    rw [List.filterMap_append, List.nodup_append]
    refine ⟨hd.inv.once, ?_, ?_⟩
    · cases written.initialises <;> simp
    · intro name hname other hother heq
      subst heq
      obtain ⟨e, he, hename⟩ := List.mem_filterMap.1 hname
      obtain ⟨e', he', hename'⟩ := List.mem_filterMap.1 hother
      rw [List.mem_singleton.1 he'] at hename'
      exact (hlawful.initial name hename').2.1 (hreceipts e he name hename)
  · exact forall_mem_concat hd.inv.lawful hlawful
  · exact (congrArg File.tables (hsame n fun h => hn (h ▸ hauthority))).trans hnil
  · refine hsame n fun h => hij ?_
    rw [h] at hn
    exact Option.some.inj (hn.symm.trans hd.writer)
  · by_cases hni : n = inode
    · subst hni
      rcases hd.content with hcontent | hempty
      · refine .inr (.inr ⟨_, rfl, rfl, by rw [hcontent], ?_⟩)
        show written.db = (Function.update d.files n { file with db := written.db } n).db
        rw [Function.update_self]
      · exact .inr (.inl hempty)
    · exact .inl (congrArg File.db (hsame n hni))

/-- What is left of a call that committed: its entry. -/
def Committed (i : ℕ) (R : Commit → Prop) (d : Disk) : Prop :=
  Inv d ∧ d.marker = true ∧ ∃ e ∈ d.log, e.call = i ∧ R e

theorem stable_committed (R : Commit → Prop) : Stable (Others i) (Committed i R) := by
  rintro s t ⟨hinv, hmarker, e, he, hcall⟩ h
  obtain ⟨es, hes, -⟩ := h.log
  exact ⟨h.inv hinv, (h.marker hmarker).1, e, hes ▸ List.mem_append_left _ he, hcall⟩

theorem triple_commit {R : Commit → Prop}
    (h : R ⟨i, inode, written.initialises, file.db, written.db⟩) (hw : written.Lawful file) (hT : ∀ e, R e → T e) :
    Triple (Others i) (Moves T i) (InTransaction i inode file) (commit i inode file written) (fun _ => Committed i R)
      fun _ => InTransaction i inode file := by
  have hP := stable_inTransaction i inode file
  refine triple_critical hP (fun _ => stable_committed R) (fun _ => hP) fun d hd r hr => ?_
  rcases List.mem_pair.1 hr with rfl | rfl
  · have hmoves := moves_commit hd hw (hT _ h)
    exact ⟨hmoves, hmoves.inv hd.inv, hd.marker, _, List.mem_append_right _ (List.mem_singleton_self _), rfl, h⟩
  · exact ⟨.refl i d, hd⟩

/-- A transaction whose body leaves the disk to others and gives what is lawful to commit. -/
theorem triple_transaction {body : File → Proc Disk Raised (Written V)} {R : Answer V → Commit → Prop}
    (hbody : ∀ inode file, Triple (Others i) (Moves T i) (InTransaction i inode file) (body file)
      (fun w d => InTransaction i inode file d ∧ w.Lawful file ∧ R w.answer ⟨i, inode, w.initialises, file.db, w.db⟩)
      fun _ => InTransaction i inode file) (hT : ∀ a e, R a e → T e) :
    Triple (Others i) (Moves T i) (Ready i) (transaction i body) (fun a => Committed i (R a)) fun _ => Idle i := by
  have hR := others_rely i
  have hready := stable_ready i
  -- the file of the connection has tables only if it is the authority
  let Connected (n : ℕ) (d : Disk) : Prop :=
    Ready i d ∧ n < d.nextInode ∧ (d.authority = some n ∨ (d.files n).tables = [])
  have hconnected (n : ℕ) : Stable (Others i) (Connected n) := by
    rintro s t ⟨hs, hn, hor⟩ h
    obtain ⟨-, hauthority⟩ := h.marker hs.2
    refine ⟨hready s t hs h, lt_of_lt_of_le hn h.inode, ?_⟩
    by_cases hsome : s.authority = some n
    · exact .inl (hauthority.trans hsome)
    · exact .inr (h.bare hs.2 n hsome (hor.resolve_left hsome))
  refine triple_bind (M := Connected) hR ((triple_connection hready hconnected (fun d n hd hpath => ?_)
    fun _ _ h => h.1).mono (fun _ h => h) (fun _ _ h => h) fun _ _ h => h.1) fun inode => ?_
  · refine ⟨hd, hd.1.inv.path n hpath, ?_⟩
    by_cases htables : (d.files n).tables = []
    · exact .inr htables
    · exact .inl (hd.1.inv.found hd.2 n hpath htables)
  refine triple_bind (M := fun file => InTransaction i inode file) hR ((triple_begin (hconnected inode)
    (stable_inTransaction i inode) fun d hd _ => holds_begin hd.1 hd.2.1 fun h => hd.2.2.resolve_right h).mono
    (fun _ h => h) (fun _ _ h => h) fun _ _ h => h.1.1) fun file => ?_
  have hP := stable_inTransaction i inode file
  refine triple_ensure (M := fun a => Committed i (R a)) (N := fun _ => InTransaction i inode file) hR
    (fun a => stable_committed (R a)) (fun _ => stable_idle i) ?_ (fun a => ?_) fun _ => ?_
  · refine triple_bind hR (keeps_act hP _) fun _ => triple_bind hR (hbody inode file) fun w => ?_
    refine triple_bind (M := fun _ => Committed i (R w.answer)) hR ?_ fun _ => triple_ret (stable_committed _) fun _ h => h
    intro d hd
    exact triple_commit hd.2.2 hd.2.1 (hT w.answer) d hd.1
  · exact triple_close (stable_committed (R a)) fun d writer h => ⟨h.1.congr writer d.initLock, h.2⟩
  · exact (triple_close (stable_idle i) fun d writer h => h.congr writer d.initLock).mono (fun d h => h.toIdle)
      (fun _ _ h => h) fun _ _ h => h

/-- How an answer of `import_json` comes from what its call committed: it is the value of the row
that was there, or the one that was stored. -/
structure Imports (env : Env V ρ κ φ) (name : String) (answer : Answer V) (e : Commit) : Prop where
  settles : e.Settles name
  found : e.initialises = none → ∃ v row, answer = .value v ∧ e.before.documents name = some row ∧ env.loads row.body = .ok v
  stored : e.initialises = some name →
    ∃ v row, answer = .value v ∧ e.after.documents name = some row ∧ env.dumps v = .ok (.text row.body)

theorem keeps_preserve {P : Disk → Prop} (hP : Stable (Others i) P)
    (hjson : ∀ d json, P d → Moves T i d { d with json } ∧ P { d with json }) (source : String) (raw : List UInt8) :
    Keeps (Others i) (Moves T i) P (preserveImportSource source raw) := by
  have hR := others_rely i
  refine (keeps_look hP _).bind hR fun found => Keeps.bind hR ?_ fun _ => ?_
  · split
    · exact keeps_pure hP _
    · refine (keeps_act hP _).bind hR fun _ => (keeps_critical hP fun d hd r hr => ?_).bind hR fun _ => keeps_act hP _
      rcases List.mem_pair.1 hr with rfl | rfl
      · split
        · exact ⟨.refl i d, hd⟩
        · exact hjson d _ hd
      · exact ⟨.refl i d, hd⟩
  · refine (keeps_look hP _).bind hR fun copy => ?_
    split
    · exact keeps_raise hP _
    · exact (keeps_require hP _ _).bind hR fun _ => (keeps_act hP _).bind hR fun _ => keeps_act hP _

/-- The files of the legacy documents are nothing to the database. -/
theorem inTransaction_json (hd : InTransaction i inode file d) (json : String → Option (List UInt8)) :
    Moves T i d { d with json } ∧ InTransaction i inode file { d with json } := by
  have hinv (h : Inv d) : Inv { d with json } := ⟨h.fresh, h.path, h.found, h.log, h.receipts, h.once, h.lawful⟩
  exact ⟨{ Moves.refl i d with inv := hinv }, ⟨hinv hd.inv, hd.log⟩, ⟨hd.given, hd.writer, hd.content⟩, hd.marker,
    hd.authority, hd.receipts⟩

theorem keeps_initialValue {P : Disk → Prop} (hP : Stable (Others i) P) (env : Env V ρ κ φ) (source : String)
    (default : Option V) : Keeps (Others i) (Moves T i) P (initialValue env source default) := by
  have hR := others_rely i
  refine (keeps_look hP _).bind hR fun found => ?_
  split
  · refine Keeps.bind hR (triple_same hP (fun _ => hP) fun d hd r hr => ?_) fun raw => ?_
    · split at hr
      · rcases List.mem_pair.1 hr with rfl | rfl
        · exact ⟨rfl, fun _ _ => hd⟩
        · exact ⟨rfl, nofun⟩
      · rw [List.mem_singleton.1 hr]
        exact ⟨rfl, nofun⟩
    · exact triple_lift_bind hP fun value _ => keeps_pure hP _
  · split
    · exact keeps_pure hP _
    · exact keeps_raise hP _

theorem triple_importJson (env : Env V ρ κ φ) (name source : String) (validate : V → Bool) (default : Option V)
    (now : String) :
    Triple (Others i) (Moves T i) (InTransaction i inode file) (importJson env name source validate default now file)
      (fun w d => InTransaction i inode file d ∧ w.Lawful file ∧
        Imports env name w.answer ⟨i, inode, w.initialises, file.db, w.db⟩)
      fun _ => InTransaction i inode file := by
  have hR := others_rely i
  have hP := stable_inTransaction i inode file
  -- the lawfulness of what is given is a fact about the file that was read
  have hgives {w : Written V} (hw : w.Lawful file) (himports : Imports env name w.answer ⟨i, inode, w.initialises, file.db, w.db⟩) :
      Triple (Others i) (Moves T i) (InTransaction i inode file) (pure w : Proc Disk Raised (Written V))
        (fun w d => InTransaction i inode file d ∧ w.Lawful file ∧
          Imports env name w.answer ⟨i, inode, w.initialises, file.db, w.db⟩) fun _ => InTransaction i inode file :=
    triple_ret (fun s t hs h => ⟨hP s t hs.1 h, hs.2⟩) fun d hd => ⟨hd, hw, himports⟩
  refine triple_lift_bind hP fun _ hdocuments => ?_
  have htables := requireTable_ok hdocuments
  split
  · next row hrow =>
    refine triple_lift_bind hP fun value hvalue => hgives (Written.lawful_of_rows htables rfl fun _ => .refl _) ?_
    exact ⟨.inr ⟨rfl, by rw [hrow]; rfl, rfl⟩, fun _ => ⟨value, row, rfl, hrow, python_eq_ok hvalue⟩, nofun⟩
  · next hnone =>
    refine triple_lift_bind hP fun _ _ => triple_lift_bind hP fun _ hreceipt => ?_
    refine triple_bind hR (keeps_initialValue hP env source default) fun ⟨value, raw⟩ => ?_
    refine triple_bind hR (keeps_require hP _ _) fun _ => triple_bind hR (keeps_require hP _ _) fun _ => ?_
    refine triple_lift_bind hP fun body hbody => triple_bind (M := fun _ => InTransaction i inode file) hR ?_ fun _ => ?_
    · cases raw with
      | none => exact keeps_pure hP _
      | some raw => exact keeps_preserve hP (fun d json hd => inTransaction_json hd json) source raw
    · refine triple_lift_bind hP fun text htext => hgives
        (Written.lawful_insert htables hnone (requireReceipt_ok hreceipt)) ⟨.inl rfl, nofun, fun _ => ?_⟩
      obtain rfl := bindText_ok (raising_eq_ok htext)
      refine ⟨value, ⟨text, 1, now⟩, rfl, ?_, python_eq_ok hbody⟩
      show Function.update file.db.documents name _ name = _
      rw [Function.update_self]

end Transactions

/-! ### Calls -/

section Calls

variable {env : Env V ρ κ φ} {i : ℕ}

/-- What a call that returned has committed. -/
def Call.Ends (env : Env V ρ κ φ) (i : ℕ) (answer : Answer V) (d : Disk) : Call V ρ κ φ → Prop
  | .initializeDocument name _ _ => ∃ e ∈ d.log, e.call = i ∧ e.Settles name
  | .importJson name _ _ _ _ => ∃ e ∈ d.log, e.call = i ∧ Imports env name answer e
  | _ => True

def Returns (env : Env V ρ κ φ) (id : ℕ × Call V ρ κ φ) (answer : Answer V) (d : Disk) : Prop :=
  d.marker = true ∧ id.2.Ends env id.1 answer d

/-- What a call may commit: an initialisation settles its document. -/
def Call.Settles : Call V ρ κ φ → Commit → Prop
  | .initializeDocument name _ _, e | .importJson name _ _ _ _, e => e.Settles name
  | _, _ => True

/-- A call that raised has committed nothing. -/
def Raises (id : ℕ × Call V ρ κ φ) (error : Raised) (d : Disk) : Prop := error ≠ .died → ∀ e ∈ d.log, e.call ≠ id.1

variable {R : Commit → Prop}

theorem Committed.elim {d : Disk} (h : Committed i R d) : d.marker = true ∧ ∃ e ∈ d.log, e.call = i ∧ R e := h.2

/-- A transaction whose body gives what is lawful to commit, without a section of its own. -/
theorem triple_pure_transaction {f : File → Except Raised (Written V)}
    (h : ∀ file w, f file = .ok w → w.Lawful file ∧ ∀ inode, R ⟨i, inode, w.initialises, file.db, w.db⟩)
    (hT : ∀ e, R e → T e) :
    Triple (Others i) (Moves T i) (Ready i) (transaction i fun file => .lift (f file)) (fun _ => Committed i R)
      fun _ => Idle i := by
  refine triple_transaction (R := fun _ => R) (fun inode file => ?_) fun _ => hT
  have hP := stable_inTransaction i inode file
  cases hf : f file with
  | error e => exact triple_raise hP fun _ h => h
  | ok w =>
    obtain ⟨hw, hR⟩ := h file w hf
    exact triple_ret (fun s t hs h => ⟨hP s t hs.1 h, hs.2⟩) fun d hd => ⟨hd, hw, hR inode⟩

theorem triple_program (call : Call V ρ κ φ) (P : Disk → Prop) (hP : ∀ d, P d → Idle i d)
    (hready : (∀ d, P d → Ready i d) ∨ call = .construct) :
    Triple (Others i) (Moves call.Settles i) P (call.program env i) (Returns env (i, call)) fun e => Raises (i, call) e := by
  have hraises : ∀ (e : Raised) d, Idle i d → Raises (i, call) e d := fun _ d hd _ => hd.log
  cases call with
  | construct => exact triple_construct.mono hP (fun _ _ h => ⟨h.2, trivial⟩) hraises
  | initializeDocument name value now =>
    have hr := hready.resolve_right nofun
    exact (triple_pure_transaction (fun file w h => ⟨(initializeDocument_ok h).1, (initializeDocument_ok h).2 i⟩)
      fun _ h => h).mono hr
      (fun _ _ h => h.elim) hraises
  | update name transform now =>
    have hr := hready.resolve_right nofun
    exact (triple_pure_transaction (R := fun _ => True) (fun file w h => ⟨update_ok h, fun _ => trivial⟩)
      fun _ _ => trivial).mono hr
      (fun _ _ h => ⟨h.2.1, trivial⟩) hraises
  | put name value history now =>
    have hr := hready.resolve_right nofun
    exact (triple_pure_transaction (R := fun _ => True) (fun file w h => ⟨put_lawful h, fun _ => trivial⟩)
      fun _ _ => trivial).mono hr
      (fun _ _ h => ⟨h.2.1, trivial⟩) hraises
  | putCaptureState arguments =>
    have hr := hready.resolve_right nofun
    exact (triple_pure_transaction (R := fun _ => True) (fun file w h => ⟨putCaptureState_ok h, fun _ => trivial⟩)
      fun _ _ => trivial).mono hr
      (fun _ _ h => ⟨h.2.1, trivial⟩) hraises
  | importJson name source validate default now =>
    have hr := hready.resolve_right nofun
    exact (triple_transaction (fun inode file => triple_importJson env name source validate default now)
      fun _ _ h => h.settles).mono hr
      (fun _ _ h => h.elim) hraises

end Calls

/-! ### Runs -/

section System

variable {env : Env V ρ κ φ}

/-- A thread's place is the number of its call. -/
structure Sound (env : Env V ρ κ φ) (p : System V ρ κ φ) : Prop where
  safe : Pool.AllSafe (fun id => Others id.1) (fun id => Moves id.2.Settles id.1) (fun id id' => id.1 ≠ id'.1) (Returns env) Raises p
  inv : Inv p.shared
  calls : ∀ (i : ℕ) (th : (ℕ × Call V ρ κ φ) × Proc Disk Raised (Answer V)), p.threads[i]? = some th → th.1.1 = i
  log : ∀ e ∈ p.shared.log, e.call < p.threads.length
  settles : ∀ e ∈ p.shared.log, ∀ th, p.threads[e.call]? = some th → th.1.2.Settles e

theorem discipline : Pool.Discipline (fun id : ℕ × Call V ρ κ φ => Others id.1) (fun id => Moves id.2.Settles id.1)
    fun id id' => id.1 ≠ id'.1 where
  rely id := others_rely id.1
  compatible _ _ _ _ hne h := h.others hne

/-- What the outside does to the database. -/
def Outside (s t : Disk) : Prop := Inv t ∧ t.log = s.log ∧ ∀ i, Others i s t

variable {s t : Disk}

theorem outside_remove (hs : Inv s) : Outside s { s with path := none } := by
  have hinv : Inv { s with path := none } :=
    ⟨hs.fresh, nofun, fun _ _ => nofun, hs.log, hs.receipts, hs.once, hs.lawful⟩
  exact ⟨hinv, rfl, fun i => { Others.refl i s with inv := fun _ => hinv }⟩

theorem outside_json (hs : Inv s) (json : String → Option (List UInt8)) : Outside s { s with json } := by
  have hinv : Inv { s with json } := ⟨hs.fresh, hs.path, hs.found, hs.log, hs.receipts, hs.once, hs.lawful⟩
  exact ⟨hinv, rfl, fun i => { Others.refl i s with inv := fun _ => hinv }⟩

theorem outside_empty (hs : Inv s) (h : s.empty = some t) : Outside s t := by
  obtain ⟨inode, -, rfl⟩ := Option.map_eq_some_iff.1 h
  have hfile (n : ℕ) : Function.update s.files inode {} n = s.files n ∨ Function.update s.files inode {} n = {} := by
    by_cases hn : n = inode
    · exact .inr (hn ▸ Function.update_self ..)
    · exact .inl (Function.update_of_ne hn _ _)
  have hinv : Inv { s with files := Function.update s.files inode {} } := by
    refine ⟨fun n hn => ?_, hs.path, fun hmarker n hn htables => ?_, hs.log, fun e he name hname => ?_, hs.once, hs.lawful⟩
    · exact (hfile n).elim (fun h => h.trans (hs.fresh n hn)) id
    · rcases hfile n with h | h
      · exact hs.found hmarker n hn fun hnil => htables ((congrArg File.tables h).trans hnil)
      · exact absurd (congrArg File.tables h) htables
    · show (Function.update s.files inode {} e.inode).tables = [] ∨ name ∈ (Function.update s.files inode {} e.inode).db.imports
      rcases hfile e.inode with h | h
      · rw [h]
        exact hs.receipts e he name hname
      · exact .inl (congrArg File.tables h)
  refine ⟨hinv, rfl, fun i => { Others.refl i s with
    inv := fun _ => hinv
    bare := fun _ n _ hnil => ?_
    writer := fun n hn => ⟨hn, hfile n, fun _ he _ => he⟩ }⟩
  exact (hfile n).elim (fun h => (congrArg File.tables h).trans hnil) fun h => congrArg File.tables h

theorem outside_deleteRows {names : List String} (hs : Inv s) (h : s.deleteRows names = some t) : Outside s t := by
  unfold Disk.deleteRows at h
  split at h
  · next inode hinode =>
    split at h
    · next hfree =>
      cases h
      obtain ⟨entry, hentry, hnode⟩ := Option.bind_eq_some_iff.1 hinode
      have hpath : s.path = some (.regular inode) := by
        cases entry with
        | regular n => cases hnode; exact hentry
        | special => cases hnode
      have hgiven := hs.path inode hpath
      let left := Function.update s.files inode { s.files inode with db := Db.without (s.files inode).db names }
      -- the tables and the receipts stay
      have hfile (n : ℕ) : (left n).tables = (s.files n).tables ∧ (left n).db.imports = (s.files n).db.imports := by
        by_cases hn : n = inode
        · subst hn
          simp [left, Db.without]
        · simp [left, Function.update_of_ne hn]
      have hinv : Inv { s with files := left } := by
        refine ⟨fun n hn => ?_, hs.path, fun hmarker n hn htables => ?_, hs.log, fun e he name hname => ?_, hs.once,
          hs.lawful⟩
        · dsimp only at hn
          exact (Function.update_of_ne (by omega) _ _).trans (hs.fresh n hn)
        · exact hs.found hmarker n hn fun hnil => htables ((hfile n).1.trans hnil)
        · show (left e.inode).tables = [] ∨ name ∈ (left e.inode).db.imports
          rw [(hfile e.inode).1, (hfile e.inode).2]
          exact hs.receipts e he name hname
      refine ⟨hinv, rfl, fun i => { Others.refl i s with
        inv := fun _ => hinv
        bare := fun _ n _ hnil => (hfile n).1.trans hnil
        writer := fun n hn => ⟨hn, .inl (Function.update_of_ne ?_ _ _), fun _ he _ => he⟩ }⟩
      rintro rfl
      rw [hfree] at hn
      cases hn
    · cases h
  · cases h

variable {p : System V ρ κ φ}

theorem Sound.outside (h : Sound env p) (ht : Outside p.shared t) : Sound env { p with shared := t } := by
  obtain ⟨hinv, hlog, hothers⟩ := ht
  refine ⟨⟨h.safe.apart, fun i th hi => (h.safe.each i th hi).later (others_rely _) (hothers _)⟩, hinv, h.calls,
    fun e he => h.log e (hlog ▸ he), fun e he => h.settles e (hlog ▸ he)⟩

theorem Sound.enter {call : Call V ρ κ φ} (h : Sound env p) (hready : p.shared.marker = true ∨ call = .construct) :
    Sound env (p.add p.shared ((p.threads.length, call), call.program env p.threads.length)) := by
  have hlt : ∀ th ∈ p.threads, th.1.1 < p.threads.length := fun th hth => by
    obtain ⟨i, hi⟩ := List.mem_iff_getElem?.1 hth
    rw [h.calls i th hi]
    exact (List.getElem?_eq_some_iff.1 hi).1
  have hidle : Idle p.threads.length p.shared := ⟨h.inv, fun e he => (h.log e he).ne⟩
  refine ⟨Pool.add_safe discipline h.safe (fun th hth => ⟨(hlt th hth).ne, (hlt th hth).ne'⟩)
    (fun th _ => Others.refl th.1.1 _) ?_, h.inv, fun i th hi => ?_, fun e he => ?_, fun e he th hth => ?_⟩
  · refine triple_program call (fun d => d = p.shared) (fun d hd => hd ▸ hidle) ?_ p.shared rfl
    exact hready.imp_left fun hmarker d hd => hd ▸ ⟨hidle, hmarker⟩
  · simp only [Pool.add, List.getElem?_append] at hi
    split at hi
    · exact h.calls i th hi
    · rw [List.getElem?_singleton] at hi
      split at hi
      · rw [← Option.some.inj hi]
        dsimp only
        omega
      · cases hi
  · have hlog := h.log e he
    show e.call < (p.threads ++ [_]).length
    rw [List.length_append]
    omega
  · change (p.threads ++ [_])[e.call]? = some th at hth
    rw [List.getElem?_append_left (h.log e he)] at hth
    exact h.settles e he th hth

/-- Where an instance is there, the marker is. -/
theorem Sound.opened (h : Sound env p) (hopened : p.threads.any (isOpened ·.2) = true) :
    p.shared.marker = true := by
  obtain ⟨th, hth, hopen⟩ := List.any_eq_true.1 hopened
  obtain ⟨i, hi⟩ := List.mem_iff_getElem?.1 hth
  obtain ⟨id, program⟩ := th
  have hsafe := h.safe.each i _ hi
  unfold isOpened at hopen
  split at hopen
  · next heq =>
    dsimp only at heq
    subst heq
    exact (hsafe _ (Others.refl _ _)).1
  · cases hopen

theorem Sound.die {thread : ℕ} {id : ℕ × Call V ρ κ φ} {program : Proc Disk Raised (Answer V)}
    (h : Sound env p) (hthread : p.threads[thread]? = some (id, program)) :
    Sound env ⟨p.shared.release id.1, p.threads.set thread (id, .raise .died)⟩ := by
  have hinv : Inv (p.shared.release id.1) := h.inv.congr _ _
  refine ⟨h.safe.replace hthread (fun j th hne hj => ?_) discipline fun _ _ hdied => absurd rfl hdied, hinv, ?_, ?_,
    fun e he th hth => ?_⟩
  · have hids : th.1.1 ≠ id.1 := by
      rw [h.calls j th hj, h.calls thread _ hthread]
      exact hne
    refine { Others.refl th.1.1 p.shared with inv := fun _ => hinv, writer := fun n hn => ⟨?_, .inl rfl, fun _ he _ => he⟩, init := fun hlock => ⟨?_, rfl⟩ }
    · show (if p.shared.writer n = some id.1 then none else p.shared.writer n) = some th.1.1
      rw [if_neg, hn]
      exact fun heq => hids (Option.some.inj (hn.symm.trans heq))
    · show (if p.shared.initLock = some id.1 then none else p.shared.initLock) = some th.1.1
      rw [if_neg, hlock]
      exact fun heq => hids (Option.some.inj (hlock.symm.trans heq))
  · intro j th hj
    obtain ⟨th', hj', hid, -⟩ := Pool.set_thread_cases hthread hj
    rw [← hid]
    exact h.calls j th' hj'
  · intro e he
    show e.call < (p.threads.set thread _).length
    rw [List.length_set]
    exact h.log e he
  · obtain ⟨th', hth', hid, -⟩ := Pool.set_thread_cases hthread hth
    exact hid ▸ h.settles e he th' hth'

variable {p' : System V ρ κ φ} {d : Disk}

theorem Sound.advance {thread choice : ℕ} (h : Sound env p)
    (hstep : p.advance thread choice = some p') : Sound env p' ∧ ∃ T i, Moves T i p.shared p'.shared := by
  obtain ⟨id, β, f, k, b, hthread, hb, hthreads⟩ := Pool.advance_cases hstep
  have hmoves : Moves id.2.Settles id.1 p.shared p'.shared := (h.safe.each thread _ hthread _ (Others.refl _ _) _ hb).1
  refine ⟨⟨(Pool.advance_safe discipline h.safe hstep).1, hmoves.inv h.inv, fun j th hj => ?_, fun e he => ?_,
    fun e he th hth => ?_⟩, _, _, hmoves⟩
  · rw [hthreads] at hj
    obtain ⟨th', hj', hid, -⟩ := Pool.set_thread_cases hthread hj
    rw [← hid]
    exact h.calls j th' hj'
  · rw [hthreads, List.length_set]
    rcases hmoves.log with hlog | ⟨e', hlog, hcall, -⟩
    · exact h.log e (hlog ▸ he)
    · rw [hlog] at he
      rcases mem_concat.1 he with he | rfl
      · exact h.log e he
      · rw [hcall, h.calls thread _ hthread]
        exact (List.getElem?_eq_some_iff.1 hthread).1
  · rw [hthreads] at hth
    obtain ⟨th', hth', hid, -⟩ := Pool.set_thread_cases hthread hth
    rw [← hid]
    rcases hmoves.log with hlog | ⟨e', hlog, hcall, -, hsettles⟩
    · exact h.settles e (hlog ▸ he) th' hth'
    · rw [hlog] at he
      rcases mem_concat.1 he with he | rfl
      · exact h.settles e he th' hth'
      · rw [hcall, h.calls thread _ hthread, hthread] at hth'
        cases hth'
        exact hsettles

/-- A step of a call changes the documents of a file by what it commits, and by nothing else; a file
that was emptied has no documents. -/
structure Accounted (s t : Disk) : Prop where
  log : t.log = s.log ∨ ∃ e, t.log = s.log ++ [e]
  tables : ∀ n, s.files n = {} ∨ (t.files n).db = (s.files n).db ∨
    ∃ e, t.log = s.log ++ [e] ∧ e.inode = n ∧ e.before = (s.files n).db ∧ e.after = (t.files n).db

theorem Accounted.same (hlog : t.log = s.log) (hfiles : t.files = s.files) : Accounted s t :=
  ⟨.inl hlog, fun n => .inr (.inl (by rw [hfiles]))⟩

theorem Moves.accounted {i : ℕ} (h : Moves T i s t) : Accounted s t := by
  refine ⟨h.log.imp_right fun ⟨e, hlog, _⟩ => ⟨e, hlog⟩, fun n => ?_⟩
  rcases h.tables n with hsame | hempty | hentry
  · exact .inr (.inl hsame)
  · exact .inl hempty
  · exact .inr (.inr hentry)

/-- The damage from outside. -/
def Action.outside : Action V ρ κ φ → Bool
  | .removeDatabase | .emptyDatabase | .deleteRows _ | .writeJson .. => true
  | _ => false

/-- What a step means to the documents and to the history. -/
def Change (a : Action V ρ κ φ) (s t : Disk) : Prop :=
  if a.outside then t.log = s.log else Accounted s t

theorem Sound.step {a : Action V ρ κ φ} (h : Sound env p) (hstep : step env p a = some p') :
    Sound env p' ∧ Change a p.shared p'.shared := by
  cases a with
  | enter call =>
    have henter : ∀ {p''}, some (p.add p.shared ((p.threads.length, call), call.program env p.threads.length)) = some p'' →
        p.shared.marker = true ∨ call = .construct → Sound env p'' ∧ Change (.enter call) p.shared p''.shared := by
      intro p'' hp'' hready
      cases hp''
      exact ⟨h.enter hready, .same rfl rfl⟩
    cases call with
    | construct => exact henter hstep (.inr rfl)
    | _ =>
      dsimp only [StateDatabase.step] at hstep
      split at hstep
      · next hopened => exact henter hstep (.inl (h.opened hopened))
      · cases hstep
  | run thread choice =>
    obtain ⟨hsound, _, i, hmoves⟩ := h.advance hstep
    exact ⟨hsound, hmoves.accounted⟩
  | die thread =>
    dsimp only [StateDatabase.step] at hstep
    split at hstep
    · next hthread =>
      cases hstep
      exact ⟨h.die hthread, .same rfl rfl⟩
    · cases hstep
  | removeDatabase =>
    cases hstep
    exact ⟨h.outside (outside_remove h.inv), rfl⟩
  | emptyDatabase =>
    obtain ⟨t, ht, rfl⟩ := Option.map_eq_some_iff.1 hstep
    exact ⟨h.outside (outside_empty h.inv ht), (outside_empty h.inv ht).2.1⟩
  | deleteRows names =>
    obtain ⟨t, ht, rfl⟩ := Option.map_eq_some_iff.1 hstep
    exact ⟨h.outside (outside_deleteRows h.inv ht), (outside_deleteRows h.inv ht).2.1⟩
  | writeJson path content =>
    cases hstep
    exact ⟨h.outside (outside_json h.inv _), rfl⟩

/-- A path before its first call: no file that was never given holds anything, and what is behind a
marker is the file it was created for. -/
structure Start (d : Disk) : Prop where
  fresh : ∀ n, d.nextInode ≤ n → d.files n = {}
  path : ∀ n, d.path = some (.regular n) → n < d.nextInode
  found : d.marker = true → ∀ n, d.path = some (.regular n) → (d.files n).tables ≠ [] → d.authority = some n
  log : d.log = []

theorem Start.inv (h : Start d) : Inv d := by
  refine ⟨h.fresh, h.path, h.found, ?_, ?_, ?_, ?_⟩ <;> rw [h.log]
  · exact nofun
  · exact nofun
  · exact List.nodup_nil
  · exact nofun

theorem Start.sound (h : Start d) : Sound env ⟨d, []⟩ := by
  refine ⟨⟨nofun, nofun⟩, h.inv, nofun, ?_, fun _ _ _ hth => (nomatch hth)⟩
  show ∀ e ∈ d.log, _
  rw [h.log]
  exact nofun

theorem sound_run {as : List (Action V ρ κ φ)} (hd : Start d) (h : run (step env) ⟨d, []⟩ as = some p) : Sound env p :=
  run_invariant (fun _ _ _ hs ht => (hs.step ht).1) hd.sound h

/-- What holds of the history of a path and of the calls that ended. -/
structure Kept (env : Env V ρ κ φ) (p : System V ρ κ φ) : Prop where
  /-- A document is made from a default or from a legacy value once. -/
  once : (p.shared.log.filterMap (·.initialises)).Nodup
  lawful : ∀ e ∈ p.shared.log, e.Lawful
  returns : ∀ (thread : ℕ) id answer, p.threads[thread]? = some (id, .ret answer) → Returns env id answer p.shared
  raises : ∀ (thread : ℕ) id error, p.threads[thread]? = some (id, .raise error) → Raises id error p.shared
  /-- Also of a call that died. -/
  settles : ∀ e ∈ p.shared.log, ∀ th, p.threads[e.call]? = some th → th.1.2.Settles e

theorem Sound.kept (h : Sound env p) : Kept env p where
  once := h.inv.once
  lawful := h.inv.lawful
  returns thread _ _ hthread := h.safe.each thread _ hthread _ (Others.refl _ _)
  raises thread _ _ hthread := h.safe.each thread _ hthread _ (Others.refl _ _)
  settles := h.settles

/-- Through any history of calls, failures, deaths and damage a document gets its initial value once;
after that a call finds what was committed or raises. -/
theorem authority_never_reset (env : Env V ρ κ φ) (d : Disk) (hd : Start d) (as : List (Action V ρ κ φ))
    (p : System V ρ κ φ) (h : run (step env) ⟨d, []⟩ as = some p) :
    Kept env p ∧ ∀ a p', step env p a = some p' → Change a p.shared p'.shared := by
  have hsound := sound_run hd h
  exact ⟨hsound.kept, fun a p' hstep => (hsound.step hstep).2⟩

end System

/-! ### A run -/

def sampleEnv : Env String Unit Unit Unit where
  dumps v := .ok (.text v)
  loads := .ok
  loadsBytes _ := .ok "legacy"
  isMapping _ := true
  capture := sampleCodec

def sampleDisk : Disk where
  files _ := {}
  nextInode := 0
  path := none
  marker := false
  json _ := none
  initLock := none
  writer _ := none
  authority := none
  log := []

theorem sampleDisk_start : Start sampleDisk := ⟨fun _ _ => rfl, nofun, nofun, rfl⟩

def sampleImport : Action String Unit Unit Unit :=
  .enter (.importJson "config" "config.json" (fun _ => true) (some "default") "1")

def sampleSections (thread sections : ℕ) : List (Action String Unit Unit Unit) :=
  List.replicate sections (.run thread 0)

/-- The document is imported; its row is deleted, and it is imported once more. -/
def sampleRun : List (Action String Unit Unit Unit) :=
  [.enter .construct] ++ sampleSections 0 26 ++ [sampleImport] ++ sampleSections 1 8 ++
    [.deleteRows ["config"], sampleImport] ++ sampleSections 2 6

theorem authority_never_reset_sample :
    ∃ p, run (step sampleEnv) ⟨sampleDisk, []⟩ sampleRun = some p ∧ p.shared.log.map (·.initialises) = [some "config"] ∧
      (p.threads[2]?.map (·.2)) = some (.raise (missingDocument "config")) ∧ Kept sampleEnv p := by
  have hrun : ∃ p, run (step sampleEnv) ⟨sampleDisk, []⟩ sampleRun = some p ∧
      p.shared.log.map (·.initialises) = [some "config"] ∧
      (p.threads[2]?.map (·.2)) = some (.raise (missingDocument "config")) := ⟨_, rfl, rfl, rfl⟩
  obtain ⟨p, hp, hlog, hraised⟩ := hrun
  exact ⟨p, hp, hlog, hraised, (authority_never_reset sampleEnv sampleDisk sampleDisk_start sampleRun p hp).1⟩

end Conductor.StateDatabase
