import Conductor.Persistence.CaptureState

/-! Capture state and quarantined receipts: a put is all or nothing, it never touches the
row of a scope that it quarantines, and what is read back after it is the stored receipts,
less the removed and overridden by the given ones, each under the key of its own row. -/

namespace Conductor.Persistence

open KeyTable Checked Runs

variable {ρ κ φ : Type}

/-- What `put_capture_state` writes of a list of entries. -/
def compact (scopes : List Scope) : PyValue := .list (scopes.map (entry · none))

/-- What `_json` wrote, `json.loads` reads back. -/
structure Codec.Faithful (k : Codec ρ κ φ) : Prop where
  document : ∀ d t, d.commands = none → (d.invalidCommands = none ∨ ∃ scopes, d.invalidCommands = some (compact scopes)) →
    k.dumpsDocument d = .ok (.text t) → k.loadsDocument t = .ok (some d)
  command : ∀ c t, k.dumpsCommand c = .ok (.text t) → k.loadsItem t = some c.item

/-- The keys of `capture_commands` are unique, and their parts are not empty. -/
def WellFormed (db : Db) : Prop := Keyed (fun s : Scope => s.valid = true) db.rows

/-- What the callers supply: no receipts in the document, and scopes of nonempty strings. -/
structure Put.Supplied (put : Put ρ κ φ) : Prop where
  commands : put.value.commands = none
  valid : ∀ c ∈ put.commands, c.scope.valid = true

/-- The receipt stored under a scope. -/
def stored (k : Codec ρ κ φ) (db : Db) (s : Scope) : Option (Item κ) := (db.rows.lookup s).bind (receiptOf k s)

def textBody : PyStr → Body
  | .text t => .text t
  | .surrogates _ => .blob []

/-- The receipt under a scope after a put: the last given for it, or else none when it is removed
and not quarantined, or else that of its row, which inline evidence makes when there is none. -/
def expected (k : Codec ρ κ φ) (db : Db) (put : Put ρ κ φ) (p : Prepared ρ) (s : Scope) : Option (Item κ) :=
  match put.commands.reverse.find? (·.scope = s) with
  | some c => some c.item
  | none =>
    if s ∈ put.removed ∧ s ∉ p.quarantined then none
    else ((db.rows.lookup s).or ((p.evidence.lookup s).map textBody)).bind (receiptOf k s)

/-! ### The statements -/

theorem bindText_ok {s : PyStr} {t : String} (h : bindText s = .ok t) : s = .text t := by
  cases s <;> cases h
  rfl

variable {s : Scope} {db db' : Db} {k : Codec ρ κ φ} {fault : Statement → Option String} {p : Prepared ρ}
  {put : Put ρ κ φ} {rows : List (Scope × Body)} {body : Body}

theorem bindScope_ok {t : Scope} (h : bindScope s = .ok t) : t = s := by
  unfold bindScope at h
  iterate 3 obtain ⟨_, -, h⟩ := bind_eq_ok.1 h
  exact pure_eq_ok.1 h

theorem bindRow_ok {row : Scope × PyStr} {r : Scope × Body} (h : bindRow row = .ok r) :
    r = (row.1, textBody row.2) ∧ ∃ t, row.2 = .text t := by
  unfold bindRow at h
  obtain ⟨s, hs, h⟩ := bind_eq_ok.1 h
  obtain ⟨t, ht, h⟩ := bind_eq_ok.1 h
  obtain rfl := pure_eq_ok.1 h
  rw [bindScope_ok hs, bindText_ok ht]
  exact ⟨rfl, t, rfl⟩

theorem insertEvidence_ok {evidence : List (Scope × PyStr)} (h : insertEvidence db evidence = .ok db') :
    db' = { db with rows := (evidence.map fun e => (e.1, textBody e.2)).foldl insertOrIgnore db.rows } := by
  obtain ⟨rows, hrows, h⟩ := bind_eq_ok.1 h
  obtain rfl := pure_eq_ok.1 h
  rw [(mapM_ok_eq_map (g := fun e => (e.1, textBody e.2)) (fun a b hb => (bindRow_ok hb).1) hrows).1]

theorem deleteRemoved_ok {removed : List Scope} (h : deleteRemoved db removed = .ok db') :
    db' = { db with rows := removed.foldl delete db.rows } := by
  obtain ⟨keys, hkeys, h⟩ := bind_eq_ok.1 h
  obtain rfl := pure_eq_ok.1 h
  rw [(mapM_ok_eq_map (g := id) (fun a b hb => bindScope_ok hb) hkeys).1, List.map_id]

/-- The row that a receipt makes. -/
def commandBody (k : Codec ρ κ φ) (c : Command κ) : Body :=
  match k.dumpsCommand c with
  | .ok t => textBody t
  | .error _ => .blob []

theorem commandRow_ok {c : Command κ} {r : Scope × PyStr} (h : commandRow k c = .ok r) :
    r.1 = c.scope ∧ k.dumpsCommand c = .ok r.2 := by
  obtain ⟨t, ht, h⟩ := bind_eq_ok.1 h
  obtain rfl := pure_eq_ok.1 h
  refine ⟨rfl, ?_⟩
  unfold python at ht
  cases hd : k.dumpsCommand c with
  | ok u =>
    rw [hd] at ht
    cases ht
    rfl
  | error e =>
    rw [hd] at ht
    cases ht

/-- A receipt that can be written is text that reads back. -/
theorem replaceCommands_ok {commands : List (Command κ)} (h : replaceCommands k db commands = .ok db') :
    db' = { db with rows := (commands.map fun c => (c.scope, commandBody k c)).foldl insertOrReplace db.rows } ∧
      ∀ c ∈ commands, ∃ t, k.dumpsCommand c = .ok (.text t) := by
  obtain ⟨texts, htexts, h⟩ := bind_eq_ok.1 h
  obtain ⟨rows, hrows, h⟩ := bind_eq_ok.1 h
  obtain rfl := pure_eq_ok.1 h
  obtain ⟨htexts, hdumps⟩ := mapM_ok_eq_map
    (g := fun c => (c.scope, match k.dumpsCommand c with | .ok t => t | .error _ => .surrogates []))
    (fun c r hr => by
      obtain ⟨h1, h2⟩ := commandRow_ok hr
      simp only [h2, ← h1]) htexts
  obtain ⟨hrows, hbound⟩ := mapM_ok_eq_map (g := fun e => (e.1, textBody e.2))
    (fun a b hb => (bindRow_ok hb).1) hrows
  have htext : ∀ c ∈ commands, ∃ t, k.dumpsCommand c = .ok (.text t) := by
    intro c hc
    have hrow := hbound _ (htexts ▸ List.mem_map_of_mem hc)
    obtain ⟨-, hdump⟩ := commandRow_ok (hdumps c hc)
    obtain ⟨t, ht⟩ := (bindRow_ok hrow).2
    simp only at hdump ht
    exact ⟨t, by rw [hdump, ht]⟩
  refine ⟨?_, htext⟩
  rw [hrows, htexts, List.map_map]
  congr 2
  refine List.map_congr_left fun c hc => ?_
  obtain ⟨t, ht⟩ := htext c hc
  simp [commandBody, ht]

/-- The document holds the body, and nothing but documents and changes is touched. -/
theorem putBody_ok {name now : String} {body : PyStr} {history : Bool}
    (h : putBody db name body now history = .ok db') :
    db'.rows = db.rows ∧ (∃ row, db'.documents name = some row ∧ body = .text row.body) ∧
      ∀ other, other ≠ name → db'.documents other = db.documents other := by
  unfold putBody at h
  split at h
  · next hsame =>
    cases h
    obtain ⟨row, hrow, heq⟩ := Option.any_eq_true _ _ |>.1 hsame
    exact ⟨rfl, ⟨row, hrow, by simpa using heq⟩, fun _ _ => rfl⟩
  · obtain ⟨text, htext, h⟩ := bind_eq_ok.1 h
    obtain rfl := pure_eq_ok.1 h
    refine ⟨rfl, ⟨_, Function.update_self .., bindText_ok htext⟩, fun other hother => ?_⟩
    simp [Function.update_of_ne hother]

theorem putFocus_ok {cameraFocus : Option φ} {now : String} (h : putFocus k db cameraFocus now = .ok db') :
    db'.rows = db.rows ∧ db'.documents "capture" = db.documents "capture" := by
  unfold putFocus at h
  split at h
  · cases h
    exact ⟨rfl, rfl⟩
  · obtain ⟨body, -, h⟩ := bind_eq_ok.1 h
    obtain ⟨_, -, h⟩ := bind_eq_ok.1 h
    obtain ⟨hrows, -, hother⟩ := putBody_ok h
    exact ⟨hrows, hother "capture" (by decide)⟩

/-- The rows that a successful transaction leaves. -/
def nextRows (k : Codec ρ κ φ) (db : Db) (put : Put ρ κ φ) (p : Prepared ρ) : List (Scope × Body) :=
  (put.commands.map fun c => (c.scope, commandBody k c)).foldl insertOrReplace
    ((put.removed.filter (· ∉ p.quarantined)).foldl delete
      ((p.evidence.map fun e => (e.1, textBody e.2)).foldl insertOrIgnore db.rows))

theorem statements_ok {body : PyStr} (h : statements fault k put p body db = .ok db') :
    db'.rows = nextRows k db put p ∧ (∃ row, db'.documents "capture" = some row ∧ body = .text row.body) ∧
      ∀ c ∈ put.commands, ∃ t, k.dumpsCommand c = .ok (.text t) := by
  unfold statements at h
  iterate 4 obtain ⟨_, -, h⟩ := bind_eq_ok.1 h
  obtain ⟨db1, h1, h⟩ := bind_eq_ok.1 h
  obtain ⟨_, -, h⟩ := bind_eq_ok.1 h
  obtain ⟨db2, h2, h⟩ := bind_eq_ok.1 h
  obtain ⟨_, -, h⟩ := bind_eq_ok.1 h
  obtain ⟨db3, h3, h⟩ := bind_eq_ok.1 h
  obtain ⟨_, -, h⟩ := bind_eq_ok.1 h
  obtain ⟨db4, h4, h⟩ := bind_eq_ok.1 h
  obtain ⟨_, -, h⟩ := bind_eq_ok.1 h
  obtain ⟨db5, h5, h⟩ := bind_eq_ok.1 h
  obtain ⟨_, -, h⟩ := bind_eq_ok.1 h
  obtain rfl := pure_eq_ok.1 h
  obtain rfl := insertEvidence_ok h1
  obtain ⟨hrows2, hdoc, -⟩ := putBody_ok h2
  obtain rfl := deleteRemoved_ok h3
  obtain ⟨rfl, hdumps⟩ := replaceCommands_ok h4
  obtain ⟨hrows5, hdoc5⟩ := putFocus_ok h5
  refine ⟨?_, ?_, hdumps⟩
  · rw [hrows5, nextRows, hrows2]
  · rw [hdoc5]
    exact hdoc

/-! ### One put -/

/-- A put that raises leaves the database alone. -/
theorem put_error {e : Error} (h : putCaptureState fault k db put = (.error e, db')) : db' = db := by
  unfold putCaptureState at h
  split at h
  · simp_all
  · split at h
    · simp_all
    · split at h
      · simp_all
      · unfold transaction at h
        split at h <;> simp_all

/-- What a successful put has done. -/
theorem put_ok (h : putCaptureState fault k db put = (.ok (), db')) :
    ∃ p body, prepare k put.value = .ok p ∧ (∀ c ∈ put.commands, c.scope ∉ p.quarantined) ∧
      k.dumpsDocument p.value = .ok body ∧ db'.rows = nextRows k db put p ∧
      (∃ row, db'.documents "capture" = some row ∧ body = .text row.body) ∧
      ∀ c ∈ put.commands, ∃ t, k.dumpsCommand c = .ok (.text t) := by
  unfold putCaptureState at h
  split at h
  · simp at h
  next p hp =>
  split at h
  · simp at h
  next hfree =>
  split at h
  · simp at h
  next body hbody =>
  unfold transaction at h
  split at h
  · simp at h
  next db'' hstatements =>
  obtain rfl : db'' = db' := (Prod.mk.inj h).2
  obtain ⟨hrows, hdoc, hdumps⟩ := statements_ok hstatements
  exact ⟨p, body, hp, by simpa using hfree, hbody, hrows, hdoc, hdumps⟩

/-- A receipt for a quarantined scope is refused. -/
theorem put_refused (hp : prepare k put.value = .ok p) (h : ∃ c ∈ put.commands, c.scope ∈ p.quarantined) :
    putCaptureState fault k db put =
      (.error (.persistence "cannot replace a quarantined command receipt"), db) := by
  unfold putCaptureState
  simp only [hp]
  rw [if_pos (by simpa using h)]

theorem putBody_succeeds (db : Db) (name text now : String) (history : Bool) :
    ∃ db', putBody db name (.text text) now history = .ok db' := by
  rw [putBody]
  split
  · exact ⟨_, rfl⟩
  · exact ⟨_, bind_eq_ok.2 ⟨text, rfl, rfl⟩⟩

/-- Where every statement can be made and every value can be bound, a put that removes nothing and
sets no focus succeeds. -/
theorem put_succeeds {text : String} (row : Command κ → Scope × PyStr) (bound : Scope × PyStr → Scope × Body)
    (hp : prepare k put.value = .ok p) (hfree : ∀ c ∈ put.commands, c.scope ∉ p.quarantined)
    (hdocument : k.dumpsDocument p.value = .ok (.text text)) (hrequired : requireDocument db "capture" = .ok ())
    (hevidence : ∀ e ∈ p.evidence, bindRow e = .ok (bound e)) (hremoved : put.removed = [])
    (hcommands : ∀ c ∈ put.commands, commandRow k c = .ok (row c) ∧ bindRow (row c) = .ok (bound (row c)))
    (hfocus : put.cameraFocus = none) : ∃ db', putCaptureState (fun _ => none) k db put = (.ok (), db') := by
  have hrefused : ¬(put.commands.any (·.scope ∈ p.quarantined)) = true := by
    simpa using hfree
  have hrows : ∀ db, ∃ db', insertEvidence db p.evidence = .ok db' := fun db =>
    ⟨_, bind_eq_ok.2 ⟨p.evidence.map bound, mapM_eq hevidence, rfl⟩⟩
  have hdelete : ∀ db, ∃ db', deleteRemoved db (put.removed.filter (· ∉ p.quarantined)) = .ok db' := by
    intro db
    rw [hremoved]
    exact ⟨_, rfl⟩
  have hreplace : ∀ db, ∃ db', replaceCommands k db put.commands = .ok db' := by
    intro db
    refine ⟨_, bind_eq_ok.2 ⟨put.commands.map row, mapM_eq fun c hc => (hcommands c hc).1,
      bind_eq_ok.2 ⟨(put.commands.map row).map bound, mapM_eq ?_, rfl⟩⟩⟩
    intro r hr
    obtain ⟨c, hc, rfl⟩ := List.mem_map.1 hr
    exact (hcommands c hc).2
  obtain ⟨db1, h1⟩ := hrows db
  obtain ⟨db2, h2⟩ := putBody_succeeds db1 "capture" text put.now false
  obtain ⟨db3, h3⟩ := hdelete db2
  obtain ⟨db4, h4⟩ := hreplace db3
  have h5 : putFocus k db4 put.cameraFocus put.now = .ok db4 := by rw [hfocus, putFocus]
  have hstatements : statements (fun _ => none) k put p (.text text) db = .ok db4 := by
    simp only [statements, execute, hrequired, bind, Except.bind, h1, h2, h3, h4, h5]
    rfl
  refine ⟨db4, ?_⟩
  simp only [putCaptureState, hp, if_neg hrefused, hdocument, transaction, hstatements]

/-! ### The rows after a put -/

theorem lookup_map_body {α : Type} (l : List (Scope × α)) (f : α → Body) (s : Scope) :
    (l.map fun e => (e.1, f e.2)).lookup s = (l.lookup s).map f := by
  induction l with
  | nil => rfl
  | cons e l ih =>
    rw [List.map_cons, lookup_cons, lookup_cons, ih]
    split_ifs <;> rfl

theorem lookup_commands (k : Codec ρ κ φ) (commands : List (Command κ)) (s : Scope) :
    (commands.map fun c => (c.scope, commandBody k c)).lookup s =
      (commands.find? (·.scope = s)).map (commandBody k) := by
  induction commands with
  | nil => rfl
  | cons c commands ih =>
    rw [List.map_cons, lookup_cons, ih]
    split_ifs with h
    · rw [List.find?_cons_of_pos (by simpa using h.symm), Option.map_some]
    · rw [List.find?_cons_of_neg (by simpa using fun heq => h heq.symm)]

theorem lookup_nextRows (k : Codec ρ κ φ) (db : Db) (put : Put ρ κ φ) (p : Prepared ρ) (s : Scope) :
    (nextRows k db put p).lookup s =
      ((put.commands.reverse.find? (·.scope = s)).map (commandBody k)).or
        (if s ∈ put.removed ∧ s ∉ p.quarantined then none
          else (db.rows.lookup s).or ((p.evidence.lookup s).map textBody)) := by
  rw [nextRows, lookup_foldl_insertOrReplace, lookup_foldl_delete, lookup_foldl_insertOrIgnore, ← List.map_reverse,
    lookup_commands, lookup_map_body]
  simp only [List.mem_filter, decide_eq_true_eq]

theorem keyed_nextRows (h : WellFormed db)
    (hp : ∀ e ∈ p.evidence, e.1.valid = true) (hc : ∀ c ∈ put.commands, c.scope.valid = true) :
    Keyed (fun s : Scope => s.valid = true) (nextRows k db put p) := by
  refine .foldl (fun rows row hrow hrows => hrows.insertOrReplace ?_)
    (.foldl (fun rows s _ hrows => hrows.delete s) (.foldl (fun rows row hrow hrows => hrows.insertOrIgnore ?_) h))
  · obtain ⟨c, hmem, rfl⟩ := List.mem_map.1 hrow
    exact hc c hmem
  · obtain ⟨e, hmem, rfl⟩ := List.mem_map.1 hrow
    exact hp e hmem

theorem asScope_valid {value : PyValue} (h : asScope value = .ok s) : s.valid = true := by
  unfold asScope at h
  split at h
  · split at h
    · split_ifs at h with hv
      cases h
      exact hv
    · cases h
  · cases h

theorem readEntries_valid {values : List PyValue} {entries : List (Scope × Option PyStr)}
    (h : readEntries k values = .ok entries) : ∀ e ∈ entries, e.1.valid = true := by
  induction values generalizing entries with
  | nil =>
    cases h
    simp
  | cons value rest ih =>
    obtain ⟨s, hs, h⟩ := bind_eq_ok.1 h
    obtain ⟨receipt, -, h⟩ := bind_eq_ok.1 h
    obtain ⟨more, hmore, h⟩ := bind_eq_ok.1 h
    obtain rfl := pure_eq_ok.1 h
    exact List.forall_mem_cons.2 ⟨asScope_valid hs, ih hmore⟩

/-- The document that a put writes: compact, with the other fields of the value. -/
theorem prepare_ok {value : Document ρ} (h : prepare k value = .ok p) :
    p.value.commands = value.commands ∧ p.value.rest = value.rest ∧
      (p.value.invalidCommands = none ∨ ∃ scopes, p.value.invalidCommands = some (compact scopes)) ∧
      ∀ e ∈ p.entries, e.1.valid = true := by
  unfold prepare at h
  split at h
  · next hnone =>
    cases h
    exact ⟨rfl, rfl, Or.inl hnone, by simp⟩
  · obtain ⟨entries, hentries, h⟩ := bind_eq_ok.1 h
    obtain rfl := pure_eq_ok.1 h
    refine ⟨rfl, rfl, Or.inr ⟨entries.map (·.1), ?_⟩, readEntries_valid hentries⟩
    simp [compact]
  · cases h

theorem Prepared.evidence_valid (h : ∀ e ∈ p.entries, e.1.valid = true) : ∀ e ∈ p.evidence, e.1.valid = true := by
  intro e he
  obtain ⟨⟨s, receipt⟩, hmem, hsome⟩ := List.mem_filterMap.1 he
  obtain ⟨r, -, rfl⟩ := Option.map_eq_some_iff.1 hsome
  exact h _ hmem

/-! ### What is read back -/

/-- The receipts of a table, each with the key of its row. -/
def receipts (k : Codec ρ κ φ) (rows : List (Scope × Body)) : List (Scope × Item κ) :=
  rows.filterMap fun row => (receiptOf k row.1 row.2).map fun item => (row.1, item)

theorem receipts_unique (h : UniqueKeys rows) : UniqueKeys (receipts k rows) := by
  refine List.Nodup.sublist ?_ h
  induction rows with
  | nil => exact .slnil
  | cons row rows ih =>
    have ih := ih (List.nodup_cons.1 h).2
    unfold receipts at ih ⊢
    rw [List.filterMap_cons]
    cases receiptOf k row.1 row.2 with
    | none => exact ih.cons _
    | some item => exact ih.cons_cons _

theorem lookup_receipts (h : UniqueKeys rows) (s : Scope) :
    (receipts k rows).lookup s = (rows.lookup s).bind (receiptOf k s) := by
  ext item
  rw [(receipts_unique h).lookup_iff, Option.bind_eq_some_iff]
  constructor
  · intro hmem
    obtain ⟨⟨s', body⟩, hrow, hsome⟩ := List.mem_filterMap.1 hmem
    obtain ⟨item', hitem, heq⟩ := Option.map_eq_some_iff.1 hsome
    obtain ⟨rfl, rfl⟩ := Prod.mk.inj heq
    exact ⟨body, h.lookup_iff.2 hrow, hitem⟩
  · rintro ⟨body, hrow, hitem⟩
    exact List.mem_filterMap.2 ⟨(s, body), h.lookup_iff.1 hrow, by rw [hitem, Option.map_some]⟩

theorem receiptOf_matches {item : Item κ} (h : receiptOf k s body = some item) : item.matches s = true := by
  unfold receiptOf at h
  split at h
  · exact (Option.filter_eq_some_iff.1 h).2
  · cases h

theorem map_receipts (k : Codec ρ κ φ) (rows : List (Scope × Body)) :
    (receipts k rows).map (·.2) = rows.filterMap fun row => receiptOf k row.1 row.2 := by
  simp [receipts, List.map_filterMap, Option.map_map, Function.comp_def]

/-- Reading a document that a put wrote. -/
theorem captureState_ok {row : DocumentRow} {value : Document ρ}
    (hw : WellFormed db) (hrow : db.documents "capture" = some row)
    (hload : k.loadsDocument row.body = .ok (some value)) (hcommands : value.commands = none)
    (hinvalid : value.invalidCommands = none ∨ ∃ scopes, value.invalidCommands = some (compact scopes)) :
    ∃ captured, captureState k db = .ok captured ∧ captured.rest = value.rest ∧
      captured.commands = .inr ((receipts k db.rows).map (·.2)) := by
  have hall : db.rows.all (·.1.valid) = true := List.all_eq_true.2 hw.keys
  have hlist : ∃ invalid, value.invalidCommands.getD (.list []) = .list invalid := by
    rcases hinvalid with h | ⟨scopes, h⟩ <;> rw [h]
    · exact ⟨[], rfl⟩
    · exact ⟨_, rfl⟩
  obtain ⟨invalid, hlist⟩ := hlist
  unfold captureState
  simp only [hrow, hload, hcommands, hlist, hall, if_true]
  exact ⟨_, rfl, rfl, by rw [map_receipts]⟩

theorem matches_self (c : Command κ) : c.item.matches c.scope = true := by
  simp [Item.matches, Command.item, PyValue.eqStr]

theorem stored_after (hk : k.Faithful) (hrows : db'.rows = nextRows k db put p)
    (hdumps : ∀ c ∈ put.commands, ∃ t, k.dumpsCommand c = .ok (.text t)) (s : Scope) :
    stored k db' s = expected k db put p s := by
  unfold stored expected
  rw [hrows, lookup_nextRows]
  cases hfind : put.commands.reverse.find? (·.scope = s) with
  | none =>
    rw [Option.map_none, Option.none_or]
    simp only
    split_ifs <;> rfl
  | some c =>
    obtain rfl : c.scope = s := by simpa using List.find?_some hfind
    obtain ⟨t, ht⟩ := hdumps c (List.mem_reverse.1 (List.mem_of_find?_eq_some hfind))
    rw [Option.map_some, Option.some_or, Option.bind_some, commandBody, ht]
    simp only [textBody, receiptOf, hk.command c t ht, Option.filter_some, matches_self, if_true]

/-! ### Runs -/

/-- A read changes nothing. -/
inductive Op (ρ κ φ : Type) where
  | put (put : Put ρ κ φ) (fault : Statement → Option String)
  | capture

def step (k : Codec ρ κ φ) (db : Db) : Op ρ κ φ → Option Db
  | .put put fault => some (putCaptureState fault k db put).2
  | .capture => some db

def Supplied (_ : Db) (op : Op ρ κ φ) (_ : Db) : Prop :=
  match op with
  | .put put _ => put.Supplied
  | .capture => True

/-- The scope stays in `invalid_commands`. -/
def Keeps (k : Codec ρ κ φ) (s : Scope) (_ : Db) (op : Op ρ κ φ) (_ : Db) : Prop :=
  match op with
  | .put put _ => ∀ p, prepare k put.value = .ok p → s ∈ p.quarantined
  | .capture => True

/-- The row of the scope as it is, as long as the scope is kept in `invalid_commands`. -/
def RowKept (k : Codec ρ κ φ) (db : Db) (s : Scope) (body : Body) : Prop :=
  db.rows.lookup s = some body ∧ ∀ later db', run (step k) db later = some db' →
    Along (step k) (Keeps k s) db later → db'.rows.lookup s = some body

/-- The outcome of reading after a successful put. -/
def ReadBack (k : Codec ρ κ φ) (db : Db) (put : Put ρ κ φ) (db' : Db) : Prop :=
  ∃ p captured table, prepare k put.value = .ok p ∧ captureState k db' = .ok captured ∧
    captured.rest = put.value.rest ∧ captured.commands = .inr (table.map (·.2)) ∧ UniqueKeys table ∧
    (∀ r ∈ table, r.2.matches r.1 = true) ∧ ∀ s, table.lookup s = expected k db put p s

structure Lawful (k : Codec ρ κ φ) (db : Db) : Prop where
  atomic : ∀ fault put e db', putCaptureState fault k db put = (.error e, db') → db' = db
  refused : ∀ fault put p, prepare k put.value = .ok p → (∃ c ∈ put.commands, c.scope ∈ p.quarantined) →
    ∃ e, putCaptureState fault k db put = (.error e, db)
  readBack : ∀ fault put db', put.Supplied → putCaptureState fault k db put = (.ok (), db') → ReadBack k db put db'
  kept : ∀ s body, db.rows.lookup s = some body → RowKept k db s body
  quarantine : ∀ fault put db' p s r, putCaptureState fault k db put = (.ok (), db') →
    prepare k put.value = .ok p → (s, r) ∈ p.evidence → ∃ body, RowKept k db' s body

theorem put_readBack (hk : k.Faithful) (hw : WellFormed db) (hput : put.Supplied)
    (h : putCaptureState fault k db put = (.ok (), db')) : WellFormed db' ∧ ReadBack k db put db' := by
  obtain ⟨p, body, hp, -, hbody, hrows, ⟨row, hrow, hrowBody⟩, hdumps⟩ := put_ok h
  obtain ⟨hcommands, hrest, hinvalid, hentries⟩ := prepare_ok hp
  have hkeyed : WellFormed db' := by
    unfold WellFormed
    rw [hrows]
    exact keyed_nextRows hw (Prepared.evidence_valid hentries) hput.valid
  have hload : k.loadsDocument row.body = .ok (some p.value) :=
    hk.document p.value row.body (hcommands.trans hput.commands) hinvalid (by rw [hbody, hrowBody])
  obtain ⟨captured, hcaptured, hcrest, hccommands⟩ :=
    captureState_ok hkeyed hrow hload (hcommands.trans hput.commands) hinvalid
  refine ⟨hkeyed, p, captured, receipts k db'.rows, hp, hcaptured, hcrest.trans hrest, hccommands,
    receipts_unique hkeyed.unique, fun r hr => ?_, fun s => ?_⟩
  · have hlookup := (receipts_unique hkeyed.unique).lookup_iff.2 hr
    rw [lookup_receipts hkeyed.unique, Option.bind_eq_some_iff] at hlookup
    obtain ⟨b, -, hb⟩ := hlookup
    exact receiptOf_matches hb
  · rw [lookup_receipts hkeyed.unique]
    exact stored_after hk hrows hdumps s

/-- A put that keeps the scope in quarantine keeps its row. -/
theorem put_keeps_row (hkeep : ∀ p, prepare k put.value = .ok p → s ∈ p.quarantined)
    (hrow : db.rows.lookup s = some body) : (putCaptureState fault k db put).2.rows.lookup s = some body := by
  obtain ⟨r, db', h⟩ : ∃ r db', putCaptureState fault k db put = (r, db') := ⟨_, _, rfl⟩
  rw [h]
  cases r with
  | error e => rwa [put_error h]
  | ok u =>
    obtain ⟨p, -, hp, hfree, -, hrows, -⟩ := put_ok h
    have hnone : put.commands.reverse.find? (·.scope = s) = none := by
      rw [List.find?_eq_none]
      intro c hc hscope
      exact hfree c (List.mem_reverse.1 hc) (by simpa using (of_decide_eq_true hscope) ▸ hkeep p hp)
    rw [hrows, lookup_nextRows, hnone, if_neg (fun hremoved => hremoved.2 (hkeep p hp)), hrow]
    rfl

theorem row_kept (h : db.rows.lookup s = some body) : RowKept k db s body := by
  refine ⟨h, fun later db' hr hkeeps => ?_⟩
  refine run_invariant_of_along (I := fun db : Db => db.rows.lookup s = some body) ?_ h hkeeps hr
  intro db op db' hrow hstep hkeep
  cases op with
  | put put fault =>
    cases hstep
    exact put_keeps_row hkeep hrow
  | capture =>
    cases hstep
    exact hrow

theorem step_wellFormed (hk : k.Faithful) {op : Op ρ κ φ} (hw : WellFormed db)
    (hstep : step k db op = some db') (hs : Supplied db op db') : WellFormed db' := by
  cases op with
  | put put fault =>
    cases hstep
    obtain ⟨r, db', h⟩ : ∃ r db', putCaptureState fault k db put = (r, db') := ⟨_, _, rfl⟩
    rw [h]
    cases r with
    | error e => rwa [put_error h]
    | ok u => exact (put_readBack hk hw hs h).1
  | capture =>
    cases hstep
    exact hw

/-- In every reachable database puts are atomic, quarantined rows are kept, and reading gives
back what was put. -/
theorem capture_state_lawful {k : Codec ρ κ φ} (hk : k.Faithful) {ops : List (Op ρ κ φ)} {db₀ db : Db}
    (hw : WellFormed db₀) (hr : run (step k) db₀ ops = some db) (hs : Along (step k) Supplied db₀ ops) :
    Lawful k db where
  atomic fault put e db' h := put_error h
  refused fault put p hp h := ⟨_, put_refused hp h⟩
  readBack fault put db' hput h :=
    (put_readBack hk (run_invariant_of_along (fun _ _ _ hw ht hg => step_wellFormed hk hw ht hg) hw hs hr) hput h).2
  kept s body h := row_kept h
  quarantine fault put db' p s r h hp he := by
    obtain ⟨p', -, hp', hfree, -, hrows, -⟩ := put_ok h
    obtain rfl : p' = p := Except.ok.inj (hp'.symm.trans hp)
    have hsome : (db'.rows.lookup s).isSome := by
      have hquarantined : s ∈ p'.quarantined := by
        obtain ⟨e, hmem, hsome⟩ := List.mem_filterMap.1 he
        obtain ⟨r', -, heq⟩ := Option.map_eq_some_iff.1 hsome
        exact List.mem_map.2 ⟨e, hmem, congrArg Prod.fst heq⟩
      rw [hrows, lookup_nextRows, if_neg (fun hremoved => hremoved.2 hquarantined)]
      have hevidence : (p'.evidence.lookup s).isSome := by
        cases hl : p'.evidence.lookup s with
        | some r' => rfl
        | none => simpa using List.lookup_eq_none_iff.1 hl _ he
      simp [hevidence]
    obtain ⟨body, hbody⟩ := Option.isSome_iff_exists.1 hsome
    exact ⟨body, row_kept hbody⟩

/-! ### A codec with one receipt and one quarantined scope -/

def sampleScope : Scope := ⟨.text "device", .text "start", .text "key-1"⟩

def sampleCommand : Command Unit := ⟨sampleScope, ()⟩

def emptyText : String := "\x7b\x7d"

def quarantineText : String :=
  "\x7b\"invalid_commands\":[\x7b\"scope\":[\"device\",\"start\",\"key-1\"]\x7d]\x7d"

def doubledText : String :=
  "\x7b\"invalid_commands\":[\x7b\"scope\":[\"device\",\"start\",\"key-1\"]\x7d,\x7b\"scope\":[\"device\",\"start\",\"key-1\"]\x7d]\x7d"

def commandText : String :=
  "\x7b\"idempotency_key\":\"key-1\",\"operation\":\"start\",\"principal_id\":\"device\"\x7d"

def isSampleEntry : PyValue → Bool
  | .dict [(.text "scope", .list [.str a, .str b, .str c])] => Scope.mk a b c = sampleScope
  | _ => false

theorem isSampleEntry_entry (s : Scope) : isSampleEntry (entry s none) = decide (s = sampleScope) := rfl

def sampleCodec : Codec Unit Unit Unit where
  dumpsDocument
    | ⟨none, none, _⟩ => .ok (.text emptyText)
    | ⟨some (.list [e]), none, _⟩ => if isSampleEntry e then .ok (.text quarantineText) else .error .typeError
    | ⟨some (.list [e, e']), none, _⟩ =>
      if isSampleEntry e && isSampleEntry e' then .ok (.text doubledText) else .error .typeError
    | _ => .error .typeError
  loadsDocument t :=
    if t = emptyText then .ok (some { rest := () })
    else if t = quarantineText then .ok (some ⟨some (compact [sampleScope]), none, ()⟩)
    else if t = doubledText then .ok (some ⟨some (compact [sampleScope, sampleScope]), none, ()⟩)
    else .error .valueError
  dumpsCommand c := if c.scope = sampleScope then .ok (.text commandText) else .error .typeError
  loadsItem t := if t = commandText then some sampleCommand.item else none
  dumpsEvidence _ := .error .typeError
  dumpsFocus _ := .error .typeError
  reprBytes _ := "b''"

theorem sampleCodec_faithful : sampleCodec.Faithful where
  document d t hcommands hinvalid hdumps := by
    obtain ⟨invalid, commands, rest⟩ := d
    obtain rfl : commands = none := hcommands
    have hquarantine : quarantineText ≠ emptyText := by decide
    have hdoubled : doubledText ≠ emptyText ∧ doubledText ≠ quarantineText := by decide
    rcases hinvalid with h | ⟨scopes, h⟩
    · obtain rfl : invalid = none := h
      obtain rfl : emptyText = t := PyStr.text.inj (Except.ok.inj hdumps)
      rfl
    · obtain rfl : invalid = some (compact scopes) := h
      match scopes with
      | [] => cases hdumps
      | [s] =>
        simp only [sampleCodec, compact, List.map_cons, List.map_nil, isSampleEntry_entry, decide_eq_true_eq] at hdumps
        split_ifs at hdumps with hs
        obtain rfl : quarantineText = t := PyStr.text.inj (Except.ok.inj hdumps)
        obtain rfl : s = sampleScope := hs
        simp [sampleCodec, hquarantine]
      | [s, s'] =>
        simp only [sampleCodec, compact, List.map_cons, List.map_nil, isSampleEntry_entry, Bool.and_eq_true,
          decide_eq_true_eq] at hdumps
        split_ifs at hdumps with hs
        obtain rfl : doubledText = t := PyStr.text.inj (Except.ok.inj hdumps)
        obtain ⟨rfl, rfl⟩ : s = sampleScope ∧ s' = sampleScope := hs
        simp [sampleCodec, hdoubled.1, hdoubled.2]
      | s :: s' :: s'' :: more => cases hdumps
  command c t hdumps := by
    simp only [sampleCodec] at hdumps ⊢
    split_ifs at hdumps with hs
    obtain rfl : commandText = t := PyStr.text.inj (Except.ok.inj hdumps)
    simp [sampleCommand, Command.item, hs]

def sampleDb : Db := { documents := fun _ => none }

/-- The receipt, and then its scope quarantined and removed at once. -/
def samplePut : Put Unit Unit Unit :=
  { value := { rest := () }, commands := [sampleCommand], removed := [], now := "1" }

def sampleRemoval : Put Unit Unit Unit :=
  { value := ⟨some (compact [sampleScope]), none, ()⟩, commands := [], removed := [sampleScope], now := "2" }

theorem samplePut_supplied : samplePut.Supplied := ⟨rfl, by decide⟩

theorem sampleRemoval_supplied : sampleRemoval.Supplied := ⟨rfl, by decide⟩

theorem sampleDb_wellFormed : WellFormed sampleDb := ⟨List.nodup_nil, by simp [sampleDb]⟩

theorem sample_along : Along (step sampleCodec) Supplied sampleDb [.put samplePut fun _ => none] :=
  fun _ _ => ⟨samplePut_supplied, trivial⟩

/-- Evidence that is no receipt, and what is read back after it. -/
def sampleEvidence : Put Unit Unit Unit :=
  { value := ⟨some (.list [entry sampleScope (some (.text "?"))]), none, ()⟩, commands := [], removed := [], now := "1" }

def sampleReread : Put Unit Unit Unit :=
  { value := ⟨some (.list [entry sampleScope none, entry sampleScope (some (.text "?"))]), none, ()⟩
    commands := []
    removed := []
    now := "2" }

theorem sampleEvidence_supplied : sampleEvidence.Supplied := ⟨rfl, by decide⟩

/-- A receipt is stored; in the other run the scope is quarantined with its evidence. -/
theorem capture_state_lawful_sample :
    (∃ db, run (step sampleCodec) sampleDb [.put samplePut fun _ => none] = some db ∧
      db.rows = [(sampleScope, .text commandText)] ∧ Lawful sampleCodec db) ∧
    ∃ db, run (step sampleCodec) sampleDb [.put sampleEvidence fun _ => none] = some db ∧
      db.rows = [(sampleScope, .text "?")] ∧ Lawful sampleCodec db ∧ RowKept sampleCodec db sampleScope (.text "?") := by
  constructor
  · have hrun : ∃ db, run (step sampleCodec) sampleDb [.put samplePut fun _ => none] = some db ∧
        db.rows = [(sampleScope, .text commandText)] := ⟨_, rfl, rfl⟩
    obtain ⟨db, hdb, hrows⟩ := hrun
    exact ⟨db, hdb, hrows, capture_state_lawful sampleCodec_faithful sampleDb_wellFormed hdb sample_along⟩
  · have hrun : ∃ db, run (step sampleCodec) sampleDb [.put sampleEvidence fun _ => none] = some db ∧
        db.rows = [(sampleScope, .text "?")] := ⟨_, rfl, rfl⟩
    obtain ⟨db, hdb, hrows⟩ := hrun
    have hlawful := capture_state_lawful sampleCodec_faithful sampleDb_wellFormed hdb
      fun _ _ => ⟨sampleEvidence_supplied, trivial⟩
    exact ⟨db, hdb, hrows, hlawful, hlawful.kept _ _ (by rw [hrows]; rfl)⟩

/-- A stored receipt that a put removes and quarantines at once is still there, and a put of what
was read repeats a quarantined scope. -/
theorem capture_state_fails :
    (¬∀ (k : Codec Unit Unit Unit) (ops : List (Op Unit Unit Unit)) (db₀ db : Db), k.Faithful → WellFormed db₀ →
      run (step k) db₀ ops = some db → Along (step k) Supplied db₀ ops →
      ∀ fault put db', put.Supplied → putCaptureState fault k db put = (.ok (), db') → ∀ s, stored k db' s =
        match put.commands.reverse.find? (·.scope = s) with
        | some c => some c.item
        | none => if s ∈ put.removed then none else stored k db s) ∧
    ¬∀ (k : Codec Unit Unit Unit) (ops : List (Op Unit Unit Unit)) (db₀ db : Db), k.Faithful → WellFormed db₀ →
      run (step k) db₀ ops = some db → Along (step k) Supplied db₀ ops →
      ∀ fault put db' captured, captureState k db = .ok captured →
        put.value = ⟨captured.invalidCommands, none, captured.rest⟩ →
        captured.commands = .inr (put.commands.map Command.item) → put.removed = [] →
        putCaptureState fault k db put = (.ok (), db') → ∀ row d scopes, db'.documents "capture" = some row →
          k.loadsDocument row.body = .ok (some d) → d.invalidCommands = some (compact scopes) → scopes.Nodup := by
  constructor
  · intro h
    have hrun : ∃ db db', run (step sampleCodec) sampleDb [.put samplePut fun _ => none] = some db ∧
        putCaptureState (fun _ => none) sampleCodec db sampleRemoval = (.ok (), db') ∧
        stored sampleCodec db' sampleScope = some sampleCommand.item := ⟨_, _, rfl, rfl, rfl⟩
    obtain ⟨db, db', hdb, hput, hstored⟩ := hrun
    have hclaim := h sampleCodec _ sampleDb db sampleCodec_faithful sampleDb_wellFormed hdb sample_along
      (fun _ => none) sampleRemoval db' sampleRemoval_supplied hput sampleScope
    rw [hstored] at hclaim
    simp [sampleRemoval] at hclaim
  · intro h
    have hrun : ∃ db db' captured row, run (step sampleCodec) sampleDb [.put sampleEvidence fun _ => none] = some db ∧
        captureState sampleCodec db = .ok captured ∧
        sampleReread.value = ⟨captured.invalidCommands, none, captured.rest⟩ ∧ captured.commands = .inr [] ∧
        putCaptureState (fun _ => none) sampleCodec db sampleReread = (.ok (), db') ∧
        db'.documents "capture" = some row ∧
        sampleCodec.loadsDocument row.body = .ok (some ⟨some (compact [sampleScope, sampleScope]), none, ()⟩) :=
      ⟨_, _, _, _, rfl, rfl, rfl, rfl, rfl, rfl, rfl⟩
    obtain ⟨db, db', captured, row, hdb, hcaptured, hvalue, hcommands, hput, hrow, hload⟩ := hrun
    have hclaim := h sampleCodec _ sampleDb db sampleCodec_faithful sampleDb_wellFormed hdb
      (fun _ _ => ⟨sampleEvidence_supplied, trivial⟩) (fun _ => none) sampleReread db' captured hcaptured hvalue
      hcommands rfl hput row _ [sampleScope, sampleScope] hrow hload rfl
    simp at hclaim

end Conductor.Persistence
