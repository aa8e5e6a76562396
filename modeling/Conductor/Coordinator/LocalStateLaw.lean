import Conductor.Coordinator.LocalState
import Conductor.Persistence.CaptureStateLaw

/-! The durable state of the coordinator only moves forward: the writes that succeed have greater
and greater numbers, a call that returns finds its snapshot or a later one stored, the rows are the
receipts of the stored snapshot, and a stop counts as committed only when a snapshot without a take,
taken after the stop, is stored. -/

namespace Conductor.LocalState

open Checked KeyTable Persistence Runs

variable {ι τ φ : Type}

/-! ### What one write leaves in the database -/

/-- A receipt that the table has and the restore did not take. -/
def LeftBehind (db : Db) (commands : Receipts τ) (scope : Scope) : Prop :=
  commands.get scope = none ∧ db.rows.lookup scope ≠ none

def receiptBody (k : Codec (Value ι) τ φ) (scope : Scope) (receipt : τ) : Body := commandBody k ⟨scope, receipt⟩

/-- What the start of the process found: the scopes that it quarantined, the rows that it left
behind, and the recording whose recovery is open. -/
structure Earlier where
  quarantined : List Scope
  left : Scope → Prop
  session : Option SessionIdentity

/-- The database holds a snapshot: its document, and its receipts as the rows of the scopes that are
neither quarantined nor left behind. -/
structure Stored (k : Codec (Value ι) τ φ) (old : Earlier) (w : Write ι τ φ) (db : Db) : Prop where
  document : ∃ p row, prepare k w.value = .ok p ∧ p.value.rest = w.value.rest ∧
    k.dumpsDocument p.value = .ok (.text row.body) ∧ db.documents "capture" = some row
  rows : ∀ scope, scope ∉ old.quarantined → ¬old.left scope →
    db.rows.lookup scope = (w.commands.get scope).map (receiptBody k scope)
  free : ∀ scope ∈ old.quarantined, w.commands.get scope = none

/-- The scopes of the quarantine that a snapshot carries. -/
def Write.Quarantines (w : Write ι τ φ) (quarantined : List Scope) : Prop :=
  ∃ invalid : Quarantine, w.value.invalidCommands = some (.list (invalid.map fun e => entry e.1 e.2)) ∧
    invalid.map (·.1) = quarantined

theorem asScope_entry (scope : Scope) (receipt : Option PyStr) :
    asScope (entry scope receipt) = if scope.valid then .ok scope else .error invalidIdentity := by
  cases receipt <;> rfl

theorem readEntries_scopes {k : Codec (Value ι) τ φ} {invalid : Quarantine} {entries : List (Scope × Option PyStr)}
    (h : readEntries k (invalid.map fun e => entry e.1 e.2) = .ok entries) : entries.map (·.1) = invalid.map (·.1) := by
  induction invalid generalizing entries with
  | nil =>
    cases h
    rfl
  | cons e invalid ih =>
    obtain ⟨scope, hscope, h⟩ := bind_eq_ok.1 h
    obtain ⟨receipt, -, h⟩ := bind_eq_ok.1 h
    obtain ⟨rest, hrest, h⟩ := bind_eq_ok.1 h
    obtain rfl := pure_eq_ok.1 h
    rw [asScope_entry] at hscope
    split at hscope
    · cases hscope
      simp only [List.map_cons, ih hrest]
    · cases hscope

theorem readEntries_succeeds {k : Codec (Value ι) τ φ} {invalid : Quarantine} (h : ∀ e ∈ invalid, e.1.valid = true) :
    readEntries k (invalid.map fun e => entry e.1 e.2) = .ok invalid := by
  induction invalid with
  | nil => rfl
  | cons e invalid ih =>
    obtain ⟨he, hrest⟩ := List.forall_mem_cons.1 h
    have hreceipt : receiptText k (entry e.1 e.2) = .ok e.2 := by
      cases e.2 <;> rfl
    have hscope : asScope (entry e.1 e.2) = .ok e.1 := (asScope_entry e.1 e.2).trans (if_pos he)
    exact bind_eq_ok.2 ⟨e.1, hscope, bind_eq_ok.2 ⟨e.2, hreceipt, bind_eq_ok.2 ⟨invalid, ih hrest, rfl⟩⟩⟩

theorem Write.Quarantines.prepared {k : Codec (Value ι) τ φ} {w : Write ι τ φ} {quarantined : List Scope}
    {p : Prepared (Value ι)} (h : w.Quarantines quarantined) (hp : prepare k w.value = .ok p) :
    p.quarantined = quarantined := by
  obtain ⟨invalid, hinvalid, rfl⟩ := h
  rw [prepare, hinvalid] at hp
  obtain ⟨entries, hentries, hp⟩ := bind_eq_ok.1 hp
  obtain rfl := pure_eq_ok.1 hp
  exact readEntries_scopes hentries

/-- Under unique keys a filter keeps one receipt for a scope at most. -/
theorem find_filter {rows : List (Scope × τ)} (h : UniqueKeys rows) (keep : Scope × τ → Prop) [DecidablePred keep]
    (scope : Scope) :
    (((rows.filter (fun c => keep c)).map fun c => (⟨c.1, c.2⟩ : Command τ)).reverse.find? (·.scope = scope)) =
      ((rows.lookup scope).filter fun r => keep (scope, r)).map fun r => ⟨scope, r⟩ := by
  induction rows with
  | nil => rfl
  | cons row rows ih =>
    have hrest := ih h.tail
    rw [lookup_cons]
    by_cases hkeep : keep row
    · rw [List.filter_cons_of_pos (by simpa using hkeep), List.map_cons, List.reverse_cons, List.find?_append, hrest]
      by_cases hscope : scope = row.1
      · subst hscope
        rw [h.lookup_head, if_pos rfl, Option.filter_some, if_pos (by simpa using hkeep)]
        simp
      · rw [if_neg hscope, List.find?_cons_of_neg (by simpa using fun heq => hscope heq.symm), List.find?_nil,
          Option.or_none]
    · rw [List.filter_cons_of_neg (by simpa using hkeep), hrest]
      by_cases hscope : scope = row.1
      · subst hscope
        rw [h.lookup_head, if_pos rfl, Option.filter_some, if_neg (by simpa using hkeep)]
        rfl
      · rw [if_neg hscope]

theorem mem_removed {w : Write ι τ φ} {persisted : Receipts τ} {scope : Scope} :
    scope ∈ w.removed persisted ↔ (persisted.get scope).isSome ∧ w.commands.get scope = none := by
  have hkeys : scope ∈ persisted.1.map (·.1) ↔ (persisted.get scope).isSome := by
    rw [Receipts.get, ← not_iff_not, Option.not_isSome_iff_eq_none, List.lookup_eq_none_iff]
    simp only [List.mem_map, not_exists, not_and, bne_iff_ne, ne_eq]
    exact forall₂_congr fun c _ => not_congr eq_comm
  rw [Write.removed, List.mem_filter, hkeys, Option.isNone_iff_eq_none]

section Rows

variable [DecidableEq τ]

theorem find_newCommands (w : Write ι τ φ) (persisted : Receipts τ) (scope : Scope) :
    (w.newCommands persisted).reverse.find? (·.scope = scope) =
      ((w.commands.get scope).filter fun r => persisted.get scope ≠ some r).map fun r => ⟨scope, r⟩ :=
  find_filter w.commands.2 (fun c => persisted.get c.1 ≠ some c.2) scope

variable [DecidableEq φ]

/-- A write that succeeds makes the rows the receipts of its snapshot, if they were the persisted ones
as far as these say. -/
theorem stored_of_put {k : Codec (Value ι) τ φ} {fault : Statement → Option String} {now : String} {db db' : Db}
    {w : Write ι τ φ} {persisted : Receipts τ} {focus : Option φ} {old : Earlier}
    (hput : putCaptureState fault k db (w.put persisted focus now) = (.ok (), db')) (hw : w.Quarantines old.quarantined)
    (hfree : ∀ scope ∈ old.quarantined, persisted.get scope = none)
    (hrows : ∀ scope, scope ∉ old.quarantined → ¬old.left scope → (persisted.get scope).isSome ∨ w.commands.get scope = none →
      db.rows.lookup scope = (persisted.get scope).map (receiptBody k scope)) :
    Stored k old w db' := by
  obtain ⟨p, body, hp, hnew, hbody, hdb, ⟨row, hrow, heq⟩, -⟩ := put_ok hput
  have hscopes : p.quarantined = old.quarantined := hw.prepared hp
  refine ⟨⟨p, row, hp, (prepare_ok hp).2.1, heq ▸ hbody, hrow⟩, fun scope hscope hleft => ?_, fun scope hscope => ?_⟩
  · have hevidence : p.evidence.lookup scope = none := by
      rw [List.lookup_eq_none_iff]
      intro e he
      obtain ⟨e', hmem, hsome⟩ := List.mem_filterMap.1 he
      obtain ⟨r, -, rfl⟩ := Option.map_eq_some_iff.1 hsome
      simp only [bne_iff_ne, ne_eq]
      exact fun heq => hscope (hscopes ▸ heq ▸ List.mem_map_of_mem hmem)
    have hfind := find_newCommands w persisted scope
    have hmem : scope ∈ w.removed persisted ↔ _ := mem_removed
    have hold := hrows scope hscope hleft
    rw [hdb, lookup_nextRows, hevidence, hscopes]
    simp only [Write.put, hfind, hmem, Option.map_none, Option.or_none]
    cases hc : w.commands.get scope with
    | none =>
      cases hpers : persisted.get scope with
      | none => simpa [hpers] using hold (.inr hc)
      | some r => simp [hscope]
    | some r =>
      by_cases hsame : persisted.get scope = some r
      · have hold := hold (.inl (by rw [hsame]; rfl))
        rw [hsame] at hold
        simpa [hsame] using hold
      · simp [Option.filter_some, hsame, receiptBody]
  · cases hc : w.commands.get scope with
    | none => rfl
    | some r =>
      have hmem : ⟨scope, r⟩ ∈ w.newCommands persisted := by
        refine List.mem_map.2 ⟨(scope, r), List.mem_filter.2 ⟨?_, ?_⟩, rfl⟩
        · exact w.commands.2.lookup_iff.1 hc
        · simp [hfree scope hscope]
      exact absurd (hscopes ▸ hscope) (hnew _ hmem)

end Rows

/-! ### The invariant -/

def Phase.pending : Phase ι τ φ → Option Scope
  | .committing pending | .writing pending _ | .written pending => pending
  | .finalizing | .replaying | .done => none

def Phase.write : Phase ι τ φ → Option (Write ι τ φ)
  | .writing _ w => some w
  | _ => none

/-- A stop that may clear the marker: no take is active, and its snapshot is of after the mark. -/
structure Stop.Sound (s : State ι τ φ) (stop : Stop ι τ φ) : Prop where
  rest : stop.phase.pending.isSome → s.fields.activePlan = none ∧ s.starting = none
  write : ∀ w, stop.phase.write = some w → w ∈ s.snapshots ∧
    (stop.phase.pending.isSome → s.pendingStopStateCommit.isSome → s.markedAt < w.sequence)
  written : ∀ scope, stop.phase = .written (some scope) → s.pendingStopStateCommit.isSome →
    s.markedAt < s.statePersistedSequence

/-- While the marker is set no take is active, nor was one at a snapshot since, and a snapshot that saw
a marker and may still be written is of after the mark. -/
structure Marked (s : State ι τ φ) : Prop where
  rest : s.fields.activePlan = none
  still : s.starting = none
  before : s.markedAt ≤ s.snapshots.length
  free : ∀ w ∈ s.snapshots, s.markedAt < w.sequence → w.activePlan = none
  fresh : ∀ w ∈ s.snapshots, w.pendingStop.isSome → s.statePersistedSequence < w.sequence → s.markedAt < w.sequence

/-- While a take is active a snapshot that saw a marker is older than its start, and from the end of
the start on a newer one is stored. -/
structure Sound (k : Codec (Value ι) τ φ) (old : Earlier) (s : State ι τ φ) : Prop where
  quarantine : s.invalidCommands.map (·.1) = old.quarantined
  recovery : s.fields.recoverySession = none ∨ s.fields.recoverySession = old.session
  resting : ∀ w ∈ s.snapshots, w.activePlan = none → w.value.rest.activeSession = none ∨
    w.value.rest.activeSession = old.session
  count : s.snapshots.length = s.stateWriteSequence
  numbered : ∀ i w, s.snapshots[i]? = some w → w.sequence = i + 1 ∧ w.Quarantines old.quarantined
  stored : ∃ w, s.stored = some w ∧ w ∈ s.snapshots ∧ w.sequence = s.statePersistedSequence ∧
    s.persistedCommands = w.commands ∧ Stored k old w s.db
  calls : ∀ w ∈ s.calls, w ∈ s.snapshots
  since : s.startedAt ≤ s.snapshots.length
  starting : ∀ st, s.starting = some st → (st.checkpointed → s.startedAt < s.statePersistedSequence) ∧
    ∀ w, st.write = some w → w ∈ s.snapshots ∧ s.startedAt < w.sequence
  began : s.fields.activePlan.isSome → ∀ w ∈ s.snapshots, w.pendingStop.isSome → w.sequence ≤ s.startedAt
  checkpointed : s.fields.activePlan.isSome → s.starting = none → s.startedAt < s.statePersistedSequence
  fenced : s.closing ∨ s.stops.map (·.scope) = s.stopInflight.toList
  stops : ∀ stop ∈ s.stops, stop.Sound s
  marked : s.pendingStopStateCommit.isSome → Marked s

theorem Stop.Sound.mono {s t : State ι τ φ} {stop : Stop ι τ φ} (h : stop.Sound s)
    (hrest : s.fields.activePlan = none → s.starting = none → t.fields.activePlan = none ∧ t.starting = none)
    (hsnapshots : ∀ w ∈ s.snapshots, w ∈ t.snapshots)
    (hmarked : t.pendingStopStateCommit.isSome → s.pendingStopStateCommit.isSome ∧ t.markedAt = s.markedAt)
    (hsequence : s.statePersistedSequence ≤ t.statePersistedSequence) : stop.Sound t where
  rest hp := hrest (h.rest hp).1 (h.rest hp).2
  write w hw := by
    refine ⟨hsnapshots w (h.write w hw).1, fun hp hm => ?_⟩
    rw [(hmarked hm).2]
    exact (h.write w hw).2 hp (hmarked hm).1
  written scope hphase hm := by
    rw [(hmarked hm).2]
    exact (h.written scope hphase (hmarked hm).1).trans_le hsequence

/-- What the marker and the stops rest on is as it was. -/
def State.SameMarks (s t : State ι τ φ) : Prop :=
  t.fields.activePlan = s.fields.activePlan ∧ t.starting = s.starting ∧ t.snapshots = s.snapshots ∧
    t.pendingStopStateCommit = s.pendingStopStateCommit ∧ t.markedAt = s.markedAt ∧
    t.statePersistedSequence = s.statePersistedSequence

theorem Stop.Sound.same {s t : State ι τ φ} {stop : Stop ι τ φ} (h : stop.Sound s) (hst : s.SameMarks t) :
    stop.Sound t := by
  obtain ⟨hplan, hstarting, hsnapshots, hpending, hmarked, hsequence⟩ := hst
  refine h.mono (fun ha hs => ⟨hplan.trans ha, hstarting.trans hs⟩) (fun w hw => ?_) (fun hm => ⟨?_, hmarked⟩)
    hsequence.ge
  · rw [hsnapshots]
    exact hw
  · rw [← hpending]
    exact hm

theorem Marked.same {s t : State ι τ φ} (h : Marked s) (hst : s.SameMarks t) : Marked t := by
  obtain ⟨hplan, hstarting, hsnapshots, -, hmarked, hsequence⟩ := hst
  refine ⟨hplan.trans h.rest, hstarting.trans h.still, ?_, ?_, ?_⟩
  · rw [hmarked, hsnapshots]
    exact h.before
  · rw [hmarked, hsnapshots]
    exact h.free
  · rw [hmarked, hsnapshots, hsequence]
    exact h.fresh

section Steps

variable [DecidableEq τ] [DecidableEq φ]

variable {k : Codec (Value ι) τ φ} {old : Earlier}

variable {s : State ι τ φ} {w : Write ι τ φ} {a : Act ι τ φ} {i : ℕ} {stop : Stop ι τ φ}
  {fault : Statement → Option String} {now : String}

section Takes

omit [DecidableEq τ] [DecidableEq φ]

theorem Sound.index (h : Sound k old s) (hw : w ∈ s.snapshots) :
    s.snapshots[w.sequence - 1]? = some w ∧ 0 < w.sequence ∧ w.sequence ≤ s.snapshots.length ∧
      w.Quarantines old.quarantined := by
  obtain ⟨i, hi⟩ := List.mem_iff_getElem?.1 hw
  obtain ⟨hsequence, hq⟩ := h.numbered i w hi
  have hlt := (List.getElem?_eq_some_iff.1 hi).1
  refine ⟨?_, by omega, by omega, hq⟩
  rw [hsequence]
  exact hi

/-- While a take is active no stop is marked. -/
theorem Sound.unmarked (h : Sound k old s) (ha : s.fields.activePlan.isSome) : s.pendingStopStateCommit = none := by
  by_contra hm
  have hrest := (h.marked (Option.isSome_iff_ne_none.2 hm)).rest
  rw [hrest] at ha
  cases ha

theorem Sound.take (h : Sound k old s) : Sound k old s.localStateWrite.2 where
  quarantine := h.quarantine
  recovery := h.recovery
  resting w hw hplan := by
    rcases mem_concat.1 hw with hw | rfl
    · exact h.resting w hw hplan
    · have hnone : s.fields.activePlan = none := hplan
      show s.fields.activePlan.or s.fields.recoverySession = none ∨ s.fields.activePlan.or s.fields.recoverySession = _
      rw [hnone, Option.none_or]
      exact h.recovery
  count := by
    simp only [State.localStateWrite, List.length_append, List.length_singleton, h.count]
  numbered i w hw := by
    simp only [State.localStateWrite] at hw
    rw [List.getElem?_append] at hw
    split at hw
    · exact h.numbered i w hw
    · rw [List.getElem?_singleton] at hw
      split at hw
      · cases hw
        have := h.count
        refine ⟨?_, s.invalidCommands, rfl, h.quarantine⟩
        show s.stateWriteSequence + 1 = i + 1
        omega
      · cases hw
  stored := by
    obtain ⟨w, hw, hmem, hsequence, hcommands, hstored⟩ := h.stored
    exact ⟨w, hw, List.mem_append_left _ hmem, hsequence, hcommands, hstored⟩
  calls w hw := List.mem_append_left _ (h.calls w hw)
  since := by
    have := h.since
    simp only [State.localStateWrite, List.length_append, List.length_singleton]
    omega
  starting st hst := by
    obtain ⟨hcheck, hwrite⟩ := h.starting st hst
    exact ⟨hcheck, fun w hw => ⟨List.mem_append_left _ (hwrite w hw).1, (hwrite w hw).2⟩⟩
  began ha w hw hp := by
    rcases mem_concat.1 hw with hw | rfl
    · exact h.began ha w hw hp
    · simp only [h.unmarked ha] at hp
      cases hp
  checkpointed := h.checkpointed
  fenced := h.fenced
  stops stop hstop := (h.stops stop hstop).mono (fun ha hs => ⟨ha, hs⟩) (fun w hw => List.mem_append_left _ hw)
    (fun hm => ⟨hm, rfl⟩) le_rfl
  marked hm := by
    obtain ⟨hrest, hstill, hbefore, hfree, hfresh⟩ := h.marked hm
    refine ⟨hrest, hstill, ?_, fun w hw hlt => ?_, fun w hw hp hlt => ?_⟩
    · simp only [State.localStateWrite, List.length_append, List.length_singleton]
      show s.markedAt ≤ _
      omega
    · rcases mem_concat.1 hw with hw | rfl
      · exact hfree w hw hlt
      · exact hrest
    · rcases mem_concat.1 hw with hw | rfl
      · exact hfresh w hw hp hlt
      · show s.markedAt < s.stateWriteSequence + 1
        have := h.count
        omega

end Takes

/-- What the section under the persistence lock does: nothing, or it stores the snapshot. -/
theorem persist_cases (fault : Statement → Option String) (now : String) (w : Write ι τ φ) (s : State ι τ φ) :
    ((s.persist k fault now w).2 = s ∧ ((s.persist k fault now w).1 = .ok () → w.sequence ≤ s.statePersistedSequence)) ∨
    (s.statePersistedSequence < w.sequence ∧ (s.persist k fault now w).1 = .ok () ∧ ∃ db,
      putCaptureState fault k s.db (w.put s.persistedCommands s.persistedFocus now) = (.ok (), db) ∧
      (s.persist k fault now w).2 = { s with
        db
        persistedFocus := w.focus
        persistedCommands := w.commands
        statePersistedSequence := w.sequence
        pendingStopStateCommit :=
          if w.pendingStop.isSome && s.pendingStopStateCommit = w.pendingStop && w.value.rest.activeSession.isNone then none
          else s.pendingStopStateCommit
        invalidCommands := s.invalidCommands.map fun e => (e.1, none)
        stored := some w }) := by
  rw [State.persist]
  by_cases hstale : w.sequence ≤ s.statePersistedSequence
  · rw [if_pos hstale]
    exact .inl ⟨rfl, fun _ => hstale⟩
  · rw [if_neg hstale]
    rcases hput : putCaptureState fault k s.db (w.put s.persistedCommands s.persistedFocus now) with ⟨r, db⟩
    cases r with
    | error e =>
      obtain rfl := put_error hput
      exact .inl ⟨rfl, by rintro ⟨⟩⟩
    | ok u => exact .inr ⟨by omega, rfl, db, rfl, rfl⟩

/-- What the steps that write rely on: the section keeps the invariant, it changes neither the fields
nor the snapshots, and what it stores is the snapshot. -/
structure Persisted (k : Codec (Value ι) τ φ) (old : Earlier) (s : State ι τ φ) (w : Write ι τ φ) (r : Except Persistence.Error Unit) (t : State ι τ φ) : Prop where
  sound : Sound k old t
  same : t.fields = s.fields ∧ t.starting = s.starting ∧ t.stops = s.stops ∧ t.calls = s.calls ∧
    t.snapshots = s.snapshots ∧ t.markedAt = s.markedAt ∧ t.startedAt = s.startedAt
  forward : (t.stored = s.stored ∧ t.db = s.db) ∨
    ∃ v, s.stored = some v ∧ v.sequence < w.sequence ∧ t.stored = some w ∧ r = .ok ()
  returned : r = .ok () → w.sequence ≤ t.statePersistedSequence
  marker : t.pendingStopStateCommit = s.pendingStopStateCommit ∨
    (t.pendingStopStateCommit = none ∧ t.stored = some w ∧ w.activePlan = none ∧ s.markedAt < w.sequence)

theorem Sound.persist (h : Sound k old s) (fault : Statement → Option String)
    (now : String) (hw : w ∈ s.snapshots) :
    Persisted k old s w (s.persist k fault now w).1 (s.persist k fault now w).2 := by
  rcases persist_cases (k := k) fault now w s with ⟨hsame, hok⟩ | ⟨hlt, hok, db, hput, hstate⟩
  · rw [hsame]
    exact ⟨h, ⟨rfl, rfl, rfl, rfl, rfl, rfl, rfl⟩, .inl ⟨rfl, rfl⟩, hok, .inl rfl⟩
  obtain ⟨v, hv, hvmem, hsequence, hcommands, hstored⟩ := h.stored
  obtain ⟨hindex, hpos, hle, hquarantines⟩ := h.index hw
  have hnew : Stored k old w db := by
    refine stored_of_put hput hquarantines (fun scope hscope => ?_) fun scope hscope hleft _ => ?_
    · rw [hcommands]
      exact hstored.free scope hscope
    · rw [hcommands]
      exact hstored.rows scope hscope hleft
  rw [hok, hstate]
  have hmarker : ∀ m : Option Scope, (if w.pendingStop.isSome && s.pendingStopStateCommit = w.pendingStop &&
      w.value.rest.activeSession.isNone then none else s.pendingStopStateCommit) = m → m.isSome →
      s.pendingStopStateCommit.isSome := by
    rintro m hm hsome
    split_ifs at hm with hc
    · rw [← hm] at hsome
      cases hsome
    · rwa [hm]
  refine ⟨?_, ⟨rfl, rfl, rfl, rfl, rfl, rfl, rfl⟩, .inr ⟨v, hv, hsequence ▸ hlt, rfl, rfl⟩, fun _ => le_rfl, ?_⟩
  · exact {
      quarantine := by
        rw [← h.quarantine, List.map_map]
        rfl
      recovery := h.recovery
      resting := h.resting
      count := h.count
      numbered := h.numbered
      stored := ⟨w, rfl, hw, rfl, rfl, hnew⟩
      calls := h.calls
      since := h.since
      starting := fun st hst => ⟨fun hc => ((h.starting st hst).1 hc).trans hlt, (h.starting st hst).2⟩
      began := h.began
      checkpointed := fun ha hs => (h.checkpointed ha hs).trans hlt
      fenced := h.fenced
      stops := fun stop hstop => (h.stops stop hstop).mono (fun ha hs => ⟨ha, hs⟩) (fun _ hw => hw)
        (fun hm => ⟨hmarker _ rfl hm, rfl⟩) hlt.le
      marked := fun hm => by
        obtain ⟨hrest, hstill, hbefore, hfree, hfresh⟩ := h.marked (hmarker _ rfl hm)
        exact ⟨hrest, hstill, hbefore, hfree, fun w' hw' hp hlt' => hfresh w' hw' hp (hlt.trans hlt')⟩ }
  · by_cases hc : (w.pendingStop.isSome && s.pendingStopStateCommit = w.pendingStop &&
        w.value.rest.activeSession.isNone) = true
    · have hpending := hc
      simp only [Bool.and_eq_true, decide_eq_true_eq] at hpending
      obtain ⟨⟨hp, hm⟩, -⟩ := hpending
      have hmarked := h.marked (by rw [hm]; exact hp)
      have hfresh := hmarked.fresh w hw hp hlt
      exact .inr ⟨if_pos hc, rfl, hmarked.free w hw hfresh, hfresh⟩
    · exact .inl (if_neg hc)

/-! ### Runs -/

/-- The snapshot whose write the step performs, with the outcome. -/
def returns (k : Codec (Value ι) τ φ) (s : State ι τ φ) : Act ι τ φ → Option (Write ι τ φ × Except Persistence.Error Unit)
  | .write i fault now => s.calls[i]?.map fun w => (w, (s.persist k fault now w).1)
  | .startWrite fault now => (s.starting.bind (·.write)).map fun w => (w, (s.persist k fault now w).1)
  | .stopWrite i fault now => (s.stops[i]?.bind (·.phase.write)).map fun w => (w, (s.persist k fault now w).1)
  | _ => none

/-- The durable state moves forward. -/
structure StepLawful (k : Codec (Value ι) τ φ) (old : Earlier) (s : State ι τ φ) (a : Act ι τ φ) (t : State ι τ φ) :
    Prop where
  /-- Only a write that succeeds stores, and its number is greater than that of what was stored. -/
  forward : (t.stored = s.stored ∧ t.db = s.db) ∨
    ∃ v w, s.stored = some v ∧ t.stored = some w ∧ v.sequence < w.sequence ∧ returns k s a = some (w, .ok ())
  /-- A call that returns finds its snapshot or a later one. -/
  returned : ∀ w, returns k s a = some (w, .ok ()) →
    ∃ (i j : ℕ) (v : Write ι τ φ), i ≤ j ∧ t.snapshots[i]? = some w ∧ t.snapshots[j]? = some v ∧ t.stored = some v
  exact : ∃ w, t.stored = some w ∧ Stored k old w t.db
  /-- The marker goes when a snapshot is stored that is of after the mark and shows no take; its
  `active_session` is null or the recording of an earlier process whose recovery is open. -/
  committed : ∀ scope, s.pendingStopStateCommit = some scope → t.pendingStopStateCommit ≠ some scope →
    ∃ (j : ℕ) (w : Write ι τ φ), s.markedAt ≤ j ∧ t.snapshots[j]? = some w ∧ t.stored = some w ∧ w.activePlan = none ∧
      (w.value.rest.activeSession = none ∨ w.value.rest.activeSession = old.session)

omit [DecidableEq τ] [DecidableEq φ] in
theorem Sound.exact (h : Sound k old s) : ∃ w, s.stored = some w ∧ Stored k old w s.db := by
  obtain ⟨w, hw, -, -, -, hstored⟩ := h.stored
  exact ⟨w, hw, hstored⟩

variable {t : State ι τ φ}

/-- A step that keeps the invariant, writes nothing and leaves the marker. -/
theorem Sound.quiet (h : Sound k old t)
    (hstored : t.stored = s.stored) (hdb : t.db = s.db) (hreturns : returns k s a = none)
    (hmarker : ∀ scope, s.pendingStopStateCommit = some scope → t.pendingStopStateCommit = some scope) :
    Sound k old t ∧ StepLawful k old s a t := by
  refine ⟨h, .inl ⟨hstored, hdb⟩, fun w hw => ?_, h.exact, fun scope hs ht => absurd (hmarker scope hs) ht⟩
  rw [hreturns] at hw
  cases hw

/-- A step that writes a snapshot. -/
theorem Persisted.lawful {u : State ι τ φ} {r : Except Persistence.Error Unit}
    (h : Persisted k old s w r u) (hw : w ∈ s.snapshots) (ht : Sound k old t)
    (hreturns : returns k s a = some (w, r)) (hstored : t.stored = u.stored) (hdb : t.db = u.db)
    (hsnapshots : t.snapshots = u.snapshots) (hmarker : t.pendingStopStateCommit = u.pendingStopStateCommit) :
    StepLawful k old s a t where
  forward := by
    rw [hstored, hdb]
    rcases h.forward with hsame | ⟨v, hv, hlt, hu, rfl⟩
    · exact .inl hsame
    · exact .inr ⟨v, w, hv, hu, hlt, hreturns⟩
  returned w' hw' := by
    obtain ⟨rfl, rfl⟩ := Prod.mk.inj (Option.some.inj (hreturns.symm.trans hw'))
    obtain ⟨v, hv, hmem, hsequence, -⟩ := h.sound.stored
    have hle := h.returned rfl
    have hwu : w ∈ u.snapshots := by
      rw [h.same.2.2.2.2.1]
      exact hw
    rw [hstored, hsnapshots]
    exact ⟨w.sequence - 1, v.sequence - 1, v, by omega, (h.sound.index hwu).1, (h.sound.index hmem).1, hv⟩
  exact := ht.exact
  committed scope hs hne := by
    rw [hmarker] at hne
    rcases h.marker with hsame | ⟨-, hu, hplan, hlt⟩
    · exact absurd (hsame.trans hs) hne
    · have hwu : w ∈ u.snapshots := by
        rw [h.same.2.2.2.2.1]
        exact hw
      rw [hstored, hsnapshots]
      exact ⟨w.sequence - 1, w, by omega, (h.sound.index hwu).1, hu, hplan, h.sound.resting w hwu hplan⟩

section Updates

omit [DecidableEq τ] [DecidableEq φ]

theorem Sound.setPhase (h : Sound k old s)
    (phase : Phase ι τ φ) (hstop : s.stops[i]? = some stop) (hphase : Stop.Sound s { stop with phase }) :
    Sound k old (s.setPhase i stop phase) :=
  { h with
    fenced := by
      rcases h.fenced with hc | hf
      · exact .inl hc
      · refine .inr ?_
        obtain ⟨hi, hget⟩ := List.getElem?_eq_some_iff.1 hstop
        have hset : (s.stops.map (·.scope)).set i stop.scope = s.stops.map (·.scope) := by
          apply List.ext_getElem?
          intro j
          rw [List.getElem?_set]
          split
          · next hij =>
            subst hij
            simp [hi, hget]
          · rfl
        show (s.stops.set i { stop with phase }).map (·.scope) = _
        rw [List.map_set, hset]
        exact hf
    stops := fun stop' hmem => by
      rcases List.mem_or_eq_of_mem_set hmem with hmem | rfl
      · exact (h.stops stop' hmem).same ⟨rfl, rfl, rfl, rfl, rfl, rfl⟩
      · exact hphase.same ⟨rfl, rfl, rfl, rfl, rfl, rfl⟩
    marked := fun hm => (h.marked hm).same ⟨rfl, rfl, rfl, rfl, rfl, rfl⟩ }

/-- A stop that holds no marker needs nothing. -/
theorem Stop.Sound.of_idle (s : State ι τ φ) (hp : stop.phase.pending = none)
    (hw : stop.phase.write = none) : stop.Sound s where
  rest hsome := by
    rw [hp] at hsome
    cases hsome
  write w hsome := by
    rw [hw] at hsome
    cases hsome
  written scope hphase := by
    rw [hphase] at hp
    cases hp

variable {t : State ι τ φ} {u : Update ι τ φ}

theorem apply_cases (h : s.apply u = some t) : (u.invalidCommands.map (·.1) = s.invalidCommands.map (·.1) ∧
      (u.fields.recoverySession = none ∨ u.fields.recoverySession = s.fields.recoverySession)) ∧ t = { s with
      fields := { u.fields with activePlan := if u.endTake then none else s.fields.activePlan }
      commands := u.commands
      invalidCommands := u.invalidCommands
      focusToPersist := u.focusToPersist } := by
  rw [State.apply] at h
  split at h
  · next hq =>
    cases h
    exact ⟨hq, rfl⟩
  · cases h

/-- The other sections end a take at most. -/
theorem Sound.apply (h : Sound k old s) (ht : s.apply u = some t) : Sound k old t := by
  obtain ⟨⟨hq, hrecovery⟩, rfl⟩ := apply_cases ht
  have hactive : (if u.endTake then none else s.fields.activePlan).isSome → s.fields.activePlan.isSome := by
    intro hsome
    split at hsome
    · cases hsome
    · exact hsome
  have hrest : s.fields.activePlan = none → (if u.endTake then none else s.fields.activePlan) = none := by
    intro hnone
    rw [hnone, ite_self]
  exact { h with
    quarantine := hq.trans h.quarantine
    recovery := hrecovery.elim .inl fun hsame => h.recovery.imp hsame.trans hsame.trans
    began := fun ha => h.began (hactive ha)
    checkpointed := fun ha => h.checkpointed (hactive ha)
    stops := fun stop hmem => (h.stops stop hmem).mono (fun ha hs => ⟨hrest ha, hs⟩) (fun _ hw => hw)
      (fun hm => ⟨hm, rfl⟩) le_rfl
    marked := fun hm => by
      obtain ⟨hnone, hstill, hbefore, hfree, hfresh⟩ := h.marked hm
      exact ⟨hrest hnone, hstill, hbefore, hfree, hfresh⟩ }

/-- No stop is in flight when a start is let through. -/
theorem Sound.idle (h : Sound k old s) (hclosing : s.closing = false)
    (hinflight : s.stopInflight = none) : s.stops = [] := by
  rcases h.fenced with hc | hf
  · rw [hclosing] at hc
    cases hc
  · rw [hinflight] at hf
    exact List.map_eq_nil_iff.1 hf

theorem Sound.start (h : Sound k old s) (fields : Fields ι)
    (hrecovery : fields.recoverySession = s.fields.recoverySession) (hstops : s.stops = [])
    (hmarker : s.pendingStopStateCommit = none) :
    Sound k old { s with fields, starting := some {}, startedAt := s.snapshots.length } :=
  { h with
    recovery := h.recovery.imp hrecovery.trans hrecovery.trans
    since := le_rfl
    starting := fun st hst => by
      cases hst
      exact ⟨by rintro ⟨⟩, by rintro w ⟨⟩⟩
    began := fun _ w hw _ => (h.index hw).2.2.1
    checkpointed := fun _ hs => by cases hs
    stops := fun stop hmem => by
      rw [hstops] at hmem
      cases hmem
    marked := fun hm => by
      rw [hmarker] at hm
      cases hm }

/-- The end of a take, which marks the stop. -/
theorem Sound.finish (h : Sound k old s) (hstop : s.stops[i]? = some stop) (hstill : s.starting = none)
    (hactive : s.fields.activePlan.isSome) (ht : s.apply { u with endTake := true } = some t) :
    Sound k old { t.setPhase i stop (.committing (some stop.scope)) with
      pendingStopStateCommit := some stop.scope
      markedAt := t.snapshots.length } := by
  have hsound := h.apply ht
  obtain ⟨-, rfl⟩ := apply_cases ht
  have hphase := hsound.setPhase (.committing (some stop.scope)) hstop
    ⟨fun _ => ⟨rfl, hstill⟩, by rintro w ⟨⟩, by rintro scope ⟨⟩⟩
  -- the other stops hold no marker, since the take was active
  have hothers : ∀ other ∈ s.stops, other.phase.pending = none := by
    intro other hmem
    by_contra hp
    have hnone := ((h.stops other hmem).rest (Option.isSome_iff_ne_none.2 hp)).1
    rw [hnone] at hactive
    cases hactive
  exact { hphase with
    stops := fun other hmem => by
      rcases List.mem_or_eq_of_mem_set hmem with hmem | rfl
      · have hp := hothers other hmem
        have hold := h.stops other hmem
        refine ⟨fun hsome => ?_, fun w hw => ⟨(hold.write w hw).1, fun hsome => ?_⟩, fun scope hwritten => ?_⟩
        · rw [hp] at hsome
          cases hsome
        · rw [hp] at hsome
          cases hsome
        · rw [hwritten] at hp
          cases hp
      · exact ⟨fun _ => ⟨rfl, hstill⟩, by rintro w ⟨⟩, by rintro scope ⟨⟩⟩
    marked := fun _ => by
      refine ⟨rfl, hstill, le_rfl, fun w hw hlt => ?_, fun w hw hp hlt => ?_⟩
      · exact absurd hlt (h.index hw).2.2.1.not_gt
      · have hbegan := h.began hactive w hw hp
        have hchecked := h.checkpointed hactive hstill
        exact absurd (hlt.trans_le hbegan) hchecked.not_gt }

theorem Sound.release (h : Sound k old s) (hstop : s.stops[i]? = some stop) : Sound k old { s with
      stopInflight := if s.stopInflight = some stop.scope then none else s.stopInflight
      stops := s.stops.eraseIdx i } :=
  { h with
    fenced := by
      rcases h.fenced with hc | hf
      · exact .inl hc
      · refine .inr ?_
        cases hstops : s.stops with
        | nil =>
          rw [hstops] at hstop
          cases hstop
        | cons first rest =>
          rw [hstops] at hf hstop
          cases hinflight : s.stopInflight with
          | none =>
            rw [hinflight] at hf
            cases hf
          | some scope =>
            rw [hinflight] at hf
            obtain ⟨rfl, hrest⟩ := List.cons.inj hf
            obtain rfl := List.map_eq_nil_iff.1 hrest
            cases i with
            | zero =>
              cases hstop
              show ([] : List (Stop ι τ φ)).map (·.scope) = _
              simp
            | succ i => cases hstop
    stops := fun other hmem =>
      (h.stops other (List.mem_of_mem_eraseIdx hmem)).same ⟨rfl, rfl, rfl, rfl, rfl, rfl⟩
    marked := fun hm => (h.marked hm).same ⟨rfl, rfl, rfl, rfl, rfl, rfl⟩ }

theorem Sound.claim (h : Sound k old s) (hinflight : s.stopInflight = none) (scope : Scope) (ofTake : Bool) :
    Sound k old { s with
      stopInflight := some scope
      stops := s.stops ++ [⟨scope, if ofTake then .finalizing else .replaying⟩] } :=
  { h with
    fenced := by
      rcases h.fenced with hc | hf
      · exact .inl hc
      · rw [hinflight] at hf
        refine .inr ?_
        rw [List.map_append, hf]
        rfl
    stops := fun stop hmem => by
      rcases mem_concat.1 hmem with hmem | rfl
      · exact (h.stops stop hmem).same ⟨rfl, rfl, rfl, rfl, rfl, rfl⟩
      · cases ofTake <;> exact .of_idle _ rfl rfl
    marked := fun hm => (h.marked hm).same ⟨rfl, rfl, rfl, rfl, rfl, rfl⟩ }

/-- The clear by the owner of the stop: a snapshot of after the mark is stored. -/
theorem Sound.clear {pending : Option Scope}
    [DecidableEq τ] [DecidableEq φ] (h : Sound k old s) (hstop : s.stops[i]? = some stop)
    (hphase : stop.phase = .written pending) (hreturns : returns k s a = none) :
    let t := { s.setPhase i stop .done with
      pendingStopStateCommit := if s.pendingStopStateCommit = pending then none else s.pendingStopStateCommit }
    Sound k old t ∧ StepLawful k old s a t := by
  intro t
  have hkept : t.pendingStopStateCommit.isSome → s.pendingStopStateCommit.isSome := by
    intro hsome
    simp only [t] at hsome
    split at hsome
    · cases hsome
    · exact hsome
  have hdone := h.setPhase .done hstop (.of_idle s rfl rfl)
  have hsound : Sound k old t :=
    { hdone with
      stops := fun other hmem => (hdone.stops other hmem).mono (fun ha hs => ⟨ha, hs⟩) (fun _ hw => hw)
        (fun hm => ⟨hkept hm, rfl⟩) le_rfl
      marked := fun hm => by
        obtain ⟨hrest, hstill, hbefore, hfree, hfresh⟩ := h.marked (hkept hm)
        exact ⟨hrest, hstill, hbefore, hfree, hfresh⟩ }
  refine ⟨hsound, .inl ⟨rfl, rfl⟩, fun w hw => ?_, hsound.exact, fun scope hs hne => ?_⟩
  · rw [hreturns] at hw
    cases hw
  · have hpending : s.pendingStopStateCommit = pending := by
      by_contra hother
      exact hne ((if_neg hother).trans hs)
    have hwritten := (h.stops stop (List.mem_of_getElem? hstop)).written scope
      (hphase.trans (by rw [← hpending, hs])) (by rw [hs]; rfl)
    obtain ⟨w, hw, hmem, hsequence, -⟩ := h.stored
    have hmarked := h.marked (by rw [hs]; rfl)
    have hplan := hmarked.free w hmem (by omega)
    exact ⟨w.sequence - 1, w, by omega, (h.index hmem).1, hw, hplan, h.resting w hmem hplan⟩

theorem Sound.setCalls (h : Sound k old s) {calls : List (Write ι τ φ)}
    (hcalls : ∀ w ∈ calls, w ∈ s.snapshots) : Sound k old { s with calls } :=
  { h with
    calls := hcalls
    stops := fun stop hmem => (h.stops stop hmem).same ⟨rfl, rfl, rfl, rfl, rfl, rfl⟩
    marked := fun hm => (h.marked hm).same ⟨rfl, rfl, rfl, rfl, rfl, rfl⟩ }

/-- The start goes on. -/
theorem Sound.setStart (h : Sound k old s) {st : Start ι τ φ} (st' : Start ι τ φ)
    (hst : s.starting = some st) (hcheck : st'.checkpointed → s.startedAt < s.statePersistedSequence)
    (hwrite : ∀ w, st'.write = some w → w ∈ s.snapshots ∧ s.startedAt < w.sequence) :
    Sound k old { s with starting := some st' } :=
  { h with
    starting := fun st'' hst'' => by
      cases hst''
      exact ⟨hcheck, hwrite⟩
    checkpointed := fun _ hs => by cases hs
    stops := fun stop hmem => (h.stops stop hmem).mono
      (fun _ hs => by
        rw [hst] at hs
        cases hs)
      (fun _ hw => hw) (fun hm => ⟨hm, rfl⟩) le_rfl
    marked := fun hm => by
      have hstill := (h.marked hm).still
      rw [hst] at hstill
      cases hstill }

/-- A snapshot is among the snapshots, and it is newer than the start and the mark. -/
theorem Sound.taken (h : Sound k old s) :
    s.localStateWrite.1 ∈ s.localStateWrite.2.snapshots ∧ s.startedAt < s.localStateWrite.1.sequence ∧
      s.snapshots.length < s.localStateWrite.1.sequence := by
  have hcount := h.count
  have hsince := h.since
  refine ⟨List.mem_append_right _ (List.mem_singleton_self _), ?_, ?_⟩
  · show s.startedAt < s.stateWriteSequence + 1
    omega
  · show s.snapshots.length < s.stateWriteSequence + 1
    omega

end Updates

/-! ### The steps -/

theorem Sound.write (h : Sound k old s) (ht : step k s (.write i fault now) = some t) :
    Sound k old t ∧ StepLawful k old s (.write i fault now) t := by
  obtain ⟨w, hw, ht⟩ := Option.bind_eq_some_iff.1 ht
  cases ht
  have hmem := h.calls w (List.mem_of_getElem? hw)
  have hpersisted := h.persist fault now hmem
  have hcalls : ∀ w' ∈ (s.persist k fault now w).2.calls.eraseIdx i, w' ∈ (s.persist k fault now w).2.snapshots :=
    fun w' hw' => hpersisted.sound.calls w' (List.mem_of_mem_eraseIdx hw')
  have hsound := hpersisted.sound.setCalls hcalls
  exact ⟨hsound, hpersisted.lawful hmem hsound (by simp only [returns, hw, Option.map_some]) rfl rfl rfl rfl⟩

theorem Sound.startWrite (h : Sound k old s) (ht : step k s (.startWrite fault now) = some t) :
    Sound k old t ∧ StepLawful k old s (.startWrite fault now) t := by
  simp only [step] at ht
  split at ht
  · next checkpointed w hst =>
    cases ht
    obtain ⟨hcheck, hwrite⟩ := h.starting _ hst
    obtain ⟨hmem, hlt⟩ := hwrite w rfl
    have hpersisted := h.persist fault now hmem
    obtain ⟨-, hstarting, -, -, -, -, hstartedAt⟩ := hpersisted.same
    have hsound := hpersisted.sound.setStart
      ⟨checkpointed || (s.persist k fault now w).1.isOk, none⟩ (hstarting.trans hst)
      (fun hc => by
        rcases Bool.or_eq_true_iff.1 hc with hc | hok
        · exact (hpersisted.sound.starting _ (hstarting.trans hst)).1 hc
        · rw [hstartedAt]
          refine hlt.trans_le (hpersisted.returned ?_)
          cases hr : (s.persist k fault now w).1 with
          | ok u => rfl
          | error e =>
            rw [hr] at hok
            cases hok)
      (by rintro w' ⟨⟩)
    exact ⟨hsound, hpersisted.lawful hmem hsound (by simp only [returns, hst, Option.bind_some, Option.map_some])
      rfl rfl rfl rfl⟩
  · cases ht

/-- The start ends with a checkpoint or without a take. -/
theorem Sound.startEnd (h : Sound k old s) (ht : step k s .startEnd = some t) :
    Sound k old t ∧ StepLawful k old s .startEnd t := by
  simp only [step] at ht
  split at ht
  · next checkpointed hst =>
    simp only [Option.ite_none_right_eq_some, Option.some.injEq] at ht
    obtain ⟨hguard, rfl⟩ := ht
    refine Sound.quiet (t := { s with starting := none }) { h with
      starting := by rintro st ⟨⟩
      checkpointed := fun ha _ => ?_
      stops := fun stop hmem => (h.stops stop hmem).mono (fun ha _ => ⟨ha, rfl⟩) (fun _ hw => hw)
        (fun hm => ⟨hm, rfl⟩) le_rfl
      marked := fun hm => ?_ } rfl rfl rfl fun _ hs => hs
    · rcases Bool.or_eq_true_iff.1 hguard with hc | hnone
      · exact (h.starting _ hst).1 hc
      · rw [Option.isNone_iff_eq_none] at hnone
        have hsome : s.fields.activePlan.isSome := ha
        rw [hnone] at hsome
        cases hsome
    · obtain ⟨hrest, -, hbefore, hfree, hfresh⟩ := h.marked hm
      exact ⟨hrest, rfl, hbefore, hfree, hfresh⟩
  · cases ht

theorem Sound.stopSnapshot (h : Sound k old s)
    (ht : step k s (.stopSnapshot i) = some t) : Sound k old t ∧ StepLawful k old s (.stopSnapshot i) t := by
  obtain ⟨stop, hstop, ht⟩ := Option.bind_eq_some_iff.1 ht
  split at ht
  · next pending hphase =>
    split at ht
    · cases ht
      have hold := h.take.stops stop (List.mem_of_getElem? hstop)
      refine Sound.quiet (h.take.setPhase _ hstop ⟨fun hp => hold.rest ?_, fun w hw => ?_, by rintro scope ⟨⟩⟩)
        rfl rfl rfl fun _ hs => hs
      · rw [hphase]
        exact hp
      · cases hw
        exact ⟨h.taken.1, fun _ hm => (h.marked hm).before.trans_lt h.taken.2.2⟩
    · cases ht
  · cases ht

theorem Sound.stopWrite (h : Sound k old s) (ht : step k s (.stopWrite i fault now) = some t) :
    Sound k old t ∧ StepLawful k old s (.stopWrite i fault now) t := by
  obtain ⟨stop, hstop, ht⟩ := Option.bind_eq_some_iff.1 ht
  split at ht
  · next pending w hphase =>
    cases ht
    have hwrite : stop.phase.write = some w := by rw [hphase]; rfl
    have hmem := ((h.stops stop (List.mem_of_getElem? hstop)).write w hwrite).1
    have hpersisted := h.persist fault now hmem
    have hstops : (s.persist k fault now w).2.stops[i]? = some stop := by
      rw [hpersisted.same.2.2.1]
      exact hstop
    have hold := hpersisted.sound.stops stop (List.mem_of_getElem? hstops)
    have hsound := hpersisted.sound.setPhase
      (if (s.persist k fault now w).1.isOk then .written pending else .done) hstops (by
        cases hr : (s.persist k fault now w).1 with
        | error e => exact .of_idle _ rfl rfl
        | ok u =>
          refine ⟨fun hp => hold.rest ?_, by rintro w' ⟨⟩, fun scope hwritten hm => ?_⟩
          · rw [hphase]
            exact hp
          · cases hwritten
            have hlt := (hold.write w hwrite).2 (by rw [hphase]; rfl) hm
            exact hlt.trans_le (hpersisted.returned hr))
    exact ⟨hsound, hpersisted.lawful hmem hsound
      (by simp only [returns, hstop, Option.bind_some, hwrite, Option.map_some]) rfl rfl rfl rfl⟩
  · cases ht

omit [DecidableEq τ] [DecidableEq φ] in
/-- From the close on the stop that is in flight may be anyone's. -/
theorem Sound.fence (h : Sound k old s) (closing : Bool) (stopInflight : Option Scope)
    (hclosing : closing = true) : Sound k old { s with closing, stopInflight } :=
  { h with
    fenced := .inl hclosing
    stops := fun stop hmem => (h.stops stop hmem).same ⟨rfl, rfl, rfl, rfl, rfl, rfl⟩
    marked := fun hm => (h.marked hm).same ⟨rfl, rfl, rfl, rfl, rfl, rfl⟩ }

/-- Every step keeps the invariant and moves the durable state forward. -/
theorem step_lawful (h : Sound k old s) (ht : step k s a = some t) : Sound k old t ∧ StepLawful k old s a t := by
  cases a with
  | write i fault now => exact h.write ht
  | startWrite fault now => exact h.startWrite ht
  | startEnd => exact h.startEnd ht
  | stopSnapshot i => exact h.stopSnapshot ht
  | stopWrite i fault now => exact h.stopWrite ht
  | update u =>
    have hcases := (apply_cases ht).2
    exact (h.apply ht).quiet (by rw [hcases]) (by rw [hcases]) rfl fun scope hs => by rw [hcases]; exact hs
  | snapshot =>
    simp only [step, Option.ite_none_right_eq_some, Option.some.injEq] at ht
    obtain ⟨-, rfl⟩ := ht
    refine Sound.quiet (h.take.setCalls fun w hw => ?_) rfl rfl rfl fun _ hs => hs
    rcases mem_concat.1 hw with hw | rfl
    · exact h.take.calls w hw
    · exact h.taken.1
  | start plan =>
    simp only [step, Option.ite_none_right_eq_some, Option.some.injEq] at ht
    obtain ⟨hguard, rfl⟩ := ht
    simp only [Bool.and_eq_true, Option.isNone_iff_eq_none, Bool.not_eq_true'] at hguard
    obtain ⟨⟨⟨-, hinflight⟩, hmarker⟩, hclosing⟩ := hguard
    exact Sound.quiet (h.start _ rfl (h.idle hclosing hinflight) hmarker) rfl rfl rfl fun _ hs => hs
  | startSnapshot =>
    simp only [step] at ht
    split at ht
    · next checkpointed hst =>
      cases ht
      refine (h.take.setStart ⟨checkpointed, some s.localStateWrite.1⟩ hst (h.take.starting _ hst).1
        fun w hw => ?_).quiet rfl rfl rfl fun _ hs => hs
      cases hw
      exact ⟨h.taken.1, h.taken.2.1⟩
    · cases ht
  | startAbandon =>
    simp only [step, Option.ite_none_right_eq_some, Option.some.injEq] at ht
    obtain ⟨-, rfl⟩ := ht
    have happly : s.apply ⟨s.fields, true, s.commands, s.invalidCommands, s.focusToPersist⟩ =
        some { s with fields := { s.fields with activePlan := none } } := if_pos ⟨rfl, .inr rfl⟩
    exact (h.apply happly).quiet rfl rfl rfl fun _ hs => hs
  | claim scope ofTake =>
    simp only [step, Option.ite_none_right_eq_some, Option.some.injEq] at ht
    obtain ⟨hguard, rfl⟩ := ht
    simp only [Bool.and_eq_true, Option.isNone_iff_eq_none] at hguard
    exact (h.claim hguard.1.2 scope ofTake).quiet rfl rfl rfl fun _ hs => hs
  | finish i u =>
    obtain ⟨stop, hstop, ht⟩ := Option.bind_eq_some_iff.1 ht
    split at ht
    · simp only [Option.ite_none_right_eq_some] at ht
      obtain ⟨hguard, ht⟩ := ht
      obtain ⟨v, hv, ht⟩ := Option.bind_eq_some_iff.1 ht
      cases ht
      simp only [Bool.and_eq_true, Option.isNone_iff_eq_none] at hguard
      have hcases := (apply_cases hv).2
      refine (h.finish hstop hguard.1 hguard.2 hv).quiet ?_ ?_ rfl fun scope hs => ?_
      · simp only [State.setPhase, hcases]
      · simp only [State.setPhase, hcases]
      · rw [h.unmarked hguard.2] at hs
        cases hs
    · cases ht
  | readPending i =>
    obtain ⟨stop, hstop, ht⟩ := Option.bind_eq_some_iff.1 ht
    split at ht
    · cases ht
      refine (h.setPhase _ hstop ⟨fun hm => ?_, by rintro w ⟨⟩, by rintro scope ⟨⟩⟩).quiet rfl rfl rfl fun _ hs => hs
      exact ⟨(h.marked hm).rest, (h.marked hm).still⟩
    · cases ht
  | clear i =>
    obtain ⟨stop, hstop, ht⟩ := Option.bind_eq_some_iff.1 ht
    split at ht
    · next pending hphase =>
      split at ht
      · cases ht
        exact h.clear hstop hphase rfl
      · cases ht
    · cases ht
  | release i =>
    obtain ⟨stop, hstop, ht⟩ := Option.bind_eq_some_iff.1 ht
    split at ht
    · cases ht
      exact (h.release hstop).quiet rfl rfl rfl fun _ hs => hs
    · cases ht
  | close =>
    simp only [step, Option.ite_none_right_eq_some, Option.some.injEq] at ht
    obtain ⟨-, rfl⟩ := ht
    exact (h.fence true s.stopInflight rfl).quiet rfl rfl rfl fun _ hs => hs
  | closed =>
    simp only [step, Option.ite_none_right_eq_some, Option.some.injEq, Bool.and_eq_true] at ht
    obtain ⟨⟨-, hclosing⟩, rfl⟩ := ht
    exact (h.fence s.closing none hclosing).quiet rfl rfl rfl fun _ hs => hs

/-- The constructor stores the first snapshot. -/
theorem sound_of_construct {fields : Fields ι} {commands : Receipts τ}
    {invalid : Quarantine} {db : Db} {s₀ : State ι τ φ}
    (h : construct k fault now fields commands invalid db = (.ok (), s₀)) :
    Sound k ⟨invalid.map (·.1), LeftBehind db commands, fields.recoverySession⟩ s₀ := by
  set booted : State ι τ φ := State.restored fields commands invalid db with hbooted
  have hwrite : booted.localStateWrite.2.persist k fault now booted.localStateWrite.1 = (.ok (), s₀) := h
  rcases persist_cases (k := k) fault now booted.localStateWrite.1 booted.localStateWrite.2 with
    ⟨-, hle⟩ | ⟨-, -, db', hput, hstate⟩
  · rw [hwrite] at hle
    exact absurd (hle rfl) (Nat.not_succ_le_zero 0)
  rw [hwrite] at hstate
  have hquarantines : booted.localStateWrite.1.Quarantines (invalid.map (·.1)) := ⟨invalid, rfl, rfl⟩
  have hstored : Stored k ⟨invalid.map (·.1), LeftBehind db commands, fields.recoverySession⟩
      booted.localStateWrite.1 db' := by
    refine stored_of_put hput hquarantines (fun _ _ => rfl) fun scope _ hleft hscope => ?_
    rcases hscope with hsome | hnone
    · cases hsome
    · by_contra hrow
      exact hleft ⟨hnone, hrow⟩
  change s₀ = _ at hstate
  subst hstate
  have hmem : ∀ w, w ∈ booted.localStateWrite.2.snapshots → w = booted.localStateWrite.1 := fun w hw =>
    List.mem_singleton.1 hw
  exact {
    quarantine := by
      show (booted.invalidCommands.map fun e => (e.1, none)).map (·.1) = _
      rw [List.map_map]
      rfl
    recovery := .inr rfl
    resting := fun w hw hplan => by
      rw [hmem w hw] at hplan ⊢
      have hnone : fields.activePlan = none := hplan
      show fields.activePlan.or fields.recoverySession = none ∨ fields.activePlan.or fields.recoverySession = _
      rw [hnone, Option.none_or]
      exact .inr rfl
    count := rfl
    numbered := fun i w hw => by
      obtain ⟨hi, -⟩ := List.getElem?_eq_some_iff.1 hw
      have hone : i < 1 := hi
      obtain rfl : i = 0 := by omega
      cases hw
      exact ⟨rfl, hquarantines⟩
    stored := ⟨_, rfl, List.mem_singleton_self _, rfl, rfl, hstored⟩
    calls := by rintro w ⟨⟩
    since := Nat.zero_le _
    starting := by rintro st ⟨⟩
    began := fun _ w hw hp => by
      rw [hmem w hw] at hp
      cases hp
    checkpointed := fun _ _ => Nat.zero_lt_one
    fenced := .inr rfl
    stops := by rintro stop ⟨⟩
    marked := fun hm => by
      have hnone : booted.pendingStopStateCommit = none := rfl
      simp only [State.localStateWrite, hnone, ite_self] at hm
      cases hm }

/-- From the constructor on, every interleaving moves the durable state forward. -/
theorem durable_state_moves_forward {fault : Statement → Option String} {now : String} {fields : Fields ι}
    {commands : Receipts τ} {invalid : Quarantine} {db : Db} {s₀ : State ι τ φ}
    (h : construct k fault now fields commands invalid db = (.ok (), s₀)) (acts : List (Act ι τ φ)) :
    let old : Earlier := ⟨invalid.map (·.1), LeftBehind db commands, fields.recoverySession⟩
    (∃ w, s₀.stored = some w ∧ Stored k old w s₀.db) ∧ Along (step k) (StepLawful k old) s₀ acts := by
  have hsound := sound_of_construct h
  exact ⟨hsound.exact, along_of_invariant (fun _ _ _ hs ht => step_lawful hs ht) hsound⟩

end Steps

/-! ### The restore -/

section Restore

theorem Receipts.get_set (r : Receipts τ) (scope other : Scope) (x : τ) :
    (r.set scope x).get other = if other = scope then some x else r.get other :=
  lookup_insertOrReplace r.1 (scope, x) other

theorem Receipts.get_pop (r : Receipts τ) (scope other : Scope) :
    (r.pop scope).get other = if other = scope then none else r.get other :=
  lookup_delete r.1 other scope

theorem mem_insertOrReplace {α β : Type} [DecidableEq α] {rows : List (α × β)} {row e : α × β}
    (h : e ∈ insertOrReplace rows row) : e ∈ rows ∨ e = row := by
  rcases mem_concat.1 h with h | h
  · exact .inl (List.mem_filter.1 h).1
  · exact .inr h

/-- What the restore makes: receipts and quarantined scopes are among the items that it takes, and no
scope is both. -/
structure Restored (P : Scope → Prop) (Q : Option PyStr → Prop) (r : Receipts τ × Quarantine) : Prop where
  commands : ∀ scope, (r.1.get scope).isSome → P scope
  invalid : ∀ e ∈ r.2, P e.1 ∧ Q e.2
  apart : ∀ e ∈ r.2, r.1.get e.1 = none

variable {validated : Item τ → Option τ} {evidence : Item τ → PyStr} {P : Scope → Prop} {Q : Option PyStr → Prop}

variable {r : Receipts τ × Quarantine}

theorem Restored.item {item : Item τ} {scope : Scope} (h : Restored P Q r)
    (hQ : Q (some (evidence item))) (hscope : itemScope item = .ok scope) (hp : P scope) :
    ∃ r', restoreItem validated evidence r item = .ok r' ∧ Restored P Q r' := by
  simp only [restoreItem, hscope, bind, Except.bind]
  cases validated item with
  | none =>
    refine ⟨_, rfl, fun other hother => ?_, fun e he => ?_, fun e he => ?_⟩
    · rw [Receipts.get_pop] at hother
      split at hother
      · cases hother
      · exact h.commands other hother
    · rcases mem_insertOrReplace he with he | rfl
      · exact h.invalid e he
      · exact ⟨hp, hQ⟩
    · rw [Receipts.get_pop]
      split
      · rfl
      · next hne =>
        rcases mem_insertOrReplace he with he | rfl
        · exact h.apart e he
        · exact absurd rfl hne
  | some receipt =>
    by_cases hfree : (r.2.lookup scope).isSome
    · exact ⟨r, if_pos hfree, h⟩
    · refine ⟨_, if_neg hfree, fun other hother => ?_, h.invalid, fun e he => ?_⟩
      · rw [Receipts.get_set] at hother
        split at hother
        · next heq => exact heq ▸ hp
        · exact h.commands other hother
      · rw [Receipts.get_set, if_neg]
        · exact h.apart e he
        · rintro rfl
          have hnone := Option.not_isSome_iff_eq_none.1 hfree
          rw [List.lookup_eq_none_iff] at hnone
          simpa using hnone e he

theorem Restored.items {items : List (Item τ)} (h : Restored P Q r)
    (hitems : ∀ item ∈ items, Q (some (evidence item)) ∧ ∃ scope, itemScope item = .ok scope ∧ P scope) :
    ∃ r', items.foldlM (restoreItem validated evidence) r = .ok r' ∧ Restored P Q r' := by
  induction items generalizing r with
  | nil => exact ⟨r, rfl, h⟩
  | cons item items ih =>
    obtain ⟨⟨hQ, scope, hscope, hp⟩, hrest⟩ := List.forall_mem_cons.1 hitems
    obtain ⟨r', hr', h'⟩ := h.item hQ hscope hp
    obtain ⟨r'', hr'', h''⟩ := ih h' hrest
    exact ⟨r'', by rw [List.foldlM_cons]; exact bind_eq_ok.2 ⟨r', hr', hr''⟩, h''⟩

end Restore

/-! ### A recording of an earlier process, and more receipts than are restored -/

section Sample

/-- Every document has one text, and a receipt has its key as text. -/
def textCodec : Codec (Value Unit) Bool Unit where
  dumpsDocument _ := .ok (.text "document")
  loadsDocument _ := .ok (some { rest := ⟨"epoch", 0, none, none, (), none, none, none⟩ })
  dumpsCommand c := .ok c.scope.key
  loadsItem t := some ⟨.str (.text "device"), .str (.text "start"), .str (.text t), t ≠ "rejected"⟩
  dumpsEvidence _ := .ok "evidence"
  dumpsFocus _ := .ok (.text "focus")
  reprBytes _ := "bytes"

def earlier : SessionIdentity := ⟨"earlier", "volume-1", "generation-1"⟩

/-- After a crash on another volume. -/
def earlierFields : Fields Unit where
  admission := some ()
  lastVolumeBinding := none
  authorityEpoch := "epoch"
  revision := 1
  activePlan := none
  recoverySession := some earlier
  retained := ()
  pendingSafeSwap := none
  pendingSafeSwapFailure := none
  safeSwapResource := none
  safeSwapFailureClearPending := false
  safeSwapToPersist := none

def emptyDb : Db := { documents := fun _ => none }

def noFault : Statement → Option String := fun _ => none

def booted : State Unit Bool Unit := (construct textCodec noFault "now" earlierFields .empty [] emptyDb).2

def stopScope : Scope := ⟨.text "device", .text "stop", .text "key-1"⟩

/-- A take on the new volume, up to the clear by its stop. -/
def takeAndStop : List (Act Unit Bool Unit) :=
  [.start ⟨"take", "volume-2", "generation-2"⟩, .startSnapshot, .startWrite noFault "now", .startEnd, .claim stopScope true,
    .finish 0 ⟨earlierFields, true, .empty, [], none⟩, .stopSnapshot 0, .stopWrite 0 noFault "now"]

def noReceipts : Receipts Bool := .empty

/-- A receipt comes in; of three snapshots the second is not written and the third is written before
the first. -/
def reordered : List (Act Unit Bool Unit) :=
  [.clear 0, .release 0, .update ⟨earlierFields, false, ⟨[(stopScope, true)], List.nodup_singleton _⟩, [], none⟩, .snapshot,
    .snapshot, .write 1 (fun _ => some "database is locked") "now", .snapshot, .write 1 noFault "now", .write 0 noFault "now"]

theorem durable_state_sample :
    ((run (step textCodec) booted (takeAndStop ++ reordered)).map fun t => (t.statePersistedSequence, t.calls.length, t.db.rows)) =
      some (6, 0, [(stopScope, .text "key-1")]) ∧
    Along (step textCodec) (StepLawful textCodec ⟨[], LeftBehind emptyDb noReceipts, some earlier⟩) booted
      (takeAndStop ++ reordered) :=
  ⟨by decide +kernel, (durable_state_moves_forward
    (show construct textCodec noFault "now" earlierFields noReceipts [] emptyDb = (.ok (), booted) from rfl) _).2⟩

/-- The stop clears its marker while `active_session` names the recording of the earlier process. -/
theorem marker_cleared :
    ((run (step textCodec) booted takeAndStop).bind fun s => (step textCodec s (.clear 0)).map fun t =>
      (s.pendingStopStateCommit, t.pendingStopStateCommit, t.stored.map (·.value.rest.activeSession))) =
      some (some stopScope, none, some (some earlier)) := by
  decide +kernel

def scopeOf (t : String) : Scope := ⟨.text "device", .text "start", .text t⟩

def keyOf (n : ℕ) : String := String.ofList (List.replicate (n + 1) 'k')

/-- A table of receipts with these keys. -/
def tableOf (keys : List String) : Db where
  documents name := if name = "capture" then some ⟨"document", 1, "then"⟩ else none
  rows := keys.map fun t => (scopeOf t, .text t)

def itemOf (t : String) : Item Bool := ⟨.str (.text "device"), .str (.text "start"), .str (.text t), t ≠ "rejected"⟩

def validated (item : Item Bool) : Option Bool := if item.rest then some true else none

def evidence (_ : Item Bool) : PyStr := .text "evidence"

theorem keyOf_injective {m n : ℕ} (h : keyOf m = keyOf n) : m = n := by
  have hlist := congrArg String.toList h
  rw [keyOf, keyOf, String.toList_ofList, String.toList_ofList] at hlist
  have hlength := congrArg List.length hlist
  rw [List.length_replicate, List.length_replicate] at hlength
  omega

variable {t : String}

theorem scopeOf_valid (h : t ≠ "") : (scopeOf t).valid = true := by
  simp [scopeOf, Scope.valid, Scope.parts, nonempty, h]

theorem itemScope_itemOf (h : t ≠ "") : itemScope (itemOf t) = .ok (scopeOf t) :=
  if_pos (scopeOf_valid h)

/-- The table is read back as it is. -/
theorem captureState_tableOf {keys : List String} (h : ∀ t ∈ keys, t ≠ "") :
    captureState textCodec (tableOf keys) =
      .ok ⟨.inr (keys.map itemOf), none, ⟨"epoch", 0, none, none, (), none, none, none⟩⟩ := by
  have hvalid : (tableOf keys).rows.all (·.1.valid) = true := by
    rw [List.all_eq_true]
    intro row hrow
    obtain ⟨t, ht, rfl⟩ := List.mem_map.1 hrow
    exact scopeOf_valid (h t ht)
  have hreceipt : ∀ t, receiptOf textCodec (scopeOf t) (.text t) = some (itemOf t) := by
    intro t
    simp [receiptOf, textCodec, itemOf, Item.matches, scopeOf, PyValue.eqStr]
  have hitems : ((tableOf keys).rows.filterMap fun row => receiptOf textCodec row.1 row.2) = keys.map itemOf := by
    rw [tableOf, List.filterMap_map]
    simp only [Function.comp_def, hreceipt]
    exact congrFun List.filterMap_eq_map keys
  have hbad : ((tableOf keys).rows.filter fun row => (receiptOf textCodec row.1 row.2).isNone) = [] := by
    rw [List.filter_eq_nil_iff]
    intro row hrow
    obtain ⟨t, -, rfl⟩ := List.mem_map.1 hrow
    simp [hreceipt]
  have hrow : (tableOf keys).documents "capture" = some ⟨"document", 1, "then"⟩ := rfl
  simp only [captureState, hrow, textCodec, Option.getD_none]
  rw [if_pos hvalid]
  erw [hitems, hbad]
  rfl

/-- The scopes of all but the first key. -/
def Later (first : String) (scope : Scope) : Prop := ∃ t, t ≠ "" ∧ t ≠ first ∧ scope = scopeOf t

/-- The constructor comes up on what was restored of a table, and the row of the first key stays. -/
theorem construct_restored {first : String} (later : List String) {r : Receipts Bool × Quarantine}
    (h : Restored (Later first) (· = some (.text "evidence")) r) :
    ∃ s₀, construct textCodec noFault "now" earlierFields r.1 r.2 (tableOf (first :: later)) = (.ok (), s₀) ∧
      scopeOf first ∉ r.2.map (·.1) ∧ (∃ w, s₀.stored = some w ∧ w.commands.get (scopeOf first) = none) ∧
      s₀.db.rows.lookup (scopeOf first) ≠ none := by
  have hlater : ¬Later first (scopeOf first) := by
    rintro ⟨t, -, hne, heq⟩
    exact hne (PyStr.text.inj (congrArg Scope.key heq)).symm
  have hnone : r.1.get (scopeOf first) = none := by
    by_contra hsome
    exact hlater (h.commands _ (Option.isSome_iff_ne_none.2 hsome))
  have hquarantined : scopeOf first ∉ r.2.map (·.1) := by
    intro hmem
    obtain ⟨e, he, heq⟩ := List.mem_map.1 hmem
    exact hlater (heq ▸ (h.invalid e he).1)
  set s : State Unit Bool Unit := State.restored earlierFields r.1 r.2 (tableOf (first :: later)) with hs
  set w := s.localStateWrite.1 with hw
  have hvalid : ∀ e ∈ r.2, e.1.valid = true := by
    intro e he
    obtain ⟨t, hne, -, heq⟩ := (h.invalid e he).1
    rw [heq]
    exact scopeOf_valid hne
  have hprepare : prepare textCodec w.value =
      .ok ⟨{ w.value with invalidCommands := some (.list (r.2.map fun e => entry e.1 none)) }, r.2⟩ :=
    bind_eq_ok.2 ⟨r.2, readEntries_succeeds hvalid, rfl⟩
  have hget : ∀ c ∈ w.newCommands .empty, (r.1.get c.scope).isSome := by
    intro c hc
    obtain ⟨e, he, rfl⟩ := List.mem_map.1 hc
    have hmem : r.1.get e.1 = some e.2 := r.1.2.lookup_iff.2 (List.mem_filter.1 he).1
    rw [hmem]
    rfl
  have hcommand : ∀ c ∈ w.newCommands .empty, ∃ t, c.scope = scopeOf t := by
    intro c hc
    obtain ⟨t, -, -, heq⟩ := h.commands c.scope (hget c hc)
    exact ⟨t, heq⟩
  have hput : ∃ db', putCaptureState (fun _ => none) textCodec (tableOf (first :: later)) (w.put .empty none "now") =
      (.ok (), db') := by
    refine put_succeeds (fun c => (c.scope, c.scope.key)) (fun e => (e.1, textBody e.2)) hprepare
      (fun c hc hmem => ?_) rfl rfl (fun e he => ?_) rfl (fun c hc => ⟨rfl, ?_⟩) rfl
    · obtain ⟨e, he, heq⟩ := List.mem_map.1 hmem
      have hsome := hget c hc
      rw [← heq, h.apart e he] at hsome
      cases hsome
    · obtain ⟨e', hmem, hsome⟩ := List.mem_filterMap.1 he
      obtain ⟨t, -, -, heq⟩ := (h.invalid e' hmem).1
      obtain ⟨r', hr', rfl⟩ := Option.map_eq_some_iff.1 hsome
      have hevidence := (h.invalid e' hmem).2
      rw [hr', Option.some.injEq] at hevidence
      simp only [heq, hevidence]
      rfl
    · obtain ⟨t, heq⟩ := hcommand c hc
      simp only [heq]
      rfl
  obtain ⟨db', hput⟩ := hput
  have hconstruct : (construct textCodec noFault "now" earlierFields r.1 r.2 (tableOf (first :: later))).1 = .ok () ∧
      (construct textCodec noFault "now" earlierFields r.1 r.2 (tableOf (first :: later))).2.stored = some w ∧
      (construct textCodec noFault "now" earlierFields r.1 r.2 (tableOf (first :: later))).2.db = db' := by
    have hstep : putCaptureState noFault textCodec s.localStateWrite.2.db
        (w.put s.localStateWrite.2.persistedCommands s.localStateWrite.2.persistedFocus "now") = (.ok (), db') := hput
    show (s.localStateWrite.2.persist textCodec noFault "now" w).1 = _ ∧
      (s.localStateWrite.2.persist textCodec noFault "now" w).2.stored = _ ∧
      (s.localStateWrite.2.persist textCodec noFault "now" w).2.db = _
    have hnew : ¬w.sequence ≤ s.localStateWrite.2.statePersistedSequence := Nat.not_succ_le_zero 0
    rw [State.persist, if_neg hnew, hstep]
    exact ⟨rfl, rfl, rfl⟩
  refine ⟨_, Prod.ext hconstruct.1 rfl, hquarantined, ⟨w, hconstruct.2.1, hnone⟩, ?_⟩
  obtain ⟨p, body, hp, -, -, hrows, -⟩ := put_ok hput
  have hfind : (w.put .empty none "now").commands.reverse.find? (·.scope = scopeOf first) = none := by
    have hnew := find_newCommands w .empty (scopeOf first)
    have hcommands : w.commands.get (scopeOf first) = none := hnone
    rw [hcommands] at hnew
    exact hnew
  have hrow : (tableOf (first :: later)).rows.lookup (scopeOf first) = some (.text first) := by
    rw [tableOf, List.map_cons, lookup_cons, if_pos rfl]
  rw [hconstruct.2.2, hrows, lookup_nextRows, hfind, hrow, Option.some_or, if_neg (fun hmem => by cases hmem.1)]
  rintro ⟨⟩

/-- The keys of 1024 receipts, and of one that is not valid. -/
def laterKeys : List String := (List.range 1023).map (fun n => keyOf (n + 1)) ++ ["rejected"]

theorem laterKeys_ne (h : t ∈ laterKeys) : t ≠ "" ∧ t ≠ keyOf 0 := by
  rcases mem_concat.1 h with h | rfl
  · obtain ⟨n, -, rfl⟩ := List.mem_map.1 h
    refine ⟨fun heq => ?_, fun heq => ?_⟩
    · have hlist := congrArg String.toList heq
      rw [keyOf, String.toList_ofList] at hlist
      cases hlist
    · exact absurd (keyOf_injective heq) (Nat.succ_ne_zero n)
  · exact ⟨by decide, by decide⟩

/-- The restore takes the last 1024 of 1025 receipts, and the row of the first stays in the table. -/
def FirstLeftBehind : Prop :=
  ∃ captured items commands invalid s₀ scope, captureState textCodec (tableOf (keyOf 0 :: laterKeys)) = .ok captured ∧
    captured.commands = .inr items ∧ captured.invalidCommands = none ∧
    restoreCommands validated evidence items noReceipts [] = .ok (commands, invalid) ∧
    construct textCodec noFault "now" earlierFields commands invalid (tableOf (keyOf 0 :: laterKeys)) = (.ok (), s₀) ∧
    scope ∉ invalid.map (·.1) ∧ (∃ w, s₀.stored = some w ∧ w.commands.get scope = none) ∧
    s₀.db.rows.lookup scope ≠ none

theorem receipt_left_behind : FirstLeftBehind := by
  have hkeys : ∀ t ∈ keyOf 0 :: laterKeys, t ≠ "" := by
    refine List.forall_mem_cons.2 ⟨by decide, fun t ht => (laterKeys_ne ht).1⟩
  have hlength : laterKeys.length = 1024 := by
    rw [laterKeys, List.length_append, List.length_map, List.length_range, List.length_singleton]
  have hrestored : ∃ r, restoreCommands validated evidence ((keyOf 0 :: laterKeys).map itemOf) noReceipts [] = .ok r ∧
      Restored (Later (keyOf 0)) (· = some (.text "evidence")) r := by
    rw [restoreCommands, List.length_map, List.length_cons, hlength, ← List.map_drop]
    refine Restored.items ⟨by rintro scope ⟨⟩, by rintro e ⟨⟩, by rintro e ⟨⟩⟩ fun item hitem => ⟨rfl, ?_⟩
    obtain ⟨t, ht, rfl⟩ := List.mem_map.1 hitem
    have hlater := laterKeys_ne (show t ∈ laterKeys from ht)
    exact ⟨scopeOf t, itemScope_itemOf hlater.1, t, hlater.1, hlater.2, rfl⟩
  obtain ⟨r, hr, hrestored⟩ := hrestored
  obtain ⟨s₀, hconstruct, hquarantined, hstored, hrow⟩ := construct_restored laterKeys hrestored
  exact ⟨_, _, r.1, r.2, s₀, scopeOf (keyOf 0), captureState_tableOf hkeys, rfl, rfl, hr, hconstruct, hquarantined, hstored,
    hrow⟩

/-- A marker is cleared while `active_session` names another recording, and a receipt that was not
restored stays in the table. -/
theorem durable_state_fails :
    (∃ acts s t w, run (step textCodec) booted acts = some s ∧ step textCodec s (.clear 0) = some t ∧
      s.pendingStopStateCommit = some stopScope ∧ t.pendingStopStateCommit = none ∧ t.stored = some w ∧
      w.value.rest.activeSession ≠ none) ∧
    FirstLeftBehind := by
  refine ⟨?_, receipt_left_behind⟩
  obtain ⟨s, hs, hrest⟩ := Option.bind_eq_some_iff.1 marker_cleared
  obtain ⟨t, ht, heq⟩ := Option.map_eq_some_iff.1 hrest
  simp only [Prod.mk.injEq] at heq
  obtain ⟨hmarked, hcleared, hstored⟩ := heq
  obtain ⟨w, hw, hactive⟩ := Option.map_eq_some_iff.1 hstored
  exact ⟨takeAndStop, s, t, w, hs, ht, hmarked, hcleared, hw, by rw [hactive]; rintro ⟨⟩⟩

end Sample

end Conductor.LocalState
