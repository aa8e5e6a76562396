import Conductor.Coordinator.FocusState

/-! The preferences are stored in their order. In every run a preference that was acknowledged is
stored, or a later one is: a write that comes late does not bring an older one back, and no receipt is
stored before its preference. -/

namespace Conductor.Focus

open Camera Persistence Runs

variable {d : Device} {s t : State}

/-! ### Commands -/

theorem mem_of_lookup {receipts : Receipts} {scope : Scope} {receipt : Receipt} (h : receipts.lookup scope = some receipt) :
    (scope, receipt) ∈ receipts := by
  obtain ⟨before, after, rfl, -⟩ := List.lookup_eq_some_iff.1 h
  exact List.mem_append_right _ List.mem_cons_self

theorem idempotent_cases (c : Command) (found : Found) (reply : ℕ → Bool → Reply) (execute : State → Except String ℕ × State)
    (s : State) :
    (∃ code, s.idempotent c found reply execute = s.answer (.failed code)) ∨
    (∃ receipt, s.rows.lookup c.scope = some receipt ∧
      s.idempotent c found reply execute = s.acknowledge receipt.number (reply receipt.number true)) ∨
    (∃ receipt, s.commands.lookup c.scope = some receipt ∧
      s.idempotent c found reply execute = s.commit found.saved receipt.number (reply receipt.number true)) ∨
    s.commands.lookup c.scope = none ∧
      ((∃ code s', execute s = (.error code, s') ∧ s.idempotent c found reply execute = s'.answer (.failed code)) ∨
       ∃ number s', execute s = (.ok number, s') ∧
         s.idempotent c found reply execute = (s'.remember c number).commit found.saved number (reply number false)) := by
  unfold State.idempotent
  dsimp only
  split
  · exact .inl ⟨_, rfl⟩
  split
  · exact .inl ⟨_, rfl⟩
  cases hprevious : s.commands.lookup c.scope with
  | some receipt =>
    dsimp only
    split
    · exact .inl ⟨_, rfl⟩
    split
    · next hpersisted =>
      have hrow : s.rows.lookup c.scope = some receipt := by simpa using hpersisted
      exact .inr (.inl ⟨receipt, hrow, rfl⟩)
    · exact .inr (.inr (.inl ⟨receipt, rfl, rfl⟩))
  | none =>
    dsimp only
    split
    · exact .inl ⟨_, rfl⟩
    · refine .inr (.inr (.inr ⟨rfl, ?_⟩))
      rcases hexecute : execute s with ⟨_ | number, s'⟩
      · exact .inl ⟨_, s', rfl, rfl⟩
      · exact .inr ⟨number, s', rfl, rfl⟩

/-! ### The order of the preferences -/

/-- The number of a preference, 0 where there is none. -/
def num (p : Option Preference) : ℕ := p.elim 0 (·.number)

/-- A write that may still be made. -/
structure Fits (s : State) (w : Write) : Prop where
  sequence : w.sequence ≤ s.stateWriteSequence
  focus : num w.focus ≤ num s.focusToPersist
  newer : ∀ p ∈ w.focus, s.statePersistedSequence < w.sequence → num s.stored ≤ p.number
  commands : ∀ c ∈ w.commands, c.2.number ≤ max (num w.focus) (num s.stored)
  known : ∀ p ∈ w.focus, 0 < p.number ∧ s.successes[p.number - 1]? = some p.request

structure Numbered (s : State) : Prop where
  sequence : s.statePersistedSequence ≤ s.stateWriteSequence
  stored : ∀ p ∈ s.stored, 0 < p.number ∧ s.successes[p.number - 1]? = some p.request
  toPersist : ∀ p ∈ s.focusToPersist, 0 < p.number ∧ s.successes[p.number - 1]? = some p.request
  persisted : ∀ p ∈ s.persistedFocus, s.stored = some p
  latest : ∀ p ∈ s.focusToPersist, num s.stored ≤ p.number
  calls : ∀ w ∈ s.calls, Fits s w
  ordered : ∀ w ∈ s.calls, ∀ w' ∈ s.calls, w.sequence ≤ w'.sequence → num w.focus ≤ num w'.focus
  commands : ∀ c ∈ s.commands, c.2.number ≤ max (num s.focusToPersist) (num s.stored)
  rows : ∀ c ∈ s.rows, c.2.number ≤ num s.stored
  acknowledged : s.acknowledged ≤ num s.stored

theorem Numbered.le_successes (hs : Numbered s) : num s.stored ≤ s.successes.length := by
  cases hstored : s.stored with
  | none => exact Nat.zero_le _
  | some p =>
    obtain ⟨hpos, hget⟩ := hs.stored p hstored
    have hlt := (List.getElem?_eq_some_iff.1 hget).1
    change p.number ≤ _
    omega

/-- What a write that is made does to the stored preference. -/
def State.written (s : State) (w : Write) : State :=
  { s with
    stored := w.focus.or s.stored
    rows := w.commands
    persistedFocus := w.focus
    statePersistedSequence := w.sequence }

theorem write_cases (hs : Numbered s) (saved : Bool) (w : Write) :
    (s.write saved w).2 = s ∨ s.statePersistedSequence < w.sequence ∧ (s.write saved w).2 = s.written w := by
  unfold State.write
  split
  · exact .inl rfl
  · next hsequence =>
    split
    · refine .inr ⟨by omega, ?_⟩
      have hstored : (if w.focus.isSome ∧ w.focus ≠ s.persistedFocus then w.focus else s.stored) = w.focus.or s.stored := by
        cases hfocus : w.focus with
        | none => rfl
        | some p =>
          split
          · rfl
          · next hsame =>
            have hpersisted : some p = s.persistedFocus := by simpa using hsame
            exact hs.persisted p hpersisted.symm
      rw [hstored]
      rfl
    · exact .inl rfl

/-- A write keeps the order if what was taken after it is not older. -/
theorem Numbered.written (hs : Numbered s) {w : Write} (hw : Fits s w) (hsequence : s.statePersistedSequence < w.sequence)
    (hlater : ∀ w' ∈ s.calls, w.sequence < w'.sequence → num w.focus ≤ num w'.focus) : Numbered (s.written w) := by
  have hup : num s.stored ≤ num (w.focus.or s.stored) := by
    cases hfocus : w.focus with
    | none => exact Nat.le_refl _
    | some p => exact hw.newer p hfocus hsequence
  have hmax : max (num w.focus) (num s.stored) ≤ num (w.focus.or s.stored) := by
    refine max_le ?_ hup
    cases w.focus with
    | none => exact Nat.zero_le _
    | some p => exact Nat.le_refl _
  have hknown : ∀ p ∈ w.focus.or s.stored, 0 < p.number ∧ s.successes[p.number - 1]? = some p.request := by
    intro p hp
    cases hfocus : w.focus with
    | none =>
      rw [hfocus] at hp
      exact hs.stored p hp
    | some q =>
      rw [hfocus] at hp
      exact hw.known p (hfocus.trans hp)
  refine ⟨hw.sequence, hknown, hs.toPersist, ?_, ?_, fun w' hw' => ?_, hs.ordered, fun c hc => ?_, fun c hc => ?_, ?_⟩
  · intro p hp
    change w.focus.or s.stored = some p
    rw [show w.focus = some p from hp]
    rfl
  · intro p hp
    cases hfocus : w.focus with
    | none =>
      change num (w.focus.or s.stored) ≤ _
      rw [hfocus]
      exact hs.latest p hp
    | some q =>
      change num (w.focus.or s.stored) ≤ _
      have hle := hw.focus
      rw [show s.focusToPersist = some p from hp, hfocus] at hle
      rw [hfocus]
      exact hle
  · have hfits := hs.calls w' hw'
    refine ⟨hfits.sequence, hfits.focus, fun p hp hlt => ?_, fun c hc => ?_, hfits.known⟩
    · change num (w.focus.or s.stored) ≤ p.number
      have hlt : w.sequence < w'.sequence := hlt
      cases hfocus : w.focus with
      | none => exact hfits.newer p hp (by omega)
      | some q =>
        have hle := hlater w' hw' hlt
        rw [hfocus, Option.mem_def.1 hp] at hle
        exact hle
    · exact (hfits.commands c hc).trans (max_le_max_left _ hup)
  · exact (hs.commands c hc).trans (max_le_max_left _ hup)
  · exact (hw.commands c hc).trans hmax
  · exact hs.acknowledged.trans hup

theorem Numbered.fits (hs : Numbered s) : Fits s.localStateWrite.2 s.localStateWrite.1 where
  sequence := Nat.le_refl _
  focus := Nat.le_refl _
  newer p hp _ := hs.latest p hp
  commands := hs.commands
  known := hs.toPersist

/-- A snapshot is newer than every other. -/
theorem Numbered.snapshot (hs : Numbered s) : Numbered s.localStateWrite.2 :=
  ⟨Nat.le_succ_of_le hs.sequence, hs.stored, hs.toPersist, hs.persisted, hs.latest,
    fun w hw => ⟨Nat.le_succ_of_le (hs.calls w hw).sequence, (hs.calls w hw).focus, (hs.calls w hw).newer,
      (hs.calls w hw).commands, (hs.calls w hw).known⟩, hs.ordered, hs.commands, hs.rows, hs.acknowledged⟩

theorem persist_saved (hs : Numbered s) : s.persist true = (true, s.localStateWrite.2.written s.localStateWrite.1) := by
  have hsequence := hs.sequence
  have hrun : s.persist true = (true, (s.localStateWrite.2.write true s.localStateWrite.1).2) := by
    unfold State.persist State.write
    split <;> rfl
  rw [hrun]
  rcases write_cases hs.snapshot true s.localStateWrite.1 with hsame | ⟨-, hwritten⟩
  · have hpersisted := congrArg State.statePersistedSequence hsame
    unfold State.write at hpersisted
    rw [if_neg (by change ¬s.stateWriteSequence + 1 ≤ s.statePersistedSequence; omega)] at hpersisted
    change s.stateWriteSequence + 1 = s.statePersistedSequence at hpersisted
    omega
  · rw [hwritten]

theorem persist_unsaved (hs : Numbered s) : s.persist false = (false, s.localStateWrite.2) := by
  have hsequence := hs.sequence
  unfold State.persist State.write
  rw [if_neg (by change ¬s.stateWriteSequence + 1 ≤ s.statePersistedSequence; omega)]
  rfl

theorem Numbered.persistSaved (hs : Numbered s) : Numbered (s.localStateWrite.2.written s.localStateWrite.1) := by
  have hsequence := hs.sequence
  refine hs.snapshot.written hs.fits ?_ fun w hw hlt => ?_
  · change s.statePersistedSequence < s.stateWriteSequence + 1
    omega
  · have hle := (hs.calls w hw).sequence
    change s.stateWriteSequence + 1 < w.sequence at hlt
    omega

theorem Numbered.persist (hs : Numbered s) (saved : Bool) : Numbered (s.persist saved).2 := by
  cases saved with
  | true =>
    rw [persist_saved hs]
    exact hs.persistSaved
  | false =>
    rw [persist_unsaved hs]
    exact hs.snapshot

/-- A change of the camera and of what is to be restored. -/
def Touches (s t : State) : Prop :=
  ∃ controls queued pendingFocus focusRestoreInvalid active reply,
    t = { s with controls, queued, pendingFocus, focusRestoreInvalid, active, reply }

theorem Touches.refl (s : State) : Touches s s := ⟨_, _, _, _, _, _, rfl⟩

theorem Touches.trans {u : State} (h : Touches s t) (h' : Touches t u) : Touches s u := by
  obtain ⟨_, _, _, _, _, _, rfl⟩ := h
  obtain ⟨_, _, _, _, _, _, rfl⟩ := h'
  exact ⟨_, _, _, _, _, _, rfl⟩

theorem Touches.numbered (h : Touches s t) (hs : Numbered s) : Numbered t := by
  obtain ⟨_, _, _, _, _, _, rfl⟩ := h
  exact ⟨hs.sequence, hs.stored, hs.toPersist, hs.persisted, hs.latest,
    fun w hw => ⟨(hs.calls w hw).sequence, (hs.calls w hw).focus, (hs.calls w hw).newer, (hs.calls w hw).commands,
      (hs.calls w hw).known⟩, hs.ordered, hs.commands, hs.rows, hs.acknowledged⟩

theorem setSources_touches (d : Device) (r : Request) (call : Call) (s : State) : Touches s (setSources d r call s).2 := by
  unfold setSources
  split
  · exact .refl s
  · split
    · exact ⟨_, _, _, _, _, _, rfl⟩
    · exact .refl s
  · split
    · exact ⟨_, _, _, _, _, _, rfl⟩
    · exact .refl s

theorem restoreFocus_touches (d : Device) (r : Request) (call : Call) (s : State) : Touches s (restoreFocus d r call s).2 := by
  have hsources := setSources_touches d r call s
  have hpending : ∀ t : State, Touches t { t with pendingFocus := none } := fun _ => ⟨_, _, _, _, _, _, rfl⟩
  unfold restoreFocus
  split
  · next hresult =>
    rw [hresult] at hsources
    split
    · exact hsources.trans (hpending _)
    · exact hsources
  · next hresult =>
    rw [hresult] at hsources
    split
    · exact hsources.trans (hpending _)
    · exact hsources

theorem requireCameraConnected_touches (d : Device) (connected : Bool) (call : Call) (s : State) :
    Touches s (requireCameraConnected d connected call s).2 := by
  unfold requireCameraConnected
  split
  · exact .refl s
  split
  · exact ⟨_, _, _, _, _, _, rfl⟩
  split
  · exact .refl s
  · exact restoreFocus_touches d _ call s

/-! ### Steps keep the order -/

theorem Numbered.answer (hs : Numbered s) (reply : Reply) : Numbered (s.answer reply) :=
  Touches.numbered ⟨_, _, _, _, _, _, rfl⟩ hs

variable {number : ℕ}

theorem Numbered.acknowledge (hs : Numbered s) (h : number ≤ num s.stored) (reply : Reply) :
    Numbered (s.acknowledge number reply) := by
  have ht := hs.answer reply
  exact ⟨ht.sequence, ht.stored, ht.toPersist, ht.persisted, ht.latest,
    fun w hw => ⟨(ht.calls w hw).sequence, (ht.calls w hw).focus, (ht.calls w hw).newer, (ht.calls w hw).commands,
      (ht.calls w hw).known⟩, ht.ordered, ht.commands, ht.rows, max_le hs.acknowledged h⟩

/-- The receipt that is acknowledged is one of the receipts. -/
theorem Numbered.commit (hs : Numbered s) (saved : Bool)
    (h : number ≤ max (num s.focusToPersist) (num s.stored)) (reply : Reply) : Numbered (s.commit saved number reply) := by
  unfold State.commit
  cases saved with
  | false =>
    rw [persist_unsaved hs]
    exact hs.snapshot.answer _
  | true =>
    rw [persist_saved hs]
    refine hs.persistSaved.acknowledge (h.trans (max_le ?_ ?_)) _
    · change num s.focusToPersist ≤ num (s.focusToPersist.or s.stored)
      cases s.focusToPersist with
      | none => exact Nat.zero_le _
      | some p => exact Nat.le_refl _
    · change num s.stored ≤ num (s.focusToPersist.or s.stored)
      cases hp : s.focusToPersist with
      | none => exact Nat.le_refl _
      | some p => exact hs.latest p hp

theorem Numbered.withCommands (hs : Numbered s) {commands : Receipts} {stamps : ℕ}
    (h : ∀ c ∈ commands, c.2.number ≤ max (num s.focusToPersist) (num s.stored)) : Numbered { s with commands, stamps } :=
  ⟨hs.sequence, hs.stored, hs.toPersist, hs.persisted, hs.latest,
    fun w hw => ⟨(hs.calls w hw).sequence, (hs.calls w hw).focus, (hs.calls w hw).newer, (hs.calls w hw).commands,
      (hs.calls w hw).known⟩, hs.ordered, h, hs.rows, hs.acknowledged⟩

@[simp] theorem remember_focusToPersist (s : State) (c : Command) (number : ℕ) :
    (s.remember c number).focusToPersist = s.focusToPersist := by
  unfold State.remember
  dsimp only

@[simp] theorem remember_stored (s : State) (c : Command) (number : ℕ) : (s.remember c number).stored = s.stored := by
  unfold State.remember
  dsimp only

theorem Numbered.remember (hs : Numbered s) (c : Command) (h : number ≤ max (num s.focusToPersist) (num s.stored)) :
    Numbered (s.remember c number) := by
  refine hs.withCommands fun x hx => ?_
  rcases mem_concat.1 (List.mem_of_mem_drop hx) with hold | rfl
  · exact hs.commands x hold
  · exact h

/-- What a command does keeps the order, and its number is one of the order. -/
def Executes (execute : State → Except String ℕ × State) : Prop :=
  ∀ s, Numbered s → Numbered (execute s).2 ∧
    ∀ number, (execute s).1 = .ok number → number ≤ max (num (execute s).2.focusToPersist) (num (execute s).2.stored)

theorem Numbered.idempotent (hs : Numbered s) (c : Command) (found : Found) (reply : ℕ → Bool → Reply)
    {execute : State → Except String ℕ × State} (hexecute : Executes execute) : Numbered (s.idempotent c found reply execute) := by
  rcases idempotent_cases c found reply execute s with ⟨code, h⟩ | ⟨receipt, hrow, h⟩ | ⟨receipt, hreceipt, h⟩ |
    ⟨-, ⟨code, s', hrun, h⟩ | ⟨number, s', hrun, h⟩⟩
  · rw [h]
    exact hs.answer _
  · rw [h]
    exact hs.acknowledge (hs.rows _ (mem_of_lookup hrow)) _
  · rw [h]
    exact hs.commit _ (hs.commands _ (mem_of_lookup hreceipt)) _
  · have hs' := (hexecute s hs).1
    rw [hrun] at hs'
    rw [h]
    exact hs'.answer _
  · obtain ⟨hs', hnumber⟩ := hexecute s hs
    rw [hrun] at hs' hnumber
    have hle := hnumber number rfl
    have hremembered := hs'.remember c hle
    rw [h]
    exact hremembered.commit _ (by rw [remember_focusToPersist, remember_stored]; exact hle) _

/-- A new preference is the latest. -/
theorem Numbered.succeed (hs : Numbered s) (request : Request) :
    Numbered { s with
      focusToPersist := some ⟨s.successes.length + 1, request⟩
      pendingFocus := none
      focusRestoreInvalid := false
      lost := false
      successes := s.successes ++ [request] } := by
  have hstored := hs.le_successes
  have hfocus : num s.focusToPersist ≤ s.successes.length + 1 := by
    cases hp : s.focusToPersist with
    | none => exact Nat.zero_le _
    | some p =>
      obtain ⟨hpos, hget⟩ := hs.toPersist p hp
      have hlt := (List.getElem?_eq_some_iff.1 hget).1
      change p.number ≤ _
      omega
  have hknown : ∀ {p : Preference}, 0 < p.number ∧ s.successes[p.number - 1]? = some p.request →
      0 < p.number ∧ (s.successes ++ [request])[p.number - 1]? = some p.request :=
    fun h => ⟨h.1, getElem?_concat h.2⟩
  refine ⟨hs.sequence, fun p hp => hknown (hs.stored p hp), fun p hp => ?_, hs.persisted, fun p hp => ?_, fun w hw => ?_, hs.ordered,
    fun c hc => ?_, hs.rows, hs.acknowledged⟩
  · cases hp
    exact ⟨Nat.succ_pos _, List.getElem?_concat_length⟩
  · cases hp
    exact Nat.le_succ_of_le hstored
  · have hfits := hs.calls w hw
    exact ⟨hfits.sequence, hfits.focus.trans hfocus, hfits.newer, hfits.commands, fun p hp => hknown (hfits.known p hp)⟩
  · exact (hs.commands c hc).trans (max_le_max_right _ hfocus)

theorem executes_setCameraFocus (d : Device) (connected : Bool) (body : Body) (call : Call) :
    Executes (setCameraFocus d connected body call) := by
  intro s hs
  unfold setCameraFocus
  split
  · exact ⟨hs, nofun⟩
  split
  · exact ⟨hs, nofun⟩
  next r _ =>
    have hsources := (setSources_touches d r call s).numbered hs
    split
    · next hresult =>
      rw [hresult] at hsources
      exact ⟨hsources, nofun⟩
    · next status t hresult =>
      rw [hresult] at hsources
      split
      · refine ⟨hsources.succeed _, fun number hnumber => ?_⟩
        cases hnumber
        exact Nat.le_max_left _ _
      · exact ⟨hsources, nofun⟩

theorem executes_startCapture (d : Device) (connected : Bool) (call : Call) (admitted : Bool) (begins : Begin) :
    Executes (startCapture d connected call admitted begins) := by
  intro s hs
  unfold startCapture
  split
  · exact ⟨hs, nofun⟩
  have hrequire := (requireCameraConnected_touches d connected call s).numbered hs
  split
  · next hresult =>
    rw [hresult] at hrequire
    exact ⟨hrequire, nofun⟩
  · next t hresult =>
    rw [hresult] at hrequire
    cases begins with
    | refused => exact ⟨hrequire, nofun⟩
    | failed saved => exact ⟨hrequire.persist saved, nofun⟩
    | begun =>
      refine ⟨Touches.numbered ⟨_, _, _, _, _, _, rfl⟩ hrequire, fun number hnumber => ?_⟩
      cases hnumber
      exact Nat.zero_le _

/-- The camera is another one. -/
theorem Numbered.replug (hs : Numbered s) (controls : Controls) (lost : Bool) (reply : Reply) :
    Numbered { s with controls, own := controls, lost, reply } :=
  ⟨hs.sequence, hs.stored, hs.toPersist, hs.persisted, hs.latest,
    fun w hw => ⟨(hs.calls w hw).sequence, (hs.calls w hw).focus, (hs.calls w hw).newer, (hs.calls w hw).commands,
      (hs.calls w hw).known⟩, hs.ordered, hs.commands, hs.rows, hs.acknowledged⟩

/-- The state of a new coordinator before its write. -/
theorem Numbered.reset (hs : Numbered s) :
    Numbered { s with
      lost := false
      queued := []
      pendingFocus := s.stored.map (·.request)
      focusRestoreInvalid := false
      focusToPersist := none
      persistedFocus := none
      commands := s.rows
      stateWriteSequence := 0
      statePersistedSequence := 0
      calls := []
      active := false
      reply := .idle } where
  sequence := Nat.le_refl _
  stored := hs.stored
  toPersist := nofun
  persisted := nofun
  latest := nofun
  calls := nofun
  ordered := nofun
  commands c hc := (hs.rows c hc).trans (Nat.le_max_right _ _)
  rows := hs.rows
  acknowledged := hs.acknowledged

/-- A write is taken later. -/
theorem Numbered.delay (hs : Numbered s) : Numbered { s.localStateWrite.2 with calls := s.calls ++ [s.localStateWrite.1] } := by
  have ht := hs.snapshot
  refine ⟨ht.sequence, ht.stored, ht.toPersist, ht.persisted, ht.latest, fun w hw => ?_, fun w hw w' hw' hle => ?_, ht.commands,
    ht.rows, ht.acknowledged⟩
  · have hfits : Fits s.localStateWrite.2 w := by
      rcases mem_concat.1 hw with hold | rfl
      · exact ht.calls w hold
      · exact hs.fits
    exact ⟨hfits.sequence, hfits.focus, hfits.newer, hfits.commands, hfits.known⟩
  · rcases mem_concat.1 hw with hold | hnew
    · rcases mem_concat.1 hw' with hold' | rfl
      · exact hs.ordered w hold w' hold' hle
      · exact (hs.calls w hold).focus
    · rcases mem_concat.1 hw' with hold' | hnew'
      · have hsequence := (hs.calls w' hold').sequence
        rw [hnew] at hle
        change s.stateWriteSequence + 1 ≤ w'.sequence at hle
        omega
      · rw [hnew, hnew']

theorem Numbered.withCalls (hs : Numbered s) {calls : List Write} (h : ∀ w ∈ calls, w ∈ s.calls) (reply : Reply) :
    Numbered { s with calls, reply } :=
  ⟨hs.sequence, hs.stored, hs.toPersist, hs.persisted, hs.latest,
    fun w hw => ⟨(hs.calls w (h w hw)).sequence, (hs.calls w (h w hw)).focus, (hs.calls w (h w hw)).newer,
      (hs.calls w (h w hw)).commands, (hs.calls w (h w hw)).known⟩,
    fun w hw w' hw' => hs.ordered w (h w hw) w' (h w' hw'), hs.commands, hs.rows, hs.acknowledged⟩

theorem Numbered.write (hs : Numbered s) {w : Write} (hw : w ∈ s.calls) (saved : Bool) : Numbered (s.write saved w).2 := by
  rcases write_cases hs saved w with hsame | ⟨hsequence, hwritten⟩
  · rw [hsame]
    exact hs
  · rw [hwritten]
    exact hs.written (hs.calls w hw) hsequence fun w' hw' hlt => hs.ordered w hw w' hw' (by omega)

theorem Numbered.step (hs : Numbered s) {a : Action} (h : Focus.step d s a = some t) : Numbered t := by
  cases a with
  | setCameraFocus c found connected body call =>
    rw [Focus.step] at h
    obtain ⟨-, hrun⟩ := Option.ite_none_right_eq_some.1 h
    cases hrun
    exact hs.idempotent c found _ (executes_setCameraFocus d connected body call)
  | start c found connected call admitted begins =>
    rw [Focus.step] at h
    obtain ⟨-, hrun⟩ := Option.ite_none_right_eq_some.1 h
    cases hrun
    exact hs.idempotent c found _ (executes_startCapture d connected call admitted begins)
  | stop =>
    cases h
    exact Touches.numbered ⟨_, _, _, _, _, _, rfl⟩ hs
  | snapshot =>
    cases h
    exact hs.delay.answer .idle
  | write i saved =>
    obtain ⟨w, hw, hrun⟩ := Option.bind_eq_some_iff.1 h
    cases hrun
    exact (hs.write (List.mem_of_getElem? hw) saved).withCalls (fun _ hmem => List.mem_of_mem_eraseIdx hmem) .idle
  | late faults =>
    rw [Focus.step] at h
    split at h
    · cases h
    · cases h
      exact Touches.numbered ⟨_, _, _, _, _, _, rfl⟩ hs
  | gone =>
    cases h
    exact Touches.numbered ⟨_, _, _, _, _, _, rfl⟩ hs
  | replug controls =>
    cases h
    exact hs.replug controls _ _
  | restart connected call =>
    cases h
    exact (requireCameraConnected_touches d connected call _).numbered (hs.reset.persist true)

theorem Numbered.run (hs : Numbered s) {as : List Action} (h : Runs.run (Focus.step d) s as = some t) : Numbered t :=
  run_invariant (fun _ _ _ hs h => hs.step h) hs h

end Conductor.Focus
