import Conductor.Camera.FocusLaw
import Conductor.Coordinator.FocusOrder

/-! Takes and the focus that was acknowledged. That the camera has the stored preference when a take
begins, and that a refused request changes nothing, takes requests that are clean and preferences that
can be restored: a preference with auto focus on is restored as a manual focus. -/

namespace Conductor.Focus

open Camera Persistence Runs

variable {d : Device} {s t : State} {r : Request} {call : Call}

structure Agrees (c : Controls) (r : Request) : Prop where
  focus : ∀ value ∈ r.value, c.focus = value
  auto : ∀ enabled ∈ r.autoEnabled, c.auto = enabled

/-- The call of a request leaves the controls, or gives a status that counts. -/
def CleanCall (d : Device) (c : Controls) (r : Request) (call : Call) : Prop :=
  r.value.all fitsInt32 = true → match call with
    | .unavailable => True
    | .timeout => False
    | .executed faults => d.Clean c r.value r.autoEnabled faults

/-- The preference is not one with auto focus on, and the camera knows its focus. -/
def Restorable (r : Request) (call : Call) : Prop :=
  r.autoEnabled ≠ some true ∧ match call with
    | .executed faults => faults 0 ≠ some .unsupported
    | _ => True

/-- The requests that reach the camera are clean, what a start or a new coordinator restores can be
restored, and no take starts with a camera that came back with other controls and none to restore. -/
def Careful (d : Device) (s : State) (a : Action) (_ : State) : Prop :=
  match a with
  | .setCameraFocus c _ connected body call =>
    connected = true → s.commands.lookup c.scope = none → ∀ r ∈ body.request, CleanCall d s.controls r call
  | .start c _ connected call admitted _ =>
    connected = true → admitted = true → s.active = false → s.commands.lookup c.scope = none →
      s.lost = false ∧ ∀ r ∈ s.pendingFocus, Restorable r call
  | .restart connected call => connected = true → ∀ p ∈ s.stored, Restorable p.request call
  | _ => True

/-- Between the commands the camera has the latest preference, or it is still to be restored or lost. -/
structure Faithful (d : Device) (s : State) : Prop where
  numbered : Numbered s
  queue : ∀ r ∈ s.queued, s.pendingFocus = some r
  pending : ∀ r ∈ s.pendingFocus, s.focusToPersist = none ∧ ∃ p, s.stored = some p ∧ p.request = r
  valid : s.focusRestoreInvalid = false
  agrees : s.lost = false → s.pendingFocus = none → ∀ p ∈ s.focusToPersist.or s.stored, Agrees s.controls p.request
  declared : s.successes ≠ [] → d.focus ≠ none
  values : ∀ r ∈ s.successes, r.value.isSome
  untouched : s.successes = [] → s.controls = s.own

theorem Numbered.of_stored (hs : Numbered s) {p : Preference} (hp : s.stored = some p) : p.request ∈ s.successes :=
  List.mem_of_getElem? (hs.stored p hp).2

/-- What is to be restored is a preference that was set. -/
theorem Faithful.of_pending (hs : Faithful d s) (hr : s.pendingFocus = some r) : r ∈ s.successes := by
  obtain ⟨-, p, hp, rfl⟩ := hs.pending r hr
  exact hs.numbered.of_stored hp

/-! ### What the writes and the answers leave -/

structure Preserves (s t : State) : Prop where
  controls : t.controls = s.controls
  own : t.own = s.own
  lost : t.lost = s.lost
  queued : t.queued = s.queued
  pending : t.pendingFocus = s.pendingFocus
  valid : t.focusRestoreInvalid = s.focusRestoreInvalid
  toPersist : t.focusToPersist = s.focusToPersist
  successes : t.successes = s.successes
  stored : s.focusToPersist = none → t.stored = s.stored

theorem Preserves.trans {u : State} (h : Preserves s t) (h' : Preserves t u) : Preserves s u :=
  ⟨h'.controls.trans h.controls, h'.own.trans h.own, h'.lost.trans h.lost, h'.queued.trans h.queued, h'.pending.trans h.pending, h'.valid.trans h.valid,
    h'.toPersist.trans h.toPersist, h'.successes.trans h.successes,
    fun hn => (h'.stored (h.toPersist.trans hn)).trans (h.stored hn)⟩

theorem Faithful.preserve (hs : Faithful d s) (h : Preserves s t) (ht : Numbered t) : Faithful d t := by
  refine ⟨ht, fun r hr => ?_, fun r hr => ?_, h.valid.trans hs.valid, fun hl hn p hp => ?_, fun hne => ?_, fun r hr => ?_,
    fun hnil => ?_⟩
  · rw [h.queued] at hr
    rw [h.pending]
    exact hs.queue r hr
  · rw [h.pending] at hr
    obtain ⟨hnone, hp⟩ := hs.pending r hr
    rw [h.toPersist, h.stored hnone]
    exact ⟨hnone, hp⟩
  · rw [h.controls]
    rw [h.pending] at hn
    refine hs.agrees (h.lost ▸ hl) hn p ?_
    rw [h.toPersist] at hp
    cases hfocus : s.focusToPersist with
    | none =>
      rw [hfocus, h.stored hfocus] at hp
      exact hp
    | some q =>
      rw [hfocus] at hp
      exact hp
  · exact hs.declared (h.successes ▸ hne)
  · exact hs.values r (h.successes ▸ hr)
  · rw [h.controls, h.own]
    exact hs.untouched (h.successes ▸ hnil)

theorem answer_preserves (s : State) (reply : Reply) : Preserves s (s.answer reply) := ⟨rfl, rfl, rfl, rfl, rfl, rfl, rfl, rfl, fun _ => rfl⟩

theorem acknowledge_preserves (s : State) (number : ℕ) (reply : Reply) : Preserves s (s.acknowledge number reply) :=
  ⟨rfl, rfl, rfl, rfl, rfl, rfl, rfl, rfl, fun _ => rfl⟩

theorem remember_preserves (s : State) (c : Command) (number : ℕ) : Preserves s (s.remember c number) := by
  unfold State.remember
  exact ⟨by dsimp only, by dsimp only, by dsimp only, by dsimp only, by dsimp only, by dsimp only, by dsimp only, by dsimp only,
    fun _ => by dsimp only⟩

theorem written_preserves {w : Write} (h : s.focusToPersist = none → w.focus = none) : Preserves s (s.written w) := by
  refine ⟨rfl, rfl, rfl, rfl, rfl, rfl, rfl, rfl, fun hn => ?_⟩
  change w.focus.or s.stored = s.stored
  rw [h hn]
  rfl

theorem persist_preserves (hs : Numbered s) (saved : Bool) : Preserves s (s.persist saved).2 := by
  have hsnapshot : Preserves s s.localStateWrite.2 := ⟨rfl, rfl, rfl, rfl, rfl, rfl, rfl, rfl, fun _ => rfl⟩
  cases saved with
  | true =>
    rw [persist_saved hs]
    exact hsnapshot.trans (written_preserves id)
  | false =>
    rw [persist_unsaved hs]
    exact hsnapshot

theorem commit_preserves (hs : Numbered s) (saved : Bool) (number : ℕ) (reply : Reply) : Preserves s (s.commit saved number reply) := by
  have hpersist := persist_preserves hs saved
  unfold State.commit
  split
  · next hresult =>
    rw [hresult] at hpersist
    exact hpersist.trans (acknowledge_preserves _ _ _)
  · next hresult =>
    rw [hresult] at hpersist
    exact hpersist.trans (answer_preserves _ _)

/-! ### Requests -/

theorem call_enabled {faults : Faults} (h : (Call.executed faults).enabled s = true) : s.queued = [] := List.isEmpty_iff.1 h

theorem setSources_cases (d : Device) (r : Request) (call : Call) (s : State) :
    (∃ code, code ≠ "camera_focus_unsupported" ∧ setSources d r call s = (.error code, s)) ∨
    (r.value.all fitsInt32 = true ∧ call = .timeout ∧
      setSources d r call s = (.error "native_camera_control_timeout", { s with queued := s.queued ++ [r] })) ∨
    ∃ faults, r.value.all fitsInt32 = true ∧ call = .executed faults ∧
      setSources d r call s = ((d.setFocus r.value r.autoEnabled faults ⟨s.controls, 0⟩).1,
        { s with controls := (d.setFocus r.value r.autoEnabled faults ⟨s.controls, 0⟩).2.controls }) := by
  by_cases hfits : (r.value.all fitsInt32 && (r.value.isSome || r.autoEnabled.isSome)) = true
  · have hvalue := (Bool.and_eq_true_iff.1 hfits).1
    cases call with
    | unavailable => exact .inl ⟨_, by decide, rfl⟩
    | timeout => exact .inr (.inl ⟨hvalue, rfl, if_pos hfits⟩)
    | executed faults => exact .inr (.inr ⟨faults, hvalue, rfl, if_pos hfits⟩)
  · refine .inl ⟨"camera_focus_unavailable", by decide, ?_⟩
    cases call with
    | unavailable => rfl
    | timeout => exact if_neg hfits
    | executed faults => exact if_neg hfits

/-- A clean call gives a status of the controls, or leaves the state. -/
theorem setSources_clean (hclean : CleanCall d s.controls r call) :
    (∃ code, setSources d r call s = (.error code, s)) ∨
    ∃ faults status controls, call = .executed faults ∧ setSources d r call s = (.ok status, { s with controls }) ∧
      (validCameraFocusStatus status = false → controls = s.controls) ∧ Reads d status controls := by
  rcases setSources_cases d r call s with ⟨code, -, h⟩ | ⟨hvalue, rfl, h⟩ | ⟨faults, hvalue, rfl, h⟩
  · exact .inl ⟨code, h⟩
  · exact (hclean hvalue).elim
  · have hunchanged := (hclean hvalue).unchanged
    have hreads : Control.Wp _ faults _ _ _ := wp_setFocus_reads d r.value r.autoEnabled ⟨s.controls, 0⟩
    unfold Unchanged at hunchanged
    unfold Control.Wp at hunchanged hreads
    rw [h]
    rcases hrun : d.setFocus r.value r.autoEnabled faults ⟨s.controls, 0⟩ with ⟨code | status, io⟩
    · rw [hrun] at hunchanged
      refine .inl ⟨code, ?_⟩
      dsimp only
      rw [show io.controls = s.controls from hunchanged]
    · rw [hrun] at hunchanged hreads
      exact .inr ⟨faults, status, io.controls, rfl, rfl, hunchanged, hreads⟩

variable {connected : Bool} {number : ℕ}

theorem setCameraFocus_clean (hs : Faithful d s) {body : Body} (henabled : call.enabled s = true)
    (hclean : connected = true → ∀ r ∈ body.request, CleanCall d s.controls r call) :
    (∃ code, setCameraFocus d connected body call s = (.error code, s)) ∨
    ∃ number t, setCameraFocus d connected body call s = (.ok number, t) ∧ Faithful d t := by
  have hexecutes := (executes_setCameraFocus d connected body call s hs.numbered).1
  unfold setCameraFocus at hexecutes ⊢
  cases connected with
  | false => exact .inl ⟨_, rfl⟩
  | true =>
    rw [if_neg (by decide)] at hexecutes ⊢
    cases hbody : body.request with
    | none => exact .inl ⟨_, rfl⟩
    | some r =>
      rw [hbody] at hexecutes
      dsimp only at hexecutes ⊢
      rcases setSources_clean (hclean rfl r hbody) with ⟨code, h⟩ | ⟨faults, status, controls, rfl, h, hsame, hreads⟩
      · exact .inl ⟨code, by rw [h]⟩
      rw [h] at hexecutes
      rw [h]
      dsimp only at hexecutes ⊢
      cases hvalid : validCameraFocusStatus status with
      | false =>
        rw [hsame hvalid]
        exact .inl ⟨_, rfl⟩
      | true =>
        rw [hvalid] at hexecutes
        refine .inr ⟨_, _, rfl, hexecutes, fun r' hr' => ?_, nofun, rfl, fun _ _ p hp => ?_, fun _ => ?_, fun r' hr' => ?_,
          fun hnil => ?_⟩
        · rw [show s.queued = [] from call_enabled henabled] at hr'
          cases hr'
        · cases hp
          refine ⟨fun value hv => ?_, hreads.auto⟩
          cases hv
          exact hreads.value.symm
        · obtain ⟨q, hq, -⟩ := hreads.ranges
          rw [hq]
          nofun
        · rcases mem_concat.1 hr' with hold | rfl
          · exact hs.values r' hold
          · rfl
        · exact absurd hnil (by simp)

/-! ### Restores -/

/-- What is still to be restored is no matter of the controls. -/
theorem Faithful.restoring (hs : Faithful d s) (hr : s.pendingFocus = some r) (controls : Controls) (queued : List Request)
    (hqueued : ∀ r' ∈ queued, r' = r) (reply : Reply) : Faithful d { s with controls, queued, reply } := by
  have hsome := hs.of_pending hr
  refine ⟨Touches.numbered ⟨_, _, _, _, _, _, rfl⟩ hs.numbered, fun r' hr' => ?_, hs.pending, hs.valid, fun _ hn => ?_, hs.declared,
    hs.values, fun hnil => ?_⟩
  · rw [hqueued r' hr']
    exact hr
  · cases hr.symm.trans hn
  · rw [show s.successes = [] from hnil] at hsome
    cases hsome

/-- A preference is restored. -/
theorem Faithful.restored (hs : Faithful d s) (hr : s.pendingFocus = some r) {controls : Controls} (hagrees : Agrees controls r)
    (hqueue : s.queued = []) : Faithful d { s with controls, pendingFocus := none } := by
  have hsome := hs.of_pending hr
  refine ⟨Touches.numbered ⟨_, _, _, _, _, _, rfl⟩ hs.numbered, fun r' hr' => ?_, nofun, hs.valid, fun _ _ p hp => ?_, hs.declared,
    hs.values, fun hnil => ?_⟩
  · rw [show s.queued = [] from hqueue] at hr'
    cases hr'
  · obtain ⟨hnone, q, hq, rfl⟩ := hs.pending r hr
    rw [show s.focusToPersist = none from hnone, show s.stored = some q from hq] at hp
    cases hp
    exact hagrees
  · rw [show s.successes = [] from hnil] at hsome
    cases hsome

theorem restoreFocus_restorable (hs : Faithful d s) (hr : s.pendingFocus = some r) (henabled : call.enabled s = true)
    (hrestorable : Restorable r call) :
    (∃ code t, restoreFocus d r call s = (.error code, t) ∧ Faithful d t) ∨
    ∃ t, restoreFocus d r call s = (.ok (), t) ∧ Faithful d t ∧ t.pendingFocus = none := by
  have hqueue : ∀ r' ∈ s.queued, r' = r := fun r' hr' => Option.some.inj ((hs.queue r' hr').symm.trans hr)
  unfold restoreFocus
  rcases setSources_cases d r call s with ⟨code, hcode, h⟩ | ⟨-, rfl, h⟩ | ⟨faults, -, rfl, h⟩
  · rw [h]
    dsimp only
    rw [if_neg hcode]
    exact .inl ⟨_, s, rfl, hs⟩
  · rw [h]
    dsimp only
    rw [if_neg (by decide)]
    refine .inl ⟨_, _, rfl, hs.restoring hr s.controls (s.queued ++ [r]) (fun r' hr' => ?_) s.reply⟩
    rcases mem_concat.1 hr' with hold | hnew
    · exact hqueue r' hold
    · exact hnew
  · obtain ⟨value, hvalue⟩ := Option.isSome_iff_exists.1 (hs.values r (hs.of_pending hr))
    have hempty := call_enabled henabled
    have hrestores : Control.Wp _ faults _ _ _ := wp_setFocus_restores d value hrestorable.1 s.controls
    have hagrees : ∀ {controls : Controls}, Asked value r.autoEnabled controls → Agrees controls r := by
      intro controls hasked
      refine ⟨fun value' hv => ?_, hasked.auto⟩
      rw [← Option.some.inj (hvalue.symm.trans hv)]
      exact hasked.focus
    unfold Control.Wp at hrestores
    rw [h, hvalue]
    rcases hrun : d.setFocus (some value) r.autoEnabled faults ⟨s.controls, 0⟩ with ⟨code | status, io⟩
    · rw [hrun] at hrestores
      dsimp only
      split
      · next hcode =>
        rcases hrestores hcode with hnone | hfault | hasked
        · exact absurd hnone (hs.declared fun hnil => by
            have hmem := hs.of_pending hr
            rw [hnil] at hmem
            cases hmem)
        · exact absurd hfault hrestorable.2
        · exact .inr ⟨_, rfl, hs.restored hr (hagrees hasked) hempty, rfl⟩
      · exact .inl ⟨_, _, rfl, hs.restoring hr io.controls s.queued hqueue s.reply⟩
    · rw [hrun] at hrestores
      dsimp only
      split
      · exact .inr ⟨_, rfl, hs.restored hr (hagrees hrestores) hempty, rfl⟩
      · exact .inl ⟨_, _, rfl, hs.restoring hr io.controls s.queued hqueue s.reply⟩

theorem requireCameraConnected_restorable (hs : Faithful d s) (henabled : call.enabled s = true)
    (hrestorable : connected = true → ∀ r ∈ s.pendingFocus, Restorable r call) :
    (∃ code t, requireCameraConnected d connected call s = (.error code, t) ∧ Faithful d t) ∨
    ∃ t, requireCameraConnected d connected call s = (.ok (), t) ∧ Faithful d t ∧ t.pendingFocus = none := by
  have hinvalid : pendingInvalid s = false := by
    unfold pendingInvalid
    rw [hs.valid, Bool.false_or]
    cases hr : s.pendingFocus with
    | none => rfl
    | some r =>
      have hvalue := hs.values r (hs.of_pending hr)
      rw [Option.any_some, ← Option.not_isSome, hvalue]
      rfl
  unfold requireCameraConnected
  cases connected with
  | false => exact .inl ⟨_, s, rfl, hs⟩
  | true =>
    rw [if_neg (by decide), hinvalid, if_neg (by decide)]
    cases hr : s.pendingFocus with
    | none => exact .inr ⟨s, rfl, hs, hr⟩
    | some r => exact restoreFocus_restorable hs hr henabled (hrestorable rfl r hr)

/-! ### Steps -/

theorem startCapture_restorable (hs : Faithful d s) {admitted : Bool} {begins : Begin} (henabled : call.enabled s = true)
    (hrestorable : connected = true → admitted = true → s.active = false → ∀ r ∈ s.pendingFocus, Restorable r call) :
    (∃ code t, startCapture d connected call admitted begins s = (.error code, t) ∧ Faithful d t) ∨
    ∃ t, startCapture d connected call admitted begins s = (.ok 0, t) ∧ Faithful d t ∧ t.pendingFocus = none ∧ t.lost = s.lost := by
  unfold startCapture
  split
  · exact .inl ⟨_, s, rfl, hs⟩
  · next hguard =>
    obtain ⟨hadmitted, hactive⟩ : admitted = true ∧ s.active = false := by simpa using hguard
    rcases requireCameraConnected_restorable hs henabled fun hc => hrestorable hc hadmitted hactive with
      ⟨code, t, h, ht⟩ | ⟨t, h, ht, hnone⟩
    · rw [h]
      exact .inl ⟨code, t, rfl, ht⟩
    · have hlost : t.lost = s.lost := by
        obtain ⟨_, _, _, _, _, _, heq⟩ := requireCameraConnected_touches d connected call s
        rw [h] at heq
        have hlost := congrArg State.lost heq
        exact hlost
      rw [h]
      cases begins with
      | refused => exact .inl ⟨_, t, rfl, ht⟩
      | failed saved => exact .inl ⟨_, _, rfl, ht.preserve (persist_preserves ht.numbered saved) (ht.numbered.persist saved)⟩
      | begun =>
        have hactive : Preserves t { t with active := true } := ⟨rfl, rfl, rfl, rfl, rfl, rfl, rfl, rfl, fun _ => rfl⟩
        exact .inr ⟨_, rfl, ht.preserve hactive (Touches.numbered ⟨_, _, _, _, _, _, rfl⟩ ht.numbered), hnone, hlost⟩

theorem startCapture_ok {admitted : Bool} {begins : Begin}
    (h : startCapture d connected call admitted begins s = (.ok number, t)) : connected = true ∧ admitted = true ∧ s.active = false := by
  unfold startCapture at h
  split at h
  · cases h
  · next hguard =>
    obtain ⟨hadmitted, hactive⟩ : admitted = true ∧ s.active = false := by simpa using hguard
    cases connected with
    | true => exact ⟨rfl, hadmitted, hactive⟩
    | false => cases h

theorem Faithful.answer (hs : Faithful d s) (reply : Reply) : Faithful d (s.answer reply) :=
  hs.preserve (answer_preserves s reply) (hs.numbered.answer reply)

theorem Faithful.commit (hs : Faithful d s) (saved : Bool)
    (h : number ≤ max (num s.focusToPersist) (num s.stored)) (reply : Reply) : Faithful d (s.commit saved number reply) :=
  hs.preserve (commit_preserves hs.numbered saved number reply) (hs.numbered.commit saved h reply)

theorem Faithful.remember (hs : Faithful d s) (c : Command)
    (h : number ≤ max (num s.focusToPersist) (num s.stored)) : Faithful d (s.remember c number) :=
  hs.preserve (remember_preserves s c number) (hs.numbered.remember c h)

/-- A state that is written has its latest preference stored. -/
theorem commit_stored (hs : Numbered s) {saved : Bool} {reply : Reply} (hreply : reply ≠ .unsaved)
    (h : (s.commit saved number reply).reply = reply) : (s.commit saved number reply).stored = s.focusToPersist.or s.stored := by
  unfold State.commit at h ⊢
  cases saved with
  | true =>
    rw [persist_saved hs]
    rfl
  | false =>
    rw [persist_unsaved hs] at h
    exact absurd h.symm hreply

theorem commit_reply (s : State) (saved : Bool) (number : ℕ) (reply : Reply) :
    (s.commit saved number reply).reply = reply ∨ (s.commit saved number reply).reply = .unsaved := by
  unfold State.commit
  split
  · exact .inl rfl
  · exact .inr rfl

/-- What the property says of a step. -/
def Recorded (s : State) (a : Action) (t : State) : Prop :=
  match a with
  | .setCameraFocus .. => ∀ code, t.reply = .failed code → t.controls = s.controls ∧ t.stored = s.stored
  | .start .. =>
    t.reply = .started false → (∀ p ∈ t.stored, Agrees t.controls p.request) ∧ (t.successes = [] → t.controls = t.own)
  | _ => True

theorem setCameraFocus_step (hs : Faithful d s) {c : Command} {found : Found} {body : Body}
    (henabled : call.enabled s = true)
    (hclean : connected = true → s.commands.lookup c.scope = none → ∀ r ∈ body.request, CleanCall d s.controls r call) :
    Faithful d (s.idempotent c found .focus (setCameraFocus d connected body call)) ∧
      ∀ code, (s.idempotent c found .focus (setCameraFocus d connected body call)).reply = .failed code →
        (s.idempotent c found .focus (setCameraFocus d connected body call)).controls = s.controls ∧
        (s.idempotent c found .focus (setCameraFocus d connected body call)).stored = s.stored := by
  have hcommit : ∀ {t : State} {saved replayed : Bool} {number code}, (t.commit saved number (.focus number replayed)).reply ≠ .failed code := by
    intro t saved replayed number code h
    rcases commit_reply t saved number (.focus number replayed) with hr | hr <;> cases hr.symm.trans h
  rcases idempotent_cases c found .focus (setCameraFocus d connected body call) s with ⟨code, h⟩ | ⟨receipt, hrow, h⟩ |
    ⟨receipt, hreceipt, h⟩ | ⟨hnone, ⟨code, s', hrun, h⟩ | ⟨number, s', hrun, h⟩⟩
  · rw [h]
    exact ⟨hs.answer _, fun _ _ => ⟨rfl, rfl⟩⟩
  · rw [h]
    exact ⟨hs.preserve (acknowledge_preserves _ _ _) (hs.numbered.acknowledge (hs.numbered.rows _ (mem_of_lookup hrow)) _), nofun⟩
  · rw [h]
    exact ⟨hs.commit _ (hs.numbered.commands _ (mem_of_lookup hreceipt)) _, fun code hr => absurd hr hcommit⟩
  · rcases setCameraFocus_clean hs henabled fun hc => hclean hc hnone with ⟨code', hrun'⟩ | ⟨number, t, hrun', -⟩
    · cases hrun.symm.trans hrun'
      rw [h]
      exact ⟨hs.answer _, fun _ _ => ⟨rfl, rfl⟩⟩
    · cases hrun.symm.trans hrun'
  · rcases setCameraFocus_clean hs henabled fun hc => hclean hc hnone with ⟨code, hrun'⟩ | ⟨number', t, hrun', ht⟩
    · cases hrun.symm.trans hrun'
    · cases hrun.symm.trans hrun'
      have hle := (executes_setCameraFocus d connected body call s hs.numbered).2
      rw [hrun] at hle
      rw [h]
      refine ⟨(ht.remember c (hle number rfl)).commit _ ?_ _, fun code hr => absurd hr hcommit⟩
      rw [remember_focusToPersist, remember_stored]
      exact hle number rfl

/-- A start that is written has the stored preference. -/
theorem Faithful.started (hs : Faithful d s) (hlost : s.lost = false) (hnone : s.pendingFocus = none) {saved : Bool}
    (hcommit : Faithful d (s.commit saved 0 (.started false)))
    (h : (s.commit saved 0 (.started false)).reply = .started false) :
    ∀ p ∈ (s.commit saved 0 (.started false)).stored, Agrees (s.commit saved 0 (.started false)).controls p.request := by
  have hpreserves := commit_preserves hs.numbered saved 0 (.started false)
  have hstored := commit_stored hs.numbered (by decide) h
  intro p hp
  refine hcommit.agrees (hpreserves.lost.trans hlost) (hpreserves.pending.trans hnone) p ?_
  rw [hstored] at hp ⊢
  rw [hpreserves.toPersist, ← Option.or_assoc, Option.or_self]
  exact hp

theorem start_step (hs : Faithful d s) {c : Command} (found : Found) {admitted : Bool} (begins : Begin)
    (henabled : call.enabled s = true)
    (hcareful : connected = true → admitted = true → s.active = false → s.commands.lookup c.scope = none →
      s.lost = false ∧ ∀ r ∈ s.pendingFocus, Restorable r call) :
    Faithful d (s.idempotent c found (fun _ => .started) (startCapture d connected call admitted begins)) ∧
      ((s.idempotent c found (fun _ => .started) (startCapture d connected call admitted begins)).reply = .started false →
        ∀ p ∈ (s.idempotent c found (fun _ => .started) (startCapture d connected call admitted begins)).stored,
          Agrees (s.idempotent c found (fun _ => .started) (startCapture d connected call admitted begins)).controls p.request) := by
  rcases idempotent_cases c found (fun _ => .started) (startCapture d connected call admitted begins) s with ⟨code, h⟩ |
    ⟨receipt, hrow, h⟩ | ⟨receipt, hreceipt, h⟩ | ⟨hlookup, ⟨code, s', hrun, h⟩ | ⟨number, s', hrun, h⟩⟩
  · rw [h]
    exact ⟨hs.answer _, nofun⟩
  · rw [h]
    exact ⟨hs.preserve (acknowledge_preserves _ _ _) (hs.numbered.acknowledge (hs.numbered.rows _ (mem_of_lookup hrow)) _), nofun⟩
  · rw [h]
    refine ⟨hs.commit _ (hs.numbered.commands _ (mem_of_lookup hreceipt)) _, fun hr => ?_⟩
    rcases commit_reply s found.saved receipt.number (.started true) with hr' | hr' <;> cases hr'.symm.trans hr
  · rcases startCapture_restorable hs henabled fun hc ha hactive => (hcareful hc ha hactive hlookup).2 with
      ⟨code', t, hrun', ht⟩ | ⟨t, hrun', -⟩
    · cases hrun.symm.trans hrun'
      rw [h]
      exact ⟨ht.answer _, nofun⟩
    · cases hrun.symm.trans hrun'
  · rcases startCapture_restorable hs henabled fun hc ha hactive => (hcareful hc ha hactive hlookup).2 with
      ⟨code, t, hrun', -⟩ | ⟨t, hrun', ht, hnone, hlost⟩
    · cases hrun.symm.trans hrun'
    · cases hrun.symm.trans hrun'
      have hlost : s'.lost = false := by
        obtain ⟨hconnected, hadmitted, hactive⟩ := startCapture_ok hrun
        exact hlost.trans (hcareful hconnected hadmitted hactive hlookup).1
      have hremembered := ht.remember c (Nat.zero_le _)
      have hcommit := hremembered.commit found.saved (Nat.zero_le _) (.started false)
      rw [h]
      have hpreserves := remember_preserves s' c 0
      exact ⟨hcommit, hremembered.started (hpreserves.lost.trans hlost) (hpreserves.pending.trans hnone) hcommit⟩

/-- A new coordinator has the stored preference to restore. -/
theorem Faithful.restart (hs : Faithful d s)
    (hrestorable : connected = true → ∀ p ∈ s.stored, Restorable p.request call) : Faithful d (s.restart d connected call) := by
  have hreset := hs.numbered.reset
  unfold State.restart
  dsimp only
  generalize hu : ({ s with
    lost := false
    queued := []
    pendingFocus := s.stored.map (·.request)
    focusRestoreInvalid := false
    focusToPersist := none
    persistedFocus := none
    commands := s.rows
    stateWriteSequence := 0
    statePersistedSequence := 0
    calls := []
    active := false
    reply := .idle } : State) = u at hreset
  have hpending : u.pendingFocus = s.stored.map (·.request) := by rw [← hu]
  have hqueued : u.queued = [] := by rw [← hu]
  have hfaithful : Faithful d u := by
    refine ⟨hreset, fun r hr => ?_, fun r hr => ?_, by rw [← hu], fun _ hn p hp => ?_, ?_, ?_, ?_⟩
    · rw [hqueued] at hr
      cases hr
    · rw [hpending] at hr
      obtain ⟨p, hp, rfl⟩ := Option.map_eq_some_iff.1 hr
      rw [← hu]
      exact ⟨rfl, p, hp, rfl⟩
    · rw [hpending, Option.map_eq_none_iff] at hn
      rw [← hu] at hp
      rw [Option.mem_def, Option.none_or] at hp
      cases hn.symm.trans hp
    · rw [← hu]
      exact hs.declared
    · rw [← hu]
      exact hs.values
    · rw [← hu]
      exact hs.untouched
  have hpreserves := persist_preserves hreset true
  have hpersisted := hfaithful.preserve hpreserves (hreset.persist true)
  have henabled : call.enabled (u.persist true).2 = true := by
    cases call with
    | executed faults =>
      unfold Call.enabled
      rw [hpreserves.queued, hqueued]
      rfl
    | unavailable => rfl
    | timeout => rfl
  have hrestore : connected = true → ∀ r ∈ (u.persist true).2.pendingFocus, Restorable r call := by
    intro hc r hr
    rw [hpreserves.pending, hpending] at hr
    obtain ⟨p, hp, rfl⟩ := Option.map_eq_some_iff.1 hr
    exact hrestorable hc p hp
  rcases requireCameraConnected_restorable hpersisted henabled hrestore with ⟨code, t, h, ht⟩ | ⟨t, h, ht, -⟩
  · rw [h]
    exact ht
  · rw [h]
    exact ht

theorem Faithful.step (hs : Faithful d s) {a : Action} (h : Focus.step d s a = some t) (hcareful : Careful d s a t) :
    Faithful d t ∧ Recorded s a t := by
  have hwrites : s.focusToPersist = none → ∀ w ∈ s.calls, w.focus = none := by
    intro hnone w hw
    have hfits := hs.numbered.calls w hw
    cases hfocus : w.focus with
    | none => rfl
    | some p =>
      have hle := hfits.focus
      have hpos := (hfits.known p hfocus).1
      rw [hnone, hfocus] at hle
      change p.number ≤ 0 at hle
      omega
  have ht := hs.numbered.step h
  cases a with
  | setCameraFocus c found connected body call =>
    rw [Focus.step] at h
    obtain ⟨henabled, hrun⟩ := Option.ite_none_right_eq_some.1 h
    cases hrun
    exact setCameraFocus_step hs henabled hcareful
  | start c found connected call admitted begins =>
    rw [Focus.step] at h
    obtain ⟨henabled, hrun⟩ := Option.ite_none_right_eq_some.1 h
    cases hrun
    obtain ⟨hfaithful, hstarted⟩ := start_step hs found begins henabled hcareful
    exact ⟨hfaithful, fun hr => ⟨hstarted hr, hfaithful.untouched⟩⟩
  | stop =>
    cases h
    exact ⟨hs.preserve ⟨rfl, rfl, rfl, rfl, rfl, rfl, rfl, rfl, fun _ => rfl⟩ ht, trivial⟩
  | snapshot =>
    cases h
    exact ⟨hs.preserve ⟨rfl, rfl, rfl, rfl, rfl, rfl, rfl, rfl, fun _ => rfl⟩ ht, trivial⟩
  | write i saved =>
    obtain ⟨w, hw, hrun⟩ := Option.bind_eq_some_iff.1 h
    cases hrun
    have hpreserves : Preserves s (s.write saved w).2 := by
      rcases write_cases hs.numbered saved w with hsame | ⟨-, hwritten⟩
      · rw [hsame]
        exact answer_preserves s s.reply
      · rw [hwritten]
        exact written_preserves fun hn => hwrites hn w (List.mem_of_getElem? hw)
    exact ⟨hs.preserve (hpreserves.trans ⟨rfl, rfl, rfl, rfl, rfl, rfl, rfl, rfl, fun _ => rfl⟩) ht, trivial⟩
  | late faults =>
    rw [Focus.step] at h
    split at h
    · cases h
    · next r queued hqueued =>
      cases h
      have hr : s.pendingFocus = some r := hs.queue r (by rw [hqueued]; exact List.mem_cons_self)
      refine ⟨hs.restoring hr _ queued (fun r' hr' => ?_) .idle, trivial⟩
      exact Option.some.inj ((hs.queue r' (by rw [hqueued]; exact List.mem_cons_of_mem _ hr')).symm.trans hr)
  | gone =>
    cases h
    refine ⟨⟨ht, by simp, hs.pending, hs.valid, hs.agrees, hs.declared, hs.values, hs.untouched⟩, trivial⟩
  | replug controls =>
    cases h
    refine ⟨⟨ht, hs.queue, hs.pending, hs.valid, fun hlost hn p hp => ?_, hs.declared, hs.values, fun _ => rfl⟩, trivial⟩
    obtain ⟨hbefore, hsame⟩ := Bool.or_eq_false_iff.1 hlost
    have hcontrols : controls = s.controls := by
      rw [show s.pendingFocus = none from hn, show s.focusToPersist.or s.stored = some p from hp] at hsame
      simpa using hsame
    change Agrees controls p.request
    rw [hcontrols]
    exact hs.agrees hbefore hn p hp
  | restart connected call =>
    cases h
    exact ⟨hs.restart hcareful, trivial⟩

def sampleDevice : Device := ⟨some ⟨0, 100, 10, 0⟩, true⟩

def sampleCommand (key : String) : Command := ⟨⟨.text "lab", .text "", .text key⟩, key⟩

def smooth : Call := .executed fun _ => none

/-- A focus is set, and a take is made before and after the camera was away and a restart. -/
def sampleRun : List Action :=
  [.setCameraFocus (sampleCommand "focus") {} true ⟨.given 30, .absent⟩ smooth,
    .start (sampleCommand "first") {} true smooth true .begun, .stop, .replug ⟨0, true⟩, .restart true smooth,
    .start (sampleCommand "second") {} true smooth true .begun]

/-- What a run leaves: the answer, the stored preference and the controls. -/
def left (s : State) (as : List Action) : Option (Reply × Option Preference × Controls) :=
  (run (step sampleDevice) s as).map fun t => (t.reply, t.stored, t.controls)

end Conductor.Focus
