import Conductor.Session.Transaction

/-! The lifecycle of a transaction is lawful in every run in which no outcome is stored
after an abort, and in no other run. The invariant says where a caller inside `finish`
or `abort` can be, given the lifecycle. -/

namespace Conductor.Session

open Runs Capture

/-- From the entry of `finish_inner` to the section that stores its result. -/
def Caller.inFinish : Caller → Bool
  | .draining _ _ | .registering _ _ | .planning _ _ | .storing _ | .failing _ | .failed _ => true
  | .idle | .aborting | .listing _ _ => false

structure Inv (s : Sys) : Prop where
  outcome : s.state.lifecycle = .finished ↔ s.state.outcome.isSome = true
  fresh : s.state.lifecycle = .recording → s.entered = 0
  single : s.entered ≤ 1
  inside : ∀ c, (s.callers c).inFinish = true →
    s.state.lifecycle = .finishing ∨ s.state.lifecycle = .aborted
  unique : ∀ c d, (s.callers c).inFinish = true → (s.callers d).inFinish = true → c = d
  aborting : ∀ c, s.callers c = .aborting → s.state.lifecycle = .aborted
  ran : s.abortRan = true → s.state.lifecycle = .aborted

theorem init_inv (resources : Resources) : Inv (init resources) where
  outcome := by simp [init]
  fresh _ := rfl
  single := by simp [init]
  inside _ h := by simp [init, Caller.inFinish] at h
  unique _ _ h := by simp [init, Caller.inFinish] at h
  aborting _ h := by simp [init] at h
  ran h := by simp [init] at h

theorem lawful_of_inv {s : Sys} (h : Inv s) : Lawful s where
  outcome := h.outcome
  single := h.single
  dead hran := by
    have hlife := h.ran hran
    exact ⟨by simp [hlife], _, by simp only [State.ensureFinished, hlife]; rfl⟩

/-! ### Sections that leave the lifecycle alone -/

theorem registerSegments_state (segments : List SegmentEvent) (s : State) (r : Resources) :
    (registerSegments segments s r).2.1.lifecycle = s.lifecycle ∧
      (registerSegments segments s r).2.1.outcome = s.outcome := by
  unfold registerSegments
  split <;> exact ⟨rfl, rfl⟩

theorem listSegments_state (offset start : ℕ) (segments : List SegmentEvent) (s : State)
    (r : Resources) : (listSegments offset start segments s r).2.1.lifecycle = s.lifecycle ∧
      (listSegments offset start segments s r).2.1.outcome = s.outcome := by
  unfold listSegments
  simp only
  split
  · exact ⟨rfl, rfl⟩
  · split <;> exact ⟨rfl, rfl⟩

variable {c : ℕ} {pc : Caller} {s : Sys}

theorem inFinish_update {callers : ℕ → Caller} (hin : pc.inFinish = true → (callers c).inFinish = true) (d : ℕ)
    (hd : (Function.update callers c pc d).inFinish = true) : (callers d).inFinish = true := by
  rw [Function.update_apply] at hd
  split at hd
  · next heq => exact heq ▸ hin hd
  · exact hd

/-- Everything that the invariant reads, except one caller. -/
structure Quiet (s t : Sys) : Prop where
  lifecycle : t.state.lifecycle = s.state.lifecycle
  outcome : t.state.outcome = s.state.outcome
  entered : t.entered = s.entered
  ran : t.abortRan = s.abortRan

variable {t : Sys}

/-- A caller moves on, and does not enter `finish` or `abort`. -/
theorem Inv.quiet (h : Inv s) (hq : Quiet s t) (hcallers : t.callers = Function.update s.callers c pc)
    (hin : pc.inFinish = true → (s.callers c).inFinish = true) (hab : pc ≠ .aborting) :
    Inv t ∧ StepLawful s a t := by
  have hback : ∀ d, (t.callers d).inFinish = true → (s.callers d).inFinish = true := by
    rw [hcallers]
    exact inFinish_update hin
  refine ⟨⟨?_, ?_, hq.entered ▸ h.single, fun d hd => ?_, fun d e hd he => ?_, fun d hd => ?_, ?_⟩,
    .inl hq.lifecycle⟩
  · rw [hq.lifecycle, hq.outcome]
    exact h.outcome
  · rw [hq.lifecycle, hq.entered]
    exact h.fresh
  · rw [hq.lifecycle]
    exact h.inside d (hback d hd)
  · exact h.unique d e (hback d hd) (hback e he)
  · rw [hq.lifecycle]
    rw [hcallers, Function.update_apply] at hd
    split at hd
    · exact absurd hd hab
    · exact h.aborting d hd
  · rw [hq.lifecycle, hq.ran]
    exact h.ran

/-! ### Sections that move the lifecycle -/

/-- The first caller of `finish` on a recording session goes on to `finish_inner`. -/
theorem finish_step (h : Inv s) (hpc : pc.inFinish = true) (hlife : s.state.lifecycle = .recording) (a : Action) :
    Inv ({ s with state := { s.state with lifecycle := .finishing }, entered := s.entered + 1 }.enter c pc) ∧
      StepLawful s a
        ({ s with state := { s.state with lifecycle := .finishing }, entered := s.entered + 1 }.enter c pc) := by
  have hout : ∀ d, (s.callers d).inFinish ≠ true := fun d hd => by
    have := h.inside d hd
    simp [hlife] at this
  have honly : ∀ d, (Function.update s.callers c pc d).inFinish = true → d = c := by
    intro d hd
    rw [Function.update_apply] at hd
    split at hd
    · assumption
    · exact absurd hd (hout d)
  refine ⟨⟨?_, nofun, ?_, fun d _ => .inl rfl, fun d e hd he => (honly d hd).trans (honly e he).symm,
    fun d hd => ?_, fun hran => ?_⟩, .inr (hlife ▸ .finish)⟩
  · have := h.outcome
    simp only [hlife, reduceCtorEq, false_iff] at this
    simpa [Sys.enter, Sys.moveTo] using this
  · exact (congrArg (· + 1) (h.fresh hlife)).le
  · simp only [Sys.enter, Sys.moveTo, Function.update_apply] at hd
    split at hd
    · rw [hd] at hpc
      cases hpc
    · have := h.aborting d hd
      simp [hlife] at this
  · have := h.ran hran
    simp [hlife] at this

theorem store_step (h : Inv s) {outcome : RecordingOutcome}
    (hpc : s.callers c = .storing outcome) (hlife : s.state.lifecycle ≠ .aborted) (a : Action) :
    Inv ({ s with state := s.state.storeOutcome outcome }.leave c) ∧
      StepLawful s a ({ s with state := s.state.storeOutcome outcome }.leave c) := by
  have hin : (s.callers c).inFinish = true := by rw [hpc]; rfl
  have hfinishing := (h.inside c hin).resolve_right hlife
  have hnone : ∀ d, (Function.update s.callers c .idle d).inFinish ≠ true := by
    intro d hd
    rw [Function.update_apply] at hd
    split at hd
    · cases hd
    · next hne => exact hne (h.unique d c hd hin)
  refine ⟨⟨by simp [Sys.leave, Sys.moveTo, State.storeOutcome], nofun, h.single,
    fun d hd => absurd hd (hnone d), fun d _ hd => absurd hd (hnone d), fun d hd => ?_, fun hran => ?_⟩,
    .inr (hfinishing ▸ .succeed)⟩
  · simp only [Sys.leave, Sys.moveTo, Function.update_apply] at hd
    split at hd
    · cases hd
    · exact absurd (h.aborting d hd) hlife
  · exact absurd (h.ran hran) hlife

/-- Aborting a session that has not finished, by an abort or by a failed finish. -/
theorem aborted_inv (h : Inv s) (hlife : s.state.lifecycle ≠ .finished)
    (hstate : t.state.lifecycle = .aborted) (hout : t.state.outcome = s.state.outcome)
    (hent : t.entered = s.entered)
    (hback : ∀ d, (t.callers d).inFinish = true → (s.callers d).inFinish = true) : Inv t where
  outcome := by
    have := h.outcome
    simp only [hlife, false_iff] at this
    simpa [hstate, hout] using this
  fresh hr := by rw [hstate] at hr; cases hr
  single := hent ▸ h.single
  inside _ _ := .inr hstate
  unique d e hd he := h.unique d e (hback d hd) (hback e he)
  aborting _ _ := hstate
  ran _ := hstate

theorem storeFailure_step (h : Inv s) {e : StoreError} (hpc : s.callers c = .failed e) (a : Action) :
    Inv ({ s with state := s.state.storeFailure }.leave c) ∧
      StepLawful s a ({ s with state := s.state.storeFailure }.leave c) := by
  have hin := h.inside c (by rw [hpc]; rfl)
  refine ⟨aborted_inv h ?_ rfl rfl rfl (inFinish_update nofun), ?_⟩
  · rcases hin with hlife | hlife <;> simp [hlife]
  · rcases hin with hlife | hlife
    · exact .inr (hlife ▸ .fail)
    · exact .inl hlife.symm

/-- What the section of `abort` does when it goes on to `abort_resources`. -/
theorem beginAbort_true {s t : State} (h : s.beginAbort = (true, t)) :
    t = { s with lifecycle := .aborted } ∧ (s.lifecycle = .recording ∨ s.lifecycle = .finishing) := by
  unfold State.beginAbort at h
  split at h <;> simp_all

theorem Lifecycle.Moves.of_abort {l : Lifecycle} (h : l = .recording ∨ l = .finishing) :
    l.Moves .aborted := by
  rcases h with rfl | rfl
  · exact .abort
  · exact .fail

theorem abort_step {state : State} (h : Inv s) (hb : s.state.beginAbort = (true, state)) (c : ℕ) (a : Action) :
    Inv ({ s with state }.enter c .aborting) ∧ StepLawful s a ({ s with state }.enter c .aborting) := by
  obtain ⟨rfl, hlife⟩ := beginAbort_true hb
  refine ⟨aborted_inv h ?_ rfl rfl rfl (inFinish_update nofun), .inr (.of_abort hlife)⟩
  rcases hlife with hlife | hlife <;> simp [hlife]

theorem abortResources_step (h : Inv s) (hpc : s.callers c = .aborting) (a : Action) :
    Inv ({ s with resources := abortResources s.resources, abortRan := true }.leave c) ∧
      StepLawful s a ({ s with resources := abortResources s.resources, abortRan := true }.leave c) := by
  have hlife := h.aborting c hpc
  exact ⟨aborted_inv h (by simp [hlife]) hlife rfl rfl (inFinish_update nofun), .inl rfl⟩

theorem drop_step (h : Inv s) (ht : step s .drop = some t) : Inv t ∧ StepLawful s .drop t := by
  simp only [step] at ht
  split at ht
  · cases ht
  · split at ht
    · next state hb =>
      cases ht
      obtain ⟨rfl, hlife⟩ := beginAbort_true hb
      have hunfinished : s.state.lifecycle ≠ .finished := by
        rcases hlife with hlife | hlife <;> simp [hlife]
      exact ⟨aborted_inv h hunfinished rfl rfl rfl fun _ hd => hd, .inr (.of_abort hlife)⟩
    · cases ht
      exact ⟨⟨h.outcome, h.fresh, h.single, h.inside, h.unique, h.aborting, h.ran⟩, .inl rfl⟩

theorem call_step {a : Step} (h : Inv s) (hu : Unaborted s (.call c a) t)
    (ht : stepCall s c (s.callers c) a = some t) : Inv t ∧ StepLawful s (.call c a) t := by
  have hsame : Inv s ∧ StepLawful s (.call c a) s := ⟨h, .inl rfl⟩
  unfold stepCall at ht
  split at ht
  · next duration timeout hpc => -- finish
    split at ht
    · cases ht
    · split at ht
      · next state hb =>
        cases ht
        unfold State.beginFinish at hb
        split at hb
        · split at hb <;> cases hb
        · next hlife =>
          cases hb
          exact finish_step h rfl hlife _
        · cases hb
        · cases hb
      · cases ht
        exact hsame
  · next duration timeout env hpc => -- drain
    split at ht
    · cases ht
      exact h.quiet ⟨rfl, rfl, rfl, rfl⟩ rfl (fun _ => by rw [hpc]; rfl) nofun
    · cases ht
      exact h.quiet ⟨rfl, rfl, rfl, rfl⟩ rfl (fun _ => by rw [hpc]; rfl) nofun
  · next duration drained hpc => -- register
    have hstate := registerSegments_state drained.segments s.state s.resources
    split at ht
    · cases ht
    · split at ht
      · next hreg =>
        cases ht
        rw [hreg] at hstate
        exact h.quiet ⟨hstate.1, hstate.2, rfl, rfl⟩ rfl (fun _ => by rw [hpc]; rfl) nofun
      · next hreg =>
        cases ht
        rw [hreg] at hstate
        exact h.quiet ⟨hstate.1, hstate.2, rfl, rfl⟩ rfl (fun _ => by rw [hpc]; rfl) nofun
  · next duration drained hpc => -- plan
    split at ht
    · cases ht
      exact h.quiet ⟨rfl, rfl, rfl, rfl⟩ rfl (fun _ => by rw [hpc]; rfl) nofun
    · cases ht
      exact h.quiet ⟨rfl, rfl, rfl, rfl⟩ rfl (fun _ => by rw [hpc]; rfl) nofun
  · next outcome hpc =>
    cases ht
    exact store_step h hpc (hu c outcome rfl hpc) _
  · next e hpc => -- failResources
    cases ht
    exact h.quiet ⟨rfl, rfl, rfl, rfl⟩ rfl (fun _ => by rw [hpc]; rfl) nofun
  · next e hpc =>
    cases ht
    exact storeFailure_step h hpc _
  · next hpc => -- abort
    split at ht
    · cases ht
    · split at ht
      · next state hb =>
        cases ht
        exact abort_step h hb c _
      · cases ht
        exact hsame
  · next hpc =>
    cases ht
    exact abortResources_step h hpc _
  · next offset hpc => -- segmentsSince
    split at ht
    · cases ht
    · cases ht
      exact h.quiet ⟨rfl, rfl, rfl, rfl⟩ rfl nofun nofun
  · next hpc =>
    cases ht
    exact h.quiet ⟨rfl, rfl, rfl, rfl⟩ rfl nofun nofun
  · next offset start segments hpc => -- listed
    have hstate := listSegments_state offset start segments s.state s.resources
    cases ht
    exact h.quiet ⟨hstate.1, hstate.2, rfl, rfl⟩ rfl nofun nofun
  · next hpc =>
    unfold Sys.passes at ht
    split at ht <;> cases ht
    exact hsame
  · next hpc =>
    unfold Sys.passes at ht
    split at ht <;> cases ht
    exact hsame
  · cases ht

theorem step_lawful {a : Action} (h : Inv s) (ht : step s a = some t)
    (hu : Unaborted s a t) : Inv t ∧ StepLawful s a t := by
  cases a with
  | call c a => exact call_step h hu ht
  | capture resources =>
    cases ht
    exact ⟨⟨h.outcome, h.fresh, h.single, h.inside, h.unique, h.aborting, h.ran⟩, .inl rfl⟩
  | drop => exact drop_step h ht

/-- A stored outcome finishes the session, which an aborted one must not. -/
theorem unaborted_of_lawful {a : Action} (ht : step s a = some t) (hl : StepLawful s a t) : Unaborted s a t := by
  rintro c outcome rfl hpc hlife
  simp only [step, hpc, stepCall, Option.some.injEq] at ht
  subst ht
  rcases hl with hsame | hmove
  · cases hsame.trans hlife
  · rw [hlife] at hmove
    cases hmove

/-- A run is lawful in every state and at every step exactly when none of its steps stores
an outcome after an abort. -/
theorem lifecycle_lawful (resources : Resources) (actions : List Action) :
    Lawful (init resources) ∧ (Along step Unaborted (init resources) actions ↔
      Along step (fun s a t => StepLawful s a t ∧ Lawful t) (init resources) actions) := by
  refine ⟨lawful_of_inv (init_inv resources), along_iff_of_invariant ?_ (init_inv resources)⟩
  intro s a t h ht
  refine ⟨fun hu => ?_, fun hl => unaborted_of_lawful ht hl.1⟩
  obtain ⟨hinv, hstep⟩ := step_lawful h ht hu
  exact ⟨hinv, hstep, lawful_of_inv hinv⟩

/-! A session without frames finishes while another caller aborts it. -/

def sampleResources : Resources :=
  ⟨{ sessionId := "session" }, { sessionId := "session" },
    { segmentFrames := 1, segmentFrames_pos := Nat.one_pos }⟩

def abortedFinish : List Action :=
  [.call 0 (.finish 1 2), .call 0 (.drain ⟨.ok (), .ok (), .ok ([], 0)⟩), .call 0 .register,
    .call 0 .plan, .call 1 .abort, .call 1 .abortResources, .call 0 .store]

theorem lifecycle_lawful_fails :
    ∃ s, run step (init sampleResources) abortedFinish = some s ∧ s.abortRan = true ∧
      s.state.lifecycle = .finished ∧ s.state.ensureFinished = .ok () ∧ ¬ Lawful s := by
  have hrun : (run step (init sampleResources) abortedFinish).map
      (fun s => (s.abortRan, s.state.lifecycle, s.state.outcome.isSome)) =
        some (true, .finished, true) := by decide +kernel
  obtain ⟨s, hs, heq⟩ := Option.map_eq_some_iff.1 hrun
  simp only [Prod.mk.injEq] at heq
  obtain ⟨hran, hlife, hout⟩ := heq
  refine ⟨s, hs, hran, hlife, ?_, fun h => (h.dead hran).1 hlife⟩
  cases ho : s.state.outcome with
  | none => simp [ho] at hout
  | some outcome => simp [State.ensureFinished, hlife, ho]

end Conductor.Session
