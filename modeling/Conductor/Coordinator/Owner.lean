import Conductor.Coordinator.StopFlow

/-! What the programs of a stop do apart from the receipts: for any discipline of the threads under
which a section may change the fields that are neither receipts, log nor jobs, they keep what
their thread knows. -/

namespace Conductor.Coordinator

open Sections Proc

variable {α : Type} {R G : Shared → Shared → Prop} {P : Shared → Prop}

/-- The receipts, the log and the jobs are as they were. -/
structure Shared.Same (s t : Shared) : Prop where
  receipts : t.receipts = s.receipts
  log : t.flow.log = s.flow.log
  jobs : t.flow.jobs = s.flow.jobs

theorem Shared.Same.refl (s : Shared) : s.Same s := ⟨rfl, rfl, rfl⟩

/-- Such steps are allowed to the thread and to the others. -/
structure Quiet (R G : Shared → Shared → Prop) : Prop where
  rely : Rely R
  guarantee : ∀ s t, s.Same t → G s t
  others : ∀ s t, s.Same t → R s t

theorem keeps_same (hq : Quiet R G) (hP : Stable R P) {f : Shared → Outcomes α} (h : ∀ s, ∀ r ∈ f s, s.Same r.2) :
    Keeps R G P (.critical f) := by
  refine keeps_critical hP fun s hs r hr => ?_
  have hsame := h s r hr
  exact ⟨hq.guarantee s r.2 hsame, hP s r.2 hs (hq.others s r.2 hsame)⟩

theorem triple_change (hq : Quiet R G) (hP : Stable R P) {E : Error → Shared → Prop} {f : Flow → Flow}
    (h : ∀ flow, (f flow).log = flow.log ∧ (f flow).jobs = flow.jobs) :
    Triple R G P (change f) (fun _ => P) E := by
  refine triple_update hP hP fun s hs => ?_
  have hsame : s.Same (s.setFlow f) := ⟨rfl, (h s.flow).1, (h s.flow).2⟩
  exact ⟨hq.guarantee s _ hsame, hP s _ hs (hq.others s _ hsame)⟩

theorem keeps_change (hq : Quiet R G) (hP : Stable R P) {f : Flow → Flow}
    (h : ∀ flow, (f flow).log = flow.log ∧ (f flow).jobs = flow.jobs) : Keeps R G P (change f) :=
  triple_change hq hP h

theorem keeps_look (hq : Quiet R G) (hP : Stable R P) (f : Shared → α) : Keeps R G P (look f) := by
  refine keeps_same hq hP fun s r hr => ?_
  rw [List.mem_singleton.1 hr]
  exact .refl s

/-- What a thread may do for a call that owns a session: it knows `P`, and may act on the session
and leave its failure to a thread. -/
structure Owner (R G : Shared → Shared → Prop) (P : Shared → Prop) (call : Option ℕ) (session : Session) : Prop where
  quiet : Quiet R G
  stable : Stable R P
  persist : Keeps R G P persistLocalState
  act : ∀ s effect, P s → G s (s.setFlow fun flow => flow.act call effect session) ∧
    P (s.setFlow fun flow => flow.act call effect session)
  job : ∀ s t, P s → t.receipts = s.receipts → t.flow.log = s.flow.log →
    t.flow.jobs = s.flow.jobs ++ [.failure call session] → G s t ∧ P t

section Failures

variable {call : Option ℕ} {session : Session}

theorem Owner.keeps_act (h : Owner R G P call session) (effect : Effect) {f : Shared → Outcomes α}
    (hf : ∀ s, ∀ r ∈ f s, r.2 = s.setFlow fun flow => flow.act call effect session) :
    Keeps R G P (.critical f) := by
  refine keeps_critical h.stable fun s hs r hr => ?_
  rw [hf s r hr]
  exact h.act s effect hs

theorem keeps_commitActiveFailure (hq : Quiet R G) (hP : Stable R P) (hpersist : Keeps R G P persistLocalState) :
    Keeps R G P (commitActiveFailure session) := by
  refine hpersist.bind hq.rely fun _ => keeps_same hq hP fun s r hr => ?_
  split at hr
  · rw [List.mem_singleton.1 hr]
    exact ⟨rfl, rfl, rfl⟩
  · rw [List.mem_singleton.1 hr]
    exact .refl s

theorem Owner.keeps_finishFailure (h : Owner R G P call session) : Keeps R G P (finishFailure call session) := by
  refine Keeps.ensure h.quiet.rely h.stable ?_ (keeps_change h.quiet h.stable fun _ => ⟨rfl, rfl⟩)
  refine Keeps.bind h.quiet.rely (h.keeps_act .recorderFail fun s r hr => ?_) fun _ => ?_
  · rcases mem_concat.1 hr with hr | hr
    · rw [List.mem_singleton.1 hr]
    · rw [hr]
  · refine Keeps.bind h.quiet.rely (keeps_change h.quiet h.stable fun _ => ⟨rfl, rfl⟩) fun _ => ?_
    exact keeps_commitActiveFailure h.quiet h.stable h.persist

theorem Owner.keeps_claimFailure (h : Owner R G P call session) (fromStop deferRecovery : Bool) :
    Keeps R G P (.critical (claimFailure call session fromStop deferRecovery)) := by
  refine keeps_critical h.stable fun s hs r hr => ?_
  have hsame : ∀ t, s.Same t → G s t ∧ P t := fun t ht =>
    ⟨h.quiet.guarantee s t ht, h.stable s t hs (h.quiet.others s t ht)⟩
  simp only [claimFailure] at hr
  split at hr
  · rw [List.mem_singleton.1 hr]
    exact hsame s (.refl s)
  · split at hr
    · rw [List.mem_singleton.1 hr]
      exact hsame _ ⟨rfl, rfl, rfl⟩
    · rcases List.mem_append.1 hr with hr | hr
      · rw [List.mem_singleton.1 hr]
        exact hsame _ ⟨rfl, rfl, rfl⟩
      · split at hr
        · rw [List.mem_singleton.1 hr]
          exact h.job s _ hs rfl rfl rfl
        · cases hr

theorem Owner.keeps_retain (h : Owner R G P call session) (fromStop deferRecovery : Bool) :
    Keeps R G P (retainActiveFailure call session fromStop deferRecovery) := by
  refine (h.keeps_claimFailure fromStop deferRecovery).bind h.quiet.rely fun claimed => ?_
  cases claimed with
  | true => exact h.keeps_finishFailure
  | false => exact keeps_pure h.stable ()

end Failures

section SafeSwap

variable (hq : Quiet R G) (hP : Stable R P) (hpersist : Keeps R G P persistLocalState)

include hq hP hpersist

theorem keeps_publishSafeSwap : Keeps R G P publishSafeSwap := by
  refine Keeps.bind hq.rely (keeps_same hq hP fun s r hr => ?_) fun session => ?_
  · split at hr
    · rw [List.mem_singleton.1 hr]
      exact .refl s
    · rcases mem_concat.1 hr with hr | rfl
      · rw [List.mem_singleton.1 hr]
        exact .refl s
      · exact .refl s
  · refine Keeps.bind hq.rely (keeps_same hq hP fun s r hr => ?_) fun _ => ?_
    · rcases mem_concat.1 hr with hr | rfl
      · rw [List.mem_singleton.1 hr]
        exact .refl s
      · exact .refl s
    · refine Keeps.bind hq.rely (keeps_same hq hP fun s r hr => ?_) fun _ => ?_
      · split at hr
        · rw [List.mem_singleton.1 hr]
          exact .refl s
        · rcases mem_concat.1 hr with hr | rfl
          · rw [List.mem_singleton.1 hr]
            exact ⟨rfl, rfl, rfl⟩
          · exact .refl s
      · refine Keeps.bind hq.rely (hpersist.attempt hq.rely fun _ => keeps_raise hP _) fun _ => ?_
        exact keeps_change hq hP fun _ => ⟨rfl, rfl⟩

theorem keeps_recordSafeSwapFailure (session : Session) : Keeps R G P (recordSafeSwapFailure session) := by
  refine Keeps.bind hq.rely (keeps_same hq hP fun s r hr => ?_) fun recorded => ?_
  · split at hr
    · rw [List.mem_singleton.1 hr]
      exact .refl s
    · rw [List.mem_singleton.1 hr]
      exact ⟨rfl, rfl, rfl⟩
  · cases recorded with
    | true => exact hpersist.attempt hq.rely fun _ => keeps_pure hP ()
    | false => exact keeps_pure hP ()

theorem keeps_commitStopReplay (scope : Scope) : Keeps R G P (commitStopReplay scope) := by
  refine (keeps_look hq hP _).bind hq.rely fun pending => ?_
  refine Keeps.ensure hq.rely hP (hpersist.bind hq.rely fun _ => keeps_change hq hP fun flow => ?_)
    (keeps_change hq hP fun flow => ?_)
  · split
    · exact ⟨rfl, rfl⟩
    · exact ⟨rfl, rfl⟩
  · split
    · exact ⟨rfl, rfl⟩
    · exact ⟨rfl, rfl⟩

end SafeSwap

section Finish

variable {call : ℕ} {command : Command} {session : Session} {remember : Bool}

theorem Owner.triple_retainRecordingError (h : Owner R G P (some call) session) {Q : α → Shared → Prop} (e : Error) :
    Triple R G P (retainRecordingError call session e) Q fun _ => P := by
  cases e with
  | recording code =>
    exact triple_bind h.quiet.rely (h.keeps_retain true false) fun _ => triple_raise h.stable fun _ hs => hs
  | provider code => exact triple_raise h.stable fun _ hs => hs
  | persistence => exact triple_raise h.stable fun _ hs => hs
  | other => exact triple_raise h.stable fun _ hs => hs

theorem Owner.keeps_checkOwner (h : Owner R G P (some call) session) :
    Keeps R G P (.critical (checkOwner session)) := by
  refine keeps_same h.quiet h.stable fun s r hr => ?_
  simp only [checkOwner] at hr
  split at hr
  · rw [List.mem_singleton.1 hr]
    exact .refl s
  · split at hr
    · rw [List.mem_singleton.1 hr]
      exact .refl s
    · rw [List.mem_singleton.1 hr]
      exact .refl s

/-- `recorder.stop`, unless a source has failed. -/
theorem Owner.keeps_recorderStop (h : Owner R G P (some call) session) :
    Keeps R G P
      (attempt
        (do
          if ← look (·.flow.pendingSourceFailure) then .raise (.recording "source_failure")
          .critical fun s =>
            let t := s.setFlow fun flow => flow.act (some call) .recorderStop session
            pass () t ++ fail (.recording "stop_failed") t ++ fail .other t)
        (retainRecordingError call session)) := by
  refine Keeps.attempt h.quiet.rely (Keeps.bind h.quiet.rely (keeps_look h.quiet h.stable _) fun failed => ?_)
    fun e => h.triple_retainRecordingError e
  cases failed with
  | true => exact keeps_raise h.stable _
  | false =>
    refine h.keeps_act .recorderStop fun s r hr => ?_
    rcases mem_concat.1 hr with hr | hr
    · rcases mem_concat.1 hr with hr | hr
      · rw [List.mem_singleton.1 hr]
      · rw [hr]
    · rw [hr]

/-- What a stop of an owned session gives, from what its last sections give. -/
theorem Owner.triple_finishStopCapture (h : Owner R G P (some call) session) {Q : Result → Shared → Prop}
    (hQ : ∀ r, Stable R (Q r))
    (hcommitted : Triple R G P (do
      if remember then .critical (rememberCommand call (command.scope .stop) command .noContent)
      pure Result.noContent) Q fun _ => P)
    (hend : Triple R G P (do
      commitStop call command remember (← .critical (endRecording call command session remember))) Q fun _ => P) :
    Triple R G P (finishStopCapture call command session remember) Q fun _ => P := by
  have hR := h.quiet.rely
  refine triple_ensure hR hQ (fun _ => h.stable) ?_ (fun r => triple_change h.quiet (hQ r) fun flow => ?_)
    fun _ => triple_change h.quiet h.stable fun flow => ?_
  · refine triple_attempt hR ?_ fun e => h.triple_retainRecordingError e
    refine triple_bind hR (keeps_same h.quiet h.stable fun s r hr => ?_) fun stopped => ?_
    · rcases mem_concat.1 hr with hr | rfl
      · rw [List.mem_singleton.1 hr]
        exact .refl s
      · exact .refl s
    · cases stopped with
      | false =>
        refine triple_bind hR (h.keeps_retain true false) fun _ => ?_
        exact triple_raise h.stable fun _ hs => hs
      | true =>
        refine triple_bind hR (keeps_look h.quiet h.stable _) fun committing => ?_
        cases committing with
        | true =>
          refine triple_bind hR (keeps_commitActiveFailure h.quiet h.stable h.persist) fun _ => ?_
          exact hcommitted
        | false =>
          refine triple_bind hR (h.keeps_recorderStop) fun _ => ?_
          refine triple_bind hR h.keeps_checkOwner fun _ => ?_
          refine triple_bind hR (keeps_same h.quiet h.stable fun s r hr => ?_) fun _ => hend
          simp only [List.mem_append, mem_pass, mem_fail] at hr
          rcases hr with rfl | rfl
          · exact .refl s
          · exact .refl s
  · split
    · exact ⟨rfl, rfl⟩
    · exact ⟨rfl, rfl⟩
  · split
    · exact ⟨rfl, rfl⟩
    · exact ⟨rfl, rfl⟩

/-- A worker caches no receipt. -/
theorem Owner.keeps_endRecording (h : Owner R G P (some call) session) :
    Keeps R G P (.critical (endRecording call command session false)) := by
  refine keeps_same h.quiet h.stable fun s r hr => ?_
  have hcheck : ∀ o ∈ checkOwner session s, o.2 = s := by
    intro o ho
    simp only [checkOwner] at ho
    split_ifs at ho
    all_goals simp only [mem_pass, mem_fail] at ho; rw [ho]
  rcases mem_thenDo.1 hr with ⟨_, t, ht, hend⟩ | ⟨e, t, ht, rfl⟩
  · obtain rfl : t = s := hcheck _ ht
    simp only [Bool.false_eq_true, if_false] at hend
    split at hend
    · rw [mem_pass.1 hend]
      exact ⟨rfl, rfl, rfl⟩
    · obtain ⟨body, -, rfl⟩ := List.mem_map.1 hend
      exact ⟨rfl, rfl, rfl⟩
  · obtain rfl : t = s := hcheck _ ht
    exact .refl t

theorem Owner.keeps_commitStop (h : Owner R G P (some call) session) (result : Option Result) :
    Keeps R G P (commitStop call command false result) := by
  have hR := h.quiet.rely
  cases result with
  | none =>
    refine h.persist.bind hR fun _ => ?_
    exact (keeps_publishSafeSwap h.quiet h.stable h.persist).bind hR fun _ => keeps_pure h.stable _
  | some result =>
    refine h.persist.bind hR fun _ => Keeps.bind hR (keeps_change h.quiet h.stable fun flow => ?_) fun _ =>
      keeps_pure h.stable _
    split
    · exact ⟨rfl, rfl⟩
    · exact ⟨rfl, rfl⟩

theorem Owner.keeps_finishStopCapture (h : Owner R G P (some call) session) :
    Keeps R G P (finishStopCapture call command session false) :=
  h.triple_finishStopCapture (fun _ => h.stable) (keeps_pure h.stable _)
    (h.keeps_endRecording.bind h.quiet.rely h.keeps_commitStop)

end Finish

/-! ### Workers -/

theorem keeps_ownsWorker (hq : Quiet R G) (hP : Stable R P) (call : ℕ) : Keeps R G P (.critical (ownsWorker call)) := by
  refine keeps_same hq hP fun s r hr => ?_
  simp only [ownsWorker] at hr
  split at hr
  · rw [List.mem_singleton.1 hr]
    exact .refl s
  · cases hr

theorem Owner.keeps_stopJob {call : ℕ} {command : Command} {session : Session} (h : Owner R G P (some call) session) :
    Keeps R G P (Job.program (.stop call command session)) := by
  have hR := h.quiet.rely
  refine (keeps_ownsWorker h.quiet h.stable call).bind hR fun owns => ?_
  cases owns with
  | false => exact keeps_pure h.stable _
  | true =>
    refine Keeps.bind hR (Keeps.ensure hR h.stable (Keeps.attempt hR ?_ fun _ => ?_) ?_) fun _ => keeps_pure h.stable _
    · exact h.keeps_finishStopCapture.bind hR fun _ => keeps_pure h.stable ()
    · refine (keeps_look h.quiet h.stable _).bind hR fun ⟨stillOwned, pending⟩ => ?_
      dsimp only
      split
      · exact h.keeps_retain true false
      · split
        · exact keeps_recordSafeSwapFailure h.quiet h.stable h.persist session
        · exact keeps_pure h.stable ()
    · refine keeps_change h.quiet h.stable fun flow => ?_
      split
      · exact ⟨rfl, rfl⟩
      · exact ⟨rfl, rfl⟩

theorem keeps_resumeJob (hq : Quiet R G) (hP : Stable R P) (hpersist : Keeps R G P persistLocalState) (call : ℕ)
    (session : Session) : Keeps R G P (Job.program (.resume call session)) := by
  have hR := hq.rely
  refine (keeps_ownsWorker hq hP call).bind hR fun owns => ?_
  cases owns with
  | false => exact keeps_pure hP _
  | true =>
    refine Keeps.bind hR (Keeps.ensure hR hP (Keeps.attempt hR (keeps_publishSafeSwap hq hP hpersist) fun _ => ?_) ?_)
      fun _ => keeps_pure hP _
    · exact keeps_recordSafeSwapFailure hq hP hpersist session
    · refine keeps_change hq hP fun flow => ?_
      split
      · exact ⟨rfl, rfl⟩
      · exact ⟨rfl, rfl⟩

theorem Owner.keeps_failureJob {call : Option ℕ} {session : Session} (h : Owner R G P call session) :
    Keeps R G P (Job.program (.failure call session)) :=
  h.keeps_finishFailure.bind h.quiet.rely fun _ => keeps_pure h.stable _

end Conductor.Coordinator
