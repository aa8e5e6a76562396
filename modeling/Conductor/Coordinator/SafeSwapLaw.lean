import Conductor.Coordinator.HandlesFlow

/-! Runs of the sources and the coordinator. The count holds in every state that is reached. The two
other promises of the handoff need more: an engine that a call still installs when `close` takes the
engine is left, and an engine that is kept for the preview is a handle that blocks the safe swap. -/

namespace Conductor.Handles

open Sections Coordinator Runs

variable {owned : Prop} {installs : Bool} {i : ℕ}

/-! ### Every call -/

/-- What a call leaves. -/
def Left (owned : Prop) (id : ℕ × Call) (_ : Unit) : World → Prop :=
  Hands owned id.1 [] fun w => id.2 = .close → w.sources.taken = true

/-- A program that leaves nothing is a call, unless the call is `close`. -/
theorem Leaves.call {p : Program Unit} {c : Call} (hc : c ≠ .close) (h : Leaves owned installs i (fun _ => True) p) :
    Triple (Others owned i) (Moves owned installs i) (Hands owned i [] fun _ => True) p (Left owned (i, c))
      fun _ => Hands owned i [] fun _ => True :=
  h.mono (fun _ h => h) (fun _ _ hw => hw.imp fun _ he => absurd he hc) fun _ _ h => h

theorem triple_program (c : Call) (howned : owned → c ≠ .start) :
    Triple (Others owned i) (Moves owned c.opensPreview i) (Hands owned i [] fun _ => True) (c.program i)
      (Left owned (i, c)) fun _ => Hands owned i [] fun _ => True := by
  cases c with
  | startPreview => exact Leaves.call nofun (keeps_startPreview context_true)
  | start => exact Leaves.call nofun (keeps_start context_true fun _ _ ho => absurd rfl (howned ho))
  | runtimeFailure tap => exact Leaves.call nofun (keeps_drop context_true tap)
  | stop => exact Leaves.call nofun (keeps_stop context_true)
  | close => exact (triple_close context_true).mono (fun _ h => h) (fun _ w hw => hw.imp fun h _ => h.2) fun _ _ h => h
  | control => exact Leaves.call nofun (keeps_control context_true)
  | setCameraFocus => exact Leaves.call nofun keeps_setCameraFocus
  | startCapture restore => exact Leaves.call nofun (keeps_startCapture restore)
  | stopCapture requested safeSwap => exact Leaves.call nofun (keeps_stopCapture requested safeSwap)
  | resumeSafeSwap asked => exact Leaves.call nofun (keeps_resumeSafeSwap asked)
  | sourceFailure tap session => exact Leaves.call nofun (keeps_sourceFailure tap session)
  | reportMediaLoss => exact Leaves.call nofun keeps_reportMediaLoss
  | representation => exact Leaves.call nofun keeps_representation
  | verification allowPending => exact Leaves.call nofun (keeps_verification allowPending)
  | closeCoordinator => exact Leaves.call nofun keeps_closeCoordinator

/-! ### Runs -/

def ended : Program Unit → Bool
  | .atomic _ _ => false
  | _ => true

structure Sound (owned : Prop) (p : System) : Prop where
  safe : Pool.AllSafe (fun id => Others owned id.1) (fun id => Moves owned id.2.opensPreview id.1) (fun id id' => id.1 ≠ id'.1)
    (Left owned) (fun id _ => Hands owned id.1 [] fun _ => True) p
  inv : Inv owned p.shared
  numbered : ∀ (k : ℕ) (th : (ℕ × Call) × Program Unit), p.threads[k]? = some th → th.1.1 = k
  fresh : ∀ j, p.threads.length ≤ j → p.shared.sources.hands j = []

theorem discipline (owned : Prop) : Pool.Discipline (fun id : ℕ × Call => Others owned id.1)
    (fun id => Moves owned id.2.opensPreview id.1) fun id id' => id.1 ≠ id'.1 where
  rely id := others_rely owned id.1
  compatible _ _ _ _ hne h := h.others _ hne.symm

theorem sound_init (owned : Prop) (pendingSafeSwap : Option Session) (released : Bool) :
    Sound owned (System.init pendingSafeSwap released) where
  safe := ⟨fun _ _ _ _ _ h _ => (by cases h), fun _ _ h => (by cases h)⟩
  inv := ⟨⟨rfl, fun _ => rfl⟩, fun _ => ⟨rfl, rfl, rfl, fun _ => rfl⟩, nofun, nofun, nofun, nofun⟩
  numbered _ _ h := by cases h
  fresh _ _ := rfl

variable {p p' : System}

/-- The step of a thread, as the others see it. -/
theorem Sound.advance (hp : Sound owned p) {k choice : ℕ} (h : p.advance k choice = some p') :
    Sound owned p' ∧ ∃ c q, p.threads[k]? = some ((k, c), q) ∧ ended q = false ∧
      Moves owned c.opensPreview k p.shared p'.shared := by
  obtain ⟨id, β, f, g, b, hthread, hb, hthreads⟩ := Pool.advance_cases h
  obtain ⟨n, c⟩ := id
  have hname : n = k := hp.numbered k _ hthread
  subst hname
  have hmoves : Moves owned c.opensPreview n p.shared p'.shared := ((hp.safe.each n _ hthread) p.shared (.refl n _) _ hb).1
  have hlen : n < p.threads.length := (List.getElem?_eq_some_iff.1 hthread).1
  refine ⟨⟨(Pool.advance_safe (discipline owned) hp.safe h).1, ?_, fun j th hj => ?_, fun j hj => ?_⟩, c, _, hthread, rfl, hmoves⟩
  · exact (hmoves.others (n + 1) (by omega)).inv hp.inv
  · rw [hthreads] at hj
    obtain ⟨th', hth', hname, -⟩ := Pool.set_thread_cases hthread hj
    rw [← hname]
    exact hp.numbered j th' hth'
  · rw [hthreads, List.length_set] at hj
    rw [(hmoves.others j (by omega)).hands]
    exact hp.fresh j hj

/-- Recordings are only started by the coordinator. -/
def ByCoordinator (_ : System) (a : Action) (_ : System) : Prop := a ≠ .enter .start

instance (p : System) (a : Action) (t : System) : Decidable (ByCoordinator p a t) := inferInstanceAs (Decidable (a ≠ _))

theorem Sound.step (hp : Sound owned p) {a : Action} (howned : owned → ByCoordinator p a p')
    (h : Handles.step p a = some p') : Sound owned p' := by
  cases a with
  | enter c =>
    cases h
    have hlen : ∀ th ∈ p.threads, th.1.1 < p.threads.length := by
      intro th hth
      obtain ⟨k, hk⟩ := List.mem_iff_getElem?.1 hth
      rw [hp.numbered k th hk]
      exact (List.getElem?_eq_some_iff.1 hk).1
    refine ⟨Pool.add_safe (discipline owned) hp.safe (fun th hth => ?_) (fun th _ => .refl _ _) ?_, hp.inv, fun k th hk => ?_, fun j hj => ?_⟩
    · have hlt := hlen th hth
      exact ⟨by dsimp only; omega, by dsimp only; omega⟩
    · exact triple_program c (fun ho hc => howned ho (by rw [hc])) _ ⟨hp.inv, hp.fresh _ (Nat.le_refl _), trivial⟩
    · rw [show (p.add p.shared _).threads = p.threads ++ [_] from rfl, List.getElem?_append] at hk
      split at hk
      · exact hp.numbered k th hk
      · rw [List.getElem?_singleton] at hk
        split at hk
        · cases hk
          dsimp only
          omega
        · cases hk
    · rw [show (p.add p.shared _).threads = p.threads ++ [_] from rfl, List.length_append] at hj
      exact hp.fresh j (by omega)
  | run k choice => exact (hp.advance h).1
  | recorder handles =>
    cases h
    have hothers : ∀ j, Others owned j p.shared { p.shared with recorderHandles := handles } := fun _ => .same rfl rfl id id
    refine ⟨⟨hp.safe.apart, fun k th hk => ?_⟩, (hothers 0).inv hp.inv, hp.numbered, hp.fresh⟩
    exact (hp.safe.each k th hk).later (others_rely owned th.1.1) (hothers th.1.1)

theorem Sound.run (hp : Sound owned p) {as : List Action}
    (howned : Along Handles.step (fun p a t => owned → ByCoordinator p a t) p as) (h : Runs.run Handles.step p as = some p') : Sound owned p' :=
  run_invariant_of_along (fun _ _ _ hs hstep ha => hs.step ha hstep) hp howned h

/-! ### What is counted -/

/-- The count, and where each engine is: in the hands of a call that runs, closed once, or installed. -/
structure Counted (p : System) : Prop where
  handles : p.shared.sources.openHandles = one p.shared.sources.engine + one p.shared.sources.recording
  nonneg : 0 ≤ p.shared.sources.openHandles
  once : ∀ e, p.shared.sources.closed.count e ≤ 1
  installed : ∀ e ∈ p.shared.sources.engine, p.shared.sources.closed.count e = 0
  engines : ∀ e < p.shared.sources.created, (∃ th ∈ p.threads, ended th.2 = false ∧ (th.1.1, e) ∈ p.shared.sources.held) ∨
    p.shared.sources.closed.count e = 1 ∨ p.shared.sources.engine = some e

/-- A call that has ended has no engine in its hands. -/
theorem Sound.running (hp : Sound owned p) {j e : ℕ} (he : (j, e) ∈ p.shared.sources.held) :
    ∃ th ∈ p.threads, ended th.2 = false ∧ th.1.1 = j := by
  have hmem : (j, e) ∈ p.shared.sources.hands j := List.mem_filter.2 ⟨he, by simp⟩
  have hlen : j < p.threads.length := by
    by_contra hge
    rw [hp.fresh j (by omega)] at hmem
    cases hmem
  have hthread := List.getElem?_eq_getElem hlen
  have hname := hp.numbered j _ hthread
  refine ⟨_, List.getElem_mem hlen, ?_, hname⟩
  have hsafe := hp.safe.each j _ hthread
  generalize p.threads[j] = th at hsafe hname
  obtain ⟨id, program⟩ := th
  cases program with
  | atomic f k => rfl
  | ret _ | raise _ =>
    have hleft := (hsafe p.shared (.refl _ _)).hands
    rw [hname] at hleft
    rw [hleft] at hmem
    cases hmem

theorem count_range_le (n e : ℕ) : (List.range n).count e ≤ 1 := List.nodup_iff_count_le_one.1 List.nodup_range e

theorem Sound.counted (hp : Sound owned p) : Counted p := by
  have hinv := hp.inv.sources
  have hone : ∀ x, 0 ≤ one x := fun x => by unfold one; split <;> decide
  refine ⟨hinv.handles, ?_, fun e => ?_, fun e he => ?_, fun e he => ?_⟩
  · have hengine := hone p.shared.sources.engine
    have hrecording := hone p.shared.sources.recording
    rw [hinv.handles]
    omega
  · have hcount := hinv.engines e
    have hle := count_range_le p.shared.sources.created e
    omega
  · have hcount := hinv.engines e
    have hle := count_range_le p.shared.sources.created e
    rw [Option.mem_def.1 he, Option.toList_some, List.count_singleton_self] at hcount
    omega
  · have hcount := hinv.engines e
    have hrange : (List.range p.shared.sources.created).count e = 1 :=
      List.count_eq_one_of_mem List.nodup_range (List.mem_range.2 he)
    by_cases hheld : (p.shared.sources.held.map (·.2)).count e = 0
    · by_cases hengine : p.shared.sources.engine.toList.count e = 0
      · exact .inr (.inl (by omega))
      · have hmem := List.count_pos_iff.1 (Nat.pos_of_ne_zero hengine)
        exact .inr (.inr (Option.mem_toList.1 hmem))
    · have hmem := List.count_pos_iff.1 (Nat.pos_of_ne_zero hheld)
      obtain ⟨⟨j, x⟩, hx, rfl⟩ := List.mem_map.1 hmem
      obtain ⟨th, hth, hended, hname⟩ := hp.running hx
      exact .inl ⟨th, hth, hended, hname ▸ hx⟩

/-! ### After `close` -/

/-- `close` takes the engine while no call that may start the preview is in progress, and none is
made once it has. -/
def Orderly (p : System) (a : Action) (t : System) : Prop :=
  (p.shared.sources.taken = true → a.opensPreview = false) ∧
  (p.shared.sources.taken = false → t.shared.sources.taken = true →
    ∀ th ∈ p.threads, th.1.2.opensPreview = true → ended th.2 = true)

instance (p : System) (a : Action) (t : System) : Decidable (Orderly p a t) := inferInstanceAs (Decidable (_ ∧ _))

/-- No engine comes back. -/
structure Taken (p : System) : Prop where
  engine : p.shared.sources.engine = none
  calls : ∀ th ∈ p.threads, th.1.2.opensPreview = true → ended th.2 = true

theorem Sound.taken_step (hp : Sound owned p) (hp' : p.shared.sources.taken = true → Taken p) {a : Action}
    (h : Handles.step p a = some p') (ha : Orderly p a p') (htaken : p'.shared.sources.taken = true) : Taken p' := by
  cases a with
  | enter c =>
    cases h
    obtain ⟨hengine, hcalls⟩ := hp' htaken
    refine ⟨hengine, fun th hth hopens => ?_⟩
    rcases mem_concat.1 hth with hold | rfl
    · exact hcalls th hold hopens
    · exact absurd (hopens.symm.trans (ha.1 htaken)) (by decide)
  | recorder handles =>
    cases h
    obtain ⟨hengine, hcalls⟩ := hp' htaken
    exact ⟨hengine, hcalls⟩
  | run k choice =>
    obtain ⟨-, c, q, hthread, hended, hmoves⟩ := hp.advance h
    obtain ⟨id, β, f, g, b, hthread', -, hthreads⟩ := Pool.advance_cases h
    have hcalls : ∀ th ∈ p.threads, th.1.2.opensPreview = true → ended th.2 = true := by
      cases hbefore : p.shared.sources.taken with
      | true => exact (hp' hbefore).calls
      | false => exact ha.2 hbefore htaken
    -- the call that makes the step has not ended
    have hopens : c.opensPreview = false := by
      cases hopens : c.opensPreview with
      | false => rfl
      | true => exact absurd (hcalls _ (List.mem_of_getElem? hthread) hopens) (by rw [hended]; decide)
    refine ⟨?_, fun th hth ho => ?_⟩
    · rcases hmoves.taken htaken with hbefore | hnone
      · exact hmoves.engine hopens (hp' hbefore).engine
      · exact hnone
    · rw [hthreads] at hth
      rcases List.mem_or_eq_of_mem_set hth with hold | rfl
      · exact hcalls th hold ho
      · rw [hthread'] at hthread
        cases hthread
        exact absurd (ho.symm.trans hopens) (by decide)

theorem Sound.taken_run (hp : Sound False p) (htaken : p.shared.sources.taken = true → Taken p) {as : List Action}
    (ha : Along Handles.step Orderly p as) (h : Runs.run Handles.step p as = some p') : p'.shared.sources.taken = true → Taken p' :=
  (run_invariant_of_along (I := fun p => Sound False p ∧ (p.shared.sources.taken = true → Taken p))
    (fun _ _ _ hs hstep ha => ⟨hs.1.step nofun hstep, hs.1.taken_step hs.2 hstep ha⟩) ⟨hp, htaken⟩ ha h).2

/-- Where a `close` has returned there is no engine. -/
def ClosesEngine (p : System) : Prop := ∀ i, ((i, .close), .ret ()) ∈ p.threads → p.shared.sources.engine = none

/-! ### The safe swap -/

/-- A take was sealed by a stop for a safe swap, and neither a representation is open nor a catalog
verification runs. -/
structure SwapReady (w : World) : Prop where
  pending : w.flow.pendingSafeSwap.isSome
  representations : w.flow.openRepresentations = 0
  verification : w.flow.catalogVerification = false

/-- What `_publish_safe_swap` gives where it counts the handles. -/
def Blocked (w : World) : Prop := countHandles w = fail (.provider "safe_swap_blocked") w

theorem Inv.blocked_iff {w : World} (hw : Inv True w) (h : SwapReady w) : Blocked w ↔ w.sources.engine.isSome := by
  obtain ⟨hactive, hprojection, -, hrecording⟩ := hw.pending h.pending
  obtain ⟨session, hsession⟩ := Option.isSome_iff_exists.1 h.pending
  have hcount : w.openHandleCount = one w.sources.engine := by
    have hnone := hrecording trivial
    simp [World.openHandleCount, hprojection, hactive, h.representations, h.verification, hw.sources.handles, hnone, one]
  unfold Blocked countHandles
  rw [hsession, hcount]
  cases w.sources.engine <;> simp [one, pass, fail]

/-- In every run the count is of what is there. No engine is left behind a `close` that takes it
while nobody starts the preview, and an engine is all that blocks a safe swap. -/
theorem safe_swap_handles (pendingSafeSwap : Option Session) (released : Bool) (as : List Action) (p : System)
    (h : run step (System.init pendingSafeSwap released) as = some p) :
    Counted p ∧ (Along step Orderly (System.init pendingSafeSwap released) as → ClosesEngine p) ∧
      (Along step ByCoordinator (System.init pendingSafeSwap released) as → SwapReady p.shared →
        (Blocked p.shared ↔ p.shared.sources.engine.isSome)) := by
  have hany : Sound False p :=
    (sound_init False _ _).run (along_of_invariant (I := fun _ => True) (fun _ _ _ _ _ => ⟨trivial, nofun⟩) trivial) h
  refine ⟨hany.counted, fun ha i hi => ?_, fun ha hready => ?_⟩
  · obtain ⟨k, hk⟩ := List.mem_iff_getElem?.1 hi
    have hleft : Left False (i, .close) () p.shared := hany.safe.each k _ hk p.shared (.refl _ _)
    exact ((sound_init False _ _).taken_run nofun ha h (hleft.context rfl)).engine
  · have hcoordinator : Sound True p := by
      refine (sound_init True _ _).run ?_ h
      exact along_of_guard (I := fun _ => True) (fun _ _ _ _ _ hg => ⟨trivial, fun _ => hg⟩) trivial ha
    exact hcoordinator.inv.blocked_iff hready

/-- A take with a running preview is handed over, and the sources are closed. -/
def handover : List Action :=
  .enter .startPreview :: List.replicate 5 (.run 0 0) ++ .enter (.startCapture false) :: List.replicate 10 (.run 1 0) ++
    .enter (.stopCapture true true) :: List.replicate 12 (.run 2 0)

theorem safe_swap_handles_sample :
    ∃ p, run step (System.init none false) (handover ++ .enter .close :: List.replicate 4 (.run 3 0)) = some p ∧
      Counted p ∧ ClosesEngine p ∧ (Blocked p.shared ↔ p.shared.sources.engine.isSome) := by
  have hrun : (run step (System.init none false) (handover ++ .enter .close :: List.replicate 4 (.run 3 0))).isSome := rfl
  obtain ⟨p, hp⟩ := Option.isSome_iff_exists.1 hrun
  have hready : SwapReady p.shared := by
    cases hp
    exact ⟨rfl, rfl, rfl⟩
  obtain ⟨hcounted, hclose, hblocked⟩ :=
    safe_swap_handles none false (handover ++ .enter .close :: List.replicate 4 (.run 3 0)) p hp
  exact ⟨p, hp, hcounted, hclose (by decide +kernel), hblocked (by decide +kernel) hready⟩

/-- An engine that is installed behind a `close`, and one that is kept for the preview. -/
theorem safe_swap_handles_fails :
    (∃ as p, run step (System.init none false) as = some p ∧ ¬ ClosesEngine p) ∧
      ∃ as p, run step (System.init none false) as = some p ∧ Along step ByCoordinator (System.init none false) as ∧
        SwapReady p.shared ∧ Blocked p.shared := by
  constructor
  · refine ⟨.enter .startPreview :: List.replicate 4 (.run 0 0) ++ .enter .close :: List.replicate 2 (.run 1 0) ++ [.run 0 0], _, rfl,
      fun h => ?_⟩
    have hengine := h 1 (.tail _ (.head _))
    cases hengine
  · exact ⟨handover, _, rfl, by decide +kernel, ⟨rfl, rfl, rfl⟩, rfl⟩

end Conductor.Handles
