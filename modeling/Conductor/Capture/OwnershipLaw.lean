import Conductor.Capture.Ownership
import Mathlib.Data.List.Nodup

/-! Every run in which no step of an earlier take meets a later one (`Current`) owns
its takes. The invariant has four parts: what the gate, the target and the camera
thread agree on, what a stop that found an idle gate knows, which callbacks were
made, and who clears the target of a closed gate. -/

namespace Conductor.Capture

open CaptureFanoutState

variable {g : Option RecordingState}

theorem CaptureFanoutState.stopped_eq_some {r' : RecordingState} :
    stopped g = some r' ↔ ∃ r, g = some r ∧ r.inflightFrames ≠ 0 ∧ r' = { r with stopping := true } := by
  cases g with
  | none => simp [stopped]
  | some r => by_cases h : r.inflightFrames = 0 <;> simp [stopped, h, eq_comm]

theorem CaptureFanoutState.stopped_of_idle (h : ∀ r, g = some r → r.inflightFrames = 0) : stopped g = none := by
  cases g with
  | none => rfl
  | some r => simp [stopped, h r rfl]

namespace Ownership

open Runs

/-- The target of the frame that is being written. -/
def Camera.writes : Camera → Option Target
  | .writing target => some target
  | _ => none

structure Gated (state : State) (take : ℕ) (writes : Option Target) (unfinished : List ℕ) : Prop where
  installed : ∀ u, state.recording = some u → u.take = take
  active : ∀ r, state.fanout.recording = some r → r.stopping = false → state.recording.isSome
  quiet : writes = none → unfinished = [] ∧
    ∀ r, state.fanout.recording = some r → r.inflightFrames = 0 ∧ r.stopping = false
  busy : ∀ u, writes = some u → u.take = take ∧ unfinished = [take] ∧
    ∃ r, state.fanout.recording = some r ∧ r.inflightFrames = 1

def Stops (gate : Option RecordingState) (take : ℕ) (callers : ℕ → Caller) : Prop :=
  ∀ c k, callers c = .stopping 0 (some k) → k ≤ take ∧ (k = take → gate = none)

structure Called (gate : Option RecordingState) (take : ℕ) (imuWorker : Option ImuWorker)
    (calls : List ℕ) : Prop where
  imu : ∀ w, imuWorker = some w → w.take = take
  past : ∀ k ∈ calls, k ≤ take
  once : calls.Nodup
  unreported : ∀ r, gate = some r → r.failureReported = false → take ∉ calls

structure Cleared (state : State) (stop : Bool) (callers : ℕ → Caller) : Prop where
  closing : ∀ c, callers c = .closing → stop = true
  target : state.fanout.recording = none →
    state.recording = none ∨ stop = true ∨ ∃ c take, callers c = .stopping 0 take

structure Inv (s : Sys) : Prop where
  gated : Gated s.state s.take s.camera.writes s.unfinished
  stops : Stops s.gate s.take s.callers
  called : Called s.gate s.take s.imuWorker s.calls
  cleared : Cleared s.state s.stop s.callers

theorem init_inv (fanout : CaptureFanoutState) : Inv (init fanout) where
  gated := ⟨by simp [init], by simp [init], by simp [init], by simp [init, Camera.writes]⟩
  stops := by simp [Stops, init]
  called := ⟨by simp [init], by simp [init], by simp [init], by simp [init]⟩
  cleared := ⟨by simp [init], by simp [init]⟩

/-- A gate that is no newer: nothing was started and no report was forgotten. -/
def Under (gate gate' : Option RecordingState) : Prop :=
  ∀ r', gate' = some r' → ∃ r, gate = some r ∧ (r'.failureReported = false → r.failureReported = false)

variable {gate gate' : Option RecordingState} {t : Sys}

theorem Under.none (h : Under gate gate') (hg : gate = none) : gate' = none := by
  cases hg' : gate' with
  | none => rfl
  | some r' =>
    obtain ⟨r, hr, -⟩ := h r' hg'
    rw [hg] at hr
    cases hr

variable {take : ℕ}

theorem Stops.under {callers : ℕ → Caller}
    (h : Stops gate take callers) (hg : Under gate gate') : Stops gate' take callers :=
  fun c k hc => ⟨(h c k hc).1, fun hk => hg.none ((h c k hc).2 hk)⟩

theorem Called.under {w : Option ImuWorker}
    {calls : List ℕ} (h : Called gate take w calls) (hg : Under gate gate') : Called gate' take w calls where
  imu := h.imu
  past := h.past
  once := h.once
  unreported r' hr' hf := by
    obtain ⟨r, hr, hfr⟩ := hg r' hr'
    exact h.unreported r hr (hfr hf)

/-! ### Closing a gate -/

/-- A section that closes the gate, and marks the failure of its take if `mark`. -/
structure Closes (mark : Bool) (state state' : State) : Prop where
  gate : state'.fanout.recording = stopped (state.fanout.recording.map fun r =>
    { r with failureReported := r.failureReported || mark })
  target : state'.recording = state.recording ∨ state'.recording = none

theorem closes_begin (state : State) : Closes false state state.beginRecordingStop.2 :=
  ⟨by simp [State.beginRecordingStop], .inl rfl⟩

theorem closes_report (state : State) (preferred : Option ℕ) :
    Closes true state (state.reportRecordingFailure preferred).2 :=
  ⟨by simp [State.reportRecordingFailure], by
    simp only [State.reportRecordingFailure]
    split
    · exact .inr rfl
    · exact .inl rfl⟩

theorem closes_terminal (state : State) (e : RuntimeError) :
    Closes true state (state.setTerminalError e).2 :=
  ⟨by simp [State.setTerminalError], .inr rfl⟩

theorem closes_exit (state : State) : Closes false state state.runLoopExit.2 :=
  ⟨by simp [State.runLoopExit], .inr rfl⟩

theorem closes_close (state : State) : Closes false state state.closeRuntime :=
  ⟨by simp [State.closeRuntime], .inr rfl⟩

namespace Closes

variable {mark : Bool} {state state' : State}

theorem some_gate (h : Closes mark state state') {r' : RecordingState}
    (hr : state'.fanout.recording = some r') :
    ∃ r, state.fanout.recording = some r ∧ r.inflightFrames ≠ 0 ∧
      r'.inflightFrames = r.inflightFrames ∧ r'.stopping = true ∧
      r'.failureReported = (r.failureReported || mark) := by
  rw [h.gate, stopped_eq_some] at hr
  obtain ⟨marked, hmarked, hne, rfl⟩ := hr
  obtain ⟨r, hr, rfl⟩ := Option.map_eq_some_iff.1 hmarked
  exact ⟨r, hr, hne, rfl, rfl, rfl⟩

theorem under (h : Closes mark state state') : Under state.fanout.recording state'.fanout.recording := by
  intro r' hr'
  obtain ⟨r, hr, -, -, -, hf⟩ := h.some_gate hr'
  exact ⟨r, hr, fun h' => by rw [hf, Bool.or_eq_false_iff] at h'; exact h'.1⟩

variable {take : ℕ}

theorem gate_of_quiet (h : Closes mark state state') {unfinished : List ℕ}
    (hg : Gated state take none unfinished) : state'.fanout.recording = none := by
  rw [h.gate]
  refine stopped_of_idle fun marked hmarked => ?_
  obtain ⟨r, hr, rfl⟩ := Option.map_eq_some_iff.1 hmarked
  exact ((hg.quiet rfl).2 r hr).1

theorem gated (h : Closes mark state state') {writes : Option Target} {unfinished : List ℕ}
    (hg : Gated state take writes unfinished) : Gated state' take writes unfinished where
  installed u hu := by
    rcases h.target with ht | ht
    · exact hg.installed u (ht ▸ hu)
    · rw [ht] at hu
      cases hu
  active r hr hstop := by
    obtain ⟨-, -, -, -, hs, -⟩ := h.some_gate hr
    rw [hs] at hstop
    cases hstop
  quiet hw := by
    subst hw
    refine ⟨(hg.quiet rfl).1, fun r hr => ?_⟩
    rw [h.gate_of_quiet hg] at hr
    cases hr
  busy u hu := by
    obtain ⟨h1, h2, r, hr, hone⟩ := hg.busy u hu
    exact ⟨h1, h2, _, by rw [h.gate, hr]; simp [stopped, hone]; rfl, rfl⟩

/-- A callback is made for the take of the gate, and only by a section that marks it. -/
theorem called (h : Closes mark state state') {w : Option ImuWorker} {calls : List ℕ}
    {callback : Option ℕ} (hc : Called state.fanout.recording take w calls)
    (hcall : ∀ k, callback = some k → mark = true ∧ k = take ∧
      ∃ r, state.fanout.recording = some r ∧ r.failureReported = false) :
    Called state'.fanout.recording take w (callback.toList ++ calls) := by
  cases hcb : callback with
  | none => exact hc.under h.under
  | some k =>
    obtain ⟨rfl, rfl, r, hr, hf⟩ := hcall k hcb
    refine ⟨hc.imu, by simpa using hc.past, by simpa using ⟨hc.unreported r hr hf, hc.once⟩, ?_⟩
    intro r' hr' hf'
    obtain ⟨r₀, -, -, -, -, hmarked⟩ := h.some_gate hr'
    simp [hmarked] at hf'

end Closes

/-! ### The steps of the threads -/

variable {s : Sys} {a : Action}

theorem Inv.setCaller (h : Inv s) {c : ℕ} {pc : Caller} (hc : pc ≠ .closing)
    (hpc : ∀ k, pc = .stopping 0 (some k) → k ≤ s.take ∧ (k = s.take → s.gate = none))
    (hleave : ∀ k, s.callers c = .stopping 0 k → s.state.recording = none) : Inv (s.setCaller c pc) where
  gated := h.gated
  stops c' k hk := by
    simp only [Sys.setCaller, Function.update_apply] at hk
    split at hk
    · exact hpc k hk
    · exact h.stops c' k hk
  called := h.called
  cleared := by
    refine ⟨fun c' hc' => ?_, fun hg => ?_⟩
    · simp only [Sys.setCaller, Function.update_apply] at hc'
      split at hc'
      · exact absurd hc' hc
      · exact h.cleared.closing c' hc'
    · rcases h.cleared.target hg with hnone | hstop | ⟨c', k, hc'⟩
      · exact .inl hnone
      · exact .inr (.inl hstop)
      · by_cases heq : c' = c
        · exact .inl (hleave k (heq ▸ hc'))
        · exact .inr (.inr ⟨c', k, by simp [Sys.setCaller, heq, hc']⟩)

theorem reaped_inv (h : Inv s) (ht : s.reaped = some t) : Inv t ∧ t.callers = s.callers := by
  unfold Sys.reaped at ht
  split at ht
  · cases ht
    exact ⟨h, rfl⟩
  · split at ht
    · cases ht
      exact ⟨⟨h.gated, h.stops, ⟨by simp, h.called.past, h.called.once, h.called.unreported⟩,
        h.cleared⟩, rfl⟩
    · cases ht

/-- A stop closes the gate; a gate it leaves open still has frames in flight. -/
theorem stopped_parts (h : Inv s) :
    Gated s.stopped.state s.stopped.take s.stopped.camera.writes s.stopped.unfinished ∧
      Stops s.stopped.gate s.stopped.take s.stopped.callers ∧
      Called s.stopped.gate s.stopped.take s.stopped.imuWorker s.stopped.calls ∧
      (s.stopped.gate = none ↔ s.state.beginRecordingStop.1.1 = 0) := by
  have hclose := closes_begin s.state
  refine ⟨hclose.gated h.gated, h.stops.under hclose.under,
    hclose.called h.called (by simp [State.beginRecordingStop]), ?_⟩
  simp only [Sys.stopped, Sys.apply, Sys.gate, State.beginRecordingStop, startStopping_recording,
    startStopping_inflight]
  cases s.state.fanout.recording with
  | none => simp [CaptureFanoutState.stopped]
  | some r => by_cases hr : r.inflightFrames = 0 <;> simp [CaptureFanoutState.stopped, hr]

theorem beginStop_inv (h : Inv s) (c : ℕ) : Inv (s.stopped.setCaller c
      (.stopping s.state.beginRecordingStop.1.1 (s.state.recording.map (·.take)))) := by
  obtain ⟨hgated, hstops, hcalled, hidle⟩ := stopped_parts h
  refine ⟨hgated, fun c' k hk => ?_, hcalled, fun c' hc' => ?_, fun hg => ?_⟩
  · simp only [Sys.setCaller, Function.update_apply] at hk
    split at hk
    · simp only [Caller.stopping.injEq, Option.map_eq_some_iff] at hk
      obtain ⟨h0, u, hu, rfl⟩ := hk
      exact ⟨(h.gated.installed u hu).le, fun _ => hidle.2 h0⟩
    · exact hstops c' k hk
  · simp only [Sys.setCaller, Function.update_apply] at hc'
    split at hc'
    · cases hc'
    · exact h.cleared.closing c' hc'
  · exact .inr (.inr ⟨c, s.state.recording.map (·.take), by
      simp only [Sys.setCaller, Function.update_self, hidle.1 hg]⟩)

theorem closeStop_inv (h : Inv s) {c : ℕ} (hc : s.callers c = .closing) :
    Inv (s.stopped.setCaller c .closeReaping) := by
  obtain ⟨hgated, hstops, hcalled, -⟩ := stopped_parts h
  have hstop : s.stop = true := h.cleared.closing c hc
  have hs : Inv s.stopped := ⟨hgated, hstops, hcalled, fun _ _ => hstop, fun _ => .inr (.inl hstop)⟩
  exact hs.setCaller nofun nofun fun k hk => by cases hc.symm.trans hk

/-- A section that takes the target away, once the gate is not open. -/
theorem Inv.dropTarget (h : Inv s) (hopen : ∀ r, s.gate = some r → r.stopping = true) :
    Inv { s with state := { s.state with recording := none } } where
  gated := ⟨nofun, fun r hr hstop => absurd (hopen r hr) (by simp [hstop]), h.gated.quiet, h.gated.busy⟩
  stops := h.stops
  called := h.called
  cleared := ⟨h.cleared.closing, fun _ => .inl rfl⟩

theorem stepControl_inv {c : ℕ} {a : Control} (h : Inv s)
    (hcur : Current s (.control c a) t) (ht : stepControl s c (s.callers c) a = some t) : Inv t := by
  have hpcs : ∀ pc', pc' ≠ .closing → (∀ k, s.callers c ≠ .stopping 0 k) →
      (∀ n k, pc' ≠ .stopping n k) → Inv (s.setCaller c pc') := fun pc' hclosing hpc hpc' =>
    h.setCaller hclosing (fun k hk => absurd hk (hpc' 0 (some k))) fun k hk => absurd hk (hpc k)
  unfold stepControl at ht
  split at ht
  · next hpc => -- prepare
    split at ht
    · cases ht
    · cases ht
      exact hpcs _ nofun (by simp [hpc]) nofun
  · cases ht
    exact beginStop_inv h c
  · cases ht
    exact beginStop_inv h c
  · next k hpc => -- clear
    cases ht
    have hopen : ∀ r, s.gate = some r → r.stopping = true := by
      intro r hr
      by_contra hstop
      obtain ⟨u, hu⟩ := Option.isSome_iff_exists.1
        (h.gated.active r hr (by simpa using hstop))
      have hk : k = some u.take := hcur 0 k hpc u hu
      have hnone := (h.stops c u.take (hk ▸ hpc)).2 (h.gated.installed u hu)
      rw [hr] at hnone
      cases hnone
    exact (h.dropTarget hopen).setCaller nofun nofun fun _ _ => rfl
  · next hpc => -- drained
    split at ht
    · cases ht
      exact hpcs _ nofun (by simp [hpc]) nofun
    · cases ht
  · next hpc =>
    split at ht
    · cases ht
    · cases ht
      exact hpcs _ nofun (by simp [hpc]) nofun
  · next hpc => -- reap
    obtain ⟨u, hu, rfl⟩ := Option.map_eq_some_iff.1 ht
    obtain ⟨hinv, hcallers⟩ := reaped_inv h hu
    exact hinv.setCaller nofun nofun fun k hk => by rw [hcallers, hpc] at hk; cases hk
  · next hpc =>
    cases ht
    exact hpcs _ nofun (by simp [hpc]) nofun
  · next hpc => -- closeBegin
    cases ht
    refine ⟨h.gated, fun c' k hk => ?_, h.called, fun _ _ => rfl, fun _ => .inr (.inl rfl)⟩
    simp only [Sys.setCaller, Function.update_apply] at hk
    split at hk
    · cases hk
    · exact h.stops c' k hk
  · next hpc =>
    cases ht
    exact closeStop_inv h hpc
  · next hpc => -- closeReap
    obtain ⟨u, hu, rfl⟩ := Option.map_eq_some_iff.1 ht
    obtain ⟨hinv, hcallers⟩ := reaped_inv h hu
    exact hinv.setCaller nofun nofun fun k hk => by rw [hcallers, hpc] at hk; cases hk
  · next hpc =>
    cases ht
    exact hpcs _ nofun (by simp [hpc]) nofun
  · next hpc => -- closeTake
    cases ht
    have hw : Inv { s with worker := false } := ⟨h.gated, h.stops, h.called, h.cleared⟩
    split
    · exact hw.setCaller nofun nofun fun k hk => by cases hpc.symm.trans hk
    · exact hw.setCaller nofun nofun fun k hk => by cases hpc.symm.trans hk
  · next hpc =>
    split at ht
    · cases ht
      exact hpcs _ nofun (by simp [hpc]) nofun
    · cases ht
  · next hpc => -- closeEnd
    cases ht
    have hclose := closes_close s.state
    have hs : Inv { s with state := s.state.closeRuntime } :=
      ⟨hclose.gated h.gated, h.stops.under hclose.under, h.called.under hclose.under,
        h.cleared.closing, fun _ => .inl rfl⟩
    exact hs.setCaller nofun nofun fun k hk => by cases hpc.symm.trans hk
  · cases ht

theorem under_map {f : RecordingState → RecordingState}
    (hf : ∀ r, (f r).failureReported = r.failureReported) : Under gate (gate.map f) := by
  intro r' hr'
  obtain ⟨r, hr, rfl⟩ := Option.map_eq_some_iff.1 hr'
  exact ⟨r, hr, fun h => hf r ▸ h⟩

/-- An idle camera admits a frame into an idle gate: a counted frame has the target of its take. -/
theorem frame_gated {state state' : State} {frame : Frame} {res : Except RuntimeError Admission}
    (h : Gated state take none []) (hadm : state.admitFrame frame = (res, state')) :
    (State.admitted res = false → Gated state' take none []) ∧
      (State.admitted res = true → ∃ u, state.recording = some u ∧ Gated state' take (some u) [take]) := by
  obtain ⟨hrec, ⟨k, hgate⟩, hactive⟩ := State.admitFrame_gate hadm
  have hinstalled : ∀ u, state'.recording = some u → u.take = take := fun u hu =>
    h.installed u (hrec ▸ hu)
  have hisSome : ∀ r, state'.fanout.recording = some r → r.stopping = false → state'.recording.isSome := by
    intro r hr hstop
    rw [hgate] at hr
    obtain ⟨r₀, hr₀, rfl⟩ := Option.map_eq_some_iff.1 hr
    rw [hrec]
    exact h.active r₀ hr₀ hstop
  refine ⟨fun hcounted => ⟨hinstalled, hisSome, fun _ => ⟨rfl, fun r hr => ?_⟩, nofun⟩, fun hcounted => ?_⟩
  · rw [hgate] at hr
    obtain ⟨r₀, hr₀, rfl⟩ := Option.map_eq_some_iff.1 hr
    simpa [hcounted] using (h.quiet rfl).2 r₀ hr₀
  · obtain ⟨r₀, hr₀, hstop⟩ := hactive hcounted
    obtain ⟨u, hu⟩ := Option.isSome_iff_exists.1 (h.active r₀ hr₀ hstop)
    refine ⟨u, hu, hinstalled, hisSome, nofun, ?_⟩
    rintro u' ⟨⟩
    exact ⟨h.installed u hu, rfl, _, by rw [hgate, hr₀]; rfl, by
      simp [hcounted, ((h.quiet rfl).2 r₀ hr₀).1]⟩

theorem frame_inv {frame : Frame} (h : Inv s) (hw : s.camera = .reading)
    (ht : stepCamera s .reading (.frame frame) = some t) :
    Inv t ∧ (t.unfinished ≠ s.unfinished → ∃ target, t.camera = .writing target) := by
  have hgated : Gated s.state s.take none s.unfinished := by
    simpa [hw, Camera.writes] using h.gated
  obtain ⟨hidle, -⟩ := hgated.quiet rfl
  rw [hidle] at hgated
  cases hadm : s.state.admitFrame frame with
  | mk res state =>
    obtain ⟨hskip, hcount⟩ := frame_gated hgated hadm
    obtain ⟨hrec, ⟨k, hgate⟩, -⟩ := State.admitFrame_gate hadm
    have hunder : Under s.state.fanout.recording state.fanout.recording :=
      hgate ▸ under_map fun _ => rfl
    have hcleared : Cleared state s.stop s.callers := ⟨h.cleared.closing, fun hg => by
      rw [hrec]
      rw [hgate, Option.map_eq_none_iff] at hg
      exact h.cleared.target hg⟩
    have hstops := h.stops.under hunder
    have hcalled := h.called.under hunder
    simp only [stepCamera, hadm] at ht
    cases res with
    | error e =>
      cases ht
      exact ⟨⟨hidle ▸ hskip rfl, hstops, hcalled, hcleared⟩, fun hne => absurd rfl hne⟩
    | ok a =>
      have hdispatch : a.dispatch = if a.record then s.state.recording else none := by
        obtain ⟨d, -, -, -, hd, hdisp, -⟩ := State.admitFrame_ok hadm
        rw [hdisp, hd]
      cases ht
      by_cases hrecord : a.record = true
      · obtain ⟨u, hu, hg⟩ := hcount hrecord
        have hdisp : a.dispatch = some u := by rw [hdispatch, if_pos hrecord, hu]
        refine ⟨⟨?_, hstops, hcalled, hcleared⟩, fun _ => ⟨u, by simp [hdisp]⟩⟩
        simpa [hdisp, hrecord, hidle, Camera.writes] using hg
      · have hdisp : a.dispatch = none := by rw [hdispatch, if_neg hrecord]
        refine ⟨⟨?_, hstops, hcalled, hcleared⟩, fun hne => absurd (if_neg hrecord) hne⟩
        simpa [hdisp, hrecord, hidle, Camera.writes] using hskip (Bool.eq_false_iff.2 hrecord)

/-- The frame that the camera wrote is the only one in flight, so it finishes. -/
theorem finishRecordingFrame_busy {state : State} {target : Target} {unfinished : List ℕ}
    (h : Gated state take (some target) unfinished) : ∃ state', state.finishRecordingFrame = (.ok (), state') ∧
      Gated state' take none (unfinished.erase target.take) ∧ Under state.fanout.recording state'.fanout.recording ∧
      (state'.fanout.recording = none → state'.recording = none) := by
  obtain ⟨htake, hunf, r, hr, hone⟩ := h.busy target rfl
  have herase : unfinished.erase target.take = [] := by rw [hunf, htake]; simp
  have hfin := finishFrame_of_one hr hone
  by_cases hstop : r.stopping = true
  · simp only [hstop, ↓reduceIte] at hfin
    refine ⟨{ state with fanout := { state.fanout with recording := none }, recording := none },
      by simp [State.finishRecordingFrame, hfin], ?_, by simp [Under], fun _ => rfl⟩
    exact ⟨by simp, by simp, by simp [herase], by simp⟩
  · rw [Bool.not_eq_true] at hstop
    simp only [hstop, Bool.false_eq_true, ↓reduceIte] at hfin
    refine ⟨{ state with fanout := { state.fanout with recording := some { r with inflightFrames := 0 } } },
      by simp [State.finishRecordingFrame, hfin, hstop], ?_, ?_, by simp⟩
    · refine ⟨h.installed, fun _ _ _ => h.active r hr hstop, fun _ => ⟨herase, ?_⟩, by simp⟩
      rintro r' ⟨⟩
      exact ⟨rfl, hstop⟩
    · rintro r' ⟨⟩
      exact ⟨r, hr, id⟩

/-- A failure is reported to the take of the gate, if it is reported at all. -/
theorem report_called (h : Inv s) (hgate : s.gate.isSome = true → s.take = take) :
    Called (s.state.reportRecordingFailure (some take)).2.fanout.recording s.take s.imuWorker
      ((s.state.reportRecordingFailure (some take)).1.onFailure.toList ++ s.calls) := by
  refine (closes_report s.state (some take)).called h.called fun k hk => ?_
  simp only [State.reportRecordingFailure, Option.some_or, Option.ite_none_right_eq_some,
    markFailure_shouldReport] at hk
  obtain ⟨⟨r, hr, hf⟩, ⟨⟩⟩ := hk
  exact ⟨rfl, (hgate (by simp [Sys.gate, hr])).symm, r, hr, hf⟩

theorem report_cleared (h : Inv s) (take : ℕ) :
    Cleared (s.state.reportRecordingFailure (some take)).2 s.stop s.callers :=
  ⟨h.cleared.closing, fun hg => .inl (by simp_all [State.reportRecordingFailure])⟩

theorem stepCamera_inv {a : CameraStep} (h : Inv s) (hcur : Current s (.camera a) t)
    (ht : stepCamera s s.camera a = some t) : Inv t := by
  have hgated := h.gated
  unfold stepCamera at ht
  split at ht
  · next hpc => -- poll
    cases ht
    refine ⟨?_, h.stops, h.called, h.cleared⟩
    rw [hpc] at hgated
    show Gated _ _ (if s.stop then Camera.leaving else Camera.reading).writes _
    split <;> exact hgated
  · next frame hpc => exact (frame_inv h hpc (by simpa [stepCamera] using ht)).1
  · next e hpc => -- readError
    cases ht
    refine ⟨?_, h.stops, h.called, h.cleared⟩
    rw [hpc] at hgated
    show Gated _ _ (if s.stop then Camera.leaving else Camera.failed e).writes _
    split <;> exact hgated
  · next target ok hpc => -- written
    rw [hpc] at hgated
    obtain ⟨state, hfin, hidle, hunder, hnone⟩ := finishRecordingFrame_busy hgated
    simp only [hfin] at ht
    cases ht
    refine ⟨?_, h.stops.under hunder, h.called.under hunder, h.cleared.closing, fun hg => .inl (hnone hg)⟩
    show Gated _ _ (if ok then Camera.looping else Camera.reporting target).writes _
    split <;> exact hidle
  · next target hpc => -- report
    cases ht
    have hclose := closes_report s.state (some target.take)
    rw [hpc] at hgated
    exact ⟨hclose.gated hgated, h.stops.under hclose.under, report_called h (hcur target hpc).1,
      report_cleared h target.take⟩
  · next hpc => -- exit
    cases ht
    have hclose := closes_exit s.state
    rw [hpc] at hgated
    exact ⟨hclose.gated hgated, h.stops.under hclose.under, h.called.under hclose.under,
      h.cleared.closing, fun _ => .inl rfl⟩
  · next e hpc => -- terminal
    cases ht
    have hclose := closes_terminal s.state e
    rw [hpc] at hgated
    refine ⟨hclose.gated hgated, h.stops.under hclose.under, hclose.called h.called fun k hk => ?_,
      h.cleared.closing, fun _ => .inl rfl⟩
    simp only [State.setTerminalError, Option.ite_none_right_eq_some, markFailure_shouldReport,
      Option.map_eq_some_iff] at hk
    obtain ⟨hreport, u, hu, rfl⟩ := hk
    exact ⟨rfl, h.gated.installed u hu, hreport⟩
  · cases ht

theorem stepImu_inv {w : ImuWorker} {a : ImuStep} (h : Inv s) (hw : s.imuWorker = some w)
    (ht : stepImu s w.take w.thread a = some t) : Inv t := by
  have htake : w.take = s.take := h.called.imu w hw
  have hcalled : ∀ {gate calls} thread, Called gate s.take s.imuWorker calls →
      Called gate s.take (some ⟨w.take, thread⟩) calls := fun _ hc =>
    ⟨by rintro w' ⟨⟩; exact htake, hc.past, hc.once, hc.unreported⟩
  unfold stepImu at ht
  split at ht
  · cases ht
    exact ⟨h.gated, h.stops, hcalled _ h.called, h.cleared⟩
  · cases ht
    exact ⟨h.gated, h.stops, hcalled _ h.called, h.cleared⟩
  · cases ht
    have hclose := closes_report s.state (some w.take)
    exact ⟨hclose.gated h.gated, h.stops.under hclose.under,
      hcalled _ (report_called h fun _ => htake.symm), report_cleared h w.take⟩
  · cases ht
    exact ⟨h.gated, h.stops, hcalled _ h.called, h.cleared⟩
  · cases ht
    exact ⟨h.gated, h.stops, hcalled _ h.called, h.cleared⟩
  · cases ht

/-- A start finds the gate and the slot of the last take empty. -/
theorem start_inv {imu : Bool} (h : Inv s) (ht : step s (.start imu) = some t) : Inv t := by
  simp only [step] at ht
  split at ht
  · cases ht
  split at ht
  · cases ht
  next hslot state hstart =>
  cases ht
  obtain ⟨-, -, hidle, rfl⟩ := State.startRecording_eq_ok hstart
  have hquiet : s.camera.writes = none := by
    by_contra hw
    obtain ⟨u, hu⟩ := Option.ne_none_iff_exists'.1 hw
    obtain ⟨-, -, r, hr, hone⟩ := h.gated.busy u hu
    have := (hidle r hr).1
    omega
  refine ⟨⟨?_, fun _ _ _ => rfl, fun _ => ⟨(h.gated.quiet hquiet).1, ?_⟩, ?_⟩, fun c k hc => ?_,
    ⟨?_, ?_, h.called.once, ?_⟩, h.cleared.closing, nofun⟩
  · rintro u ⟨⟩
    rfl
  · rintro r ⟨⟩
    exact ⟨rfl, rfl⟩
  · intro u hu
    rw [hquiet] at hu
    cases hu
  · have hle := (h.stops c k hc).1
    exact ⟨hle.trans (Nat.le_succ _), fun hk => absurd (hk ▸ hle) (Nat.not_succ_le_self _)⟩
  · intro w hw
    simp only [Option.ite_none_right_eq_some, Option.some.injEq] at hw
    rw [← hw.2]
  · exact fun k hk => (h.called.past k hk).trans (Nat.le_succ _)
  · exact fun _ _ _ hmem => absurd (h.called.past _ hmem) (Nat.not_succ_le_self _)

theorem step_inv (h : Inv s) (ht : step s a = some t) (hc : Current s a t) : Inv t := by
  cases a with
  | start imu => exact start_inv h ht
  | control c a => exact stepControl_inv h hc ht
  | camera a => exact stepCamera_inv h hc ht
  | imu a =>
    obtain ⟨w, hw, hstep⟩ := Option.bind_eq_some_iff.1 ht
    exact stepImu_inv h hw hstep

/-! ### What the invariant gives -/

theorem owned_of_inv (h : Inv s) : Owned s where
  target r hr hstop := by
    obtain ⟨u, hu⟩ := Option.isSome_iff_exists.1 (h.gated.active r hr hstop)
    rw [hu, Option.map_some, h.gated.installed u hu]
  inflight r hr := by
    cases hw : s.camera.writes with
    | none =>
      obtain ⟨hnil, hidle⟩ := h.gated.quiet hw
      rw [hnil, (hidle r hr).1, List.count_nil]
    | some u =>
      obtain ⟨-, hunf, r', hr', hone⟩ := h.gated.busy u hw
      obtain rfl : r = r' := Option.some.inj (hr.symm.trans hr')
      rw [hunf, hone, List.count_singleton_self]
  idle hstop hcount := by
    cases hw : s.camera.writes with
    | none =>
      refine Option.eq_none_iff_forall_ne_some.2 fun r hr => ?_
      have hopen := ((h.gated.quiet hw).2 r hr).2
      rw [hstop r hr] at hopen
      cases hopen
    | some u =>
      obtain ⟨-, hunf, -⟩ := h.gated.busy u hw
      rw [hunf, List.count_singleton_self] at hcount
      cases hcount
  restart hgate hrun hrec target := by
    have hfan : s.state.fanout.startRecording =
        .ok { s.state.fanout with recording := some {} } :=
      CaptureFanoutState.startRecording_eq_ok.2 ⟨rfl, fun r hr => by cases hgate.symm.trans hr⟩
    exact ⟨_, by simp only [State.startRecording, hrun, hrec, hfan]; rfl⟩
  cleared hgate := h.cleared.target hgate
  calls := List.nodup_iff_count_le_one.1 h.called.once

/-- A section that closes the gate of `k` and finds nothing of another take installed. -/
theorem view_apply {mark : Bool} {e : Effects} {state : State} {k : ℕ} (hne : k ≠ take)
    (hclose : Closes mark s.state state) (hgate : s.gate.isSome = true → s.take = k)
    (htarget : ∀ u, s.state.recording = some u → u.take = k)
    (hstop : e.captureStop = s.state.recording) (hcall : ∀ j, e.onFailure = some j → j = k) :
    (s.apply e state).view take = s.view take := by
  have hview : (if s.take = take then state.fanout.recording else none) =
      if s.take = take then s.gate else none := by
    split
    · next heq =>
      have hnone : s.gate = none := by
        by_contra hsome
        exact hne ((hgate (Option.isSome_iff_ne_none.2 hsome)).symm.trans heq)
      rw [hnone]
      exact hclose.under.none hnone
    · rfl
  have hfilter : ∀ o : Option Target, (∀ u, o = some u → u.take = k) →
      o.filter (fun u => decide (u.take = take)) = none := by
    intro o ho
    rw [Option.filter_eq_none_iff]
    exact fun u hu => by simp [ho u hu, hne]
  have htargets : state.recording.filter (fun u => decide (u.take = take)) =
      s.state.recording.filter (fun u => decide (u.take = take)) := by
    rw [hfilter _ htarget]
    rcases hclose.target with ht | ht
    · exact hfilter _ (ht ▸ htarget)
    · rw [ht]
      rfl
  have hclosed : take ∈ (e.captureStop.map (·.take)).toList ++ s.closedGates ↔ take ∈ s.closedGates := by
    rw [List.mem_append, or_iff_right]
    simp only [hstop, Option.mem_toList, Option.map_eq_some_iff, not_exists, not_and]
    exact fun u hu heq => hne ((htarget u hu).symm.trans heq)
  have hcalls : (e.onFailure.toList ++ s.calls).count take = s.calls.count take := by
    rw [List.count_append, Nat.add_eq_right, List.count_eq_zero]
    simp only [Option.mem_toList]
    exact fun hj => hne (hcall take hj).symm
  calc (s.apply e state).view take
      = ⟨if s.take = take then state.fanout.recording else none,
          state.recording.filter (fun u => decide (u.take = take)),
          decide (take ∈ (e.captureStop.map (·.take)).toList ++ s.closedGates),
          (e.onFailure.toList ++ s.calls).count take⟩ := rfl
    _ = s.view take := by rw [hview, htargets, hcalls, decide_eq_decide.2 hclosed]; rfl

theorem report_view {k : ℕ} (hne : k ≠ take) (hgate : s.gate.isSome = true → s.take = k)
    (htarget : ∀ u, s.state.recording = some u → u.take = k) : (s.apply (s.state.reportRecordingFailure (some k)).1
      (s.state.reportRecordingFailure (some k)).2).view take = s.view take := by
  refine view_apply hne (closes_report _ _) hgate htarget rfl fun j hj => ?_
  simp only [State.reportRecordingFailure, Option.some_or, Option.ite_none_right_eq_some,
    Option.some.injEq] at hj
  exact hj.2.symm

theorem step_others (h : Inv s) (ht : step s a = some t) (hc : Current s a t) :
    ∀ o, actsFor s a = some o → ∀ take, o ≠ some take → t.view take = s.view take := by
  intro o ho take hne
  unfold actsFor at ho
  split at ho
  · next c => -- clear
    split at ho
    · next n k hpc =>
      obtain rfl : k = o := Option.some.inj ho
      have htarget : ∀ u, s.state.recording = some u → u.take ≠ take := fun u hu heq =>
        hne (by rw [hc n k hpc u hu, heq])
      have hfilter : s.state.recording.filter (fun u => decide (u.take = take)) = none := by
        rw [Option.filter_eq_none_iff]
        exact fun u hu => by simp [htarget u hu]
      cases n with
      | zero =>
        simp only [step, hpc, stepControl, Option.some.injEq] at ht
        subst ht
        simp only [Sys.view, Sys.setCaller, Sys.gate, State.clearRecording, hfilter]
        rfl
      | succ n => simp [step, hpc, stepControl] at ht
    · cases ho
  · next ok => -- written
    split at ho
    · next target hpc =>
      cases ho
      have hgated := h.gated
      rw [hpc] at hgated
      obtain ⟨htake, -⟩ := hgated.busy target rfl
      obtain ⟨state, hfin, hidle, -⟩ := finishRecordingFrame_busy hgated
      simp only [step, hpc, stepCamera, hfin, Option.some.injEq] at ht
      subst ht
      have hother : s.take ≠ take := fun heq => hne (by rw [htake, heq])
      have hfilter : ∀ o : Option Target, (∀ u, o = some u → u.take = s.take) →
          o.filter (fun u => decide (u.take = take)) = none := by
        intro o ho
        rw [Option.filter_eq_none_iff]
        exact fun u hu => by simp [ho u hu, hother]
      simp only [Sys.view, hother, ↓reduceIte, hfilter _ h.gated.installed, hfilter _ hidle.installed]
    · cases ho
  · split at ho
    · next target hpc => -- report
      cases ho
      simp only [step, hpc, stepCamera, Option.some.injEq] at ht
      subst ht
      obtain ⟨hgate, htarget⟩ := hc target hpc
      exact report_view (fun heq => hne (by rw [heq])) hgate htarget
    · cases ho
  · -- the IMU thread reports for the take that is installed
    obtain ⟨w, hw, rfl⟩ := Option.map_eq_some_iff.1 ho
    have htake := h.called.imu w hw
    simp only [step, hw, Option.bind_some, stepImu] at ht
    split at ht
    · next hcase => cases hcase
    · next hcase => cases hcase
    · cases ht
      exact report_view (fun heq => hne (by rw [heq])) (fun _ => htake.symm) fun u hu =>
        (h.gated.installed u hu).trans htake.symm
    · next hcase => cases hcase
    · next hcase => cases hcase
    · cases ht
  · cases ho

theorem step_dispatched (h : Inv s) (ht : step s a = some t) :
    ∀ f, a = .camera (.frame f) → t.unfinished ≠ s.unfinished → ∃ target, t.camera = .writing target := by
  rintro f rfl hne
  have hpc : s.camera = .reading := by
    simp only [step, stepCamera] at ht
    split at ht <;> simp_all
  exact (frame_inv h hpc (by simpa [step, hpc] using ht)).2 hne

/-- A step that leaves the other takes alone meets none of them. -/
theorem current_of_others (h : Inv s) (ht : step s a = some t)
    (hothers : ∀ o, actsFor s a = some o → ∀ take, o ≠ some take → t.view take = s.view take) : Current s a t := by
  have hfilter : ∀ u : Target, (some u).filter (fun v => decide (v.take = u.take)) = some u := fun u => by
    simp
  unfold Current
  split
  · next c => -- clear
    intro n k hpc u hu
    by_contra hne
    have hview := congrArg TakeView.target (hothers k (by simp [actsFor, hpc]) u.take hne)
    cases n with
    | zero =>
      simp only [step, hpc, stepControl, Option.some.injEq] at ht
      subst ht
      simp only [Sys.view, hu, hfilter] at hview
      cases hview
    | succ n => simp [step, hpc, stepControl] at ht
  · -- report
    intro target hpc
    have hact : actsFor s (.camera .report) = some (some target.take) := by simp [actsFor, hpc]
    have hgated := h.gated
    rw [hpc] at hgated
    have hclose := closes_report s.state (some target.take)
    have hidle := hclose.gate_of_quiet hgated
    simp only [step, hpc, stepCamera, Option.some.injEq] at ht
    have hgate : s.gate.isSome = true → s.take = target.take := by
      intro hsome
      by_contra hne
      have hview := congrArg TakeView.gate (hothers _ hact s.take fun heq => hne (Option.some.inj heq).symm)
      obtain ⟨r, hr⟩ := Option.isSome_iff_exists.1 hsome
      subst ht
      simp only [Sys.view, Sys.apply, ↓reduceIte] at hview
      rw [hr] at hview
      cases hidle.symm.trans hview
    refine ⟨hgate, fun u hu => ?_⟩
    by_contra hne
    have hview := congrArg TakeView.target (hothers _ hact u.take fun heq => hne (Option.some.inj heq).symm)
    have hnone : t.state.recording = none := by
      subst ht
      simp [Sys.apply, State.reportRecordingFailure] at hidle ⊢
      simp [hidle]
    simp only [Sys.view, hnone, hu, hfilter] at hview
    cases hview
  · trivial

/-- A run owns its takes in every state and at every step exactly when it is current at
every step. -/
theorem recording_ownership (fanout : CaptureFanoutState) (actions : List Action) :
    Owned (init fanout) ∧ (Along step Current (init fanout) actions ↔
      Along step (fun s a t => StepOwned s a t ∧ Owned t) (init fanout) actions) := by
  refine ⟨owned_of_inv (init_inv fanout), along_iff_of_invariant (fun s a t h ht => ⟨fun hc => ?_, ?_⟩)
    (init_inv fanout)⟩
  · have ht' := step_inv h ht hc
    exact ⟨ht', ⟨step_dispatched h ht, step_others h ht hc⟩, owned_of_inv ht'⟩
  · rintro ⟨hp, -⟩
    exact current_of_others h ht hp.others

/-! Two runs that are not current. In the first, two threads stop take 1 and the slower one
clears the target of take 2. In the second, the failed write of take 1 is reported when
take 2 has started. -/

def sampleFanout : CaptureFanoutState := { frameDecimation := 1, decimation_pos := Nat.one_pos }

def sampleFrame : Frame := ⟨5, 1000, 0, [], [], [1]⟩

def doubleStop : List Action :=
  [.start false, .control 0 .beginStop, .control 1 .beginStop, .control 1 .clear, .control 1 .reap,
    .start false, .control 0 .clear]

def lateReport : List Action :=
  [.start true, .camera .poll, .camera (.frame sampleFrame), .imu .check, .control 0 .beginStop,
    .imu .report, .camera (.written false), .control 0 .drained, .control 0 .reap, .start false,
    .camera .report]

theorem recording_ownership_fails :
    (∃ s, run step (init sampleFanout) doubleStop = some s ∧ s.gate = some {} ∧
      s.state.recording = none ∧ ¬ Owned s) ∧
    ∃ s, run step (init sampleFanout) lateReport = some s ∧ s.take = 2 ∧ s.gate = none ∧
      s.calls = [1, 1] ∧ ¬ Owned s := by
  constructor
  · have hrun : (run step (init sampleFanout) doubleStop).map (fun s => (s.gate, s.state.recording)) =
        some (some {}, none) := by decide +kernel
    obtain ⟨s, hs, heq⟩ := Option.map_eq_some_iff.1 hrun
    obtain ⟨hgate, hrec⟩ := Prod.mk.injEq .. ▸ heq
    refine ⟨s, hs, hgate, hrec, fun h => ?_⟩
    have htarget := h.target _ hgate rfl
    rw [hrec] at htarget
    cases htarget
  · have hrun : (run step (init sampleFanout) lateReport).map (fun s => (s.take, s.gate, s.calls)) =
        some (2, none, [1, 1]) := by decide +kernel
    obtain ⟨s, hs, heq⟩ := Option.map_eq_some_iff.1 hrun
    simp only [Prod.mk.injEq] at heq
    obtain ⟨htake, hgate, hcalls⟩ := heq
    refine ⟨s, hs, htake, hgate, hcalls, fun h => ?_⟩
    have hcount := h.calls 1
    rw [hcalls] at hcount
    exact absurd hcount (by decide)

end Ownership

end Conductor.Capture
