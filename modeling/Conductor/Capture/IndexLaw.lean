import Conductor.Capture.Pipeline

/-! The law of the frame index. Whatever frames the camera delivers, and whatever
the encoder, the index writer and the other threads do, the rows of a take are
numbered from zero without a hole, one decimation apart in the source, later and
later in host time, and placed in segments by division. The proof follows two
phases of a take: while it is open, the gate and the validator know how far the
source has come since the first row (`Progress`); once it is frozen, no frame is
dispatched to it again, so the rows stay. -/

namespace Conductor.Capture

open CaptureFanoutState

structure IndexLaw (d segmentFrames : ℕ) (rows : List FrameRow) : Prop where
  numbers : rows.map (·.frame) = List.range rows.length
  steps : rows.IsChain fun a b =>
    b.sourceSequence = a.sourceSequence + d ∧ a.hostMonotonicNs < b.hostMonotonicNs
  segments : ∀ row ∈ rows,
    row.segmentIndex = row.frame / segmentFrames ∧ row.segmentFrame = row.frame % segmentFrames

theorem IndexLaw.nil (d n : ℕ) : IndexLaw d n [] := ⟨rfl, .nil, by simp⟩

variable {n : ℕ} {c' : CaptureRun}

theorem IndexLaw.snoc {d : ℕ} {rows : List FrameRow} (h : IndexLaw d n rows) {row : FrameRow}
    (hframe : row.frame = rows.length)
    (hlast : ∀ last ∈ rows.getLast?, row.sourceSequence = last.sourceSequence + d ∧
      last.hostMonotonicNs < row.hostMonotonicNs)
    (hseg : row.segmentIndex = row.frame / n ∧ row.segmentFrame = row.frame % n) :
    IndexLaw d n (rows ++ [row]) where
  numbers := by simp [h.numbers, hframe, List.range_succ]
  steps := List.isChain_append.2 ⟨h.steps, .singleton _, by
    intro last hl next hn
    obtain rfl : row = next := by simpa using hn
    exact hlast last hl⟩
  segments := by
    intro r hr
    rcases List.mem_append.1 hr with hr | hr
    · exact h.segments r hr
    · obtain rfl : r = row := by simpa using hr
      exact hseg

/-! ### Other threads -/

/-- What the sections of other threads can do to the state during one take. -/
structure Interfered (s t : State) : Prop where
  validator : t.validator = s.validator
  decimation : t.fanout.frameDecimation = s.fanout.frameDecimation
  target : t.recording = s.recording ∨ t.recording = none
  kept : ∀ r', t.fanout.recording = some r' → ∃ r, s.fanout.recording = some r ∧
    r'.observedFrames = r.observedFrames ∧ r'.inflightFrames = r.inflightFrames ∧
    (r.stopping = true → r'.stopping = true)
  inflight : ∀ r, s.fanout.recording = some r → r.inflightFrames ≠ 0 →
    t.fanout.recording.isSome = true

namespace Interfered

theorem refl (s : State) : Interfered s s :=
  ⟨rfl, rfl, .inl rfl, fun r h => ⟨r, h, rfl, rfl, id⟩, fun r h _ => by simp [h]⟩

theorem trans {s t u : State} (h : Interfered s t) (k : Interfered t u) : Interfered s u where
  validator := k.validator.trans h.validator
  decimation := k.decimation.trans h.decimation
  target := by
    rcases k.target with e | e
    · rw [e]; exact h.target
    · exact .inr e
  kept r' hr' := by
    obtain ⟨r, hr, h1, h2, h3⟩ := k.kept r' hr'
    obtain ⟨q, hq, k1, k2, k3⟩ := h.kept r hr
    exact ⟨q, hq, h1.trans k1, h2.trans k2, h3 ∘ k3⟩
  inflight r hr h0 := by
    obtain ⟨q, hq⟩ := Option.isSome_iff_exists.1 (h.inflight r hr h0)
    obtain ⟨r', hr', -, hin, -⟩ := h.kept q hq
    obtain rfl : r = r' := by rw [hr] at hr'; exact Option.some.inj hr'
    exact k.inflight q hq (by omega)

/-- A stopped take keeps its counters, and stays while a frame is in flight. -/
theorem of_stopped {s t : State} (hv : t.validator = s.validator)
    (hd : t.fanout.frameDecimation = s.fanout.frameDecimation)
    (ht : t.recording = s.recording ∨ t.recording = none) {f : RecordingState → RecordingState}
    (hf : ∀ r, (f r).observedFrames = r.observedFrames ∧ (f r).inflightFrames = r.inflightFrames)
    (hr : t.fanout.recording = stopped (s.fanout.recording.map f)) : Interfered s t where
  validator := hv
  decimation := hd
  target := ht
  kept r' hr' := by
    rw [hr] at hr'
    cases hs : s.fanout.recording with
    | none => simp [hs, stopped] at hr'
    | some r =>
      simp only [hs, Option.map_some, stopped] at hr'
      split_ifs at hr' with h0
      cases hr'
      exact ⟨r, rfl, (hf r).1, (hf r).2, fun _ => rfl⟩
  inflight r hs h0 := by
    rw [hr, hs]
    simp [stopped, (hf r).2, h0]

theorem interrupt (s : State) (i : Interrupt) : Interfered s (i.run s) := by
  cases i with
  | beginStop =>
    exact of_stopped (f := id) rfl (startStopping_frameDecimation _) (.inl rfl) (by simp)
      (by simp [Interrupt.run, State.beginRecordingStop])
  | clearTarget =>
    exact ⟨rfl, rfl, .inr rfl, fun r h => ⟨r, h, rfl, rfl, id⟩, fun r h _ => by
      simp [Interrupt.run, State.clearRecording, h]⟩
  | imuFailure =>
    refine of_stopped (f := fun r => { r with failureReported := true }) rfl
      (markFailure_frameDecimation _) ?_ (by simp)
      (by simp [Interrupt.run, State.reportRecordingFailure])
    simp only [Interrupt.run, State.reportRecordingFailure]
    split_ifs
    · exact .inr rfl
    · exact .inl rfl

theorem interrupts (l : List Interrupt) (s : State) : Interfered s (l.foldl Interrupt.run s) := by
  induction l generalizing s with
  | nil => exact refl s
  | cons i l ih => exact (interrupt s i).trans (ih _)

end Interfered

/-! ### Writing one frame -/

/-- The row that a frame of `t` would get. -/
def Take.nextRow (t : Take) (frame : Frame) : FrameRow :=
  ⟨t.sink.sessionId, t.activeTake.frameDomain, frame.sourceSequence, frame.hostMonotonicNs,
    t.segmentPlanner.framesWritten / t.segmentPlanner.segmentFrames,
    t.segmentPlanner.framesWritten % t.segmentPlanner.segmentFrames⟩

/-- What a successful write leaves. -/
structure Written (t t' : Take) (frame : Frame) : Prop where
  frames : t'.sink.frames = t.sink.frames ++ [t.nextRow frame]
  domain : t'.activeTake.frameDomain = t.activeTake.frameDomain + 1
  planned : t'.segmentPlanner.framesWritten = t.segmentPlanner.framesWritten + 1
  segments : t'.segmentPlanner.segmentFrames = t.segmentPlanner.segmentFrames

theorem submit_cases {t : Take} (t₀ : Take) (frame : Frame) (reserved : ReservedFrame) (plan : SegmentFramePlan)
    (hrow : ⟨t₀.sink.sessionId, reserved.recordSequence, reserved.sourceSequence,
      reserved.hostMonotonicNs, plan.segmentIndex, plan.segmentFrame⟩ = t₀.nextRow frame)
    (hsink : t.sink = t₀.sink) (hdomain : t.activeTake.frameDomain = t₀.activeTake.frameDomain + 1)
    (hplanned : t.segmentPlanner.framesWritten = t₀.segmentPlanner.framesWritten + 1)
    (hseg : t.segmentPlanner.segmentFrames = t₀.segmentPlanner.segmentFrames)
    (payload : List UInt8) (env : WriteEnv) :
    ((t.submit reserved plan payload env).1 = .ok () ∧
        Written t₀ (t.submit reserved plan payload env).2 frame) ∨
      ((∃ e, (t.submit reserved plan payload env).1 = .error e) ∧
        ((t.submit reserved plan payload env).2.sink.frames = t₀.sink.frames ∨
          (t.submit reserved plan payload env).2.sink.frames =
            t₀.sink.frames ++ [t₀.nextRow frame])) := by
  have hw := t.sink.writeAuditedFrameIndex_frames reserved.recordSequence reserved.sourceSequence
    reserved.hostMonotonicNs plan.segmentIndex plan.segmentFrame env.index
  rw [hsink, hrow] at hw
  unfold Take.submit
  cases env.encoder payload with
  | error e => exact .inr ⟨⟨e, rfl⟩, .inl (by rw [hsink])⟩
  | ok _ =>
    rw [hsink]
    revert hw
    generalize t₀.sink.writeAuditedFrameIndex reserved.recordSequence reserved.sourceSequence
      reserved.hostMonotonicNs plan.segmentIndex plan.segmentFrame env.index = w
    obtain ⟨_ | written, sink⟩ := w
    · rintro (hw | ⟨hw, -⟩)
      · exact .inr ⟨⟨_, rfl⟩, .inr hw⟩
      · exact .inr ⟨⟨_, rfl⟩, .inl hw⟩
    · rintro (hw | ⟨-, e, he⟩)
      · simp only
        cases hfin : t.activeTake.finishFrame reserved written with
        | mk res activeTake =>
          cases res with
          | error e => exact .inr ⟨⟨_, rfl⟩, .inr hw⟩
          | ok _ =>
            exact .inl ⟨rfl, hw,
              (ActiveTakeWriter.finishFrame_ok hfin).2.trans hdomain, hplanned, hseg⟩
      · cases he

/-- A write succeeds with one row, or fails with at most that row; a gap always fails without. -/
theorem writeSplitSinkFrame_cases (t : Take) (frame : Frame) (dropped : ℕ) (env : WriteEnv) :
    (dropped = 0 ∧ (writeSplitSinkFrame t frame dropped env).1 = .ok () ∧
        Written t (writeSplitSinkFrame t frame dropped env).2 frame) ∨
      ((∃ e, (writeSplitSinkFrame t frame dropped env).1 = .error e) ∧
        ((writeSplitSinkFrame t frame dropped env).2.sink.frames = t.sink.frames ∨
          (dropped = 0 ∧ (writeSplitSinkFrame t frame dropped env).2.sink.frames =
            t.sink.frames ++ [t.nextRow frame]))) := by
  unfold writeSplitSinkFrame
  split_ifs
  · exact .inr ⟨⟨_, rfl⟩, .inl rfl⟩
  split
  · exact .inr ⟨⟨_, rfl⟩, .inl rfl⟩
  split
  · exact .inr ⟨⟨_, rfl⟩, .inl rfl⟩
  next payload _ _ reserved activeTake hres =>
    obtain ⟨h0, -, hreserved, htake⟩ := ActiveTakeWriter.reserveFrame_ok hres
    simp only at h0
    split
    · exact .inr ⟨⟨_, rfl⟩, .inl rfl⟩
    · next plan planner hplan =>
      obtain ⟨-, h1, h2, h3, h4⟩ := RecordingSegmentPlanner.nextFrame_ok hplan
      rcases submit_cases (t := { t with activeTake, segmentPlanner := planner }) t frame reserved plan
          (by simp [Take.nextRow, hreserved, h1, h2]) rfl (by simp [htake]) h3 h4 payload env
        with h | ⟨he, hr⟩
      · exact .inl ⟨h0, h.1, h.2⟩
      · exact .inr ⟨he, hr.imp_right fun h => ⟨h0, h⟩⟩

/-! ### The phases of a take -/

/-- Where the source stands relative to the last row of an open take. -/
structure Progress (d : ℕ) (rows : List FrameRow) (v : FrameValidator) (observed : ℕ) : Prop where
  first : rows = [] → observed = 0
  last : ∀ row ∈ rows.getLast?, ∃ seq host, v = ⟨some seq, some host⟩ ∧ row.hostMonotonicNs ≤ host ∧
    row.sourceSequence + observed = seq + (rows.length - 1) * d + 1 ∧
    (rows.length - 1) * d < observed ∧ observed ≤ rows.length * d

/-- A take that records: nothing in flight, a target, and counters that agree with its rows. -/
structure Open (d n : ℕ) (c : CaptureRun) : Prop where
  decimation : c.state.fanout.frameDecimation = d
  target : c.state.recording.isSome = true
  segments : c.take.segmentPlanner.segmentFrames = n
  domain : c.take.activeTake.frameDomain = c.rows.length
  planned : c.take.segmentPlanner.framesWritten = c.rows.length
  active : ∃ r, c.state.fanout.recording = some r ∧ r.stopping = false ∧ r.inflightFrames = 0 ∧
    Progress d c.rows c.state.validator r.observedFrames

/-- A take that no frame reaches: the loop ended, the gate closed, or the target is gone. -/
def Frozen (c : CaptureRun) : Prop :=
  c.alive = false ∨ (∀ r, c.state.fanout.recording = some r → r.stopping = true) ∨
    c.state.recording = none

variable {c : CaptureRun} {d observed : ℕ} {r : RecordingState} {state : State} {frame : Frame}
  {rows : List FrameRow} {v : FrameValidator}

/-- Between two sections of other threads an open take stays open or freezes. -/
theorem open_or_frozen (h : Open d n c)
    (hi : Interfered c.state c'.state) (ht : c'.take = c.take) : Open d n c' ∨ Frozen c' := by
  obtain ⟨r, hr, hstop, hin, hp⟩ := h.active
  rcases hi.target with hrec | hrec
  · by_cases hactive : ∃ r', c'.state.fanout.recording = some r' ∧ r'.stopping = false
    · obtain ⟨r', hr', hstop'⟩ := hactive
      obtain ⟨q, hq, hobs, hin', -⟩ := hi.kept r' hr'
      obtain rfl : r = q := by rw [hr] at hq; exact Option.some.inj hq
      refine .inl ⟨hi.decimation.trans h.decimation, by rw [hrec]; exact h.target, ?_, ?_, ?_,
        r', hr', hstop', by omega, ?_⟩
      · rw [ht]; exact h.segments
      · simp only [CaptureRun.rows, ht]; exact h.domain
      · simp only [CaptureRun.rows, ht]; exact h.planned
      · simp only [CaptureRun.rows, ht, hi.validator, hobs]; exact hp
    · refine .inr (.inr (.inl fun r' hr' => ?_))
      by_contra hne
      exact hactive ⟨r', hr', by simpa using hne⟩
  · exact .inr (.inr (.inr hrec))

theorem frozen_interfered (h : Frozen c) (hi : Interfered c.state c'.state) (ha : c'.alive = c.alive) : Frozen c' := by
  rcases h with h | h | h
  · exact .inl (ha.trans h)
  · refine .inr (.inl fun r' hr' => ?_)
    obtain ⟨r, hr, -, -, hs⟩ := hi.kept r' hr'
    exact hs (h r hr)
  · refine .inr (.inr ?_)
    rcases hi.target with e | e
    · rw [e, h]
    · exact e

/-! ### A frame reaches a frozen take -/

/-- A frozen take keeps its rows and stays frozen. -/
theorem deliver_frozen (h : Frozen c) (e : Event) : Frozen (deliver c e) ∧ (deliver c e).rows = c.rows := by
  cases e with
  | frame frame env =>
    simp only [deliver]
    split_ifs with halive
    · have hlive : (∀ r, c.state.fanout.recording = some r → r.stopping = true) ∨
          c.state.recording = none := h.resolve_left (by simp [halive])
      unfold processFrame
      cases hadm : c.state.admitFrame frame with
      | mk res state =>
        cases res with
        | error err => exact ⟨.inl rfl, rfl⟩
        | ok a =>
          obtain ⟨decision, -, hgate, -, -, hdisp, hstate⟩ := State.admitFrame_ok hadm
          have hnone : a.dispatch = none := by
            rw [hdisp]
            rcases hlive with hs | hs
            · obtain ⟨d', hd', hrec⟩ := beginFrame_inactive hs a.validation.droppedBefore _
              rw [hd'] at hgate
              obtain rfl : d' = decision := by simpa using congrArg Prod.fst hgate
              simp [hrec]
            · simp [hs]
          simp only [hnone]
          refine ⟨.inr ?_, rfl⟩
          rcases hlive with hs | hs
          · obtain ⟨d', hd', -⟩ := beginFrame_inactive hs a.validation.droppedBefore
              (!frame.left.isEmpty || !frame.rawSideBySide.isEmpty)
            rw [hd'] at hgate
            have hf : c.state.fanout = state.fanout := congrArg Prod.snd hgate
            exact .inl (by rw [← hf]; exact hs)
          · exact .inr (by rw [hstate]; exact hs)
    · exact ⟨h, rfl⟩
  | interrupt i => exact ⟨frozen_interfered h (Interfered.interrupt _ i) rfl, rfl⟩
  | imuSample written => exact ⟨h, by simp [deliver, CaptureRun.rows]⟩
  | closeSink => exact ⟨h, rfl⟩
  | finishTake => exact ⟨h, rfl⟩
  | loopExit => exact ⟨.inl rfl, rfl⟩

theorem deliverAll_frozen (h : Frozen c) (events : List Event) : (deliverAll c events).rows = c.rows := by
  induction events generalizing c with
  | nil => rfl
  | cons e events ih =>
    obtain ⟨h1, h2⟩ := deliver_frozen h e
    exact (ih h1).trans h2

/-! ### A frame reaches an open take -/

/-- Where a dispatched frame leaves the state once it is finished. -/
structure Drained (state : State) (r : RecordingState) (t : State) : Prop where
  validator : t.validator = state.validator
  decimation : t.fanout.frameDecimation = state.fanout.frameDecimation
  target : t.recording = state.recording ∨ t.recording = none
  gate : ∀ r', t.fanout.recording = some r' → r'.inflightFrames = 0 ∧ r'.stopping = false ∧
    r'.observedFrames = r.observedFrames

theorem finish_drained {s : State} (hr : state.fanout.recording = some r)
    (hin : r.inflightFrames = 1) (hi : Interfered state s) :
    ∃ t, s.finishRecordingFrame = (.ok (), t) ∧ Drained state r t := by
  obtain ⟨q, hq⟩ := Option.isSome_iff_exists.1 (hi.inflight r hr (by omega))
  obtain ⟨r₀, hr₀, hobs, hq1, -⟩ := hi.kept q hq
  obtain rfl : r = r₀ := by rw [hr] at hr₀; exact Option.some.inj hr₀
  have hfin := finishFrame_of_one hq (by omega)
  simp only [State.finishRecordingFrame, hfin]
  refine ⟨_, rfl, hi.validator, hi.decimation, ?_, ?_⟩
  · have hpick : ∀ b : Bool, (if b then none else s.recording) = state.recording ∨
        (if b then none else s.recording) = none := by
      rintro (_ | _)
      · exact hi.target
      · exact .inr rfl
    exact hpick _
  · intro r' hr'
    simp only [ite_eq_iff, reduceCtorEq, and_false, false_or, Option.some.injEq] at hr'
    obtain ⟨hs, rfl⟩ := hr'
    exact ⟨rfl, by simpa using hs, hobs⟩

/-- After a failed write the gate is closed and empty. -/
theorem report_closes {s t : State} (hd : Drained state r s) (hi : Interfered s t) (preferred : Option ℕ) :
    (t.reportRecordingFailure preferred).2.fanout.recording = none := by
  simp only [State.reportRecordingFailure, markFailure_recording]
  cases ht : t.fanout.recording with
  | none => rfl
  | some q =>
    obtain ⟨r', hr', -, hin, -⟩ := hi.kept q ht
    have := (hd.gate r' hr').1
    simp [stopped, hin, this]

theorem processFrame_dispatched (env : WriteEnv) {a : Admission} {target : Target}
    (hadm : c.state.admitFrame frame = (.ok a, state)) (hdisp : a.dispatch = some target)
    (hr : state.fanout.recording = some r) (hin : r.inflightFrames = 1) :
    ∃ c', processFrame c frame env = (.ok (), c') ∧
      c'.take = (writeSplitSinkFrame c.take frame a.droppedBefore env).2 ∧
      ((writeSplitSinkFrame c.take frame a.droppedBefore env).1 = .ok () → Drained state r c'.state) ∧
      ((∃ e, (writeSplitSinkFrame c.take frame a.droppedBefore env).1 = .error e) →
        c'.state.fanout.recording = none) := by
  obtain ⟨t, ht, hd⟩ := finish_drained hr hin (Interfered.interrupts env.duringWrite state)
  simp only [processFrame, hadm, hdisp, ht]
  split
  · next hw => exact ⟨_, rfl, rfl, fun _ => hd, by simp [hw]⟩
  · next e hw =>
    exact ⟨_, rfl, rfl, by simp [hw], fun _ => report_closes hd (Interfered.interrupts _ _) (some target.take)⟩

/-- Skipping a frame that the decimation drops. -/
theorem Progress.skip
    (h : Progress d rows v observed) (seq host : ℕ) (hobs : observed ≠ 0) (hmod : observed % d ≠ 0)
    (hseq : ∀ last, v.lastSourceSequence = some last → seq = last + 1)
    (hhost : ∀ last, v.lastHostTime = some last → last < host) :
    Progress d rows ⟨some seq, some host⟩ (observed + 1) where
  first hnil := absurd (h.first hnil) hobs
  last row hrow := by
    obtain ⟨s, t, rfl, h1, h2, h3, h4⟩ := h.last row hrow
    have hs := hseq s rfl
    have ht := hhost t rfl
    have hne : observed ≠ rows.length * d := by
      rintro rfl
      exact hmod (Nat.mul_mod_left _ _)
    exact ⟨seq, host, rfl, by omega, by omega, by omega, by omega⟩

/-- The observed count at which a row is due is a multiple of the decimation. -/
theorem observed_eq_of_mod (h1 : (n - 1) * d < observed)
    (h2 : observed ≤ n * d) (hmod : observed % d = 0) : observed = n * d := by
  obtain ⟨m, rfl⟩ := Nat.dvd_of_mod_eq_zero hmod
  rw [Nat.mul_comm d m] at h1 h2 ⊢
  have hlt : n - 1 < m := Nat.lt_of_mul_lt_mul_right h1
  congr 1
  by_contra hne
  rcases Nat.lt_or_ge n m with h | h
  · have hd : 0 < d := Nat.pos_of_ne_zero fun h0 => by simp [h0] at h1
    exact absurd h2 (Nat.not_le.2 (Nat.mul_lt_mul_of_pos_right h hd))
  · omega

/-- Recording the first frame of a take. -/
theorem Progress.record_first (hd : 0 < d) (h : Progress d rows v 0) (row : FrameRow) :
    rows = [] ∧ Progress d (rows ++ [row]) ⟨some row.sourceSequence, some row.hostMonotonicNs⟩ 1 := by
  have hnil : rows = [] := by
    by_contra hne
    obtain ⟨s, t, -, -, -, h1, -⟩ := h.last _ (List.getLast?_eq_some_getLast hne)
    omega
  subst hnil
  refine ⟨rfl, by simp, fun last hl => ?_⟩
  obtain rfl : row = last := by simpa using hl
  exact ⟨_, _, rfl, le_rfl, by simp, by simp, by simp; omega⟩

/-- Recording a later frame: the new row is one decimation after the last. -/
theorem Progress.record_next
    (hd : 0 < d) (h : Progress d rows v observed) (hobs : observed ≠ 0) (hmod : observed % d = 0)
    (row : FrameRow) (hseq : ∀ last, v.lastSourceSequence = some last → row.sourceSequence = last + 1)
    (hhost : ∀ last, v.lastHostTime = some last → last < row.hostMonotonicNs) :
    (∀ last ∈ rows.getLast?, row.sourceSequence = last.sourceSequence + d ∧
      last.hostMonotonicNs < row.hostMonotonicNs) ∧
    Progress d (rows ++ [row]) ⟨some row.sourceSequence, some row.hostMonotonicNs⟩ (observed + 1) := by
  have hne : rows ≠ [] := fun hnil => hobs (h.first hnil)
  have hlen : rows.length ≠ 0 := by simpa using hne
  obtain ⟨s, t, rfl, h1, h2, h3, h4⟩ := h.last _ (List.getLast?_eq_some_getLast hne)
  have hdue := observed_eq_of_mod h3 h4 hmod
  have hsucc : rows.length * d = (rows.length - 1) * d + d := by
    obtain ⟨k, hk⟩ := Nat.exists_eq_succ_of_ne_zero hlen
    rw [hk, Nat.succ_sub_one, Nat.succ_mul]
  have hs := hseq s rfl
  have ht := hhost t rfl
  refine ⟨fun last hl => ?_, by simp, fun last hl => ?_⟩
  · obtain rfl : rows.getLast hne = last := by
      rw [List.getLast?_eq_some_getLast hne] at hl
      simpa using hl
    exact ⟨by omega, by omega⟩
  · obtain rfl : row = last := by simpa using hl
    have hgrow : (rows.length + 1) * d = rows.length * d + d := Nat.succ_mul _ _
    refine ⟨_, _, rfl, le_rfl, ?_, ?_, ?_⟩ <;>
      simp only [List.length_append, List.length_singleton, Nat.add_sub_cancel] <;> omega

/-- What `Open` says about the row that the next frame would get. -/
theorem Open.nextRow (h : Open d n c) (frame : Frame) : (c.take.nextRow frame).frame = c.rows.length ∧
      (c.take.nextRow frame).segmentIndex = (c.take.nextRow frame).frame / n ∧
      (c.take.nextRow frame).segmentFrame = (c.take.nextRow frame).frame % n := by
  simp only [Take.nextRow, h.domain, h.planned, h.segments, and_self]

/-- Phase and law after an event. -/
def Kept (d n : ℕ) (c : CaptureRun) : Prop := (Open d n c ∨ Frozen c) ∧ IndexLaw d n c.rows

theorem kept_of_dispatched {dropped : ℕ} {env : WriteEnv}
    (h : Open d n c) (hl : IndexLaw d n c.rows) (htake : c'.take = (writeSplitSinkFrame c.take frame dropped env).2)
    (hok : (writeSplitSinkFrame c.take frame dropped env).1 = .ok () → Drained state r c'.state)
    (herr : (∃ e, (writeSplitSinkFrame c.take frame dropped env).1 = .error e) → c'.state.fanout.recording = none)
    (hdec : state.fanout.frameDecimation = d) (hrow : dropped = 0 → (∀ last ∈ c.rows.getLast?,
    (c.take.nextRow frame).sourceSequence = last.sourceSequence + d ∧
          last.hostMonotonicNs < (c.take.nextRow frame).hostMonotonicNs) ∧
      Progress d (c.rows ++ [c.take.nextRow frame]) state.validator r.observedFrames) : Kept d n c' := by
  have hlaw : dropped = 0 → IndexLaw d n (c.rows ++ [c.take.nextRow frame]) := fun h0 =>
    hl.snoc (h.nextRow frame).1 (hrow h0).1 (h.nextRow frame).2
  rcases writeSplitSinkFrame_cases c.take frame dropped env with ⟨h0, hw, hwritten⟩ | ⟨he, hframes⟩
  · have hrows : c'.rows = c.rows ++ [c.take.nextRow frame] := by
      simp only [CaptureRun.rows, htake, hwritten.frames]
    have hd := hok hw
    refine ⟨?_, hrows ▸ hlaw h0⟩
    by_cases htarget : c'.state.recording = none
    · exact .inr (.inr (.inr htarget))
    · cases hgate : c'.state.fanout.recording with
      | none => exact .inr (.inr (.inl (by simp [hgate])))
      | some r' =>
        obtain ⟨hin, hstop, hobs⟩ := hd.gate r' hgate
        refine .inl ⟨hd.decimation.trans hdec, Option.isSome_iff_ne_none.2 htarget, ?_, ?_, ?_,
          r', hgate, hstop, hin, ?_⟩
        · rw [htake, hwritten.segments]; exact h.segments
        · rw [hrows, htake, hwritten.domain, h.domain]; simp
        · rw [hrows, htake, hwritten.planned, h.planned]; simp
        · rw [hrows, hd.validator, hobs]; exact (hrow h0).2
  · refine ⟨.inr (.inr (.inl (by simp [herr he]))), ?_⟩
    rcases hframes with hf | ⟨h0, hf⟩
    · rw [show c'.rows = c.rows by simp only [CaptureRun.rows, htake, hf]]
      exact hl
    · rw [show c'.rows = c.rows ++ [c.take.nextRow frame] by simp only [CaptureRun.rows, htake, hf]]
      exact hlaw h0

theorem deliver_frame_open (hd : 0 < d) (h : Open d n c)
    (hl : IndexLaw d n c.rows) (frame : Frame) (env : WriteEnv) : Kept d n (deliver c (.frame frame env)) := by
  simp only [deliver]
  split_ifs with halive
  swap
  · exact ⟨.inl h, hl⟩
  cases hadm : c.state.admitFrame frame with
  | mk res state =>
    cases res with
    | error err =>
      simp only [processFrame, hadm]
      exact ⟨.inr (.inl rfl), hl⟩
    | ok a =>
      obtain ⟨decision, hval, hgate, hdrop, -, hdisp, hstate⟩ := State.admitFrame_ok hadm
      obtain ⟨hv, -, hseq, hhost⟩ := FrameValidator.validate_ok hval
      obtain ⟨r, hr, hstop, hin, hp⟩ := h.active
      obtain ⟨target, htarget⟩ := Option.isSome_iff_exists.1 h.target
      have hdec : state.fanout.frameDecimation = d := by
        have := beginFrame_frameDecimation c.state.fanout a.validation.droppedBefore
          (!frame.left.isEmpty || !frame.rawSideBySide.isEmpty)
        rw [hgate] at this
        exact this.trans h.decimation
      have hrec : state.recording = c.state.recording := by rw [hstate]
      rcases beginFrame_active hr hstop hgate with ⟨h0, hrecord, hd0, hr1⟩ | ⟨h0, hd1, hrecord, hr1⟩
      · -- the first frame of the take
        obtain ⟨c', hproc, htake, hok, herr⟩ := processFrame_dispatched env hadm
          (by rw [hdisp, hrecord, if_pos rfl, htarget]) hr1 (by simp [hin])
        simp only [hproc]
        rw [h0] at hp
        obtain ⟨hnil, hprog⟩ := hp.record_first hd (c.take.nextRow frame)
        refine kept_of_dispatched h hl htake hok herr hdec fun _ => ⟨by simp [hnil], ?_⟩
        rw [hv]; exact hprog
      · by_cases hrecorded : decision.record = true
        · obtain ⟨c', hproc, htake, hok, herr⟩ := processFrame_dispatched env hadm
            (by rw [hdisp, hrecorded, if_pos rfl, htarget]) hr1 (by simp [hin, hrecorded])
          simp only [hproc]
          refine kept_of_dispatched h hl htake hok herr hdec fun hzero => ?_
          have hgap : a.validation.droppedBefore = 0 := by rw [← hd1, ← hdrop]; exact hzero
          have hmod : r.observedFrames % d = 0 := by
            rcases hrecord.1 hrecorded with hne | hmod
            · exact absurd hgap hne
            · rwa [h.decimation] at hmod
          have hnext := hp.record_next hd h0 hmod (c.take.nextRow frame)
            (fun last hlast => by
              obtain ⟨h1, h2⟩ := hseq last hlast
              simp only [Take.nextRow]; omega)
            hhost
          rw [hv]
          simpa [hgap, Take.nextRow] using hnext
        · -- the decimation drops the frame
          have hnone : a.dispatch = none := by rw [hdisp, if_neg hrecorded]
          simp only [processFrame, hadm, hnone]
          have hskip := mt hrecord.2 hrecorded
          simp only [not_or, ne_eq, not_not, h.decimation] at hskip
          refine ⟨.inl ⟨hdec, by rw [hrec]; exact h.target, h.segments, h.domain, h.planned, _, hr1,
            hstop, by simp [hin, hrecorded], ?_⟩, hl⟩
          have hskipped := hp.skip frame.sourceSequence frame.hostMonotonicNs h0 hskip.2
            (fun last hlast => by obtain ⟨h1, h2⟩ := hseq last hlast; omega) hhost
          simp only [hskip.1, Nat.add_zero, hv]
          exact hskipped

theorem deliver_kept (hd : 0 < d) (h : Kept d n c) (e : Event) : Kept d n (deliver c e) := by
  obtain ⟨hopen | hfrozen, hl⟩ := h
  · cases e with
    | frame frame env => exact deliver_frame_open hd hopen hl frame env
    | interrupt i => exact ⟨open_or_frozen hopen (Interfered.interrupt _ i) rfl, hl⟩
    | imuSample written =>
      have hrows : (deliver c (.imuSample written)).rows = c.rows := by
        simp [deliver, CaptureRun.rows]
      refine ⟨.inl ⟨hopen.decimation, hopen.target, hopen.segments, ?_, ?_, ?_⟩, hrows ▸ hl⟩
      · rw [hrows]; exact hopen.domain
      · rw [hrows]; exact hopen.planned
      · rw [hrows]; exact hopen.active
    | closeSink => exact ⟨.inl ⟨hopen.decimation, hopen.target, hopen.segments, hopen.domain,
        hopen.planned, hopen.active⟩, hl⟩
    | finishTake =>
      refine ⟨.inl ⟨hopen.decimation, hopen.target, hopen.segments, ?_, hopen.planned,
        hopen.active⟩, hl⟩
      exact (ActiveTakeWriter.finish_frameDomain _).trans hopen.domain
    | loopExit => exact ⟨.inr (.inl rfl), hl⟩
  · obtain ⟨h1, h2⟩ := deliver_frozen hfrozen e
    exact ⟨.inr h1, h2 ▸ hl⟩

theorem deliverAll_kept (hd : 0 < d) (h : Kept d n c) (events : List Event) : Kept d n (deliverAll c events) := by
  induction events generalizing c with
  | nil => exact h
  | cons e events ih => exact ih (deliver_kept hd h e)

/-- A frame that arrives at an open take after its first row, with a gap in the source. -/
theorem deliver_frame_gap (h : Open d n c) (hrows : c.rows ≠ []) (env : WriteEnv) {g : FrameValidation}
    (hg : c.state.validator.gap frame.sourceSequence frame.applicationDroppedBefore = .ok g)
    (hgap : g.sourceGap ≠ 0) :
    Frozen (deliver c (.frame frame env)) ∧ (deliver c (.frame frame env)).rows = c.rows := by
  simp only [deliver]
  split_ifs with halive
  swap
  · exact ⟨.inl (by simpa using halive), rfl⟩
  cases hadm : c.state.admitFrame frame with
  | mk res state =>
    cases res with
    | error err =>
      simp only [processFrame, hadm]
      exact ⟨.inl rfl, rfl⟩
    | ok a =>
      obtain ⟨decision, hval, hgate, hdrop, -, hdisp, -⟩ := State.admitFrame_ok hadm
      obtain rfl : g = a.validation := FrameValidator.validate_gap hval hg
      have hne : a.validation.droppedBefore ≠ 0 := by
        have := (FrameValidator.validate_ok hval).2.1
        omega
      obtain ⟨r, hr, hstop, hin, hp⟩ := h.active
      obtain ⟨target, htarget⟩ := Option.isSome_iff_exists.1 h.target
      obtain ⟨-, -, -, -, -, hobs, -⟩ := hp.last _ (List.getLast?_eq_some_getLast hrows)
      rcases beginFrame_active hr hstop hgate with ⟨h0, -⟩ | ⟨-, hd1, hrecord, hr1⟩
      · omega
      · have hrecorded := hrecord.2 (.inl hne)
        obtain ⟨c', hproc, htake, -, herr⟩ := processFrame_dispatched env hadm
          (by rw [hdisp, hrecorded, if_pos rfl, htarget]) hr1 (by simp [hin, hrecorded])
        simp only [hproc]
        have hdropped : a.droppedBefore ≠ 0 := by rwa [hdrop, hd1]
        rcases writeSplitSinkFrame_cases c.take frame a.droppedBefore env with
          ⟨hzero, -⟩ | ⟨he, hf | ⟨hzero, -⟩⟩
        · exact absurd hzero hdropped
        · exact ⟨.inr (.inl (by simp [herr he])), by simp only [CaptureRun.rows, htake, hf]⟩
        · exact absurd hzero hdropped

/-! ### The law of a take -/

theorem beginTake_open {s : State} {target : Target} {sessionId : String} {start : ℕ}
    (h : beginTake s target sessionId n start = .ok c) : Open s.fanout.frameDecimation n c ∧ c.rows = [] := by
  simp only [beginTake, bind, Except.bind, pure, Except.pure] at h
  split at h
  · cases h
  · next w hw =>
    split at h
    · cases h
    · next p hp =>
      split at h
      · cases h
      · next t ht =>
        obtain ⟨-, -, -, rfl⟩ := State.startRecording_eq_ok ht
        unfold ActiveTakeWriter.new at hw
        unfold RecordingSegmentPlanner.new at hp
        split_ifs at hw hp
        cases hw
        cases hp
        cases h
        exact ⟨⟨rfl, rfl, rfl, rfl, rfl, _, rfl, rfl, rfl, fun _ => rfl, by
          simp [CaptureRun.rows]⟩, rfl⟩

/-- The rows of a take follow the index law for the gate's decimation, and the first frame
with a gap in the source after a recorded one is the end of the index. -/
theorem capture_index_law {s : State} {target : Target} {sessionId : String} {segmentFrames start : ℕ}
    {c : CaptureRun} (h : beginTake s target sessionId segmentFrames start = .ok c) :
    (∀ events, IndexLaw s.fanout.frameDecimation segmentFrames (deliverAll c events).rows) ∧
      ∀ events frame env rest g, (deliverAll c events).rows ≠ [] →
        (deliverAll c events).state.validator.gap frame.sourceSequence
          frame.applicationDroppedBefore = .ok g → g.sourceGap ≠ 0 →
        (deliverAll c (events ++ .frame frame env :: rest)).rows = (deliverAll c events).rows := by
  obtain ⟨hopen, hnil⟩ := beginTake_open h
  have hpos := s.fanout.decimation_pos
  have hkept : ∀ events, Kept s.fanout.frameDecimation segmentFrames (deliverAll c events) :=
    deliverAll_kept hpos ⟨.inl hopen, hnil ▸ .nil _ _⟩
  refine ⟨fun events => (hkept events).2, fun events frame env rest g hrows hg hgap => ?_⟩
  have hsplit : deliverAll c (events ++ .frame frame env :: rest) =
      deliverAll (deliver (deliverAll c events) (.frame frame env)) rest := by
    simp [deliverAll, List.foldl_append]
  rw [hsplit]
  rcases (hkept events).1 with hopen' | hfrozen
  · obtain ⟨h1, h2⟩ := deliver_frame_gap hopen' hrows env hg hgap
    exact (deliverAll_frozen h1 rest).trans h2
  · obtain ⟨h1, h2⟩ := deliver_frozen hfrozen (.frame frame env)
    exact (deliverAll_frozen h1 rest).trans h2

/-! A take with decimation 2 that records the source frames 5 and 7 and then meets a gap. -/

def sampleState : State :=
  { fanout := { frameDecimation := 2, decimation_pos := Nat.two_pos }, running := true }

def sampleEvent (sequence : ℕ) : Event :=
  .frame ⟨sequence, 1000 * sequence, 0, [], [], [0xff, 0xd8, 0xff, 0xd9]⟩
    { encoder := fun _ => .ok (), index := .ok 100 }

theorem threeFrames_pos : 0 < 3 := by decide

def sampleRun : CaptureRun :=
  { state := { sampleState with
      fanout := { sampleState.fanout with recording := some {} }
      recording := some ⟨1, false⟩ }
    take := ⟨{ sessionId := "session" }, { sessionId := "session" },
      { segmentFrames := 3, segmentFrames_pos := threeFrames_pos }, 1⟩ }

theorem capture_index_law_sample :
    (deliverAll sampleRun [sampleEvent 5, sampleEvent 6, sampleEvent 7]).rows.map
        (·.sourceSequence) = [5, 7] ∧
      IndexLaw 2 3 (deliverAll sampleRun [sampleEvent 5, sampleEvent 6, sampleEvent 7]).rows ∧
      (deliverAll sampleRun
          ([sampleEvent 5, sampleEvent 6, sampleEvent 7] ++ sampleEvent 10 :: [sampleEvent 11])).rows =
        (deliverAll sampleRun [sampleEvent 5, sampleEvent 6, sampleEvent 7]).rows := by
  have hbegin : beginTake sampleState ⟨1, false⟩ "session" 3 1 = .ok sampleRun := rfl
  have hrows : (deliverAll sampleRun [sampleEvent 5, sampleEvent 6, sampleEvent 7]).rows.map
      (·.sourceSequence) = [5, 7] := by decide +kernel
  have hvalidator : (deliverAll sampleRun [sampleEvent 5, sampleEvent 6, sampleEvent 7]).state.validator =
      ⟨some 7, some 7000⟩ := by decide +kernel
  refine ⟨hrows, (capture_index_law hbegin).1 _,
    (capture_index_law hbegin).2 _ _ _ _ ⟨2, 0, 2⟩ (fun hnil => ?_) ?_ (by decide)⟩
  · rw [hnil] at hrows
    simp at hrows
  · rw [hvalidator]
    rfl

end Conductor.Capture
