import Conductor.Capture.CameraQueue

/-! Frame loss accounting across the capture queue: whatever the producer, the reader
and the restarts do, the queue stays within its bounds, frames arrive in the order of
their push, and the validator attributes every missing sequence number. -/

namespace Conductor.Capture.CameraQueue

open Word64 Runs LossLedger

variable {shared : Bounded.Shared Frame}

/-! ### The validation of one frame -/

variable {frame : Frame} {s : Sys} {v w : FrameValidator}

theorem validateFrame_ok {g : FrameValidation} (h : validateFrame v frame = (.ok g, w)) :
    v.gap frame.sourceSequence frame.applicationDroppedBefore = .ok g ∧
      w.lastSourceSequence = some frame.sourceSequence := by
  unfold validateFrame at h
  split at h
  · simp at h
  · simp at h
  · simp at h
  next seq host dropped h1 h2 h3 =>
    obtain ⟨-, rfl⟩ := i64TryFrom_eq_some.1 h1
    obtain ⟨-, rfl⟩ := i64TryFrom_eq_some.1 h2
    obtain ⟨-, rfl⟩ := i64TryFrom_eq_some.1 h3
    refine ⟨?_, by rw [(FrameValidator.validate_ok h).1]⟩
    cases hg : v.gap frame.sourceSequence frame.applicationDroppedBefore with
    | ok g' => rw [FrameValidator.validate_gap h hg]
    | error e =>
      simp only [FrameValidator.validate, Int.toNat_natCast, hg] at h
      split_ifs at h <;> simp at h

/-- The two ways to a drop accounting error: a count out of range, and one that exceeds the gap. -/
theorem validateFrame_drop_error {e : RuntimeError}
    (h : validateFrame v frame = (.error e, w)) (he : e.code = "invalid_drop_accounting") :
    (frame.sourceSequence < 2 ^ 63 ∧ 2 ^ 63 ≤ frame.applicationDroppedBefore) ∨
      ∃ last, v.lastSourceSequence = some last ∧ last < frame.sourceSequence ∧
        frame.sourceSequence - last - 1 < frame.applicationDroppedBefore := by
  unfold validateFrame at h
  split at h
  · cases h
    simp at he
  · cases h
    simp at he
  · next seq host h1 h2 h3 =>
    left
    obtain ⟨hseq, -⟩ := i64TryFrom_eq_some.1 h1
    exact ⟨hseq, by simpa [i64TryFrom] using h3⟩
  · next seq host dropped h1 h2 h3 =>
    right
    obtain ⟨-, rfl⟩ := i64TryFrom_eq_some.1 h1
    obtain ⟨-, rfl⟩ := i64TryFrom_eq_some.1 h3
    unfold FrameValidator.validate at h
    split at h
    · cases h
      simp at he
    split at h
    · next hneg => exact absurd hneg (by omega)
    simp only [Int.toNat_natCast] at h
    split at h
    · next e' hg =>
      cases h
      unfold FrameValidator.gap at hg
      split at hg
      · next last hlast =>
        split_ifs at hg with h4 h5
        · cases hg
          simp at he
        · exact ⟨last, hlast, by omega, h5⟩
      · cases hg
    · split_ifs at h <;> cases h
      simp at he

/-! ### The invariant -/

structure Inv (shared : Bounded.Shared Frame) (s : Sys) : Prop extends Lossless shared s where
  increasing : Increasing Frame.sourceSequence s.offered
  carries : Carries Frame.applicationDroppedBefore s.offered
  pending : ∀ n, s.pendingRejected = some n → n = LossLedger.pending s.offered ∧ s.running = true
  idle : s.running = false → s.channel.queue = []
  starting : s.reader = .starting → s.validated = []
  /-- While the reader goes on, the validator stands at the last frame it validated. -/
  last : s.reader = .ready ∨ s.reader.held ≠ [] →
    s.validator.lastSourceSequence = lastSequence s s.validated.length

theorem inv_init : Inv shared {} where
  within := .empty shared
  order := List.Sublist.refl _
  complete := List.prefix_refl _
  queued _ := rfl
  accounted := by simp
  increasing := .nil
  carries := .nil
  pending := by simp
  idle _ := rfl
  starting _ := rfl
  last := by simp [Reader.held]

variable {t : Sys} {result : Except RuntimeError FrameValidation}

/-- A validation stays accounted for when the frame was offered and later offers follow. -/
theorem Accounted.mono {o : Offer Frame} {last : Option ℕ} {v : Validated}
    (h : Accounted s last v) (ht : t.offered = s.offered ++ [o])
    (ho : v.frame.sourceSequence ≤ o.item.sourceSequence) : Accounted t last v := by
  have hr : rejected t last v.frame = rejected s last v.frame := by
    rw [rejected, ht]
    exact rejectedBetween_append_of_le ho
  have hs : ∀ l, skipped t l v.frame = skipped s l v.frame := fun l => by
    rw [skipped, ht, skippedBetween_append_of_le ho, skipped]
  unfold Accounted at h ⊢
  simpa only [hr, hs] using h

theorem Inv.validated_offered (hi : Inv shared s) {i : ℕ} {v : Validated}
    (hv : s.validated[i]? = some v) : ⟨v.frame, true⟩ ∈ s.offered := by
  apply mem_of_mem_taken
  apply hi.complete.subset
  exact List.mem_append_left _ (List.mem_map_of_mem (List.mem_of_getElem? hv))

/-- An offer, accepted or rejected, keeps the invariant. -/
theorem Inv.produce (hi : Inv shared s) {n : ℕ} {read : Frame} (hn : s.pendingRejected = some n)
    (hinc : ∀ o ∈ s.offered, o.item.sourceSequence < read.sourceSequence) :
    Inv shared (produce shared s n read) := by
  obtain ⟨hpending, hrunning⟩ := hi.pending n hn
  have hwithin := hi.within.tryPush { read with applicationDroppedBefore := n }
  have hacc : ∀ t : Sys, ∀ o : Offer Frame, t.offered = s.offered ++ [o] →
      o.item.sourceSequence = read.sourceSequence → t.validated = s.validated →
      ∀ i v, t.validated[i]? = some v → Accounted t (lastSequence t i) v := by
    intro t o ht ho hval i v hv
    rw [hval] at hv
    have hlast : lastSequence t i = lastSequence s i := by rw [lastSequence, hval, lastSequence]
    rw [hlast]
    refine (hi.accounted i v hv).mono ht ?_
    rw [ho]
    exact Nat.le_of_lt (hinc _ (hi.validated_offered hv))
  unfold CameraQueue.produce
  rcases s.channel.tryPush_cases shared { read with applicationDroppedBefore := n } with he | ⟨-, -, -, he⟩
  · simp only [he]
    exact {
      within := hi.within
      order := hi.order
      complete := by simpa [received] using hi.complete
      queued := fun hr => by simpa [received] using hi.queued hr
      accounted := hacc _ ⟨{ read with applicationDroppedBefore := n }, false⟩ rfl rfl rfl
      increasing := hi.increasing.append hinc
      carries := hi.carries.snoc hpending
      pending := fun m hm => by
        obtain rfl : n + 1 = m := by simpa using hm
        exact ⟨by rw [pending_rejected, ← hpending], hrunning⟩
      idle := hi.idle
      starting := hi.starting
      last := hi.last }
  · rw [he] at hwithin
    simp only [he]
    exact {
      within := hwithin
      order := by
        simpa [Bounded.State.values] using hi.order.append_right [{ read with applicationDroppedBefore := n }]
      complete := by
        simp only [taken_append]
        exact hi.complete.trans (List.prefix_append _ _)
      queued := fun hr => by
        have hq := hi.queued hr
        simp only [received, Bounded.State.values] at hq ⊢
        simp [hq]
      accounted := hacc _ ⟨{ read with applicationDroppedBefore := n }, true⟩ rfl rfl rfl
      increasing := hi.increasing.append hinc
      carries := hi.carries.snoc hpending
      pending := fun m hm => by
        obtain rfl : 0 = m := by simpa using hm
        exact ⟨by rw [pending_accepted], hrunning⟩
      idle := fun hr => by simp [hrunning] at hr
      starting := hi.starting
      last := hi.last }

/-- The verdict on the frame in hand. -/
theorem Inv.accounted_held (hi : Inv shared s) (hr : s.reader = .holding frame)
    (hv : validateFrame s.validator frame = (result, w)) :
    Accounted s (lastSequence s s.validated.length) ⟨frame, result⟩ := by
  obtain ⟨rest, hrest⟩ := hi.complete
  have hsplit : taken s.offered = s.validated.map (·.frame) ++ frame :: rest := by
    rw [← hrest, received, hr]
    simp [Reader.held]
  have hlast : s.validator.lastSourceSequence = lastSequence s s.validated.length :=
    hi.last (Or.inr (by simp [hr, Reader.held]))
  have hseq : lastSequence s s.validated.length =
      (s.validated.map (·.frame)).getLast?.map Frame.sourceSequence := by
    simp only [lastSequence, List.take_length, List.getLast?_map, Option.map_map, Function.comp_def]
  have hcarried : frame.applicationDroppedBefore = rejected s (lastSequence s s.validated.length) frame := by
    rw [hseq]
    exact carried_eq_rejectedBetween hi.carries hi.increasing hsplit
  have hgap : ∀ l, s.validator.lastSourceSequence = some l → l < frame.sourceSequence ∧
      frame.sourceSequence - l - 1 = frame.applicationDroppedBefore + skipped s l frame := by
    intro l hl
    rw [hlast, hseq, Option.map_eq_some_iff] at hl
    obtain ⟨f, hf, rfl⟩ := hl
    obtain ⟨hlt, heq⟩ := gap_eq hi.increasing hsplit hf
    have hc := carried_eq_rejectedBetween hi.carries hi.increasing hsplit
    rw [hf, Option.map_some] at hc
    exact ⟨hlt, by rw [heq, hc, skipped]⟩
  cases result with
  | error e =>
    intro he
    rcases validateFrame_drop_error hv he with ⟨hlt, hge⟩ | ⟨l, hl, -, hexceeds⟩
    · have hle : frame.applicationDroppedBefore ≤ frame.sourceSequence :=
        hcarried.trans_le (rejectedBetween_le hi.increasing _ _)
      omega
    · have := (hgap l hl).2
      omega
  | ok g =>
    have hok := (validateFrame_ok hv).1
    have hsum := (FrameValidator.gap_ok hok).1
    unfold Accounted
    simp only
    rw [← hcarried, ← hlast]
    unfold FrameValidator.gap at hok
    split at hok
    · next l hl =>
      obtain ⟨hlt, heq⟩ := hgap l hl
      split_ifs at hok
      cases hok
      refine ⟨rfl, ?_, hsum⟩
      simp only [hl, Option.map_some, Option.getD_some]
      omega
    · next hl =>
      cases hok
      simp [hl]

theorem lastSequence_append {v : Validated} (h : t.validated = s.validated ++ [v]) {i : ℕ}
    (hi : i ≤ s.validated.length) : lastSequence t i = lastSequence s i := by
  rw [lastSequence, lastSequence, h, List.take_append_of_le_length hi]

/-- The reader moves on with what it holds; going on, it must stand where the validator does. -/
theorem Inv.moveReader (hi : Inv shared s) {r : Reader} (hheld : r.held = s.reader.held) (hstarting : r ≠ .starting)
    (hlast : r = .ready ∨ r.held ≠ [] → v.lastSourceSequence = lastSequence s s.validated.length) :
    Inv shared { s with validator := v, reader := r } := by
  have hreceived : received { s with validator := v, reader := r } = received s := by
    simp [received, hheld]
  exact { hi with
    complete := hreceived ▸ hi.complete
    queued := fun hr => hreceived ▸ hi.queued hr
    starting := fun h => absurd h hstarting
    last := hlast }

/-- The validated frame joins the record; the reader goes on when the verdict is positive. -/
theorem Inv.validate (hi : Inv shared s) (hr : s.reader = .holding frame)
    (hv : validateFrame s.validator frame = (result, w)) :
    Inv shared { s with
      validator := w
      reader := if result.isOk then .ready else .ended
      validated := s.validated ++ [⟨frame, result⟩] } := by
  have hidle : (if result.isOk then Reader.ready else .ended).held = [] ∧
      (if result.isOk then Reader.ready else .ended) ≠ .starting := by
    split_ifs <;> simp [Reader.held]
  have hreceived : received { s with
      validator := w
      reader := if result.isOk then .ready else .ended
      validated := s.validated ++ [⟨frame, result⟩] } = received s := by
    simp [received, hidle.1, hr, show (Reader.holding frame).held = [frame] from rfl]
  have hnew := hi.accounted_held hr hv
  exact { hi with
    complete := hreceived ▸ hi.complete
    queued := fun hrun => hreceived ▸ hi.queued hrun
    accounted := fun i v hiv => by
      rcases Nat.lt_trichotomy i s.validated.length with hlt | rfl | hgt
      · rw [List.getElem?_append_left hlt] at hiv
        rw [lastSequence_append rfl (Nat.le_of_lt hlt)]
        exact hi.accounted i v hiv
      · rw [List.getElem?_concat_length, Option.some.injEq] at hiv
        subst hiv
        rw [lastSequence_append rfl (Nat.le_refl _)]
        exact hnew
      · rw [List.getElem?_eq_none (by simp only [List.length_append, List.length_singleton]; omega)] at hiv
        cases hiv
    starting := fun h => absurd h hidle.2
    last := fun hgo => by
      cases result with
      | ok g =>
        rw [(validateFrame_ok hv).2, lastSequence, List.take_length]
        simp
      | error e => simp [Except.isOk, Except.toBool, Reader.held] at hgo }

theorem Inv.step {a : Action} (hi : Inv shared s) (ht : step shared s a = some t)
    (hinc : SourceIncreasing s a t) : Inv shared t := by
  cases a with
  | start =>
    simp only [CameraQueue.step, Option.ite_none_right_eq_some, Option.some.injEq, Bool.and_eq_true,
      Bool.not_eq_true', beq_iff_eq] at ht
    obtain ⟨⟨hstopped, hoff⟩, rfl⟩ := ht
    have hempty : s.channel.reopen.values = [] := by
      simp [Bounded.State.values, Bounded.State.reopen, hi.idle hstopped]
    exact {
      within := hi.within.reopen
      order := by
        have horder := (List.sublist_append_left s.delivered s.channel.values).trans hi.order
        simpa [hempty] using horder
      complete := by simp [received, Reader.held]
      queued := fun _ => by simp [received, Reader.held, hempty, taken]
      accounted := by simp
      increasing := .nil
      carries := .nil
      pending := fun n hn => by
        obtain rfl : 0 = n := by simpa using hn
        exact ⟨rfl, rfl⟩
      idle := by simp
      starting := fun _ => rfl
      last := by simp [Reader.held] }
  | reset =>
    simp only [CameraQueue.step, Option.ite_none_right_eq_some, Option.some.injEq, beq_iff_eq] at ht
    obtain ⟨hstarting, rfl⟩ := ht
    refine hi.moveReader (by simp [Reader.held, hstarting]) (by simp) fun _ => ?_
    simp [FrameValidator.reset, lastSequence, hi.starting hstarting]
  | frame read =>
    simp only [CameraQueue.step, Option.map_eq_some_iff] at ht
    obtain ⟨n, hn, rfl⟩ := ht
    exact hi.produce hn hinc
  | producerExit =>
    simp only [CameraQueue.step, Option.ite_none_right_eq_some, Option.some.injEq] at ht
    obtain ⟨-, rfl⟩ := ht
    exact { hi with pending := by simp }
  | stop =>
    simp only [CameraQueue.step, Option.ite_none_right_eq_some, Option.some.injEq, Bool.and_eq_true,
      Option.isNone_iff_eq_none] at ht
    obtain ⟨⟨-, hnone⟩, rfl⟩ := ht
    exact { hi with
      within := .closeAndClear shared s.channel
      order := by
        have horder := (List.sublist_append_left s.delivered s.channel.values).trans hi.order
        simpa [Bounded.State.values, Bounded.State.closeAndClear] using horder
      queued := by simp
      pending := by simp [hnone]
      idle := fun _ => rfl }
  | receive timedOut =>
    simp only [CameraQueue.step] at ht
    split at ht
    · next hready =>
      obtain ⟨⟨r, channel⟩, hrec, rfl⟩ := Option.map_eq_some_iff.1 ht
      have hwithin := hi.within.receive hrec
      rcases Bounded.State.receive_cases hrec with ⟨value, bytes, queue, hq, rfl, rfl⟩ | ⟨hq, ⟨e, rfl⟩, rfl⟩
      · have hrunning : s.running = true := by
          by_contra hstopped
          simp [hi.idle (by simpa using hstopped)] at hq
        have hqueued := hi.queued hrunning
        have hsplit : taken s.offered = s.validated.map (·.frame) ++ [value] ++ queue.map (·.1) := by
          simpa [received, Reader.held, hready, Bounded.State.values, hq] using hqueued
        exact { hi with
          within := hwithin
          order := by simpa [Bounded.State.values, hq] using hi.order
          complete := ⟨queue.map (·.1), by rw [hsplit]; rfl⟩
          queued := fun _ => hsplit
          idle := fun hstopped => by simp [hrunning] at hstopped
          starting := by simp
          last := fun _ => hi.last (Or.inl hready) }
      · exact hi.moveReader (by simp [Reader.held, hready]) (by simp) (by simp [Reader.held])
    · cases ht
  | validate =>
    simp only [CameraQueue.step] at ht
    split at ht
    · next frame hholding =>
      cases ht
      exact hi.validate hholding rfl
    · cases ht
  | leave =>
    simp only [CameraQueue.step, Option.ite_none_right_eq_some, Option.some.injEq, beq_iff_eq] at ht
    obtain ⟨hready, rfl⟩ := ht
    exact hi.moveReader (by simp [Reader.held, hready]) (by simp) (by simp [Reader.held])
  | join =>
    simp only [CameraQueue.step, Option.ite_none_right_eq_some, Option.some.injEq, beq_iff_eq] at ht
    obtain ⟨hended, rfl⟩ := ht
    exact hi.moveReader (by simp [Reader.held, hended]) (by simp) (by simp [Reader.held])

/-- In every run the queue keeps its bounds and its order, and the validator accounts for
every frame that was rejected and every number that the camera skipped. -/
theorem frame_losses_accounted {as : List Action} {s : Sys} (hr : run (step shared) {} as = some s)
    (hinc : Along (step shared) SourceIncreasing {} as) : Lossless shared s :=
  (run_invariant_of_along (fun _ _ _ hi ht hg => hi.step ht hg) inv_init hinc hr).toLossless

/-- A queue of one frame and two bytes. -/
def sampleShared : Bounded.Shared Frame := ⟨1, 2, fun frame => frame.rawSideBySide.length⟩

/-- A frame too large for the queue, then five numbers later one that fits. -/
def sampleActions : List Action :=
  [.start, .frame ⟨0, 10, 0, [], [], [1, 2, 3]⟩, .reset, .frame ⟨5, 20, 0, [], [], [4]⟩, .receive false, .validate,
    .frame ⟨7, 30, 0, [], [], [5]⟩, .frame ⟨9, 40, 0, [], [], [6]⟩, .receive false, .validate,
    .frame ⟨12, 50, 0, [], [], [7]⟩, .receive false, .validate]

theorem frame_losses_accounted_sample :
    ∃ s, run (step sampleShared) {} sampleActions = some s ∧ s.validated.length = 3 ∧ Lossless sampleShared s := by
  have hrun : ∃ s, run (step sampleShared) {} sampleActions = some s ∧ s.validated.length = 3 := ⟨_, rfl, rfl⟩
  obtain ⟨s, hs, hlength⟩ := hrun
  exact ⟨s, hs, hlength, frame_losses_accounted hs (by decide)⟩

/-- The numbers skipped after the frame at `last`, or else after the first frame of the run. -/
def skippedInRun (s : Sys) (last : Option ℕ) (frame : Frame) : ℕ :=
  ((last.or (s.offered.head?.map (·.item.sourceSequence))).map fun l => skipped s l frame).getD 0

/-- The first frame that a run delivers reports no source gap, even where the camera skipped
numbers after an earlier frame that the queue rejected. -/
theorem first_source_gap_unreported :
    ¬∀ (shared : Bounded.Shared Frame) (as : List Action) (s : Sys), run (step shared) {} as = some s →
      Along (step shared) SourceIncreasing {} as → ∀ i v g, s.validated[i]? = some v → v.result = .ok g →
        g.sourceGap = skippedInRun s (lastSequence s i) v.frame := by
  intro h
  have hrun : ∃ s v g, run (step sampleShared) {} (sampleActions.take 6) = some s ∧ s.validated[0]? = some v ∧
      v.result = .ok g ∧ g.sourceGap = 0 ∧ skippedInRun s (lastSequence s 0) v.frame = 4 :=
    ⟨_, _, _, rfl, rfl, rfl, rfl, by decide⟩
  obtain ⟨s, v, g, hs, hv, hg, hgap, hskipped⟩ := hrun
  have heq := h sampleShared _ s hs (by decide) 0 v g hv hg
  omega

end Conductor.Capture.CameraQueue
