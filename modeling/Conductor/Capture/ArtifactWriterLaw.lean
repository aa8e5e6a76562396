import Conductor.Lib.Concat
import Conductor.Capture.ArtifactWriter

/-! The asynchronous writer loses no accepted record: what was sent is what was written,
lost to a failure, in the worker's hand or queued, in this order, and the backlog counts
the last two and the reservation of a call in progress. -/

namespace Conductor.Capture.ArtifactWriter

open Word64 Runs

variable {artifact : Artifact}

/-- The payload received and not settled. -/
def Worker.hand : Worker → List (List UInt8)
  | .holding payload | .stored payload _ => [payload]
  | _ => []

/-- A `write` call is in progress. -/
def Caller.writing : Caller → Bool
  | .idle | .joining _ => false
  | _ => true

theorem Caller.uncounted_eq_nil {c : Caller} (h : c.writing = false) : c.uncounted = [] := by
  cases c <;> simp_all [writing, uncounted]

/-- The file and the lost payloads at each point of the worker. -/
def Contents (s : Sys) : Prop :=
  match s.worker with
  | .receiving | .holding _ | .settled none | .done none => s.file = s.written.flatten ∧ s.lost = []
  | .stored payload none =>
    s.file = s.written.flatten ++ payload ∧ s.lost = [] ∧ s.file.length ≤ maxFileSize
  | .stored payload (some _) => (∃ n, s.file = s.written.flatten ++ payload.take n) ∧ s.lost = []
  | .settled (some _) | .failing _ | .done (some _) =>
    ∃ payload n, s.file = s.written.flatten ++ payload.take n ∧ s.lost = [payload]

structure Inv (artifact : Artifact) (s : Sys) : Prop where
  sent : s.sent = accepted s ++ s.caller.uncounted
  hasher : s.hasher = (accepted s).flatten
  bytes : s.bytes = s.hasher.length
  flow : s.sent = s.written ++ s.lost ++ s.worker.hand ++ s.queue
  backlog : s.progress.pending =
    s.worker.hand.flatten.length + s.queue.flatten.length + s.caller.reservation
  limit : s.progress.pending ≤ indexPendingBytes
  sizes : ∀ payload ∈ s.sent, payload.length ≤ indexPendingBytes
  fits : s.written.flatten.length ≤ maxFileSize
  contents : Contents s
  records : s.progress.records + (if s.worker = .settled none then 1 else 0) = s.written.length
  drained : s.worker = .done none → s.queue = [] ∧ s.sender = false
  closed : s.sender = false → s.caller.writing = false
  published : ∀ snapshot, .ok snapshot ∈ s.flushed → s.worker = .done none ∧
    snapshot.bytes = s.bytes ∧ snapshot.sha256 = artifact.sha256 s.hasher

theorem inv_init : Inv artifact {} where
  sent := rfl
  hasher := rfl
  bytes := rfl
  flow := rfl
  backlog := rfl
  limit := Nat.zero_le _
  sizes := by simp
  fits := Nat.zero_le _
  contents := ⟨rfl, rfl⟩
  records := rfl
  drained := by simp
  closed := by simp
  published := by simp

@[simp] theorem accepted_return_ok (s : Sys) (payload : List UInt8) (n : ℕ) :
    accepted (s.return payload (.ok n)) = accepted s ++ [payload] := by
  simp [accepted, Sys.return, Except.isOk, Except.toBool]

@[simp] theorem accepted_return_error (s : Sys) (payload : List UInt8) (e : RuntimeError) :
    accepted (s.return payload (.error e)) = accepted s := by
  simp [accepted, Sys.return, Except.isOk, Except.toBool]

variable {s : Sys} {payload : List UInt8} {error : Option RuntimeError}

/-- A call that ends with an error holds no reservation and has sent nothing. -/
theorem Inv.return_error (hi : Inv artifact s) (payload : List UInt8) (e : RuntimeError)
    (hsent : s.caller.uncounted = []) (hreserved : s.caller.reservation = 0) :
    Inv artifact (s.return payload (.error e)) where
  sent := by
    have h := hi.sent
    rw [hsent] at h
    rw [accepted_return_error]
    exact h
  hasher := by
    rw [accepted_return_error]
    exact hi.hasher
  bytes := hi.bytes
  flow := hi.flow
  backlog := by
    have hb := hi.backlog
    rw [hreserved] at hb
    exact hb
  limit := hi.limit
  sizes := hi.sizes
  fits := hi.fits
  contents := hi.contents
  records := hi.records
  drained := hi.drained
  closed _ := rfl
  published := hi.published

/-- The bytes accepted so far fit a `u64`: they are in the file, lost, or in the backlog. -/
theorem Inv.sent_length (hi : Inv artifact s) : s.sent.flatten.length < size := by
  have hlost : s.lost.flatten.length ≤ indexPendingBytes := by
    have hl : s.lost = [] ∨ ∃ payload, s.lost = [payload] := by
      have hc := hi.contents
      unfold Contents at hc
      split at hc
      all_goals first
        | exact Or.inl hc.2
        | exact Or.inl hc.2.1
        | obtain ⟨payload, -, -, hlost⟩ := hc
          exact Or.inr ⟨payload, hlost⟩
    rcases hl with hl | ⟨payload, hl⟩
    · simp [hl]
    · have hmem : payload ∈ s.sent := by
        rw [hi.flow, hl]
        simp
      simpa [hl] using hi.sizes payload hmem
  have hb := hi.backlog
  have hlimit := hi.limit
  have hfits := hi.fits
  rw [hi.flow]
  simp only [List.flatten_append, List.length_append, indexPendingBytes, maxFileSize, size] at *
  omega

/-! ### The caller -/

theorem Inv.reserve (hi : Inv artifact s) {total : ℕ} (hc : s.caller = .checked payload)
    (ht : (checkedAdd s.progress.pending payload.length).filter (· ≤ indexPendingBytes) = some total) :
    Inv artifact { s with
      progress := { s.progress with pending := total, peak := max s.progress.peak total }
      caller := .reserved payload } := by
  obtain ⟨hsome, hle⟩ := Option.filter_eq_some_iff.1 ht
  obtain ⟨-, rfl⟩ := checkedAdd_eq_some.1 hsome
  have hsent := hi.sent
  have hb := hi.backlog
  rw [hc] at hsent hb
  exact { hi with
    sent := hsent
    backlog := by simp only [Caller.reservation] at hb ⊢; omega
    limit := by simpa using hle
    closed := fun h => by simpa [hc, Caller.writing] using hi.closed h }

theorem Inv.send (hi : Inv artifact s) (hc : s.caller = .reserved payload) (hw : ∀ r, s.worker ≠ .done r) :
    Inv artifact { s with queue := s.queue ++ [payload], caller := .sent payload, sent := s.sent ++ [payload] } := by
  have hsent := hi.sent
  have hb := hi.backlog
  have hlimit := hi.limit
  rw [hc] at hsent hb
  simp only [Caller.reservation] at hb
  exact { hi with
    sent := by
      simp only [hsent, Caller.uncounted, List.append_nil]
      rfl
    flow := by simp [hi.flow]
    backlog := by
      simp only [Caller.reservation, List.flatten_append, List.length_append, List.flatten_singleton]
      omega
    sizes := fun p hp => by
      rcases mem_concat.1 hp with hp | rfl
      · exact hi.sizes p hp
      · omega
    drained := fun h => absurd h (hw none)
    closed := fun h => by simpa [hc, Caller.writing] using hi.closed h }

theorem Inv.account (hi : Inv artifact s) (hc : s.caller = .sent payload) :
    checkedAdd s.bytes payload.length = some (s.bytes + payload.length) ∧
      Inv artifact ({ s with
        hasher := s.hasher ++ payload
        bytes := s.bytes + payload.length }.return payload (.ok payload.length)) := by
  have hsent := hi.sent
  have hb := hi.backlog
  have hopen : s.sender = true := by
    by_contra h
    simpa [hc, Caller.writing] using hi.closed (by simpa using h)
  have hrunning : s.worker ≠ .done none := fun h => by
    simpa [hopen] using (hi.drained h).2
  rw [hc] at hsent hb
  have hlength := hi.sent_length
  rw [hsent, List.flatten_append, List.length_append, ← hi.hasher, ← hi.bytes] at hlength
  simp only [Caller.uncounted, List.flatten_singleton] at hlength
  refine ⟨checkedAdd_eq_some.2 ⟨hlength, rfl⟩, ?_⟩
  exact { hi with
    sent := by
      rw [accepted_return_ok]
      simpa [Caller.uncounted, Sys.return, accepted] using hsent
    hasher := by
      rw [accepted_return_ok]
      simpa [Sys.return, accepted] using hi.hasher
    bytes := by simp [Sys.return, hi.bytes]
    backlog := hb
    closed := fun _ => rfl
    published := fun snapshot h => absurd (hi.published snapshot h).1 hrunning }

theorem Inv.release (hi : Inv artifact s) (hc : s.caller = .refused payload) : Inv artifact { s with
      progress := { s.progress with pending := s.progress.pending - payload.length }
      caller := .released payload } := by
  have hsent := hi.sent
  have hb := hi.backlog
  have hlimit := hi.limit
  rw [hc] at hsent hb
  simp only [Caller.reservation] at hb
  exact { hi with
    sent := hsent
    backlog := by simp only [Caller.reservation]; omega
    limit := by simp only; omega
    closed := fun h => by simpa [hc, Caller.writing] using hi.closed h }

/-- The caller moves on with the same payload accounts. -/
theorem Inv.moveCaller (hi : Inv artifact s) {c : Caller} {sender handle : Bool}
    (hsent : c.uncounted = s.caller.uncounted) (hreserved : c.reservation = s.caller.reservation)
    (hsender : s.sender = false → sender = false) (hclosed : sender = false → c.writing = false) :
    Inv artifact { s with sender, handle, caller := c } :=
  { hi with
    sent := by
      simp only [hsent]
      exact hi.sent
    backlog := by
      simp only [hreserved]
      exact hi.backlog
    drained := fun h => ⟨(hi.drained h).1, hsender (hi.drained h).2⟩
    closed := hclosed }

/-- An error of `flush_and_close` changes nothing. -/
theorem Inv.flush_error (hi : Inv artifact s) (e : RuntimeError) :
    Inv artifact { s with flushed := s.flushed ++ [.error e] } :=
  { hi with published := fun snapshot h => hi.published snapshot (by simpa using h) }

theorem publish_ok {failure : Option (Syscall × String)} {metadata : Metadata}
    {snapshot : ArtifactSnapshot} (h : publish artifact s failure metadata = .ok snapshot) :
    snapshot.bytes = s.bytes ∧ snapshot.sha256 = artifact.sha256 s.hasher := by
  simp only [publish, bind, Except.bind, pure, Except.pure, throw, throwThe, MonadExceptOf.throw] at h
  repeat' split at h
  all_goals cases h
  exact ⟨rfl, rfl⟩

variable {t : Sys}

theorem Inv.callerStep {a : Action} (hi : Inv artifact s) (ht : callerStep artifact s a = some t) : Inv artifact t := by
  cases a with
  | write payload =>
    simp only [ArtifactWriter.callerStep, Option.ite_none_right_eq_some] at ht
    obtain ⟨hidle, ht⟩ := ht
    have hreserved : s.caller.reservation = 0 := by rw [hidle]; rfl
    have hsent : s.caller.uncounted = [] := by rw [hidle]; rfl
    split at ht
    · cases ht
      exact hi.return_error payload _ hsent hreserved
    · split_ifs at ht with hopen
      · cases ht
        exact hi.moveCaller hsent.symm hreserved.symm id (by simp [hopen])
      · cases ht
        exact hi.return_error payload _ hsent hreserved
  | reserve =>
    simp only [ArtifactWriter.callerStep] at ht
    split at ht
    · next payload hc =>
      split at ht
      · cases ht
        exact hi.return_error payload _ (by rw [hc]; rfl) (by rw [hc]; rfl)
      · next total htotal =>
        cases ht
        exact hi.reserve hc htotal
    · cases ht
  | send =>
    simp only [ArtifactWriter.callerStep] at ht
    split at ht
    · next payload r hc hw =>
      cases ht
      exact hi.moveCaller (by rw [hc]; rfl) (by rw [hc]; rfl) id fun h => by
        simpa [hc, Caller.writing] using hi.closed h
    · next payload hc hw =>
      split_ifs at ht
      · cases ht
        exact hi.send hc fun r hr => hw r hr
      · cases ht
        exact hi.moveCaller (by rw [hc]; rfl) (by rw [hc]; rfl) id fun h => by
          simpa [hc, Caller.writing] using hi.closed h
    · cases ht
  | account =>
    simp only [ArtifactWriter.callerStep] at ht
    split at ht
    · next payload hc =>
      obtain ⟨hbytes, hnext⟩ := hi.account hc
      simp only [hbytes, Option.some.injEq] at ht
      rw [← ht]
      exact hnext
    · cases ht
  | release =>
    simp only [ArtifactWriter.callerStep] at ht
    split at ht
    · next payload hc =>
      cases ht
      exact hi.release hc
    · cases ht
  | recheck =>
    simp only [ArtifactWriter.callerStep] at ht
    split at ht
    · next payload hc =>
      cases ht
      exact hi.return_error payload _ (by rw [hc]; rfl) (by rw [hc]; rfl)
    · cases ht
  | flushAndClose =>
    simp only [ArtifactWriter.callerStep] at ht
    split_ifs at ht with hidle hhandle
    · cases ht
      exact hi.moveCaller (by rw [hidle]; rfl) (by rw [hidle]; rfl) (fun _ => rfl) fun _ => rfl
    · cases ht
      have hmove : Inv artifact { s with sender := false, handle := s.handle, caller := s.caller } :=
        hi.moveCaller rfl rfl (fun _ => rfl) fun _ => by rw [hidle]; rfl
      exact hmove.flush_error writerClosed
  | close =>
    simp only [ArtifactWriter.callerStep] at ht
    split_ifs at ht with hidle hhandle
    · cases ht
      exact hi.moveCaller (by rw [hidle]; rfl) (by rw [hidle]; rfl) (fun _ => rfl) fun _ => rfl
    · cases ht
      exact hi.moveCaller rfl rfl (fun _ => rfl) fun _ => by rw [hidle]; rfl
  | joined failure metadata =>
    simp only [ArtifactWriter.callerStep] at ht
    split at ht
    · next error hc hw =>
      cases ht
      have hmove : Inv artifact { s with sender := s.sender, handle := s.handle, caller := .idle } :=
        hi.moveCaller (by rw [hc]; rfl) (by rw [hc]; rfl) id fun _ => rfl
      exact hmove.flush_error error
    · next hc hw =>
      cases ht
      have hmove : Inv artifact { s with sender := s.sender, handle := s.handle, caller := .idle } :=
        hi.moveCaller (by rw [hc]; rfl) (by rw [hc]; rfl) id fun _ => rfl
      exact { hmove with
        published := fun snapshot h => by
          rcases mem_concat.1 h with h | h
          · exact hi.published snapshot h
          · exact ⟨hw, publish_ok h.symm⟩ }
    · next hc hw =>
      cases ht
      exact hi.moveCaller (by rw [hc]; rfl) (by rw [hc]; rfl) id fun _ => rfl
    · cases ht
  | receive => cases ht
  | store failure => cases ht
  | settle => cases ht
  | report => cases ht

/-! ### The worker -/

/-- Before it is done, the worker has published nothing. -/
theorem Inv.unpublished (hi : Inv artifact s) (hw : s.worker ≠ .done none)
    (snapshot : ArtifactSnapshot) : .ok snapshot ∉ s.flushed :=
  fun h => hw (hi.published snapshot h).1

theorem Inv.receive (hi : Inv artifact s) {queue : List (List UInt8)}
    (hw : s.worker = .receiving) (hq : s.queue = payload :: queue) :
    Inv artifact { s with queue, worker := .holding payload } := by
  have hflow := hi.flow
  have hb := hi.backlog
  have hcontents := hi.contents
  have hrecords := hi.records
  simp only [hw, hq, Worker.hand, Contents, List.flatten_cons, List.flatten_nil, List.length_append,
    reduceCtorEq, if_false] at hflow hb hcontents hrecords
  exact { hi with
    flow := by simpa [Worker.hand] using hflow
    backlog := by
      simp only [Worker.hand, List.flatten_singleton]
      simp only [List.length_nil] at hb
      omega
    contents := hcontents
    records := hrecords
    drained := by simp
    published := fun snapshot h => absurd h (hi.unpublished (by simp [hw]) snapshot) }

theorem Inv.finish (hi : Inv artifact s) (hw : s.worker = .receiving) (hq : s.queue = [])
    (hs : s.sender = false) : Inv artifact { s with worker := .done none } := by
  have hflow := hi.flow
  have hb := hi.backlog
  have hcontents := hi.contents
  have hrecords := hi.records
  simp only [hw, Contents, reduceCtorEq, if_false] at hflow hb hcontents hrecords
  exact { hi with
    flow := hflow
    backlog := hb
    contents := hcontents
    records := hrecords
    drained := fun _ => ⟨hq, hs⟩
    published := fun snapshot h => absurd h (hi.unpublished (by simp [hw]) snapshot) }

/-- Either outcome of the write leaves the payload in the worker's hand. -/
theorem Inv.store (hi : Inv artifact s) {file : List UInt8} (hw : s.worker = .holding payload)
    (hfile : Contents { s with file, worker := .stored payload error }) :
    Inv artifact { s with file, worker := .stored payload error } := by
  have hflow := hi.flow
  have hb := hi.backlog
  have hrecords := hi.records
  simp only [hw, reduceCtorEq, if_false] at hflow hb hrecords
  exact { hi with
    flow := hflow
    backlog := hb
    contents := hfile
    records := hrecords
    drained := by simp
    published := fun snapshot h => absurd h (hi.unpublished (by simp [hw]) snapshot) }

theorem Inv.settle (hi : Inv artifact s) (hw : s.worker = .stored payload error)
    (ht : workerStep artifact s .settle = some t) : Inv artifact t := by
  have hflow := hi.flow
  have hb := hi.backlog
  have hlimit := hi.limit
  have hfits := hi.fits
  have hcontents := hi.contents
  have hrecords := hi.records
  simp only [workerStep, hw] at ht
  simp only [hw, Worker.hand, Contents, List.flatten_singleton, reduceCtorEq, if_false] at hflow hb hcontents hrecords
  cases error with
  | none =>
    obtain ⟨hfile, hlost, hsize⟩ := hcontents
    simp only [Option.isNone_none, if_true, Option.some.injEq] at ht
    subst ht
    exact { hi with
      flow := by simpa [Worker.hand, hlost] using hflow
      backlog := by
        simp only [Worker.hand, List.flatten_nil, List.length_nil]
        omega
      limit := by simp only; omega
      fits := by
        rw [hfile] at hsize
        simpa using hsize
      contents := ⟨by simpa using hfile, hlost⟩
      records := by
        simp only [if_true, List.length_append, List.length_singleton]
        omega
      drained := by simp
      published := fun snapshot h => absurd h (hi.unpublished (by simp [hw]) snapshot) }
  | some e =>
    obtain ⟨⟨n, hfile⟩, hlost⟩ := hcontents
    simp only [Option.isNone_some, Bool.false_eq_true, if_false, Option.some.injEq] at ht
    subst ht
    exact { hi with
      flow := by simpa [Worker.hand, hlost] using hflow
      backlog := by
        simp only [Worker.hand, List.flatten_nil, List.length_nil]
        omega
      limit := by simp only; omega
      contents := ⟨payload, n, hfile, by simp [hlost]⟩
      records := by simpa using hrecords
      drained := by simp
      published := fun snapshot h => absurd h (hi.unpublished (by simp [hw]) snapshot) }

/-- The worker's next point after a settled write, with the counters it publishes there. -/
theorem Inv.moveWorker (hi : Inv artifact s) {w : Worker} {records : ℕ}
    (hnone : s.worker ≠ .done none) (hw : w ≠ .done none) (hhand : w.hand = s.worker.hand)
    (hcontents : Contents { s with worker := w })
    (hrecords : records + (if w = .settled none then 1 else 0) = s.written.length) :
    Inv artifact { s with progress := { s.progress with records, error }, worker := w } :=
  { hi with
    flow := by
      simp only [hhand]
      exact hi.flow
    backlog := by
      simp only [hhand]
      exact hi.backlog
    contents := hcontents
    records := hrecords
    drained := fun h => absurd h hw
    published := fun snapshot h => absurd h (hi.unpublished hnone snapshot) }

theorem Inv.report (hi : Inv artifact s) (ht : workerStep artifact s .report = some t) : Inv artifact t := by
  have hcontents := hi.contents
  have hrecords := hi.records
  simp only [workerStep] at ht
  split at ht
  · next hw =>
    simp only [hw, Contents, if_true] at hcontents hrecords
    cases ht
    exact hi.moveWorker (by simp [hw]) (by simp) (by simp [hw, Worker.hand]) hcontents (by simpa using hrecords)
  · next e hw =>
    simp only [hw, Contents, Worker.settled.injEq, reduceCtorEq, if_false] at hcontents hrecords
    cases ht
    exact hi.moveWorker (by simp [hw]) (by simp) (by simp [hw, Worker.hand]) hcontents (by simpa using hrecords)
  · next e hw =>
    simp only [hw, Contents, reduceCtorEq, if_false] at hcontents hrecords
    cases ht
    exact hi.moveWorker (by simp [hw]) (by simp) (by simp [hw, Worker.hand]) hcontents (by simpa using hrecords)
  · cases ht

theorem Inv.workerStep {a : Action} (hi : Inv artifact s) (ht : workerStep artifact s a = some t) : Inv artifact t := by
  cases a with
  | receive =>
    simp only [ArtifactWriter.workerStep] at ht
    split at ht
    · next payload queue hw hq =>
      cases ht
      exact hi.receive hw hq
    · next hw hq =>
      split_ifs at ht with hopen
      cases ht
      exact hi.finish hw hq (by simpa using hopen)
    · cases ht
  | store failure =>
    simp only [ArtifactWriter.workerStep] at ht
    have hcontents := hi.contents
    split at ht
    · next payload hw =>
      simp only [hw, Contents] at hcontents
      obtain ⟨hfile, hlost⟩ := hcontents
      split_ifs at ht with hsize
      cases ht
      exact hi.store hw ⟨by rw [← hfile], hlost, by simpa using hsize⟩
    · next payload n text hw =>
      simp only [hw, Contents] at hcontents
      obtain ⟨hfile, hlost⟩ := hcontents
      cases ht
      exact hi.store hw ⟨⟨n, by rw [← hfile]⟩, hlost⟩
    · cases ht
  | settle =>
    cases hw : s.worker with
    | stored payload error => exact hi.settle hw ht
    | _ => simp [ArtifactWriter.workerStep, hw] at ht
  | report => exact hi.report ht
  | _ => cases ht

theorem Inv.step {a : Action} (hi : Inv artifact s) (ht : step artifact s a = some t) : Inv artifact t := by
  rcases Option.or_eq_some_iff.1 ht with h | ⟨-, h⟩
  · exact hi.callerStep h
  · exact hi.workerStep h

/-! ### The law -/

/-- The file is what is completely written and a part of the payload at hand or lost. -/
theorem Contents.file (h : Contents s) :
    ∃ torn, s.file = s.written.flatten ++ torn ∧ torn <+: (s.lost ++ s.worker.hand).flatten := by
  unfold Contents at h
  split at h
  iterate 4 exact ⟨[], by rw [h.1, List.append_nil], List.nil_prefix⟩
  · next payload hw =>
    obtain ⟨hfile, hlost, -⟩ := h
    exact ⟨payload, hfile, by simp [hlost, hw, Worker.hand]⟩
  · next payload e hw =>
    obtain ⟨⟨n, hfile⟩, hlost⟩ := h
    exact ⟨payload.take n, hfile, by simp [hlost, hw, Worker.hand, List.take_prefix]⟩
  all_goals
    obtain ⟨payload, n, hfile, hlost⟩ := h
    refine ⟨payload.take n, hfile, ?_⟩
    rw [hlost, List.flatten_append, List.flatten_singleton]
    exact (List.take_prefix n payload).trans (List.prefix_append _ _)

/-- Before a failure no payload is lost. -/
theorem Inv.lost_nil (hi : Inv artifact s) (h : s.worker.error = none) : s.lost = [] := by
  have hcontents := hi.contents
  unfold Contents at hcontents
  split at hcontents <;> simp_all [Worker.error]

theorem Inv.lawful (hi : Inv artifact s) : Lawful artifact s where
  published := fun snapshot h => by
    obtain ⟨hw, hbytes, hsha⟩ := hi.published snapshot h
    obtain ⟨hq, hsender⟩ := hi.drained hw
    have hsent := hi.sent
    rw [Caller.uncounted_eq_nil (hi.closed hsender), List.append_nil] at hsent
    have hflow := hi.flow
    have hcontents := hi.contents
    simp only [hw, hq, Contents, Worker.hand, List.append_nil] at hflow hcontents
    obtain ⟨hfile, hlost⟩ := hcontents
    rw [hlost, List.append_nil] at hflow
    refine ⟨by rw [hfile, ← hflow, hsent], ?_, ?_⟩
    · rw [hbytes, hi.bytes, hi.hasher]
    · rw [hsha, hi.hasher]
  failed := fun h => hi.unpublished fun hw => h (by rw [hw]; rfl)
  records := by
    obtain ⟨torn, hfile, -⟩ := hi.contents.file
    exact ⟨by have := hi.records; omega, ⟨torn, hfile.symm⟩,
      ⟨s.lost ++ s.worker.hand ++ s.queue, by simp [hi.flow]⟩⟩
  sent := hi.sent
  hashed := ⟨hi.hasher, by rw [hi.bytes, hi.hasher]⟩
  file := by
    obtain ⟨torn, hfile, htorn⟩ := hi.contents.file
    rw [hfile, hi.flow, List.append_assoc s.written, List.append_assoc, List.flatten_append, List.flatten_append]
    exact (List.prefix_append_right_inj _).2 (htorn.trans (List.prefix_append _ _))
  pending := hi.limit
  backlog := fun h => by
    refine ⟨s.worker.hand ++ s.queue, by simp [hi.flow, hi.lost_nil h], ?_⟩
    rw [hi.backlog, List.flatten_append, List.length_append]

/-- No accepted record is lost in any interleaving of the caller and the worker. -/
theorem writer_lawful {as : List Action} {s : Sys} (hr : run (step artifact) {} as = some s) :
    Lawful artifact s :=
  (run_invariant (fun _ _ _ hi ht => hi.step ht) inv_init hr).lawful

def sampleArtifact : Artifact := ⟨"frames.index", "frames.ndjson", fun bytes => toString bytes.length⟩

/-- Two writes, the second while the first is in the worker's hand, and a close that publishes. -/
def sampleActions : List Action :=
  [.write [1, 2], .reserve, .send, .receive, .account, .write [3], .reserve, .store none, .send, .settle, .account,
    .flushAndClose, .report, .receive, .store none, .settle, .report, .receive,
    .joined none ⟨true, 1, 2, 3, 4⟩]

theorem writer_lawful_sample :
    ∃ s, run (step sampleArtifact) {} sampleActions = some s ∧ s.flushed.length = 1 ∧
      s.file = [1, 2, 3] ∧ Lawful sampleArtifact s := by
  have hrun : ∃ s, run (step sampleArtifact) {} sampleActions = some s ∧ s.flushed.length = 1 ∧
      s.file = [1, 2, 3] := ⟨_, rfl, rfl, rfl⟩
  obtain ⟨s, hs, hflushed, hfile⟩ := hrun
  exact ⟨s, hs, hflushed, hfile, writer_lawful hs⟩

/-- Between its reservation and its send a payload is in the backlog, and no call has accepted it. -/
theorem backlog_counts_reservation :
    ¬∀ (artifact : Artifact) (as : List Action) (s : Sys), run (step artifact) {} as = some s →
      s.worker.error = none → s.progress.pending = s.sent.flatten.length - s.written.flatten.length := by
  intro h
  have hrun : ∃ s, run (step sampleArtifact) {} (sampleActions.take 2) = some s ∧ s.worker.error = none ∧
      s.progress.pending = 2 ∧ s.sent = [] := ⟨_, rfl, rfl, rfl, rfl⟩
  obtain ⟨s, hs, hworker, hpending, hsent⟩ := hrun
  have heq := h sampleArtifact _ s hs hworker
  simp [hpending, hsent] at heq

end Conductor.Capture.ArtifactWriter
