import Conductor.Api.EventPump
import Conductor.Api.EventReplayLaw

/-! Capture events converge to the device. The revisions in the buffer are those that the coordinator
had, and a snapshot for resynchronisation has the last of them; what the pump publishes is not older
than its last source, and the newest event never is. -/

namespace Conductor.Api.EventPump

open Checked Recent Runs

variable {ρ τ : Type} {checks : Checks ρ τ} {epoch : String}

/-! ### Events are accepted -/

theorem requireThat_ok {condition : Bool} {message : String} {u : Unit} :
    requireThat condition message = .ok u ↔ condition = true := by
  unfold requireThat
  cases condition <;> simp

theorem digits_isDigit (n value : ℕ) : ∀ c ∈ digits n value, isDigit c = true := by
  induction n generalizing value with
  | zero => exact nofun
  | succ n ih =>
    refine forall_mem_concat (ih _) ?_
    have hdigits : ∀ d < 10, isDigit (Nat.digitChar d) = true := by decide
    exact hdigits _ (Nat.mod_lt _ (by decide))

theorem fullmatch_digits (n value : ℕ) : fullmatch (List.replicate n isDigit) (digits n value) = true := by
  induction n generalizing value with
  | zero => rfl
  | succ n ih =>
    rw [List.replicate_succ']
    refine fullmatch_append (ih _) ?_
    have hdigit := digits_isDigit 1 value (Nat.digitChar (value % 10)) (List.mem_singleton_self _)
    simp [fullmatch, hdigit]

theorem isoformat_rfc3339 (t : UtcTime) : rfc3339DateTime t.isoformat = true := by
  have hseconds : ∃ seconds, t.isoformat.toList = seconds ++ ((if t.microsecond = 0 then [] else '.' :: digits 6 t.microsecond) ++ ['Z']) ∧
      fullmatch secondsPattern seconds = true := by
    refine ⟨_, by rw [UtcTime.isoformat, String.toList_ofList, List.append_assoc], ?_⟩
    unfold secondsPattern
    repeat' apply fullmatch_append
    all_goals first | exact fullmatch_digits _ _ | decide
  obtain ⟨seconds, htext, hmatch⟩ := hseconds
  have hlength : seconds.length = 19 := by
    simp only [fullmatch, Bool.and_eq_true, decide_eq_true_eq] at hmatch
    exact hmatch.1.symm
  unfold rfc3339DateTime
  rw [htext, List.take_left' hlength, List.drop_left' hlength, hmatch]
  split_ifs with hzero
  · decide
  · have hdigits := digits_isDigit 6 t.microsecond
    have htake : (digits 6 t.microsecond ++ ['Z']).takeWhile isDigit = digits 6 t.microsecond := by
      rw [List.takeWhile_append_of_pos hdigits]
      simp [isDigit]
    have hdrop : (digits 6 t.microsecond ++ ['Z']).dropWhile isDigit = ['Z'] := by
      rw [List.dropWhile_append_of_pos hdigits]
      rfl
    simp only [List.cons_append, htake, hdrop]
    rfl

/-- What `validate_capture_status` accepts. -/
def WellFormed (checks : Checks ρ τ) (epoch : String) (s : Status ρ τ) : Prop :=
  validateCaptureStatus checks epoch s = .ok ()

/-- What a poll and a snapshot take from a status. -/
structure Facts (checks : Checks ρ τ) (epoch : String) (s : Status ρ τ) : Prop where
  authority : uuidV4 epoch = true
  revision : 0 ≤ s.sourceRevision
  finite : finiteSnapshot checks s.snapshot = true
  snapshot : validateSnapshotData checks s.snapshot epoch s.sourceRevision s.sessionId = .ok ()
  recording : ∀ r, recordingState s = some r → r.state ∈ captureActiveStates ∧ uuidV7 r.sessionId = true ∧
    r.progress.elapsedSeconds.finite = true ∧ r.progress.elapsedSeconds.nonnegative = true

variable {revision : ℤ} {s : Status ρ τ} {e : SourceEvent (CaptureData ρ τ)}

theorem validateSnapshotRecording_ok {value : SnapshotRecording ρ} {expected : List CaptureState}
    {sessionId : Option String} {u : Unit}
    (h : validateSnapshotRecording checks value expected epoch revision sessionId = .ok u) :
    value.recordingState.state ∈ expected ∧ finiteRecording checks value = true ∧
      conformsRecordingState checks value.recordingState = true := by
  obtain ⟨_, -, h⟩ := bind_eq_ok.1 h
  obtain ⟨_, hstate, h⟩ := bind_eq_ok.1 h
  obtain ⟨_, hfinite, h⟩ := bind_eq_ok.1 h
  obtain ⟨_, hconforms, -⟩ := bind_eq_ok.1 h
  exact ⟨by simpa using requireThat_ok.1 hstate, requireThat_ok.1 hfinite, requireThat_ok.1 hconforms⟩

theorem WellFormed.facts (h : WellFormed checks epoch s) : Facts checks epoch s := by
  obtain ⟨_, hfinite, h⟩ := bind_eq_ok.1 h
  obtain ⟨_, hbase, hdata⟩ := bind_eq_ok.1 h
  have hbase := requireThat_ok.1 hbase
  rw [Bool.and_eq_true, decide_eq_true_eq] at hbase
  refine ⟨hbase.1, hbase.2, requireThat_ok.1 hfinite, hdata, fun r hr => ?_⟩
  obtain ⟨active, hactive, rfl⟩ := Option.map_eq_some_iff.1 hr
  obtain ⟨_, -, hdata⟩ := bind_eq_ok.1 hdata
  obtain ⟨_, -, hdata⟩ := bind_eq_ok.1 hdata
  obtain ⟨_, hdata, -⟩ := bind_eq_ok.1 hdata
  split at hdata
  · next hstate =>
    obtain ⟨_, -, hdata⟩ := bind_eq_ok.1 hdata
    simp only [hactive] at hdata
    obtain ⟨_, hrecording, -⟩ := bind_eq_ok.1 hdata
    obtain ⟨hstate', hfinite, hconforms⟩ := validateSnapshotRecording_ok hrecording
    simp only [finiteRecording, conformsRecordingState, Bool.and_eq_true] at hfinite hconforms
    refine ⟨?_, hconforms.1.1.1.1.1.1.2, hfinite.1.1.1, hconforms.1.1.1.1.1.2⟩
    rw [List.mem_singleton.1 hstate']
    exact hstate
  · obtain ⟨_, hnone, -⟩ := bind_eq_ok.1 hdata
    have hnone := requireThat_ok.1 hnone
    rw [hactive] at hnone
    cases hnone

theorem Facts.sessionId (h : Facts checks epoch s) : s.sessionId.all uuidV7 = true := by
  cases hactive : s.snapshot.activeRecording with
  | none => simp [Status.sessionId, hactive]
  | some active =>
    have hr : recordingState s = some active.recordingState := by rw [recordingState, hactive]; rfl
    simp [Status.sessionId, hactive, (h.recording _ hr).2.1]

theorem snapshot_accepted (hformat : ∀ t : UtcTime, checks.dateTime t.isoformat = true)
    (h : Facts checks epoch s) (time : UtcTime) :
    validateSourceEvent (contract checks) (captureSnapshotEvent epoch s time) = .ok () := by
  have hrevision : ¬ s.sourceRevision < 0 := not_lt.2 h.revision
  simp [validateSourceEvent, captureSnapshotEvent, contract, h.finite, h.authority, hrevision, isoformat_rfc3339,
    hformat, h.sessionId, h.snapshot]

theorem toFloat_lawful {n : Number} {x : Double} (hfinite : n.finite = true) (hsign : n.nonnegative = true)
    (h : n.toFloat = some x) : (Number.float x).finite = true ∧ (Number.float x).nonnegative = true := by
  cases n with
  | int n =>
    obtain ⟨q, rfl, hq⟩ := Double.ofInt_nonneg (by simpa [Number.nonnegative] using hsign) h
    exact ⟨rfl, by simpa [Number.nonnegative] using hq⟩
  | float y =>
    cases h
    exact ⟨hfinite, hsign⟩

/-- A source event of the pump, or of the snapshot callback, at a revision. -/
structure Built (checks : Checks ρ τ) (epoch : String) (type : EventType) (revision : ℤ)
    (e : SourceEvent (CaptureData ρ τ)) : Prop where
  accepted : validateSourceEvent (contract checks) e = .ok ()
  type : e.type = type
  authority : e.authorityEpoch = epoch
  revision : e.sourceRevision = revision

theorem snapshot_built (hformat : ∀ t : UtcTime, checks.dateTime t.isoformat = true)
    (h : Facts checks epoch s) (time : UtcTime) :
    Built checks epoch .snapshot s.sourceRevision (captureSnapshotEvent epoch s time) :=
  ⟨snapshot_accepted hformat h time, rfl, rfl, rfl⟩

theorem progress_built (hformat : ∀ t : UtcTime, checks.dateTime t.isoformat = true)
    (h : Facts checks epoch s) {time : UtcTime}
    (he : progressEvent (epoch, s.sourceRevision) (recordingState s) time = .ok (some e)) :
    Built checks epoch .progress s.sourceRevision e := by
  cases hstate : recordingState s with
  | none =>
    rw [hstate] at he
    cases he
  | some r =>
    obtain ⟨hactive, hsession, hfinite, hsign⟩ := h.recording r hstate
    simp only [hstate, progressEvent] at he
    split at he
    · cases he
    · split at he
      · cases he
      · split at he
        · cases he
        · next frames _ hframes =>
          split at he
          · cases he
          · next elapsed helapsed =>
            cases Except.ok.inj he
            obtain ⟨hx, hx'⟩ := toFloat_lawful hfinite hsign helapsed
            have hrevision : ¬ s.sourceRevision < 0 := not_lt.2 h.revision
            have hframes := not_lt.1 hframes
            refine ⟨?_, rfl, rfl, rfl⟩
            have hdata : validateProgressData ⟨"ylx.capture-progress-event.v2", r.state, .float elapsed, frames, none, "frames"⟩ =
                .ok () := by
              simp [validateProgressData, requireThat, hactive, hx, hx', hframes]
              rfl
            simp [validateSourceEvent, contract, hx, h.authority, hrevision, isoformat_rfc3339, hformat, hsession, hdata]

/-! ### What is published -/

abbrev Event (ρ τ : Type) := BufferedEvent (CaptureData ρ τ)

/-- The events of one authority, up to a revision that it has reached. A snapshot for
resynchronisation is as new as all before it, and the newest event as the last source. -/
structure Ordered (epoch : String) (reached last : ℤ) (published : List (Event ρ τ)) : Prop where
  authority : ∀ e ∈ published, e.sourceEvent.authorityEpoch = epoch
  type : ∀ e ∈ published, e.sourceEvent.type ≠ .safeSwap
  reached : ∀ e ∈ published, e.sourceEvent.sourceRevision ≤ reached
  resync : published.Pairwise fun p q => q.resync → p.sourceEvent.sourceRevision ≤ q.sourceEvent.sourceRevision
  newest : ∀ e, published.getLast? = some e → last ≤ e.sourceEvent.sourceRevision

variable {reached last : ℤ}

theorem Ordered.nil : Ordered epoch reached last ([] : List (Event ρ τ)) :=
  ⟨List.forall_mem_nil _, List.forall_mem_nil _, List.forall_mem_nil _, .nil, fun _ he => by cases he⟩

variable {published : List (Event ρ τ)}

theorem Ordered.mono {reached' : ℤ}
    (h : Ordered epoch reached last published) (hle : reached ≤ reached') : Ordered epoch reached' last published :=
  { h with reached := fun e he => (h.reached e he).trans hle }

theorem Ordered.append {last' : ℤ} {type : EventType} (h : Ordered epoch reached last published)
    (he : Built checks epoch type revision e) (htype : type ≠ .safeSwap) (hreached : revision ≤ reached)
    (hlast : last' ≤ revision) (id : ℕ) (resync : Bool) (hresync : resync → revision = reached) :
    Ordered epoch reached last' (published ++ [⟨id, e, resync⟩]) := by
  have hcases : ∀ d ∈ published ++ [(⟨id, e, resync⟩ : Event ρ τ)], d ∈ published ∨ d = ⟨id, e, resync⟩ := fun d hd =>
    (List.mem_append.1 hd).imp_right List.mem_singleton.1
  refine ⟨fun d hd => ?_, fun d hd => ?_, fun d hd => ?_, ?_, fun d hd => ?_⟩
  · rcases hcases d hd with hd | rfl
    · exact h.authority d hd
    · exact he.authority
  · rcases hcases d hd with hd | rfl
    · exact h.type d hd
    · exact he.type ▸ htype
  · rcases hcases d hd with hd | rfl
    · exact h.reached d hd
    · exact he.revision.trans_le hreached
  · refine List.pairwise_append.2 ⟨h.resync, List.pairwise_singleton _ _, fun p hp q hq hq' => ?_⟩
    rw [List.mem_singleton.1 hq] at hq' ⊢
    calc p.sourceEvent.sourceRevision ≤ reached := h.reached p hp
      _ = e.sourceRevision := (he.revision.trans (hresync hq')).symm
  · rw [List.getLast?_concat] at hd
    cases hd
    exact hlast.trans_eq he.revision.symm

/-- Along the events of a client the revisions never go back. -/
theorem Ordered.continues
    (h : Ordered epoch reached last published) (hnumbered : Numbered 1 published) {p q : Event ρ τ}
    (hp : p ∈ published) (hq : q ∈ published) (hpq : Continues p q) :
    p.sourceEvent.sourceRevision ≤ q.sourceEvent.sourceRevision := by
  have hlt := hpq.lt
  rcases hpq with ⟨hresync, -⟩ | ⟨-, -, ⟨-, hsame, -⟩ | hnext⟩
  · obtain ⟨i, hi⟩ := List.mem_iff_getElem?.1 hp
    obtain ⟨j, hj⟩ := List.mem_iff_getElem?.1 hq
    have hpi := hnumbered i p hi
    have hqj := hnumbered j q hj
    obtain ⟨hi', rfl⟩ := List.getElem?_eq_some_iff.1 hi
    obtain ⟨hj', rfl⟩ := List.getElem?_eq_some_iff.1 hj
    exact List.pairwise_iff_getElem.1 h.resync i j hi' hj' (by omega) hresync
  · omega
  · omega

/-- What a client has received is of one authority, and its revisions never go back. -/
def Forward (epoch : String) (received : List (SseEvent (CaptureData ρ τ))) : Prop :=
  (∀ x ∈ received, x.sourceEvent.authorityEpoch = epoch) ∧
    received.Pairwise fun x y => x.sourceEvent.sourceRevision ≤ y.sourceEvent.sourceRevision

theorem projectSourceEvent_source (version : Version) (e : SourceEvent (CaptureData ρ τ)) :
    (projectSourceEvent (contract checks) version e).authorityEpoch = e.authorityEpoch ∧
      (projectSourceEvent (contract checks) version e).sourceRevision = e.sourceRevision := by
  unfold projectSourceEvent
  split <;> exact ⟨rfl, rfl⟩

theorem Ordered.forward (h : Ordered epoch reached last published)
    (hnumbered : Numbered 1 published) {received : List (SseEvent (CaptureData ρ τ))}
    (hchained : Chained (contract checks) published received) : Forward epoch received := by
  obtain ⟨source, rfl, hmem, hchain⟩ := hchained
  constructor
  · intro x hx
    obtain ⟨p, hp, rfl⟩ := List.mem_map.1 hx
    exact (projectSourceEvent_source p.1 p.2.sourceEvent).1.trans (h.authority _ (hmem p hp))
  · rw [List.pairwise_map]
    have hle : source.IsChain fun p q => p.2.sourceEvent.sourceRevision ≤ q.2.sourceEvent.sourceRevision := by
      refine hchain.imp_of_mem_imp fun p q hp hq hpq => ?_
      exact h.continues hnumbered (hmem p hp) (hmem q hq) hpq
    refine (List.isChain_iff_pairwise.1 hle).imp fun {p q} hpq => ?_
    show (projectSourceEvent (contract checks) p.1 p.2.sourceEvent).sourceRevision ≤
      (projectSourceEvent (contract checks) q.1 q.2.sourceEvent).sourceRevision
    rw [(projectSourceEvent_source p.1 p.2.sourceEvent).2, (projectSourceEvent_source q.1 q.2.sourceEvent).2]
    exact hpq

/-! ### Steps -/

section Steps

variable {Client : Type} [DecidableEq Client] {w w' : World Client ρ τ}

/-- What one step does. Progress is only published where the source is the last one. -/
inductive Stepped (checks : Checks ρ τ) (epoch : String) (w : World Client ρ τ) :
    Action Client ρ τ → World Client ρ τ → Prop
  | changed (status : Status ρ τ) : Stepped checks epoch w (.change status) { w with status }
  | reads (a : Action Client ρ τ) (poll : Poll ρ τ)
      (idle : poll = .idle ∨ ∃ now, poll = .readProgress now ∨ poll = .readSnapshot now) :
      Stepped checks epoch w a { w with poll }
  | completed (a : Action Client ρ τ) (same : (epoch, w.status.sourceRevision) = w.pump.lastSource) :
      Stepped checks epoch w a { w with poll := .idle, polls := w.polls + 1 }
  | snapshot (a : Action Client ρ τ) (now : Double) (time : UtcTime) (key : Option ProgressKey) :
      Stepped checks epoch w a { w with poll := .snapshot now (captureSnapshotEvent epoch w.status time) key }
  | progress (a : Action Client ρ τ) (now : Double) (time : UtcTime) (key : Option ProgressKey)
      (event : SourceEvent (CaptureData ρ τ)) (same : (epoch, w.status.sourceRevision) = w.pump.lastSource)
      (built : progressEvent (epoch, w.status.sourceRevision) (recordingState w.status) time = .ok (some event)) :
      Stepped checks epoch w a { w with poll := .progress now event key }
  | publishedSnapshot (a : Action Client ρ τ) (now : Double) (event : SourceEvent (CaptureData ρ τ))
      (key : Option ProgressKey) (service : Service Client (CaptureData ρ τ)) (poll : w.poll = .snapshot now event key)
      (accepted : validateSourceEvent (contract checks) event = .ok ())
      (publish : w.service.step (contract checks) (.publish event) = some service) :
      Stepped checks epoch w a
        { w with
          service
          pump := { w.pump with
            lastSource := (event.authorityEpoch, event.sourceRevision)
            lastProgressKey := key
            lastProgressAt := now }
          poll := .idle
          polls := w.polls + 1 }
  | publishedProgress (a : Action Client ρ τ) (now : Double) (event : SourceEvent (CaptureData ρ τ))
      (key : Option ProgressKey) (service : Service Client (CaptureData ρ τ)) (poll : w.poll = .progress now event key)
      (accepted : validateSourceEvent (contract checks) event = .ok ())
      (publish : w.service.step (contract checks) (.publish event) = some service) :
      Stepped checks epoch w a
        { w with
          service
          pump := { w.pump with lastProgressKey := key, lastProgressAt := now }
          poll := .idle
          polls := w.polls + 1 }
  | called (client : Client) (version : Version) (time : UtcTime) (service : Service Client (CaptureData ρ τ))
      (replay : w.service.step (contract checks) (.replay client version (captureSnapshotEvent epoch w.status time)) = some service) :
      Stepped checks epoch w (.call client version time) { w with service }

theorem pollProgress_stepped (a : Action Client ρ τ) (now : Double) (time : UtcTime)
    (same : (epoch, w.status.sourceRevision) = w.pump.lastSource) :
    Stepped checks epoch w a (w.pollProgress now (epoch, w.status.sourceRevision) (recordingState w.status) time) := by
  unfold World.pollProgress
  split
  · exact .reads a .idle (.inl rfl)
  · exact .completed a same
  · next event hevent =>
    dsimp only
    split
    · exact .progress a now time _ event same hevent
    · exact .completed a same

variable {a : Action Client ρ τ} {as : List (Action Client ρ τ)} {v : World Client ρ τ}

theorem step_cases (h : step checks epoch w a = some w') : Stepped checks epoch w a w' := by
  cases a with
  | change status =>
    cases h
    exact .changed status
  | poll now =>
    simp only [step] at h
    split at h
    · cases h
      exact .reads _ _ (.inr ⟨now, .inl rfl⟩)
    · cases h
  | readProgress time =>
    simp only [step] at h
    split at h
    · next now hpoll =>
      split at h
      · cases h
        exact .reads _ _ (.inr ⟨now, .inr rfl⟩)
      · next hsame =>
        cases h
        exact pollProgress_stepped _ now time (not_not.1 (not_or.1 hsame).1)
    · cases h
  | readSnapshot time =>
    simp only [step] at h
    split at h
    · next now hpoll =>
      split at h
      · cases h
        exact .snapshot _ now time _
      · next hsame =>
        cases h
        exact pollProgress_stepped _ now time (not_not.1 hsame)
    · cases h
  | raise =>
    simp only [step] at h
    split at h
    · cases h
      exact .reads _ _ (.inl rfl)
    · cases h
      exact .reads _ _ (.inl rfl)
    · cases h
  | publish =>
    simp only [step] at h
    split at h
    · next now event key hpoll =>
      unfold World.publish at h
      split at h
      · cases h
        exact .reads _ _ (.inl rfl)
      · next haccepted =>
        obtain ⟨service, hservice, rfl⟩ := Option.map_eq_some_iff.1 h
        exact .publishedSnapshot _ now event key service hpoll haccepted hservice
    · next now event key hpoll =>
      unfold World.publish at h
      split at h
      · cases h
        exact .reads _ _ (.inl rfl)
      · next haccepted =>
        obtain ⟨service, hservice, rfl⟩ := Option.map_eq_some_iff.1 h
        exact .publishedProgress _ now event key service hpoll haccepted hservice
    · cases h
  | call client version time =>
    simp only [step, World.call] at h
    obtain ⟨service, hservice, rfl⟩ := Option.map_eq_some_iff.1 h
    exact .called client version time service hservice

/-- The documents are well formed, and the revision does not go back. -/
def History (checks : Checks ρ τ) (epoch : String) (w : World Client ρ τ) (a : Action Client ρ τ)
    (_ : World Client ρ τ) : Prop :=
  match a with
  | .change status => WellFormed checks epoch status ∧ w.status.sourceRevision ≤ status.sourceRevision
  | _ => True

/-- An event that waits to be published is accepted, and not older than the last source. -/
def Pending (checks : Checks ρ τ) (epoch : String) (reached last : ℤ) : Poll ρ τ → Prop
  | .snapshot _ event _ => ∃ revision, Built checks epoch .snapshot revision event ∧ last ≤ revision ∧ revision ≤ reached
  | .progress _ event _ => Built checks epoch .progress last event
  | _ => True

theorem Pending.mono {reached reached' last : ℤ} {poll : Poll ρ τ} (h : Pending checks epoch reached last poll)
    (hle : reached ≤ reached') : Pending checks epoch reached' last poll := by
  cases poll with
  | snapshot now event key =>
    obtain ⟨revision, hbuilt, hlast, hreached⟩ := h
    exact ⟨revision, hbuilt, hlast, hreached.trans hle⟩
  | _ => exact h

structure Sound (checks : Checks ρ τ) (epoch : String) (w : World Client ρ τ) : Prop where
  service : w.service.Sound (contract checks)
  status : Facts checks epoch w.status
  ordered : Ordered epoch w.status.sourceRevision w.pump.lastSource.2 w.service.published
  source : w.pump.lastSource.1 = epoch
  last : w.pump.lastSource.2 ≤ w.status.sourceRevision
  pending : Pending checks epoch w.status.sourceRevision w.pump.lastSource.2 w.poll

omit [DecidableEq Client] in
theorem init_sound {status : Status ρ τ} (h : WellFormed checks epoch status) (capacity : ℕ) (hpos : 0 < capacity)
    (progressInterval : Double) :
    Sound checks epoch (World.init epoch status capacity hpos progressInterval : World Client ρ τ) :=
  ⟨Service.init_sound capacity hpos, h.facts, .nil, rfl, le_rfl, trivial⟩

theorem Sound.step (hformat : ∀ t : UtcTime, checks.dateTime t.isoformat = true)
    (h : Sound checks epoch w) (hstep : step checks epoch w a = some w') (hhistory : History checks epoch w a w') :
    Sound checks epoch w' := by
  cases step_cases hstep with
  | changed status =>
    obtain ⟨hformed, hle⟩ := hhistory
    exact ⟨h.service, hformed.facts, h.ordered.mono hle, h.source, h.last.trans hle, h.pending.mono hle⟩
  | reads _ poll hidle =>
    refine { h with pending := ?_ }
    rcases hidle with rfl | ⟨now, rfl | rfl⟩ <;> exact trivial
  | completed _ _ => exact { h with pending := trivial }
  | snapshot _ now time key =>
    exact { h with pending := ⟨_, snapshot_built hformat h.status time, h.last, le_rfl⟩ }
  | progress _ now time key event hsame hbuilt =>
    refine { h with pending := ?_ }
    have hrevision : w.status.sourceRevision = w.pump.lastSource.2 := congrArg Prod.snd hsame
    show Built checks epoch .progress w.pump.lastSource.2 event
    rw [← hrevision]
    exact progress_built hformat h.status hbuilt
  | publishedSnapshot _ now event key service hpoll haccepted hpublish =>
    have hpending := h.pending
    rw [hpoll] at hpending
    obtain ⟨revision, hbuilt, hlast, hreached⟩ := hpending
    have hrevision := hbuilt.revision
    refine ⟨h.service.publish hpublish, h.status, ?_, hbuilt.authority, hrevision.trans_le hreached, trivial⟩
    rw [h.service.publish_appends haccepted hpublish]
    exact h.ordered.append hbuilt (by decide) hreached hrevision.le _ false nofun
  | publishedProgress _ now event key service hpoll haccepted hpublish =>
    have hbuilt := h.pending
    rw [hpoll] at hbuilt
    refine ⟨h.service.publish hpublish, h.status, ?_, h.source, h.last, trivial⟩
    rw [h.service.publish_appends haccepted hpublish]
    exact h.ordered.append hbuilt (by decide) h.last le_rfl _ false nofun
  | called client version time service hreplay =>
    refine { h with service := h.service.replay hreplay, ordered := ?_ }
    rcases h.service.replay_appends hreplay with hsame | happend
    · rw [hsame]
      exact h.ordered
    · rw [happend]
      exact h.ordered.append (snapshot_built hformat h.status time) (by decide) le_rfl h.last _ true fun _ => rfl

theorem sound_run (hformat : ∀ t : UtcTime, checks.dateTime t.isoformat = true)
    (h : Sound checks epoch w) (hrun : run (step checks epoch) w as = some w')
    (hhistory : Along (step checks epoch) (History checks epoch) w as) : Sound checks epoch w' :=
  run_invariant_of_along (fun _ _ _ hs hstep hg => hs.step hformat hstep hg) h hhistory hrun

/-! ### Convergence -/

/-- A snapshot that the pump published at a revision or a later one. -/
def IsUpdate (revision : ℤ) (e : Event ρ τ) : Prop :=
  e.sourceEvent.type = .snapshot ∧ e.resync = false ∧ revision ≤ e.sourceEvent.sourceRevision

/-- What has happened since a moment at which the pump was idle: a poll that it has begun since then
has seen the revision of that moment. -/
structure Since (v w : World Client ρ τ) : Prop where
  status : v.status.sourceRevision ≤ w.status.sourceRevision
  published : ∃ new, w.service.published = v.service.published ++ new ∧
    (w.pump.lastSource = v.pump.lastSource ∨ ∃ e ∈ new, IsUpdate v.status.sourceRevision e)
  polls : v.polls ≤ w.polls
  caught : v.polls < w.polls → v.status.sourceRevision ≤ w.pump.lastSource.2
  poll : match w.poll with
    | .snapshot _ event _ => event.type = .snapshot ∧ v.status.sourceRevision ≤ event.sourceRevision
    | .progress _ _ _ => v.status.sourceRevision ≤ w.pump.lastSource.2
    | _ => True

omit [DecidableEq Client] in
theorem Since.refl (h : w.poll = .idle) : Since w w :=
  ⟨le_rfl, ⟨[], (List.append_nil _).symm, .inl rfl⟩, le_rfl, fun hlt => absurd hlt (lt_irrefl _), by rw [h]; trivial⟩

theorem update_appends {new more : List (Event ρ τ)} {last last' : Source}
    (h : last = last' ∨ ∃ e ∈ new, IsUpdate revision e) : last = last' ∨ ∃ e ∈ new ++ more, IsUpdate revision e :=
  h.imp_right fun ⟨e, he, hupdate⟩ => ⟨e, List.mem_append_left _ he, hupdate⟩

theorem Since.step (h : Since v w) (hs : Sound checks epoch w)
    (hstep : step checks epoch w a = some w') (hhistory : History checks epoch w a w') : Since v w' := by
  have hseen : (epoch, w.status.sourceRevision) = w.pump.lastSource → v.status.sourceRevision ≤ w.pump.lastSource.2 :=
    fun hsame => h.status.trans (congrArg Prod.snd hsame).le
  cases step_cases hstep with
  | changed status =>
    obtain ⟨-, hle⟩ := hhistory
    exact { h with status := h.status.trans hle }
  | reads _ poll hidle =>
    refine { h with poll := ?_ }
    rcases hidle with rfl | ⟨now, rfl | rfl⟩ <;> exact trivial
  | completed _ hsame =>
    exact { h with polls := Nat.le_succ_of_le h.polls, caught := fun _ => hseen hsame, poll := trivial }
  | snapshot _ now time key => exact { h with poll := ⟨rfl, h.status⟩ }
  | progress _ now time key event hsame hbuilt => exact { h with poll := hseen hsame }
  | publishedSnapshot _ now event key service hpoll haccepted hpublish =>
    have hpending := h.poll
    rw [hpoll] at hpending
    obtain ⟨new, hnew, -⟩ := h.published
    have happend := hs.service.publish_appends haccepted hpublish
    rw [hnew, List.append_assoc] at happend
    refine ⟨h.status, ⟨_, happend, .inr ?_⟩, Nat.le_succ_of_le h.polls, fun _ => hpending.2, trivial⟩
    exact ⟨_, List.mem_append_right _ (List.mem_singleton_self _), hpending.1, rfl, hpending.2⟩
  | publishedProgress _ now event key service hpoll haccepted hpublish =>
    have hpending := h.poll
    rw [hpoll] at hpending
    obtain ⟨new, hnew, hlast⟩ := h.published
    have happend := hs.service.publish_appends haccepted hpublish
    rw [hnew, List.append_assoc] at happend
    exact ⟨h.status, ⟨_, happend, update_appends hlast⟩, Nat.le_succ_of_le h.polls, fun _ => hpending, trivial⟩
  | called client version time service hreplay =>
    obtain ⟨new, hnew, hlast⟩ := h.published
    rcases hs.service.replay_appends hreplay with hsame | happend
    · exact { h with published := ⟨new, hsame.trans hnew, hlast⟩ }
    · rw [hnew, List.append_assoc] at happend
      exact { h with published := ⟨_, happend, update_appends hlast⟩ }

theorem since_run (hformat : ∀ t : UtcTime, checks.dateTime t.isoformat = true)
    (h : Sound checks epoch w) (hidle : w.poll = .idle) (hrun : run (step checks epoch) w as = some w')
    (hhistory : Along (step checks epoch) (History checks epoch) w as) : Sound checks epoch w' ∧ Since w w' :=
  run_invariant_of_along (I := fun u => Sound checks epoch u ∧ Since w u)
    (fun _ _ _ hs hstep hg => ⟨hs.1.step hformat hstep hg, hs.2.step hs.1 hstep hg⟩) ⟨h, .refl hidle⟩ hhistory hrun

/-- An event at the source of the coordinator. -/
def AtSource (epoch : String) (w : World Client ρ τ) (e : SourceEvent (CaptureData ρ τ)) : Prop :=
  e.authorityEpoch = epoch ∧ e.sourceRevision = w.status.sourceRevision

/-- What a poll that was begun after `v` and has completed by `w` means. -/
structure Caught (checks : Checks ρ τ) (epoch : String) (v w : World Client ρ τ) : Prop where
  /-- A change that was not published yet has been. -/
  update : v.pump.lastSource ≠ (epoch, v.status.sourceRevision) →
    ∃ e ∈ w.service.published.drop v.service.published.length, IsUpdate v.status.sourceRevision e
  newest : w.status.sourceRevision = v.status.sourceRevision →
    ∀ e, w.service.published.getLast? = some e → AtSource epoch w e.sourceEvent
  /-- A call brings its client to the final revision. -/
  clients : w.status.sourceRevision = v.status.sourceRevision → ∀ client version time u,
    step checks epoch w (.call client version time) = some u →
    ∃ x, (u.service.received client).getLast? = some x ∧ AtSource epoch w x.sourceEvent

omit [DecidableEq Client] in
theorem Sound.newest (h : Sound checks epoch w)
    (hcaught : v.status.sourceRevision ≤ w.pump.lastSource.2) (hfinal : w.status.sourceRevision = v.status.sourceRevision)
    {e : Event ρ τ} (he : w.service.published.getLast? = some e) : AtSource epoch w e.sourceEvent := by
  have hmem := List.mem_of_getLast? he
  have hnewest := h.ordered.newest e he
  have hreached := h.ordered.reached e hmem
  exact ⟨h.ordered.authority e hmem, by omega⟩

omit [DecidableEq Client] in
/-- The last event that a client has is the published one with its delivery id. -/
theorem Sound.received_newest (h : Sound checks epoch w) {client : Client} {e : Event ρ τ}
    (he : w.service.published.getLast? = some e) (hcursor : w.service.cursor client = some e.deliveryId) :
    ∃ x, (w.service.received client).getLast? = some x ∧ x.sourceEvent.authorityEpoch = e.sourceEvent.authorityEpoch ∧
      x.sourceEvent.sourceRevision = e.sourceEvent.sourceRevision := by
  obtain ⟨source, hreceived, hmem, -⟩ := h.service.chained client
  rw [Service.cursor, hreceived, List.getLast?_map, Option.map_map] at hcursor
  obtain ⟨p, hp, hid⟩ := Option.map_eq_some_iff.1 hcursor
  have hsame : p.2 = e :=
    unique_id h.service.holds.numbered (hmem p (List.mem_of_getLast? hp)) (List.mem_of_getLast? he) hid
  refine ⟨sse (contract checks) p.1 p.2, by rw [hreceived, List.getLast?_map, hp]; rfl, ?_⟩
  rw [← hsame]
  exact projectSourceEvent_source p.1 p.2.sourceEvent

theorem Sound.call_newest (hformat : ∀ t : UtcTime, checks.dateTime t.isoformat = true) {u : World Client ρ τ}
    (h : Sound checks epoch w) (hcaught : v.status.sourceRevision ≤ w.pump.lastSource.2)
    (hfinal : w.status.sourceRevision = v.status.sourceRevision) {client : Client} {version : Version} {time : UtcTime}
    (hstep : EventPump.step checks epoch w (.call client version time) = some u) :
    ∃ x, (u.service.received client).getLast? = some x ∧ AtSource epoch w x.sourceEvent := by
  have hu := h.step hformat hstep trivial
  simp only [EventPump.step, World.call] at hstep
  obtain ⟨service, hservice, rfl⟩ := Option.map_eq_some_iff.1 hstep
  have hbuilt := snapshot_built hformat h.status time
  obtain ⟨e, he, hcursor⟩ := h.service.replay_newest h.ordered.type hbuilt.accepted hbuilt.type hservice
  obtain ⟨x, hx, hepoch, hrevision⟩ := hu.received_newest he hcursor
  obtain ⟨hauthority, hat⟩ := hu.newest hcaught hfinal he
  exact ⟨x, hx, hepoch.trans hauthority, hrevision.trans hat⟩

/-- What holds at any moment. -/
structure Converging (checks : Checks ρ τ) (epoch : String) (w : World Client ρ τ) : Prop where
  /-- What the pump has built is accepted. -/
  snapshot_accepted : ∀ now event key, w.poll = .snapshot now event key →
    validateSourceEvent (contract checks) event = .ok ()
  progress_accepted : ∀ now event key, w.poll = .progress now event key →
    validateSourceEvent (contract checks) event = .ok ()
  forward : ∀ client, Forward epoch (w.service.received client)
  /-- A poll that raises leaves the change to be published. -/
  raise : ∀ w', step checks epoch w .raise = some w' → w'.pump = w.pump ∧ w'.service = w.service

theorem Sound.converging (h : Sound checks epoch w) : Converging checks epoch w where
  snapshot_accepted now event key hpoll := by
    have hpending := h.pending
    rw [hpoll] at hpending
    obtain ⟨revision, hbuilt, -⟩ := hpending
    exact hbuilt.accepted
  progress_accepted now event key hpoll := by
    have hpending := h.pending
    rw [hpoll] at hpending
    exact hpending.accepted
  forward client := h.ordered.forward h.service.holds.numbered (h.service.chained client)
  raise w' hstep := by
    simp only [EventPump.step] at hstep
    split at hstep <;> cases hstep <;> exact ⟨rfl, rfl⟩

theorem Since.all_caught (hformat : ∀ t : UtcTime, checks.dateTime t.isoformat = true)
    (h : Since v w) (hv : Sound checks epoch v) (hw : Sound checks epoch w) (hpolls : v.polls < w.polls) :
    Caught checks epoch v w where
  update hchanged := by
    obtain ⟨new, hnew, hlast⟩ := h.published
    rw [hnew, List.drop_left]
    refine hlast.resolve_left fun hsame => hchanged ?_
    have hcaught := h.caught hpolls
    have hlast := hv.last
    rw [hsame] at hcaught
    exact Prod.ext hv.source (le_antisymm hlast hcaught)
  newest hfinal _ he := hw.newest (h.caught hpolls) hfinal he
  clients hfinal _ _ _ _ hstep := hw.call_newest hformat (h.caught hpolls) hfinal hstep

/-- Capture events converge to the device: what the pump builds is accepted, the revisions that a
client receives never go back, and a poll that completes has published what changed before it; once
the revision is final, the next call of every client brings it there. -/
theorem capture_events_converge (checks : Checks ρ τ) (epoch : String)
    (hformat : ∀ t : UtcTime, checks.dateTime t.isoformat = true) (status : Status ρ τ)
    (hstatus : WellFormed checks epoch status) (capacity : ℕ) (hpos : 0 < capacity) (progressInterval : Double)
    (as : List (Action Client ρ τ)) (w : World Client ρ τ)
    (hrun : run (step checks epoch) (World.init epoch status capacity hpos progressInterval) as = some w)
    (hhistory : Along (step checks epoch) (History checks epoch) (World.init epoch status capacity hpos progressInterval) as) :
    Converging checks epoch w ∧ ∀ (bs : List (Action Client ρ τ)) (u : World Client ρ τ), w.poll = .idle →
      run (step checks epoch) w bs = some u → Along (step checks epoch) (History checks epoch) w bs →
      w.polls < u.polls → Caught checks epoch w u := by
  have hw := sound_run hformat (init_sound hstatus capacity hpos progressInterval) hrun hhistory
  refine ⟨hw.converging, fun bs u hidle hbs hhistory' hpolls => ?_⟩
  obtain ⟨hu, hsince⟩ := since_run hformat hw hidle hbs hhistory'
  exact hsince.all_caught hformat hw hu hpolls

end Steps

/-! ### A run -/

def sampleChecks : Checks Unit Unit where
  finiteRest _ := true
  finiteRuntime _ := true
  conformsRest _ := true
  runtime _ := .ok ()
  liveImu _ := none
  dateTime _ := true
  projectRuntime _ _ := ()

def sampleEpoch : String := "0a1b2c3d-0000-4000-8000-00000000000f"

/-- An idle device at a revision. -/
def sampleStatus (revision : ℤ) : Status Unit Unit where
  sourceRevision := revision
  snapshot := ⟨"ylx.capture-snapshot-event.v2", .idle, none, none, ()⟩

def sampleTime : UtcTime := ⟨2026, 1, 2, 3, 4, 5, 0, by decide⟩

theorem sampleStatus_wellFormed (h : 0 ≤ revision) : WellFormed sampleChecks sampleEpoch (sampleStatus revision) := by
  have hepoch : uuidV4 sampleEpoch = true := by decide
  simp only [WellFormed, validateCaptureStatus, hepoch, sampleStatus, h]
  rfl

/-- A client is answered while the pump holds an event that is older than the answer. -/
def sampleActions : List (Action Bool Unit Unit) :=
  [.change (sampleStatus 1), .poll (.finite 1), .readProgress sampleTime, .readSnapshot sampleTime,
    .change (sampleStatus 2), .call true .v4 sampleTime, .publish]

def samplePolls : List (Action Bool Unit Unit) :=
  [.poll (.finite 2), .raise, .poll (.finite 3), .readProgress sampleTime, .readSnapshot sampleTime, .publish]

theorem sampleActions_history :
    Along (step sampleChecks sampleEpoch) (History sampleChecks sampleEpoch)
      (World.init sampleEpoch (sampleStatus 0) 2 (by decide) (.finite 1)) sampleActions := by
  refine fun w hw => ⟨?_, ?_⟩
  · exact ⟨sampleStatus_wellFormed (by decide), by cases hw; decide⟩
  · cases hw
    iterate 3
      refine fun w hw => ⟨trivial, ?_⟩
      cases hw
    refine fun w hw => ⟨?_, ?_⟩
    · exact ⟨sampleStatus_wellFormed (by decide), by cases hw; decide⟩
    · cases hw
      exact fun _ _ => ⟨trivial, fun _ _ => ⟨trivial, trivial⟩⟩

theorem samplePolls_history (w : World Bool Unit Unit) :
    Along (step sampleChecks sampleEpoch) (History sampleChecks sampleEpoch) w samplePolls :=
  fun _ _ => ⟨trivial, fun _ _ => ⟨trivial, fun _ _ => ⟨trivial, fun _ _ => ⟨trivial, fun _ _ => ⟨trivial, fun _ _ =>
    ⟨trivial, trivial⟩⟩⟩⟩⟩⟩

def sampleWorld : World Bool Unit Unit := World.init sampleEpoch (sampleStatus 0) 2 (by decide) (.finite 1)

/-- The client has the revision 2 when the pump publishes the revision 1; it is not sent back. -/
theorem capture_events_converge_sample : ∃ w u, run (step sampleChecks sampleEpoch) sampleWorld sampleActions = some w ∧
    run (step sampleChecks sampleEpoch) w samplePolls = some u ∧
    w.service.published.map (·.sourceEvent.sourceRevision) = [2, 1] ∧
    u.service.published.map (·.sourceEvent.sourceRevision) = [2, 1, 2] ∧
    Converging sampleChecks sampleEpoch w ∧ Caught sampleChecks sampleEpoch w u := by
  have hrun : ∃ w u, run (step sampleChecks sampleEpoch) sampleWorld sampleActions = some w ∧
      run (step sampleChecks sampleEpoch) w samplePolls = some u ∧
      w.service.published.map (·.sourceEvent.sourceRevision) = [2, 1] ∧
      u.service.published.map (·.sourceEvent.sourceRevision) = [2, 1, 2] ∧ w.poll = .idle ∧ w.polls < u.polls :=
    ⟨_, _, rfl, rfl, rfl, rfl, rfl, by decide⟩
  obtain ⟨w, u, hw, hu, hwas, his, hidle, hpolls⟩ := hrun
  obtain ⟨hconverging, hcaught⟩ := capture_events_converge sampleChecks sampleEpoch (fun _ => rfl) (sampleStatus 0)
    (sampleStatus_wellFormed (by decide)) 2 (by decide) (.finite 1) sampleActions w hw sampleActions_history
  exact ⟨w, u, hw, hu, hwas, his, hconverging, hcaught samplePolls u hidle hu (samplePolls_history w) hpolls⟩

end Conductor.Api.EventPump
