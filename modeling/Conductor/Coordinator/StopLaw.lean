import Conductor.Coordinator.Owner
import Conductor.Lib.Runs

/-! Which take a stop acts on. In every run, what a call does to a session it does to one that
it took as its own at a section of its own, a monitor to the one that it saw; so a stop spares the
takes that were started after it was entered wherever the sections that take the active recording
do. -/

namespace Conductor.Coordinator

open Sections Proc Runs

variable {α : Type}

namespace Call

/-- A stop request. -/
def isStop : Call → Bool
  | .requestStopCapture _ => true
  | .stopCapture _ => true
  | _ => false

/-- A stop for a session that the call itself looks up. -/
def isMonitor : Call → Bool
  | .enforceCaptureTimer => true
  | .enforceStorageReserve => true
  | _ => false

end Call

namespace Result

/-- The answer of a stop that has nothing, or no more, to stop. -/
def rests (r : Result) : Bool := r = noContent || r.idle

end Result

def Reply.settled (r : Reply) : Bool := r.replayed || r.result.rests

namespace Log

/-- The call took the session as its own; a monitor had seen it. -/
def Owns (log : Log) (n : ℕ) (session : Session) : Prop :=
  ∃ c k, log.calls[n]? = some (c, k) ∧ (n, session) ∈ log.captured ∧
    (c.isMonitor → (n, session) ∈ log.observed)

structure Grows (l m : Log) : Prop where
  calls : l.calls <+: m.calls
  captured : l.captured ⊆ m.captured
  observed : l.observed ⊆ m.observed

theorem Grows.refl (l : Log) : l.Grows l := ⟨List.prefix_rfl, fun _ h => h, fun _ h => h⟩

variable {l m : Log}

theorem Grows.trans {o : Log} (h : l.Grows m) (h' : m.Grows o) : l.Grows o :=
  ⟨h.calls.trans h'.calls, fun _ hx => h'.captured (h.captured hx), fun _ hx => h'.observed (h.observed hx)⟩

theorem Grows.call (h : l.Grows m) {n : ℕ} {c : Call × ℕ} (hc : l.calls[n]? = some c) : m.calls[n]? = some c := by
  obtain ⟨rest, hrest⟩ := h.calls
  rw [← hrest, List.getElem?_append_left (List.getElem?_eq_some_iff.1 hc).1]
  exact hc

theorem Owns.grows {n : ℕ} {session : Session} (h : l.Owns n session) (hg : l.Grows m) : m.Owns n session := by
  obtain ⟨c, k, hc, hcaptured, hobserved⟩ := h
  exact ⟨c, k, hg.call hc, hg.captured hcaptured, fun hm => hg.observed (hobserved hm)⟩

end Log

/-- What a thread that has not begun may act on is owned. -/
def Job.Owned (log : Log) : Job → Prop
  | .stop call _ session => log.Owns call session
  | .resume _ _ => True
  | .failure call session => ∀ n, call = some n → log.Owns n session

theorem Job.Owned.grows {l m : Log} {job : Job} (h : job.Owned l) (hg : l.Grows m) : job.Owned m := by
  cases job with
  | stop call command session => exact Log.Owns.grows h hg
  | resume call session => trivial
  | failure call session => exact fun n hn => (h n hn).grows hg

/-- The invariant of the runs. -/
structure Flow.Lawful (flow : Flow) : Prop where
  acts : ∀ a ∈ flow.log.acts, flow.log.Owns a.call a.session
  jobs : ∀ job ∈ flow.jobs, job.Owned flow.log
  once : ∀ n p q, (n, p) ∈ flow.log.observed → (n, q) ∈ flow.log.observed → p = q
  entered : ∀ n p, (n, p) ∈ flow.log.observed → n < flow.log.calls.length

/-! ### What the threads do to the log -/

/-- A step that keeps the invariant and in which no monitor sees a session. -/
structure Moves (s t : Shared) : Prop where
  grows : s.flow.log.Grows t.flow.log
  lawful : s.flow.Lawful → t.flow.Lawful
  observed : t.flow.log.observed = s.flow.log.observed

/-- What a thread relies on: nobody else sees a session in its name. -/
structure Others (id : Option ℕ) (s t : Shared) : Prop where
  grows : s.flow.log.Grows t.flow.log
  lawful : s.flow.Lawful → t.flow.Lawful
  observed : ∀ n p, id = some n → (n, p) ∈ t.flow.log.observed → (n, p) ∈ s.flow.log.observed

structure Own (id : Option ℕ) (s t : Shared) : Prop where
  grows : s.flow.log.Grows t.flow.log
  lawful : s.flow.Lawful → t.flow.Lawful
  observed : ∀ n p, (n, p) ∈ t.flow.log.observed → (n, p) ∈ s.flow.log.observed ∨ id = some n

/-- Two threads are not of one call. -/
def Apart (i j : Option ℕ) : Prop := ∀ n, i = some n → j ≠ some n

variable {s : Shared} {n : ℕ} {r : Except Error α × Shared} {c : Call} {t : Shared}

theorem Moves.own (h : Moves s t) (id : Option ℕ) : Own id s t :=
  ⟨h.grows, h.lawful, fun n p hp => .inl (by rwa [h.observed] at hp)⟩

theorem Moves.others (h : Moves s t) (id : Option ℕ) : Others id s t :=
  ⟨h.grows, h.lawful, fun n p _ hp => by rwa [h.observed] at hp⟩

theorem others_rely (id : Option ℕ) : Rely (Others id) where
  refl _ := ⟨.refl _, fun h => h, fun _ _ _ h => h⟩
  trans _ _ _ h h' :=
    ⟨h.grows.trans h'.grows, fun hs => h'.lawful (h.lawful hs),
      fun n p hn hp => h.observed n p hn (h'.observed n p hn hp)⟩

theorem stop_discipline : Pool.Discipline Others Own Apart where
  rely := others_rely
  compatible i j s t hapart h := by
    refine ⟨h.grows, h.lawful, fun n p hn hp => ?_⟩
    rcases h.observed n p hp with hp | hi
    · exact hp
    · exact absurd hn (hapart n hi)

theorem moves_refl (s : Shared) : Moves s s := ⟨.refl _, fun h => h, rfl⟩

theorem Moves.trans {u : Shared} (h : Moves s t) (h' : Moves t u) : Moves s u :=
  ⟨h.grows.trans h'.grows, fun hs => h'.lawful (h.lawful hs), h'.observed.trans h.observed⟩

/-- The log and the jobs are as they were. -/
structure Unlogged (s t : Shared) : Prop where
  log : t.flow.log = s.flow.log
  jobs : t.flow.jobs = s.flow.jobs

theorem unlogged_refl (s : Shared) : Unlogged s s := ⟨rfl, rfl⟩

theorem Unlogged.trans {u : Shared} (h : Unlogged s t) (h' : Unlogged t u) : Unlogged s u :=
  ⟨h'.log.trans h.log, h'.jobs.trans h.jobs⟩

theorem Unlogged.moves (h : Unlogged s t) : Moves s t := by
  refine ⟨by rw [h.log]; exact .refl _, fun hs => ⟨?_, ?_, ?_, ?_⟩, by rw [h.log]⟩
  · rw [h.log]
    exact hs.acts
  · rw [h.log, h.jobs]
    exact hs.jobs
  · rw [h.log]
    exact hs.once
  · rw [h.log]
    exact hs.entered

theorem moves_act {session : Session} (h : s.flow.log.Owns n session) (effect : Effect) :
    Moves s (s.setFlow fun flow => flow.act (some n) effect session) := by
  have hgrows : s.flow.log.Grows (s.flow.act (some n) effect session).log :=
    ⟨List.prefix_rfl, fun _ hx => hx, fun _ hx => hx⟩
  refine ⟨hgrows, fun hs => ⟨fun a ha => ?_, fun job hjob => (hs.jobs job hjob).grows hgrows, hs.once, hs.entered⟩, rfl⟩
  rcases mem_concat.1 ha with ha | rfl
  · exact (hs.acts a ha).grows hgrows
  · exact h.grows hgrows

theorem moves_job (job : Job) (hlog : t.flow.log = s.flow.log) (hjobs : t.flow.jobs = s.flow.jobs ++ [job])
    (h : job.Owned s.flow.log) : Moves s t := by
  refine ⟨by rw [hlog]; exact .refl _, fun hs => ⟨?_, fun j hj => ?_, ?_, ?_⟩, by rw [hlog]⟩
  · rw [hlog]
    exact hs.acts
  · rw [hlog]
    rw [hjobs] at hj
    rcases mem_concat.1 hj with hj | rfl
    · exact hs.jobs j hj
    · exact h
  · rw [hlog]
    exact hs.once
  · rw [hlog]
    exact hs.entered

theorem moves_capture (s : Shared) (n : ℕ) (session : Option Session) :
    Moves s (s.setFlow fun flow => flow.capture n session) := by
  have hgrows : s.flow.log.Grows (s.flow.capture n session).log :=
    ⟨List.prefix_rfl, List.subset_append_left _ _, fun _ hx => hx⟩
  exact ⟨hgrows, fun hs => ⟨fun a ha => (hs.acts a ha).grows hgrows, fun job hjob => (hs.jobs job hjob).grows hgrows,
    hs.once, hs.entered⟩, rfl⟩

theorem mem_capture (flow : Flow) (n : ℕ) (session : Session) :
    (n, session) ∈ (flow.capture n (some session)).log.captured :=
  List.mem_append_right _ (List.mem_singleton.2 rfl)

/-! ### Sections that keep the log -/

def StaysUnlogged (f : Shared → Outcomes α) : Prop := ∀ s, ∀ r ∈ f s, Unlogged s r.2

theorem StaysUnlogged.after {f : Shared → Outcomes α} (hf : StaysUnlogged f)
    (hr : r ∈ f t) (h : Unlogged s t) : Unlogged s r.2 := h.trans (hf t r hr)

theorem unlogged_pass {a : α} (hr : r ∈ pass a t) (h : Unlogged s t) : Unlogged s r.2 := by
  rw [mem_pass.1 hr]
  exact h

theorem unlogged_fail {e : Error} (hr : r ∈ fail e t) (h : Unlogged s t) : Unlogged s r.2 := by
  rw [mem_fail.1 hr]
  exact h

theorem unlogged_thenDo {β : Type} {l : Outcomes α} {f : α → Shared → Outcomes β}
    {r : Except Error β × Shared} (hr : r ∈ thenDo l f) (hl : ∀ o ∈ l, Unlogged s o.2)
    (hf : ∀ a, StaysUnlogged (f a)) : Unlogged s r.2 := by
  rcases mem_thenDo.1 hr with ⟨a, t, ht, hr⟩ | ⟨e, t, ht, rfl⟩
  · exact (hl _ ht).trans (hf a t r hr)
  · exact hl _ ht

theorem unlogged_commit (w : Write) (s : Shared) : Unlogged s (w.commit s) := by
  constructor
  · simp only [Write.commit]
    split
    · rfl
    · rfl
  · simp only [Write.commit]
    split
    · rfl
    · rfl

theorem unlogged_outcomes (w : Write) : StaysUnlogged w.outcomes := by
  intro s r hr
  simp only [Write.outcomes] at hr
  split at hr
  · exact unlogged_pass hr (unlogged_refl s)
  · rcases List.mem_append.1 hr with hr | hr
    · exact unlogged_pass hr (unlogged_commit w s)
    · exact unlogged_fail hr (unlogged_refl s)

theorem unlogged_persistNow : StaysUnlogged persistNow := fun s _ hr =>
  (unlogged_outcomes (localStateWrite s).1).after hr ⟨rfl, rfl⟩

theorem unlogged_rememberCommand (n : ℕ) (scope : Scope) (command : Command) (result : Result) :
    StaysUnlogged (rememberCommand n scope command result) := fun _ _ hr => unlogged_persistNow.after hr ⟨rfl, rfl⟩

theorem unlogged_idempotent {operation : Operation} {command : Command} {execute : Shared → Outcomes Result}
    (hexecute : StaysUnlogged execute) : StaysUnlogged (idempotent n operation command execute) := by
  intro s r hr
  simp only [idempotent] at hr
  split at hr
  · exact unlogged_fail hr (unlogged_refl s)
  split at hr
  · exact unlogged_fail hr (unlogged_refl s)
  split at hr
  · split at hr
    · exact unlogged_fail hr (unlogged_refl s)
    · split at hr
      · exact unlogged_pass hr (unlogged_refl s)
      · exact unlogged_thenDo hr (unlogged_persistNow s) fun _ t _ hr => unlogged_pass hr (unlogged_refl t)
  · split at hr
    · exact unlogged_fail hr (unlogged_refl s)
    · refine unlogged_thenDo hr (hexecute s) fun result t o ho => ?_
      refine unlogged_thenDo ho (fun o ho => ?_) fun _ u _ hu => unlogged_pass hu (unlogged_refl u)
      exact (unlogged_rememberCommand n _ command result).after ho ⟨rfl, rfl⟩

theorem unlogged_startCapture : StaysUnlogged startCapture := by
  intro s r hr
  simp only [startCapture] at hr
  split at hr
  · exact unlogged_fail hr (unlogged_refl s)
  -- a start that fails later gives the recording up
  have habandoned : ∀ (t : Shared) (o : Except Error Result × Shared), Unlogged s t →
      o ∈ thenDo (persistNow (t.setFlow fun flow => { flow with active := none, captureTimer := none }))
        (fun _ => fail (.provider "source_start_failed")) → Unlogged s o.2 := by
    intro t o ht ho
    refine unlogged_thenDo ho (fun o ho => ?_) fun _ u _ hu => unlogged_fail hu (unlogged_refl u)
    exact unlogged_persistNow.after ho ⟨ht.log, ht.jobs⟩
  rcases List.mem_append.1 hr with hr | hr
  · exact unlogged_fail hr (unlogged_refl s)
  · obtain ⟨⟨o, t⟩, hot, hr⟩ := List.mem_flatMap.1 hr
    have ht : Unlogged s t := by
      rcases List.mem_append.1 hot with hot | hot
      · exact unlogged_pass hot ⟨rfl, rfl⟩
      · exact unlogged_persistNow.after hot ⟨rfl, rfl⟩
    cases o with
    | error e => exact habandoned t r ht hr
    | ok u =>
      rcases List.mem_append.1 hr with hr | hr
      · obtain ⟨timer, -, hr⟩ := List.mem_flatMap.1 hr
        obtain ⟨body, -, rfl⟩ := List.mem_map.1 hr
        exact ⟨ht.log, ht.jobs⟩
      · exact habandoned t r ht hr

theorem unlogged_setCameraFocus (result : Result) : StaysUnlogged (setCameraFocus result) := by
  intro s r hr
  rcases List.mem_append.1 hr with hr | hr
  · exact unlogged_fail hr (unlogged_refl s)
  · exact unlogged_pass hr (unlogged_refl s)

theorem unlogged_deleteSessions (result : Result) : StaysUnlogged (deleteSessions result) := by
  intro s r hr
  simp only [deleteSessions] at hr
  split at hr
  · exact unlogged_fail hr (unlogged_refl s)
  split at hr
  · exact unlogged_fail hr (unlogged_refl s)
  rcases List.mem_append.1 hr with hr | hr
  · exact unlogged_fail hr (unlogged_refl s)
  · exact unlogged_pass hr (unlogged_refl s)

/-! ### What the calls know -/

/-- The call of the number. -/
def Entered (n : ℕ) (c : Call) (s : Shared) : Prop := ∃ k, s.flow.log.calls[n]? = some (c, k)

def Log.Claims (log : Log) (n : ℕ) : Prop := ∃ session, (n, session) ∈ log.captured

theorem entered_stable (id : Option ℕ) (n : ℕ) (c : Call) : Stable (Others id) (Entered n c) := by
  rintro s t ⟨k, hk⟩ h
  exact ⟨k, h.grows.call hk⟩

theorem Moves.entered (h : Moves s t) (hs : Entered n c s) : Entered n c t := by
  obtain ⟨k, hk⟩ := hs
  exact ⟨k, h.grows.call hk⟩

theorem owns_capture (hs : Entered n c s) (hc : c.isMonitor = false)
    (session : Session) : (s.flow.capture n (some session)).log.Owns n session := by
  obtain ⟨k, hk⟩ := hs
  refine ⟨c, k, hk, mem_capture s.flow n session, fun hm => ?_⟩
  rw [hc] at hm
  cases hm

section Programs

variable {id : Option ℕ} {P : Shared → Prop}

theorem stop_quiet (id : Option ℕ) : Quiet (Others id) (Own id) where
  rely := others_rely id
  guarantee _ _ h := (Unlogged.moves ⟨h.log, h.jobs⟩).own id
  others _ _ h := (Unlogged.moves ⟨h.log, h.jobs⟩).others id

variable {f : Shared → Outcomes α} {n : ℕ} {session : Session}

theorem keeps_moves (hP : Stable (Others id) P)
    (h : ∀ s, P s → ∀ r ∈ f s, Moves s r.2) : Keeps (Others id) (Own id) P (.critical f) := by
  refine keeps_critical hP fun s hs r hr => ?_
  have hmoves := h s hs r hr
  exact ⟨hmoves.own id, hP s _ hs (hmoves.others id)⟩

theorem keeps_unlogged (hP : Stable (Others id) P) (h : StaysUnlogged f) :
    Keeps (Others id) (Own id) P (.critical f) := keeps_moves hP fun s _ r hr => (h s r hr).moves

theorem keeps_unlogged_update (hP : Stable (Others id) P) {f : Shared → Shared} (h : ∀ s, Unlogged s (f s)) :
    Keeps (Others id) (Own id) P (Proc.update f : Program Unit) := by
  refine triple_update hP hP fun s hs => ?_
  have hmoves := (h s).moves
  exact ⟨hmoves.own id, hP s _ hs (hmoves.others id)⟩

theorem keeps_persistLocalState (hP : Stable (Others id) P) : Keeps (Others id) (Own id) P persistLocalState := by
  refine Keeps.bind (others_rely id) (keeps_unlogged hP fun s r hr => ?_) fun w => ?_
  · exact unlogged_pass hr ⟨rfl, rfl⟩
  · exact keeps_unlogged hP (unlogged_outcomes w)

theorem stop_owner (hP : Stable (Others id) P)
    (h : ∀ s, P s → s.flow.log.Owns n session) : Owner (Others id) (Own id) P (some n) session where
  quiet := stop_quiet id
  stable := hP
  persist := keeps_persistLocalState hP
  act s effect hs := by
    have hmoves := moves_act (h s hs) effect
    exact ⟨hmoves.own id, hP s _ hs (hmoves.others id)⟩
  job s t hs _ hlog hjobs := by
    have howned : Job.Owned s.flow.log (.failure (some n) session) := by
      intro m hm
      cases hm
      exact h s hs
    have hmoves := moves_job _ hlog hjobs howned
    exact ⟨hmoves.own id, hP s _ hs (hmoves.others id)⟩

/-- The failure that a source reports is nobody's stop. -/
theorem source_owner (hP : Stable (Others id) P) (session : Session) :
    Owner (Others id) (Own id) P none session where
  quiet := stop_quiet id
  stable := hP
  persist := keeps_persistLocalState hP
  act s effect hs := by
    have hmoves := (unlogged_refl s).moves
    exact ⟨hmoves.own id, hs⟩
  job s t hs _ hlog hjobs := by
    have hmoves := moves_job (.failure none session) hlog hjobs (by rintro m ⟨⟩)
    exact ⟨hmoves.own id, hP s _ hs (hmoves.others id)⟩

/-! ### `request_stop_capture` -/

theorem triple_retryCompletedStopReceipt (hP : Stable (Others id) P) (command : Command) (wait : Bool) :
    Triple (Others id) (Own id) P (retryCompletedStopReceipt command wait)
      (fun o s => P s ∧ ∀ reply, o = some reply → reply.replayed) fun _ => P := by
  have hR := others_rely id
  have hQ : ∀ o : Option Reply, Stable (Others id) fun s => P s ∧ ∀ reply, o = some reply → reply.replayed :=
    fun o s t hs ht => ⟨hP s t hs.1 ht, hs.2⟩
  refine triple_bind hR (keeps_unlogged hP fun s r hr => ?_) fun previous => ?_
  · simp only [retrySection] at hr
    split at hr
    · exact unlogged_fail hr (unlogged_refl s)
    split at hr
    · exact unlogged_pass hr (unlogged_refl s)
    split at hr
    · exact unlogged_pass hr (unlogged_refl s)
    split at hr
    · exact unlogged_fail hr (unlogged_refl s)
    split at hr
    · split at hr
      · cases hr
      · exact unlogged_fail hr (unlogged_refl s)
    · exact unlogged_pass hr ⟨rfl, rfl⟩
  · cases previous with
    | none => exact triple_ret (hQ none) fun s hs => ⟨hs, by simp⟩
    | some previous =>
      refine triple_bind hR (keeps_commitStopReplay (stop_quiet id) hP (keeps_persistLocalState hP) _) fun _ => ?_
      refine triple_ret (hQ _) fun s hs => ⟨hs, fun reply hreply => ?_⟩
      obtain ⟨receipt, -, rfl⟩ := Option.map_eq_some_iff.1 hreply
      rfl

/-- What the answers of a request are, in terms of what it took as its own. -/
def Prepared.Ends (n : ℕ) (log : Log) : Prepared → Prop
  | .reply r => r.replayed
  | .receipt result retry _ => retry ∨ result.rests ∨ log.Claims n
  | .worker _ _ _ => log.Claims n
  | .resume r _ _ => r.settled

/-- An outcome of a section that prepares a request. -/
def Prepares (n : ℕ) (s : Shared) (r : Except Error Prepared × Shared) : Prop :=
  Moves s r.2 ∧ ∀ prepared, r.1 = .ok prepared → prepared.Ends n r.2.flow.log

variable {r : Except Error Prepared × Shared} {s : Shared} {command : Command} {c : Call}
  {retryReceipt : Option Result} {expected : Option Session}

theorem prepares_fail {e : Error} (hr : r ∈ fail e s) : Prepares n s r := by
  rw [mem_fail.1 hr]
  exact ⟨moves_refl s, fun _ h => by cases h⟩

theorem captureStatus_idle {flow : Flow} (h : flow.active = none) {body : Body} (hbody : body ∈ captureStatus flow) :
    (⟨202, some body⟩ : Result).rests := by
  simp only [captureStatus, h, List.mem_singleton] at hbody
  rw [hbody]
  rfl

theorem prepares_receiptCommit {result : Result} {retry : Bool}
    (hr : r ∈ prepareStopReceiptCommit n command result retry t) (h : Moves s t)
    (hends : retry ∨ result.rests ∨ t.flow.log.Claims n) : Prepares n s r := by
  rw [mem_pass.1 hr]
  refine ⟨h.trans (Unlogged.moves ⟨rfl, rfl⟩), fun prepared hp => ?_⟩
  cases hp
  exact hends

theorem prepares_pendingSafeSwap {replay : Option Result} (hidle : replay.isSome ∨ s.flow.active = none)
    (hr : r ∈ requestPendingSafeSwap n command session replay s) : Prepares n s r := by
  simp only [requestPendingSafeSwap] at hr
  rcases List.mem_append.1 hr with hr | hr
  · rcases List.mem_append.1 hr with hr | hr
    · exact prepares_fail hr
    · exact prepares_fail hr
  · obtain ⟨body, hbody, rfl⟩ := List.mem_map.1 hr
    refine ⟨moves_job (.resume n session) rfl rfl trivial, fun prepared hp => ?_⟩
    cases hp
    cases replay with
    | some result => rfl
    | none =>
      have hactive := hidle.resolve_left (by simp)
      simp only [Prepared.Ends, Reply.settled, Option.getD_none, captureStatus_idle hactive hbody, Bool.or_true]

theorem prepares_worker (hs : Entered n c s) (hc : c.isMonitor = false)
    (hr : r ∈ prepareWorker n command session retryReceipt s) : Prepares n s r := by
  simp only [prepareWorker] at hr
  rcases List.mem_append.1 hr with hr | hr
  · rcases List.mem_append.1 hr with hr | hr
    · split at hr
      · exact prepares_fail hr
      · cases hr
    · exact prepares_fail hr
  · obtain ⟨body, -, rfl⟩ := List.mem_map.1 hr
    have howns := owns_capture hs hc session
    let captured := s.setFlow fun flow => flow.capture n (some session)
    let acted := captured.setFlow fun flow => flow.act (some n) .stopWorker session
    have hacted : Moves s acted := (moves_capture s n (some session)).trans (moves_act howns .stopWorker)
    refine ⟨hacted.trans (moves_job (.stop n command session) rfl rfl ?_), fun prepared hp => ?_⟩
    · exact howns.grows (moves_act (s := captured) howns .stopWorker).grows
    · cases hp
      exact ⟨session, mem_capture s.flow n session⟩

theorem prepares_new (hs : Entered n c s) (hc : c.isMonitor = false)
    (hr : r ∈ prepareNew n command retryReceipt s) : Prepares n s r := by
  simp only [prepareNew] at hr
  split at hr
  · exact prepares_fail hr
  split at hr
  · split at hr
    · exact prepares_fail hr
    · obtain ⟨body, hbody, hr⟩ := List.mem_flatMap.1 hr
      refine prepares_receiptCommit hr (moves_capture s n s.flow.active) (.inr ?_)
      cases hactive : s.flow.active with
      | none => exact .inl (captureStatus_idle hactive hbody)
      | some session =>
        refine .inr ⟨session, ?_⟩
        simp only [Shared.setFlow, hactive]
        exact mem_capture s.flow n session
  split at hr
  · exact prepares_fail hr
  split at hr
  · exact prepares_worker hs hc hr
  · next hactive =>
    split at hr
    · exact prepares_pendingSafeSwap (.inr hactive) hr
    · exact prepares_receiptCommit hr (moves_refl s) (.inr (.inl rfl))

theorem prepares_request (hs : Entered n c s) (hc : c.isMonitor = false) (hr : r ∈ prepareStopRequest n command s) :
    Prepares n s r := by
  have hreply : ∀ (receipt : Receipt) (r : Except Error Prepared × Shared), r ∈ pass (.reply receipt.replay) s →
      Prepares n s r := by
    intro receipt r hr
    rw [mem_pass.1 hr]
    exact ⟨moves_refl s, fun prepared hp => by cases hp; rfl⟩
  have hreplay : ∀ (receipt : Receipt) (r : Except Error Prepared × Shared),
      r ∈ prepareStopRequest.prepareReplay n command receipt s → Prepares n s r := by
    intro receipt r hr
    simp only [prepareStopRequest.prepareReplay] at hr
    split at hr
    · exact prepares_new hs hc hr
    · exact hreply receipt r hr
  simp only [prepareStopRequest] at hr
  split at hr
  · exact prepares_fail hr
  split at hr
  · split at hr
    · exact prepares_fail hr
    · exact prepares_new hs hc hr
  · next receipt _ =>
    split at hr
    · exact prepares_fail hr
    split at hr
    · split at hr
      · exact hreply receipt r hr
      · exact prepares_fail hr
    split at hr
    · split at hr
      · exact prepares_fail hr
      · exact prepares_receiptCommit hr (moves_refl s) (.inl rfl)
    split at hr
    · split at hr
      · exact prepares_pendingSafeSwap (.inl rfl) hr
      · exact hreplay receipt r hr
    · exact hreplay receipt r hr

theorem keeps_settle (hP : Stable (Others id) P) {f : Flow → Flow}
    (hf : ∀ flow, (f flow).log = flow.log ∧ (f flow).jobs = flow.jobs) :
    Keeps (Others id) (Own id) P (settle n f) :=
  keeps_unlogged_update hP fun s => ⟨(hf s.flow).1, (hf s.flow).2⟩

theorem keeps_finishStopAcceptance (hP : Stable (Others id) P)
    (hs : ∀ s, P s → Entered n c s) (hc : c.isMonitor = false) {old : Commands} {undo accepted : Flow → Flow} {persist : Bool}
    (hundo : ∀ flow, (undo flow).log = flow.log ∧ (undo flow).jobs = flow.jobs)
    (haccepted : ∀ flow, (accepted flow).log = flow.log ∧ (accepted flow).jobs = flow.jobs) :
    Keeps (Others id) (Own id) P (finishStopAcceptance n old undo accepted persist) := by
  have hR := others_rely id
  refine Keeps.attempt hR ?_ fun e => ?_
  · cases persist with
    | true => exact (keeps_persistLocalState hP).bind hR fun _ => keeps_settle hP haccepted
    | false => exact keeps_settle hP haccepted
  · let M (failed : Option Session) (s : Shared) : Prop := P s ∧ ∀ session, failed = some session →
      s.flow.log.Owns n session
    have hM : ∀ failed, Stable (Others id) (M failed) := fun failed s t hs ht =>
      ⟨hP s t hs.1 ht, fun session h => (hs.2 session h).grows ht.grows⟩
    refine triple_bind (M := M) hR ?_ fun failed => ?_
    · refine triple_critical hP hM (fun _ => hP) fun s hPs r hr => ?_
      rw [mem_pass.1 hr]
      set failed := if s.flow.pendingSourceFailure then s.flow.active else none
      let undone : Shared := ⟨s.receipts.restore old, undo s.flow⟩
      have hundone : Moves s undone := Unlogged.moves ⟨(hundo s.flow).1, (hundo s.flow).2⟩
      have hmoves := hundone.trans (moves_capture undone n failed)
      refine ⟨hmoves.own id, hP s _ hPs (hmoves.others id), fun session h => ?_⟩
      rw [h]
      exact owns_capture (hundone.entered (hs s hPs)) hc session
    · have hend : Keeps (Others id) (Own id) P (do settle n (fun flow => flow); .raise e : Program Unit) :=
        Keeps.bind hR (keeps_settle hP fun _ => ⟨rfl, rfl⟩) fun _ => keeps_raise hP e
      cases failed with
      | none => exact Triple.mono hend (fun s hs => hs.1) (fun _ _ hs => hs) fun _ _ hs => hs
      | some session =>
        have howner : Owner (Others id) (Own id) (M (some session)) (some n) session :=
          stop_owner (hM _) fun s hs => hs.2 session rfl
        have hretain := (howner.keeps_retain false true).attempt hR fun _ => keeps_pure (hM _) ()
        refine triple_bind (M := fun _ => P) hR ?_ fun _ => hend
        exact Triple.mono hretain (fun _ hs => hs) (fun _ s hs => hs.1) fun _ s hs => hs.1

/-- How a call may end. -/
def Call.Ends (c : Call) (n : ℕ) (log : Log) : Done → Prop
  | .reply r => c.isStop ∨ c.isMonitor → r.settled ∨ log.Claims n
  | .nothing => True
  | .again => ∃ command, c = .requestStopCapture command

def Finished (n : ℕ) (c : Call) (d : Done) (s : Shared) : Prop := Entered n c s ∧ c.Ends n s.flow.log d

theorem Log.Claims.grows {l m : Log} (h : l.Claims n) (hg : l.Grows m) : m.Claims n := by
  obtain ⟨session, hs⟩ := h
  exact ⟨session, hg.captured hs⟩

theorem finished_stable (id : Option ℕ) (n : ℕ) (c : Call) (d : Done) : Stable (Others id) (Finished n c d) := by
  rintro s t ⟨hs, hends⟩ h
  refine ⟨entered_stable id n c s t hs h, ?_⟩
  cases d with
  | reply r => exact fun hc => (hends hc).imp_right fun hclaims => hclaims.grows h.grows
  | nothing => trivial
  | again => exact hends

theorem finished_settled {r : Reply} (hs : Entered n c s) (h : r.settled) :
    Finished n c (.reply r) s := ⟨hs, fun _ => .inl h⟩

theorem settled_of_replayed {r : Reply} (h : r.replayed) : r.settled := by
  rw [Reply.settled, h]
  rfl

theorem triple_requestStopCapture (n : ℕ) (command : Command) :
    Triple (Others id) (Own id) (Entered n (.requestStopCapture command)) (requestStopCapture n command)
      (Finished n (.requestStopCapture command)) fun _ => Entered n (.requestStopCapture command) := by
  have hR := others_rely id
  set c := Call.requestStopCapture command with hcall
  have hc : c.isMonitor = false := rfl
  have hP := entered_stable id n c
  have hQ := finished_stable id n c
  let M (prepared : Prepared) (s : Shared) : Prop := Entered n c s ∧ prepared.Ends n s.flow.log
  have hM : ∀ prepared, Stable (Others id) (M prepared) := by
    rintro prepared s t ⟨hs, hends⟩ h
    refine ⟨hP s t hs h, ?_⟩
    cases prepared with
    | reply r => exact hends
    | receipt result retry old => exact hends.imp_right (.imp_right fun hclaims => hclaims.grows h.grows)
    | worker r persist old => exact hends.grows h.grows
    | resume r persist old => exact hends
  refine triple_bind hR (triple_retryCompletedStopReceipt hP command false) fun o => ?_
  cases o with
  | some reply => exact triple_ret (hQ _) fun s hs => finished_settled hs.1 (settled_of_replayed (hs.2 reply rfl))
  | none =>
    refine Triple.mono (P := Entered n c) (E := fun _ => Entered n c) ?_ (fun s hs => hs.1) (fun _ _ hs => hs) fun _ _ hs => hs
    refine triple_bind (M := M) hR ?_ fun prepared => ?_
    · refine triple_critical hP hM (fun _ => hP) fun s hs r hr => ?_
      obtain ⟨hmoves, hends⟩ := prepares_request hs hc hr
      obtain ⟨o, t⟩ := r
      refine ⟨hmoves.own id, ?_⟩
      cases o with
      | ok prepared => exact ⟨hmoves.entered hs, hends prepared rfl⟩
      | error e => exact hmoves.entered hs
    · have hfinish : ∀ (old : Commands) (undo accepted : Flow → Flow) (persist : Bool),
          (∀ flow, (undo flow).log = flow.log ∧ (undo flow).jobs = flow.jobs) →
          (∀ flow, (accepted flow).log = flow.log ∧ (accepted flow).jobs = flow.jobs) →
          Triple (Others id) (Own id) (M prepared) (finishStopAcceptance n old undo accepted persist)
            (fun _ => M prepared) fun _ => Entered n c := by
        intro old undo accepted persist hundo haccepted
        have hkeeps : Keeps (Others id) (Own id) (M prepared) (finishStopAcceptance n old undo accepted persist) :=
          keeps_finishStopAcceptance (hM prepared) (fun s hs => hs.1) hc hundo haccepted
        exact Triple.mono hkeeps (fun _ hs => hs) (fun _ _ hs => hs) fun _ s hs => hs.1
      cases prepared with
      | reply r => exact triple_ret (hQ _) fun s hs => finished_settled hs.1 (settled_of_replayed hs.2)
      | receipt result retry old =>
        refine triple_bind hR (hfinish old _ _ true (fun _ => ⟨rfl, rfl⟩) fun _ => ⟨rfl, rfl⟩) fun _ => ?_
        cases retry with
        | true => exact triple_ret (hQ _) fun s hs => ⟨hs.1, command, rfl⟩
        | false =>
          refine triple_ret (hQ _) fun s hs => ⟨hs.1, fun _ => ?_⟩
          rcases hs.2 with h | h | h
          · cases h
          · exact .inl h
          · exact .inr h
      | worker r persist old =>
        refine triple_bind hR (hfinish old _ _ persist (fun _ => ⟨rfl, rfl⟩) fun _ => ⟨rfl, rfl⟩) fun _ => ?_
        exact triple_ret (hQ _) fun s hs => ⟨hs.1, fun _ => .inr hs.2⟩
      | resume r persist old =>
        refine triple_bind hR (hfinish old _ _ persist (fun _ => ⟨rfl, rfl⟩) fun _ => ⟨rfl, rfl⟩) fun _ => ?_
        exact triple_ret (hQ _) fun s hs => finished_settled hs.1 hs.2

/-! ### `stop_capture` -/

/-- The call, and that it saw the session it expects. -/
def Expects (n : ℕ) (c : Call) (expected : Option Session) (s : Shared) : Prop :=
  Entered n c s ∧ ∀ session, expected = some session → (n, session) ∈ s.flow.log.observed

theorem expects_stable (id : Option ℕ) (n : ℕ) (c : Call) (expected : Option Session) :
    Stable (Others id) (Expects n c expected) := by
  rintro s t ⟨hs, hobserved⟩ h
  exact ⟨entered_stable id n c s t hs h, fun session he => h.grows.observed (hobserved session he)⟩

/-- What a turn ends with, in terms of what the call took as its own. -/
def Turn.Ends (n : ℕ) (expected : Option Session) (log : Log) : Turn → Prop
  | .wait requested => ∀ session, requested = some session → (n, session) ∈ log.captured
  | .reply r => r.settled
  | .pendingReplay r => r.replayed
  | .resume => True
  | .own session => (n, session) ∈ log.captured ∧ ∀ seen, expected = some seen → seen = session

theorem Turn.Ends.grows {l m : Log} {turn : Turn} (h : turn.Ends n expected l)
    (hg : l.Grows m) : turn.Ends n expected m := by
  cases turn with
  | wait requested => exact fun session hs => hg.captured (h session hs)
  | reply r => exact h
  | pendingReplay r => exact h
  | resume => trivial
  | own session => exact ⟨hg.captured h.1, h.2⟩

/-- An outcome of a turn. -/
def Turns (n : ℕ) (expected : Option Session) (s : Shared) (r : Except Error Turn × Shared) : Prop :=
  Moves s r.2 ∧ ∀ turn, r.1 = .ok turn → turn.Ends n expected r.2.flow.log

theorem turns_fail {e : Error} {r : Except Error Turn × Shared} (hr : r ∈ fail e s) : Turns n expected s r := by
  rw [mem_fail.1 hr]
  exact ⟨moves_refl s, fun _ h => by cases h⟩

theorem turns_pass {turn : Turn} {r : Except Error Turn × Shared}
    (hr : r ∈ pass turn t) (h : Moves s t) (hends : turn.Ends n expected t.flow.log) : Turns n expected s r := by
  rw [mem_pass.1 hr]
  refine ⟨h, fun turn' hturn => ?_⟩
  cases hturn
  exact hends

/-- A turn takes nothing but what was active when the call got the lock, and what it expects. -/
theorem turns_stopTurn {requested : Option Session}
    (hrequested : ∀ session, requested = some session → (n, session) ∈ s.flow.log.captured) {l : Outcomes Turn}
    (hl : stopTurn n command expected requested s = some l) {r : Except Error Turn × Shared} (hr : r ∈ l) :
    Turns n expected s r := by
  have hanswer : ∀ o ∈ thenDo (rememberCommand n (command.scope .stop) command .noContent s)
      (fun _ => pass (.reply ⟨.noContent, false⟩)), Turns n expected s o := by
    intro o ho
    rcases mem_thenDo.1 ho with ⟨_, t, ht, ho⟩ | ⟨e, t, ht, rfl⟩
    · exact turns_pass ho (unlogged_rememberCommand n _ command _ s _ ht).moves rfl
    · exact ⟨(unlogged_rememberCommand n _ command _ s _ ht).moves, fun _ h => by cases h⟩
  have hclaimed : Moves s (s.setFlow fun flow => { flow with stopInflight := some (command.scope .stop) }) :=
    Unlogged.moves ⟨rfl, rfl⟩
  simp only [stopTurn] at hl
  split at hl
  · cases hl
    exact turns_pass hr (moves_refl s) rfl
  next hexpected =>
  split at hl
  · cases hl
    exact turns_fail hr
  split at hl
  · split at hl
    · cases hl
      exact turns_fail hr
    split at hl
    · cases hl
      exact turns_pass hr (moves_refl s) rfl
    split at hl
    · cases hl
    · cases hl
      exact turns_pass hr hclaimed rfl
  split at hl
  · cases hl
    split at hr
    · exact turns_fail hr
    · exact hanswer r hr
  next hown =>
  split at hl
  · cases hl
  split at hl
  · next session hactive =>
    cases hl
    have hreq : requested = some session := by
      simp only [hactive, Option.isSome_some, Bool.true_and, decide_eq_true_eq, not_not] at hown
      exact hown.symm
    have hexp : ∀ seen, expected = some seen → seen = session := by
      intro seen hseen
      simp only [hactive, hseen, Option.isSome_some, Bool.true_and, decide_eq_true_eq, not_not] at hexpected
      exact (Option.some.inj hexpected).symm
    exact turns_pass hr hclaimed ⟨hrequested session hreq, hexp⟩
  · split at hl
    · cases hl
      rcases List.mem_append.1 hr with hr | hr
      · exact turns_fail hr
      · exact turns_pass hr hclaimed trivial
    · cases hl
      exact hanswer r hr

theorem turns_firstTurn
    {r : Except Error Turn × Shared} (hr : r ∈ firstTurn n command expected s) : Turns n expected s r := by
  have hcapture := moves_capture s n s.flow.active
  have hrequested : ∀ session, s.flow.active = some session →
      (n, session) ∈ (s.flow.capture n s.flow.active).log.captured := by
    intro session hactive
    rw [hactive]
    exact mem_capture s.flow n session
  simp only [firstTurn] at hr
  cases hturn : stopTurn n command expected s.flow.active (s.setFlow fun flow => flow.capture n s.flow.active) with
  | none =>
    rw [hturn, Option.getD_none] at hr
    exact turns_pass hr hcapture hrequested
  | some l =>
    rw [hturn, Option.getD_some] at hr
    obtain ⟨hmoves, hends⟩ := turns_stopTurn (s := s.setFlow fun flow => flow.capture n s.flow.active) hrequested hturn hr
    exact ⟨hcapture.trans hmoves, hends⟩

theorem endRecording_rests {remember : Bool}
    {r : Except Error (Option Result) × Shared} (hr : r ∈ endRecording n command session remember s) :
    Unlogged s r.2 ∧ ∀ result, r.1 = .ok (some result) → result.rests := by
  have hcheck : ∀ o ∈ checkOwner session s, o.2 = s := by
    intro o ho
    simp only [checkOwner] at ho
    split_ifs at ho
    all_goals simp only [mem_pass, mem_fail] at ho; rw [ho]
  rcases mem_thenDo.1 hr with ⟨_, t, ht, hend⟩ | ⟨e, t, ht, rfl⟩
  · obtain rfl : t = s := hcheck _ ht
    simp only at hend
    split at hend
    · rw [mem_pass.1 hend]
      exact ⟨⟨rfl, rfl⟩, by rintro result ⟨⟩⟩
    · obtain ⟨body, hbody, rfl⟩ := List.mem_map.1 hend
      refine ⟨⟨rfl, rfl⟩, fun result hresult => ?_⟩
      cases hresult
      exact captureStatus_idle rfl hbody
  · obtain rfl : t = s := hcheck _ ht
    exact ⟨unlogged_refl t, by rintro result ⟨⟩⟩

/-- The result of a stop that finishes its recording. -/
theorem triple_finishOwned (remember : Bool) :
    Triple (Others id) (Own id) (fun s => Entered n c s ∧ s.flow.log.Owns n session)
      (finishStopCapture n command session remember) (fun r s => Entered n c s ∧ r.rests) fun _ => Entered n c := by
  have hR := others_rely id
  let P (s : Shared) : Prop := Entered n c s ∧ s.flow.log.Owns n session
  let Q (r : Result) (s : Shared) : Prop := P s ∧ r.rests
  have hP : Stable (Others id) P := fun s t hs h => ⟨entered_stable id n c s t hs.1 h, hs.2.grows h.grows⟩
  have hQ : ∀ r, Stable (Others id) (Q r) := fun r s t hs h => ⟨hP s t hs.1 h, hs.2⟩
  have howner : Owner (Others id) (Own id) P (some n) session := stop_owner hP fun s hs => hs.2
  refine Triple.mono (howner.triple_finishStopCapture (Q := Q) hQ ?_ ?_) (fun _ hs => hs) (fun r s hs => ⟨hs.1.1, hs.2⟩)
    fun _ s hs => hs.1
  · cases remember with
    | true =>
      refine triple_bind hR (keeps_unlogged hP (unlogged_rememberCommand n _ command _)) fun _ => ?_
      exact triple_ret (hQ _) fun s hs => ⟨hs, rfl⟩
    | false => exact triple_ret (hQ _) fun s hs => ⟨hs, rfl⟩
  · let M (o : Option Result) (s : Shared) : Prop := P s ∧ ∀ result, o = some result → result.rests
    have hM : ∀ o, Stable (Others id) (M o) := fun o s t hs h => ⟨hP s t hs.1 h, hs.2⟩
    refine triple_bind (M := M) hR (triple_critical hP hM (fun _ => hP) fun s hs r hr => ?_) fun result => ?_
    · obtain ⟨hunlogged, hrests⟩ := endRecording_rests hr
      have hmoves := hunlogged.moves
      refine ⟨hmoves.own id, ?_⟩
      have hPt := hP s r.2 hs (hmoves.others id)
      obtain ⟨o, t⟩ := r
      cases o with
      | ok result => exact ⟨hPt, fun r hr => hrests r (by rw [hr])⟩
      | error e => exact hPt
    · have hpersist := keeps_persistLocalState (hM result)
      refine Triple.mono (E := fun _ => M result) ?_ (fun _ hs => hs) (fun _ _ hs => hs) fun _ s hs => hs.1
      cases result with
      | none =>
        refine triple_bind hR hpersist fun _ => ?_
        refine triple_bind hR (keeps_publishSafeSwap (stop_quiet id) (hM none) hpersist) fun _ => ?_
        cases remember with
        | true =>
          refine triple_bind hR (keeps_unlogged_update (hM none) fun s => ⟨rfl, rfl⟩) fun _ => ?_
          refine triple_bind hR hpersist fun _ => ?_
          exact triple_ret (hQ _) fun s hs => ⟨hs.1, rfl⟩
        | false => exact triple_ret (hQ _) fun s hs => ⟨hs.1, rfl⟩
      | some result =>
        refine triple_bind hR hpersist fun _ => ?_
        refine triple_bind hR (keeps_change (stop_quiet id) (hM (some result)) fun flow => ?_) fun _ => ?_
        · split
          · exact ⟨rfl, rfl⟩
          · exact ⟨rfl, rfl⟩
        · exact triple_ret (hQ _) fun s hs => ⟨hs.1, hs.2 result rfl⟩

theorem triple_endTurn (hc : c.isMonitor → expected.isSome) (turn : Turn) :
    Triple (Others id) (Own id) (fun s => Expects n c expected s ∧ turn.Ends n expected s.flow.log)
      (endTurn n command turn) (Finished n c) fun _ => Entered n c := by
  have hR := others_rely id
  have hP := entered_stable id n c
  have hQ := finished_stable id n c
  cases turn with
  | wait requested => exact triple_raise hP fun s hs => hs.1.1
  | reply r => exact triple_ret (hQ _) fun s hs => finished_settled hs.1.1 hs.2
  | pendingReplay r =>
    let M (s : Shared) : Prop := Entered n c s ∧ r.replayed
    have hM : Stable (Others id) M := fun s t hs h => ⟨hP s t hs.1 h, hs.2⟩
    refine Triple.mono (P := M) (E := fun _ => M) ?_ (fun s hs => ⟨hs.1.1, hs.2⟩) (fun _ _ hs => hs) fun _ s hs => hs.1
    refine triple_bind hR (keeps_commitStopReplay (stop_quiet id) hM (keeps_persistLocalState hM) _) fun _ => ?_
    exact triple_ret (hQ _) fun s hs => finished_settled hs.1 (settled_of_replayed hs.2)
  | resume =>
    have hpersist := keeps_persistLocalState hP
    have hrelease : ∀ flow : Flow,
        (if flow.stopInflight = some (command.scope .stop) then { flow with stopInflight := none } else flow).log =
          flow.log ∧
        (if flow.stopInflight = some (command.scope .stop) then { flow with stopInflight := none } else flow).jobs =
          flow.jobs := by
      intro flow
      split
      · exact ⟨rfl, rfl⟩
      · exact ⟨rfl, rfl⟩
    refine Triple.mono (P := Entered n c) (E := fun _ => Entered n c) ?_ (fun s hs => hs.1.1) (fun _ _ hs => hs)
      fun _ _ hs => hs
    refine triple_ensure hR hQ (fun _ => hP) ?_ (fun d => triple_change (stop_quiet id) (hQ d) hrelease) fun _ =>
      triple_change (stop_quiet id) hP hrelease
    refine triple_bind hR (keeps_publishSafeSwap (stop_quiet id) hP hpersist) fun _ => ?_
    refine triple_bind hR (keeps_unlogged_update hP fun s => ⟨rfl, rfl⟩) fun _ => ?_
    refine triple_bind hR hpersist fun _ => ?_
    exact triple_ret (hQ _) fun s hs => finished_settled hs rfl
  | own session =>
    have howns : ∀ s, Expects n c expected s ∧ (Turn.own session).Ends n expected s.flow.log →
        s.flow.log.Owns n session := by
      rintro s ⟨⟨⟨k, hk⟩, hobserved⟩, hcaptured, hexpected⟩
      refine ⟨c, k, hk, hcaptured, fun hm => ?_⟩
      obtain ⟨seen, hseen⟩ := Option.isSome_iff_exists.1 (hc hm)
      have hsession := hobserved seen hseen
      rwa [hexpected seen hseen] at hsession
    refine triple_bind hR (Triple.mono (triple_finishOwned (n := n) (c := c) true)
      (fun s hs => ⟨hs.1.1, howns s hs⟩) (fun _ _ hs => hs) fun _ _ hs => hs) fun result => ?_
    refine triple_ret (hQ _) fun s hs => finished_settled hs.1 ?_
    rw [Reply.settled, hs.2]
    rfl

theorem triple_stopLoop (hc : c.isMonitor → expected.isSome) :
    Triple (Others id) (Own id) (Expects n c expected) (stopLoop n command expected) (Finished n c)
      fun _ => Entered n c := by
  have hR := others_rely id
  have hP := expects_stable id n c expected
  have hE := entered_stable id n c
  let M (turn : Turn) (s : Shared) : Prop := Expects n c expected s ∧ turn.Ends n expected s.flow.log
  have hM : ∀ turn, Stable (Others id) (M turn) := fun turn s t hs h => ⟨hP s t hs.1 h, hs.2.grows h.grows⟩
  have hgives : ∀ (s : Shared) (r : Except Error Turn × Shared), Expects n c expected s → Turns n expected s r →
      Own id s r.2 ∧ Gives M (fun _ => Entered n c) r := by
    rintro s ⟨o, t⟩ hs ⟨hmoves, hends⟩
    have ht := hP s t hs (hmoves.others id)
    refine ⟨hmoves.own id, ?_⟩
    cases o with
    | ok turn => exact ⟨ht, hends turn rfl⟩
    | error e => exact ht.1
  refine triple_bind (M := M) hR ?_ fun turn => ?_
  · exact triple_critical hP hM (fun _ => hE) fun s hs r hr => hgives s r hs (turns_firstTurn hr)
  · cases turn with
    | wait requested =>
      refine triple_bind (M := M) hR ?_ fun turn => triple_endTurn hc turn
      refine triple_critical (hM (.wait requested)) hM (fun _ => hE) fun s hs r hr => hgives s r hs.1 ?_
      cases hturn : stopTurn n command expected requested s with
      | none =>
        rw [nextTurn, hturn] at hr
        cases hr
      | some l =>
        rw [nextTurn, hturn] at hr
        exact turns_stopTurn hs.2 hturn hr
    | reply r => exact triple_endTurn hc (.reply r)
    | pendingReplay r => exact triple_endTurn hc (.pendingReplay r)
    | resume => exact triple_endTurn hc .resume
    | own session => exact triple_endTurn hc (.own session)

theorem triple_stopCapture (hc : c.isMonitor → expected.isSome) :
    Triple (Others id) (Own id) (Expects n c expected) (stopCapture n command expected) (Finished n c)
      fun _ => Entered n c := by
  have hR := others_rely id
  have hP := expects_stable id n c expected
  cases expected with
  | some seen => exact triple_stopLoop hc
  | none =>
    have hretry := triple_retryCompletedStopReceipt hP command true
    refine triple_bind hR (Triple.mono hretry (fun _ hs => hs) (fun _ _ hs => hs) fun _ s hs => hs.1) fun o => ?_
    cases o with
    | some reply =>
      exact triple_ret (finished_stable id n c _) fun s hs =>
        finished_settled hs.1.1 (settled_of_replayed (hs.2 reply rfl))
    | none => exact Triple.mono (triple_stopLoop hc) (fun s hs => hs.1) (fun _ _ hs => hs) fun _ _ hs => hs

end Programs

/-! ### The threads -/

/-- A call that has seen no session yet. -/
def Unseen (n : ℕ) (c : Call) (s : Shared) : Prop := Entered n c s ∧ ∀ session, (n, session) ∉ s.flow.log.observed

theorem unseen_stable (n : ℕ) (c : Call) : Stable (Others (some n)) (Unseen n c) := by
  rintro s t ⟨hs, hunseen⟩ h
  exact ⟨entered_stable (some n) n c s t hs h, fun session hsession =>
    hunseen session (h.observed n session rfl hsession)⟩

theorem own_observe (hs : Unseen n c s) (session : Session) :
    Own (some n) s (s.setFlow fun flow => flow.observe n session) := by
  obtain ⟨⟨k, hk⟩, hunseen⟩ := hs
  have hgrows : s.flow.log.Grows (s.flow.observe n session).log :=
    ⟨List.prefix_rfl, fun _ hx => hx, List.subset_append_left _ _⟩
  refine ⟨hgrows, fun h => ⟨fun a ha => (h.acts a ha).grows hgrows, fun job hjob => (h.jobs job hjob).grows hgrows,
    fun m p q hp hq => ?_, fun m p hp => ?_⟩, fun m p hp => ?_⟩
  · rcases mem_concat.1 hp with hold | hnew
    · rcases mem_concat.1 hq with hold' | hnew
      · exact h.once m p q hold hold'
      · obtain ⟨rfl, rfl⟩ := Prod.mk.inj hnew
        exact absurd hold (hunseen p)
    · obtain ⟨rfl, rfl⟩ := Prod.mk.inj hnew
      rcases mem_concat.1 hq with hold | hnew
      · exact absurd hold (hunseen q)
      · exact (Prod.mk.inj hnew).2.symm
  · rcases mem_concat.1 hp with hp | hp
    · exact h.entered m p hp
    · obtain ⟨rfl, rfl⟩ := Prod.mk.inj hp
      exact (List.getElem?_eq_some_iff.1 hk).1
  · rcases mem_concat.1 hp with hp | hp
    · exact .inl hp
    · exact .inr (congrArg some (Prod.mk.inj hp).1.symm)

/-- A monitor looks: it sees the active session, or it goes on without. -/
theorem triple_see {f : Shared → Outcomes (Option Session)} (hf : ∀ s, ∀ r ∈ f s, r = (.ok none, s) ∨
      ∃ session, r = (.ok (some session), s.setFlow fun flow => flow.observe n session)) :
    Triple (Others (some n)) (Own (some n)) (Unseen n c) (.critical f) (Expects n c) fun _ => Entered n c := by
  refine triple_critical (unseen_stable n c) (expects_stable _ n c) (fun _ => entered_stable _ n c) fun s hs r hr => ?_
  rcases hf s r hr with rfl | ⟨session, rfl⟩
  · exact ⟨(moves_refl s).own _, hs.1, by rintro session ⟨⟩⟩
  · refine ⟨own_observe hs session, hs.1, fun seen hseen => ?_⟩
    cases hseen
    exact List.mem_append_right _ (List.mem_singleton.2 rfl)

theorem triple_enforceCaptureTimer (n : ℕ) :
    Triple (Others (some n)) (Own (some n)) (Unseen n .enforceCaptureTimer) (enforceCaptureTimer n)
      (Finished n .enforceCaptureTimer) fun _ => Entered n .enforceCaptureTimer := by
  refine triple_bind (others_rely _) (triple_see fun s r hr => ?_) fun expired => ?_
  · split at hr
    · split at hr
      · rcases List.mem_append.1 hr with hr | hr
        · exact .inr ⟨_, mem_pass.1 hr⟩
        · exact .inl (mem_pass.1 hr)
      · exact .inl (mem_pass.1 hr)
    · exact .inl (mem_pass.1 hr)
  · cases expired with
    | some session => exact triple_stopCapture fun _ => rfl
    | none => exact triple_ret (finished_stable _ n _ _) fun s hs => ⟨hs.1, trivial⟩

theorem triple_enforceStorageReserve (n : ℕ) :
    Triple (Others (some n)) (Own (some n)) (Unseen n .enforceStorageReserve) (enforceStorageReserve n)
      (Finished n .enforceStorageReserve) fun _ => Entered n .enforceStorageReserve := by
  have hR := others_rely (some n)
  refine triple_bind hR (triple_see fun s r hr => ?_) fun seen => ?_
  · split at hr
    · split at hr
      · exact .inl (mem_pass.1 hr)
      · exact .inr ⟨_, mem_pass.1 hr⟩
    · exact .inl (mem_pass.1 hr)
  · have hdone : ∀ s, Expects n .enforceStorageReserve seen s → Finished n .enforceStorageReserve .nothing s :=
      fun s hs => ⟨hs.1, trivial⟩
    cases seen with
    | none => exact triple_ret (finished_stable _ n _ _) hdone
    | some session =>
      have hP := expects_stable (some n) n .enforceStorageReserve (some session)
      have hprobe : StaysUnlogged fun s : Shared =>
          if s.flow.active ≠ some session ∨ s.flow.stopInflight.isSome ∨ s.flow.failureInflight.isSome then pass false s
          else pass true s ++ pass false s := by
        intro s r hr
        dsimp only at hr
        split at hr
        · exact unlogged_pass hr (unlogged_refl s)
        · rcases List.mem_append.1 hr with hr | hr
          · exact unlogged_pass hr (unlogged_refl s)
          · exact unlogged_pass hr (unlogged_refl s)
      refine triple_bind hR (Triple.mono (keeps_unlogged hP hprobe) (fun _ hs => hs) (fun _ _ hs => hs)
        fun _ s hs => hs.1) fun low => ?_
      cases low with
      | true => exact triple_stopCapture fun _ => rfl
      | false => exact triple_ret (finished_stable _ n _ _) hdone

theorem triple_replied (hc : c.isStop = false ∧ c.isMonitor = false) {f : Shared → Outcomes Reply}
    (hf : StaysUnlogged f) :
    Triple (Others (some n)) (Own (some n)) (Unseen n c) (replied (.critical f)) (Finished n c)
      fun _ => Entered n c := by
  refine triple_bind (M := fun _ => Unseen n c) (others_rely _) ?_ fun reply => ?_
  · exact Triple.mono (keeps_unlogged (unseen_stable n c) hf) (fun _ hs => hs) (fun _ _ hs => hs) fun _ s hs => hs.1
  · refine triple_ret (finished_stable _ n c _) fun s hs => ⟨hs.1, fun h => ?_⟩
    rw [hc.1, hc.2] at h
    simp at h

/-- Every call keeps to what it took as its own. -/
theorem triple_program (n : ℕ) (c : Call) :
    Triple (Others (some n)) (Own (some n)) (Unseen n c) (c.program n) (Finished n c) fun _ => Entered n c := by
  have hR := others_rely (some n)
  cases c with
  | startCapture command => exact triple_replied ⟨rfl, rfl⟩ (unlogged_idempotent unlogged_startCapture)
  | setCameraFocus command result =>
    exact triple_replied ⟨rfl, rfl⟩ (unlogged_idempotent (unlogged_setCameraFocus result))
  | deleteSessions command result =>
    exact triple_replied ⟨rfl, rfl⟩ (unlogged_idempotent (unlogged_deleteSessions result))
  | requestStopCapture command =>
    exact Triple.mono (triple_requestStopCapture n command) (fun s hs => hs.1) (fun _ _ hs => hs) fun _ _ hs => hs
  | stopCapture command =>
    have hstop := @triple_stopCapture (some n) n command (.stopCapture command) none (by rintro ⟨⟩)
    exact Triple.mono hstop (fun s hs => ⟨hs.1, by rintro session ⟨⟩⟩) (fun _ _ hs => hs) fun _ _ hs => hs
  | enforceCaptureTimer => exact triple_enforceCaptureTimer n
  | enforceStorageReserve => exact triple_enforceStorageReserve n
  | sourceFailure deferRecovery =>
    have hP := entered_stable (some n) n (.sourceFailure deferRecovery)
    refine Triple.mono (P := Entered n _) (E := fun _ => Entered n _) ?_ (fun s hs => hs.1) (fun _ _ hs => hs)
      fun _ _ hs => hs
    refine triple_bind hR (keeps_look (stop_quiet _) hP _) fun active => ?_
    have hdone : Triple (Others (some n)) (Own (some n)) (Entered n (.sourceFailure deferRecovery))
        (pure .nothing : Program Done) (Finished n (.sourceFailure deferRecovery))
        fun _ => Entered n (.sourceFailure deferRecovery) :=
      triple_ret (finished_stable _ n _ _) fun s hs => ⟨hs, trivial⟩
    cases active with
    | none => exact hdone
    | some session => exact triple_bind hR ((source_owner hP session).keeps_retain false deferRecovery) fun _ => hdone
  | recordingStateChanged =>
    have hP := entered_stable (some n) n .recordingStateChanged
    refine Triple.mono (P := Entered n _) (E := fun _ => Entered n _) ?_ (fun s hs => hs.1) (fun _ _ hs => hs)
      fun _ _ hs => hs
    refine triple_bind hR (keeps_persistLocalState hP) fun _ => ?_
    exact triple_ret (finished_stable _ n _ _) fun s hs => ⟨hs, trivial⟩

/-- Every worker keeps to what its call took as its own. -/
theorem keeps_job (job : Job) :
    Keeps (Others none) (Own none) (fun s => job.Owned s.flow.log) job.program := by
  have hP : Stable (Others none) fun s => job.Owned s.flow.log := fun s t hs h => hs.grows h.grows
  cases job with
  | stop call command session => exact (stop_owner (n := call) hP fun s hs => hs).keeps_stopJob
  | resume call session => exact keeps_resumeJob (stop_quiet none) hP (keeps_persistLocalState hP) call session
  | failure call session =>
    cases call with
    | some n => exact (stop_owner (n := n) hP fun s hs => hs n rfl).keeps_failureJob
    | none => exact (source_owner hP session).keeps_failureJob

/-! ### Runs -/

def Ended (id : Option ℕ) (d : Done) (s : Shared) : Prop := ∀ n, id = some n → ∃ c, Finished n c d s

/-- The invariant of the system: the threads keep to what they took. -/
structure Sound (p : System) : Prop where
  safe : Pool.AllSafe Others Own Apart Ended (fun _ _ _ => True) p
  lawful : p.shared.flow.Lawful
  calls : ∀ th ∈ p.threads, ∀ n, th.1 = some n → n < p.shared.flow.log.calls.length

/-- No call was entered yet, and no worker was made. -/
structure Booted (p : System) : Prop where
  threads : p.threads = []
  jobs : p.shared.flow.jobs = []
  log : p.shared.flow.log = {}

variable {p : System}

theorem Booted.sound (h : Booted p) : Sound p := by
  refine ⟨⟨fun i j th th' _ hi => ?_, fun i th hi => ?_⟩, ⟨?_, ?_, ?_, ?_⟩, ?_⟩
  · rw [h.threads] at hi
    cases hi
  · rw [h.threads] at hi
    cases hi
  · rw [h.log]
    rintro a ⟨⟩
  · rw [h.jobs]
    rintro job ⟨⟩
  · rw [h.log]
    rintro n p q ⟨⟩
  · rw [h.log]
    rintro n p ⟨⟩
  · rw [h.threads]
    rintro th ⟨⟩

theorem moves_enter (s : Shared) (c : Call) :
    Moves s (s.setFlow fun flow =>
      { flow with log := { s.flow.log with calls := s.flow.log.calls ++ [(c, flow.sessions)] } }) := by
  have hgrows : s.flow.log.Grows { s.flow.log with calls := s.flow.log.calls ++ [(c, s.flow.sessions)] } :=
    ⟨List.prefix_append _ _, fun _ hx => hx, fun _ hx => hx⟩
  refine ⟨hgrows, fun h => ⟨fun a ha => (h.acts a ha).grows hgrows, fun job hjob => (h.jobs job hjob).grows hgrows,
    h.once, fun n p hp => ?_⟩, rfl⟩
  have hlt := h.entered n p hp
  exact Nat.lt_of_lt_of_le hlt hgrows.calls.length_le

theorem Log.Grows.length_le {l m : Log} (h : l.Grows m) : l.calls.length ≤ m.calls.length := h.calls.length_le

theorem Sound.step {q : System} {a : Action} (h : Sound p) (hstep : step p a = some q) : Sound q := by
  cases a with
  | enter c =>
    cases hstep
    have hmoves := moves_enter p.shared c
    have hapart : ∀ th ∈ p.threads, Apart th.1 (some p.shared.flow.log.calls.length) ∧
        Apart (some p.shared.flow.log.calls.length) th.1 := by
      intro th hth
      constructor
      · rintro n hn hnew
        cases hnew
        exact absurd (h.calls th hth _ hn) (Nat.lt_irrefl _)
      · rintro n hnew hn
        cases hnew
        exact absurd (h.calls th hth _ hn) (Nat.lt_irrefl _)
    refine ⟨Pool.add_safe stop_discipline h.safe hapart (fun th _ => hmoves.others th.1) ?_, hmoves.lawful h.lawful,
      fun th hth n hn => ?_⟩
    · refine (triple_program _ c _ ⟨⟨p.shared.flow.sessions, ?_⟩, fun session hsession => ?_⟩).mono ?_ fun _ _ _ => trivial
      · exact List.getElem?_concat_length
      · exact absurd (h.lawful.entered _ session hsession) (Nat.lt_irrefl _)
      · intro d s hd n hn
        cases hn
        exact ⟨c, hd⟩
    · rcases mem_concat.1 hth with hth | rfl
      · exact Nat.lt_of_lt_of_le (h.calls th hth n hn) hmoves.grows.length_le
      · cases hn
        exact (List.length_append ..).symm ▸ Nat.lt_succ_self p.shared.flow.log.calls.length
  | begin =>
    simp only [Coordinator.step] at hstep
    split at hstep
    · cases hstep
    · next job jobs hjobs =>
      cases hstep
      have hmoves : Moves p.shared (p.shared.setFlow fun flow => { flow with jobs }) := by
        refine ⟨.refl _, fun hl => ⟨hl.acts, fun j hj => hl.jobs j ?_, hl.once, hl.entered⟩, rfl⟩
        rw [hjobs]
        exact List.mem_cons_of_mem job hj
      have hapart : ∀ th ∈ p.threads, Apart th.1 none ∧ Apart none th.1 := fun th _ =>
        ⟨fun _ _ => by rintro ⟨⟩, by rintro n ⟨⟩⟩
      have howned : job.Owned p.shared.flow.log := h.lawful.jobs job (by rw [hjobs]; exact List.mem_cons_self)
      refine ⟨Pool.add_safe stop_discipline h.safe hapart (fun th _ => hmoves.others th.1) ?_, hmoves.lawful h.lawful,
        fun th hth n hn => ?_⟩
      · exact Safe.mono (keeps_job job _ howned) (fun d s _ => show Ended none d s from nofun) fun _ _ _ => trivial
      · rcases mem_concat.1 hth with hth | rfl
        · exact h.calls th hth n hn
        · cases hn
  | run i choice =>
    obtain ⟨hsafe, id, hown⟩ := Pool.advance_safe stop_discipline h.safe hstep
    refine ⟨hsafe, hown.lawful h.lawful, fun th hth n hn => ?_⟩
    obtain ⟨th', hth', hid⟩ := Pool.advance_thread hstep hth
    rw [← hid] at hn
    exact Nat.lt_of_lt_of_le (h.calls th' hth' n hn) hown.grows.length_le
  | again i =>
    simp only [Coordinator.step] at hstep
    split at hstep
    · next n hthread =>
      obtain ⟨⟨c, k⟩, hc, rfl⟩ := Option.map_eq_some_iff.1 hstep
      obtain ⟨c', ⟨k', hk'⟩, command, hcommand⟩ := h.safe.each i _ hthread _ ((others_rely _).refl _) n rfl
      obtain ⟨rfl, rfl⟩ := Prod.mk.inj (Option.some.inj (hc.symm.trans hk'))
      subst hcommand
      refine ⟨h.safe.replace hthread (fun j th _ _ => (others_rely th.1).refl _) stop_discipline ?_, h.lawful,
        fun th hth m hm => ?_⟩
      · refine (triple_requestStopCapture n command _ ⟨k, hc⟩).mono (fun d s hd m hm => ?_) fun _ _ _ => trivial
        cases hm
        exact ⟨_, hd⟩
      · rcases List.mem_or_eq_of_mem_set hth with hth | rfl
        · exact h.calls th hth m hm
        · cases hm
          exact (List.getElem?_eq_some_iff.1 hc).1
    · cases hstep

theorem Booted.sound_run {s : System} (h : Booted s) {actions : List Action} (hrun : run step s actions = some p) :
    Sound p := run_invariant (fun _ _ _ hs hstep => hs.step hstep) h.sound hrun

/-- Whatever the sections of a stop took as the recording to stop had been started before the
stop was entered. -/
def Log.OwnTakes (log : Log) : Prop := ∀ n session, (n, session) ∈ log.captured →
  ∀ c k, log.calls[n]? = some (c, k) → c.isStop → session < k

/-- The stops act on no recording that was started after they were entered, the monitors on none
but the one they saw, and a stop that has nothing to stop rests, replays or raises. -/
structure Spares (p : System) : Prop where
  stops : ∀ a ∈ p.shared.flow.log.acts, ∀ c k, p.shared.flow.log.calls[a.call]? = some (c, k) → c.isStop →
    a.session < k
  monitors : ∀ a ∈ p.shared.flow.log.acts, ∀ c k, p.shared.flow.log.calls[a.call]? = some (c, k) → c.isMonitor →
    ∀ session, (a.call, session) ∈ p.shared.flow.log.observed ↔ session = a.session
  answers : ∀ n r, (some n, Proc.ret (.reply r)) ∈ p.threads → ∀ c k, p.shared.flow.log.calls[n]? = some (c, k) →
    c.isStop ∨ c.isMonitor → r.settled ∨ ∃ session, (n, session) ∈ p.shared.flow.log.captured ∧
      (c.isStop → session < k)

/-- A monitor only ever acts on the session it saw, in every run. -/
theorem Sound.monitors (h : Sound p) {a : Act} (ha : a ∈ p.shared.flow.log.acts) {k : ℕ}
    (hc : p.shared.flow.log.calls[a.call]? = some (c, k)) (hm : c.isMonitor) (session : Session) :
    (a.call, session) ∈ p.shared.flow.log.observed ↔ session = a.session := by
  obtain ⟨c', k', hc', -, hobserved⟩ := h.lawful.acts a ha
  obtain ⟨rfl, rfl⟩ := Prod.mk.inj (Option.some.inj (hc.symm.trans hc'))
  have hown := hobserved hm
  constructor
  · exact fun hs => h.lawful.once a.call session a.session hs hown
  · rintro rfl
    exact hown

theorem Sound.answers (h : Sound p) {r : Reply} (hr : (some n, Proc.ret (.reply r)) ∈ p.threads) {k : ℕ}
    (hc : p.shared.flow.log.calls[n]? = some (c, k)) (hstop : c.isStop ∨ c.isMonitor) :
    r.settled ∨ p.shared.flow.log.Claims n := by
  obtain ⟨i, hi⟩ := List.mem_iff_getElem?.1 hr
  obtain ⟨c', ⟨k', hk'⟩, hends⟩ := h.safe.each i _ hi _ ((others_rely _).refl _) n rfl
  obtain ⟨rfl, rfl⟩ := Prod.mk.inj (Option.some.inj (hc.symm.trans hk'))
  exact hends hstop

/-- In every run the monitors act on the recording they saw, and where the stops take only
recordings older than themselves, they spare the newer ones. -/
theorem stop_spares_newer_takes {s p : System} {actions : List Action} (hs : Booted s)
    (hrun : run step s actions = some p) :
    (∀ a ∈ p.shared.flow.log.acts, ∀ c k, p.shared.flow.log.calls[a.call]? = some (c, k) → c.isMonitor →
      ∀ session, (a.call, session) ∈ p.shared.flow.log.observed ↔ session = a.session) ∧
    (p.shared.flow.log.OwnTakes → Spares p) := by
  have h := hs.sound_run hrun
  have hmonitors := fun a ha c k hc hm => h.monitors (a := a) (c := c) (k := k) ha hc hm
  refine ⟨hmonitors, fun hown => ⟨fun a ha c k hc hstop => ?_, hmonitors, fun n r hr c k hc hstop => ?_⟩⟩
  · obtain ⟨c', k', hc', hcaptured, -⟩ := h.lawful.acts a ha
    exact hown a.call a.session hcaptured c k hc hstop
  · refine (h.answers hr hc hstop).imp_right fun ⟨session, hsession⟩ => ⟨session, hsession, fun hc' => ?_⟩
    exact hown n session hsession c k hc hc'

/-- A coordinator that has just been constructed, with no receipts. -/
def fresh : System where
  shared :=
    { receipts :=
        { commands := []
          persistedCommands := []
          table := []
          stateWriteSequence := 1
          statePersistedSequence := 1 }
      flow := {} }
  threads := []

theorem fresh_booted : Booted fresh := ⟨rfl, rfl, rfl⟩

/-- A take is started and stopped. -/
def stopOnce : List Action :=
  [.enter (.startCapture ⟨"app", "a", "", none⟩), .run 0 1, .enter (.stopCapture ⟨"app", "b", "", none⟩)] ++
    List.replicate 9 (.run 1 0)

theorem stop_spares_newer_takes_sample : ∃ p, run step fresh stopOnce = some p ∧
    p.shared.flow.log.acts = [⟨1, .recorderStop, 0⟩] ∧ Spares p := by
  have hrun : ∃ p, run step fresh stopOnce = some p ∧ p.shared.flow.log.acts = [⟨1, .recorderStop, 0⟩] ∧
      p.shared.flow.log.captured = [(1, 0)] ∧
      p.shared.flow.log.calls.map (·.2) = [0, 1] := ⟨_, rfl, rfl, rfl, rfl⟩
  obtain ⟨p, hp, hacts, hcaptured, hcalls⟩ := hrun
  refine ⟨p, hp, hacts, (stop_spares_newer_takes fresh_booted hp).2 fun n session hsession c k hc _ => ?_⟩
  rw [hcaptured, List.mem_singleton] at hsession
  cases hsession
  have hk : (p.shared.flow.log.calls.map (·.2))[1]? = some k := by rw [List.getElem?_map, hc]; rfl
  rw [hcalls] at hk
  cases hk
  decide

/-- A stop whose write fails leaves its receipt to be committed. The next stop, with a key of its
own, commits it, and a start comes between this commit and its loop: the loop then takes the
recording that was started after the stop had been entered, and stops it. -/
def lateTake : List Action :=
  stopOnce ++ [.run 1 0, .run 1 1, .run 1 0, .enter (.stopCapture ⟨"app", "c", "", none⟩)] ++
    List.replicate 6 (.run 2 0) ++ [.enter (.startCapture ⟨"app", "d", "", none⟩), .run 3 1] ++
    List.replicate 5 (.run 2 0)

theorem late_take_stopped : ∃ p, run step fresh lateTake = some p ∧
    (⟨2, .recorderStop, 1⟩ : Act) ∈ p.shared.flow.log.acts ∧ ¬ Spares p := by
  have hrun : ∃ p, run step fresh lateTake = some p ∧
      p.shared.flow.log.acts = [⟨1, .recorderStop, 0⟩, ⟨2, .recorderStop, 1⟩] ∧
      p.shared.flow.log.calls[2]? = some (.stopCapture ⟨"app", "c", "", none⟩, 1) := ⟨_, rfl, rfl, rfl⟩
  obtain ⟨p, hp, hacts, hcall⟩ := hrun
  have hact : (⟨2, .recorderStop, 1⟩ : Act) ∈ p.shared.flow.log.acts := by
    rw [hacts]
    exact List.mem_cons_of_mem _ List.mem_cons_self
  exact ⟨p, hp, hact, fun hspares => absurd (hspares.stops _ hact _ _ hcall rfl) (Nat.lt_irrefl 1)⟩

end Conductor.Coordinator
