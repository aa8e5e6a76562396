import Conductor.Firmware.ThreadLaw
import Mathlib.Algebra.Order.Group.Nat

/-! What holds of the firmware tasks in every run: any clients, workers and restarts, with any of the
writes lost. -/

namespace Conductor.Firmware

open KeyTable Runs

structure SystemInv (s : System) : Prop where
  inv : Inv s.shared
  ok : ∀ i pc, s.threads[i]? = some pc → Ok i pc s.shared
  vacant : ∀ i, s.threads.length ≤ i → Vacant i s.shared

theorem init_inv : SystemInv System.init := by
  refine ⟨⟨?_, ?_, ?_, ?_, ?_, ?_, List.nodup_nil, ?_, rfl, ?_, ?_⟩, ?_, fun i _ => ⟨?_, ?_, ?_⟩⟩
  · rintro key r ⟨⟩
  · rintro - t ⟨⟩
  · rintro t ⟨⟩
  · rintro d ⟨⟩
  · rintro - d ⟨⟩
  · rintro key ⟨⟩
  · rintro ⟨⟩
  · rintro ⟨⟩
  · rintro - t ⟨⟩
  · rintro i pc ⟨⟩
  · rintro ⟨⟩
  · rintro ⟨⟩
  · rintro ⟨⟩

variable {s : System} {pc : Pc} {i : ℕ} {s' : System}

/-- A new thread in a call. -/
theorem SystemInv.add (h : SystemInv s) (hworks : pc.works = false) (hholds : pc.holds = false)
    (hcalls : pc.calls = false) (hknows : pc.Local s.shared) : SystemInv { s with threads := s.threads ++ [pc] } := by
  refine ⟨h.inv, fun i pc' hi => ?_, fun i hi => h.vacant i ?_⟩
  · rcases lt_or_ge i s.threads.length with hlt | hge
    · rw [List.getElem?_append_left hlt] at hi
      exact h.ok i pc' hi
    · obtain ⟨hlen, hget⟩ := List.getElem?_eq_some_iff.1 hi
      rw [List.length_append, List.length_singleton] at hlen
      obtain rfl : i = s.threads.length := by omega
      rw [List.getElem?_append_right le_rfl, Nat.sub_self] at hi
      cases hi
      exact (h.vacant _ le_rfl).ok hworks hholds hcalls hknows
  · rw [List.length_append] at hi
    exact (Nat.le_add_right _ _).trans hi

theorem getElem?_step {threads : List Pc} {j : ℕ} {pc' : Pc} {created : Option Pc}
    (h : (threads.set i pc' ++ created.toList)[j]? = some pc) :
    j = i ∧ pc = pc' ∨ j ≠ i ∧ threads[j]? = some pc ∨ j = threads.length ∧ created = some pc := by
  rcases lt_or_ge j threads.length with hlt | hge
  · rw [List.getElem?_append_left (by rw [List.length_set]; exact hlt)] at h
    by_cases heq : j = i
    · subst heq
      rw [List.getElem?_set_self hlt] at h
      exact .inl ⟨rfl, (Option.some.inj h).symm⟩
    · rw [List.getElem?_set_ne fun h => heq h.symm] at h
      exact .inr (.inl ⟨heq, h⟩)
  · rw [List.getElem?_append_right (by rw [List.length_set]; exact hge), List.length_set] at h
    cases created with
    | none => simp at h
    | some created =>
      obtain ⟨hlen, -⟩ := List.getElem?_eq_some_iff.1 h
      rw [Option.toList_some, List.length_singleton] at hlen
      obtain rfl : j = threads.length := by omega
      rw [Nat.sub_self] at h
      exact .inr (.inr ⟨rfl, h⟩)

/-- The parts of a step of a thread. -/
theorem step_thread {c : Choice} (h : step s (.step i c) = some s') :
    ∃ pc r, s.threads[i]? = some pc ∧ s.shared.advance i s.threads.length c pc = some r ∧
      s' = ⟨r.1, s.threads.set i r.2.1 ++ r.2.2.toList⟩ := by
  obtain ⟨pc, hpc, h⟩ := Option.bind_eq_some_iff.1 h
  obtain ⟨r, hr, h⟩ := Option.bind_eq_some_iff.1 h
  exact ⟨pc, r, hpc, hr, (Option.some.inj h).symm⟩

theorem SystemInv.advanced (h : SystemInv s) (hi : i < s.threads.length) {r : Shared × Pc × Option Pc}
    (ha : Advanced s.shared i s.threads.length r) : SystemInv ⟨r.1, s.threads.set i r.2.1 ++ r.2.2.toList⟩ := by
  refine ⟨ha.inv, fun j pc hj => ?_, fun j hj => ?_⟩
  · rcases getElem?_step hj with ⟨rfl, rfl⟩ | ⟨hne, hold⟩ | ⟨rfl, hcreated⟩
    · exact ha.ok
    · have hlt : j < s.threads.length := (List.getElem?_eq_some_iff.1 hold).1
      exact (h.ok j pc hold).leave (ha.leaves j hne fun heq => absurd heq hlt.ne)
    · exact ha.created pc hcreated
  · rw [List.length_append, List.length_set] at hj
    refine (h.vacant j ((Nat.le_add_right _ _).trans hj)).leave (ha.leaves j (fun heq => ?_) fun heq => ?_)
    · omega
    · cases hcreated : r.2.2 with
      | none => rfl
      | some created =>
        rw [hcreated, Option.toList_some, List.length_singleton] at hj
        omega

/-! ### Restarts -/

theorem restoreTaskState_load (s : Shared) (load allowMissing : Bool) (c : Choice) :
    ({ s with taskLoadPending := load } : Shared).restoreTaskState allowMissing c = s.restoreTaskState allowMissing c := by
  unfold Shared.restoreTaskState Shared.readTask
  cases c.readable with
  | false => rfl
  | true =>
    rcases Option.eq_none_or_eq_some s.disk.task with hdisk | ⟨t, hdisk⟩
    · simp only [hdisk, Bool.not_true, Bool.false_eq_true, if_false]
    · simp only [hdisk, Bool.not_true, Bool.false_eq_true, if_false]

theorem boot_restored {s : Shared} (h : Inv s) (c : Choice) :
    Inv (s.boot c) ∧ Lasts s (s.boot c) ∧ (∀ i, Vacant i (s.boot c)) ∧ (s.boot c).runs = s.runs ∧ (s.boot c).admitted = [] := by
  obtain ⟨s₀, hs₀⟩ : ∃ s₀ : Shared, s₀ = { s with
    task := none
    worker := none
    taskSavePending := false
    successNotificationPending := false
    callbackActive := false
    taskLoadPending := true
    startLock := none
    caller := none
    admitted := [] } := ⟨_, rfl⟩
  have hboot : s.boot c = (s₀.restoreTaskState true c).2 := by
    rw [hs₀]
    unfold Shared.boot
    dsimp only
    rw [← restoreTaskState_load _ true]
  have hinv : Inv s₀ := by
    rw [hs₀]
    refine
      { keyed := h.keyed
        saved := fun _ t ht => (nomatch ht)
        behind := fun t ht => (nomatch ht)
        file := h.file
        other := fun hfalse => (nomatch hfalse)
        recorded := h.recorded
        once := h.once
        loading := fun _ => ⟨rfl, rfl, rfl, rfl⟩
        calling := rfl
        notified := fun hfalse => (nomatch hfalse)
        idle := fun _ t ht => (nomatch ht) }
  have hr := restoreTaskState_restored hinv (hs₀ ▸ rfl) true c
  have hlasts : Lasts s (s₀.restoreTaskState true c).2 := by
    have := hr.lasts
    rw [hs₀] at this ⊢
    exact this
  have hkeeps := hr.keeps
  rw [hboot]
  refine ⟨hr.inv, hlasts, fun i => ⟨?_, ?_, ?_⟩, hkeeps.runs.trans (hs₀ ▸ rfl), hkeeps.admitted.trans (hs₀ ▸ rfl)⟩
  · rw [hkeeps.worker, hs₀]
    exact fun heq => (nomatch heq)
  · rw [hkeeps.lock, hs₀]
    exact fun heq => (nomatch heq)
  · rw [hkeeps.caller, hs₀]
    exact fun heq => (nomatch heq)

theorem step_inv {a : Act} (h : SystemInv s) (hstep : step s a = some s') : SystemInv s' := by
  cases a with
  | status =>
    cases hstep
    exact h.add rfl rfl rfl trivial
  | start action key commit =>
    cases hstep
    split
    · split
      · exact h.add rfl rfl rfl trivial
      · exact h.add rfl rfl rfl trivial
    · exact h.add rfl rfl rfl trivial
  | step i c =>
    obtain ⟨pc, r, hpc, hadvance, rfl⟩ := step_thread hstep
    have hi : i < s.threads.length := (List.getElem?_eq_some_iff.1 hpc).1
    exact h.advanced hi (advance_advanced h.inv (h.ok i pc hpc) hi.ne hadvance)
  | restart c =>
    cases hstep
    obtain ⟨hinv, -, hvacant, -⟩ := boot_restored h.inv c
    exact ⟨hinv, fun i pc hi => (nomatch hi), fun i _ => hvacant i⟩

/-! ### What the supervisor promises -/

/-- Both files have the task. -/
def Durable (s : Shared) (t : Record) : Prop := s.disk.task = some t ∧ s.disk.receipts.lookup t.id = some t

def Pc.over : Pc → Bool
  | .refused _ => true
  | .done _ => true
  | _ => false

/-- What holds of every state. -/
structure Safe (s : System) : Prop where
  runner : ∀ (i j : ℕ) t u, s.threads[i]? = some (Pc.running t) → s.threads[j]? = some (Pc.running u) → i = j
  once : (s.shared.runs.filter (· ∉ s.shared.pruned)).Nodup
  callback : ∀ (i j : ℕ) a b, s.threads[i]? = some (Pc.repair .calling a) → s.threads[j]? = some (Pc.repair .calling b) → i = j
  notified : ∀ (i : ℕ) a, s.threads[i]? = some (Pc.repair .calling a) → ∃ t, s.shared.task = some t ∧ t.status = .succeeded ∧
    Durable s.shared t
  /-- A start that is about to create a worker has a new key. -/
  unknown : ∀ (i : ℕ) (r : Request), s.threads[i]? = some (Pc.submission r) → s.shared.known r.key = none
  answered : ∀ (i : ℕ) (r : Request) (t : Record), s.threads[i]? = some (Pc.done (some (r, .ok t))) →
    t.id = r.key ∧ t.action = r.action ∧ t.targetCommit = r.commit
  quiet : (∀ (i : ℕ) pc, s.threads[i]? = some pc → pc.over = true) → s.shared.worker = none ∧ s.shared.callbackActive = false ∧
    s.shared.startLock = none ∧ (∀ t ∈ s.shared.task, t.status.terminal = true) ∧
      (s.shared.taskSavePending = false → ∀ t ∈ s.shared.task, Durable s.shared t)

/-- The files do not let a start answer. -/
def Unavailable (s : Shared) (r : Request) (c : Choice) : Prop :=
  s.taskLoadPending = true ∨ c.receiptReadable = false ∨
    (∃ t, s.disk.receipts.lookup r.key = some t ∧ t.valid (some r.key) = false) ∨ c.receipt ≠ .written

/-- What a start with a known key answers. -/
def Answers (s : Shared) (r : Request) (c : Choice) (old : Record) (answer : Except Raised Record) : Prop :=
  (Unavailable s r c ∧ ∃ message, answer = .error (.error (stateUnavailable message))) ∨
    if old.action = r.action ∧ old.targetCommit = r.commit then
      ∃ t, answer = .ok t ∧ t.id = r.key ∧ t.action = r.action ∧ t.targetCommit = r.commit
    else answer = .error (.error idempotencyConflict)

/-- What holds of every step. -/
structure Keeps (s : System) (a : Act) (s' : System) : Prop where
  lasts : Lasts s.shared s'.shared
  /-- A runner starts for a task of this process that both files have. -/
  started : s'.shared.runs = s.shared.runs ∨ ∃ (i : ℕ) (c : Choice) (t : Record), a = .step i c ∧ s'.threads[i]? = some (Pc.running t) ∧
    s'.shared.runs = s.shared.runs ++ [t.id] ∧ Durable s'.shared t ∧ t.id ∈ s.shared.admitted
  /-- A key is admitted by the start that creates the worker, and no key of an earlier process is. -/
  admitted : s'.shared.admitted = s.shared.admitted ∨ (∃ c, a = .restart c) ∧ s'.shared.admitted = [] ∨
    ∃ (i : ℕ) (c : Choice) (r : Request) (t : Record), a = .step i c ∧ s'.threads[i]? = some (Pc.done (some (r, .ok t))) ∧ t.id = r.key ∧
      s'.shared.admitted = r.key :: s.shared.admitted
  /-- A start with a known key answers at once and creates no worker. -/
  known : ∀ (i : ℕ) (c : Choice) (r : Request) (old : Record), a = .step i c → s.threads[i]? = some (Pc.admission r) → s.shared.known r.key = some old →
    s'.threads.length = s.threads.length ∧ s'.shared.admitted = s.shared.admitted ∧
      ∃ answer, s'.threads[i]? = some (Pc.done (some (r, answer))) ∧ Answers s.shared r c old answer

theorem SystemInv.owner (h : SystemInv s) {j : ℕ} {pc' : Pc} (hi : s.threads[i]? = some pc)
    (hj : s.threads[j]? = some pc') (hown : pc.works = true ∧ pc'.works = true ∨ pc.calls = true ∧ pc'.calls = true) : i = j := by
  rcases hown with ⟨h1, h2⟩ | ⟨h1, h2⟩
  · exact Option.some.inj (((h.ok i pc hi).works.2 h1).symm.trans ((h.ok j pc' hj).works.2 h2))
  · exact Option.some.inj (((h.ok i pc hi).calls.2 h1).symm.trans ((h.ok j pc' hj).calls.2 h2))

/-- An owner is a thread that is not over. -/
theorem SystemInv.none_of_over (h : SystemInv s) (hover : ∀ (i : ℕ) pc, s.threads[i]? = some pc → pc.over = true) :
    s.shared.worker = none ∧ s.shared.startLock = none ∧ s.shared.caller = none := by
  have howner : ∀ o : Option ℕ, (∀ i, o = some i → i < s.threads.length ∧ ∀ pc, s.threads[i]? = some pc → pc.over = false) →
      o = none := by
    rintro (_ | i) ho
    · rfl
    · obtain ⟨hlt, hpc⟩ := ho i rfl
      have hget := List.getElem?_eq_getElem hlt
      have := hpc _ hget
      rw [hover i _ hget] at this
      cases this
  have hover' : ∀ pc : Pc, pc.works = true ∨ pc.holds = true ∨ pc.calls = true → pc.over = false := by
    intro pc hpc
    cases pc with
    | refused error => simp [Pc.works, Pc.holds, Pc.calls] at hpc
    | done answer => simp [Pc.works, Pc.holds, Pc.calls] at hpc
    | _ => rfl
  refine ⟨howner _ fun i hi => ⟨?_, fun pc hpc => hover' pc (.inl ((h.ok i pc hpc).works.1 hi))⟩,
    howner _ fun i hi => ⟨?_, fun pc hpc => hover' pc (.inr (.inl ((h.ok i pc hpc).holds.1 hi)))⟩,
    howner _ fun i hi => ⟨?_, fun pc hpc => hover' pc (.inr (.inr ((h.ok i pc hpc).calls.1 hi)))⟩⟩
  · by_contra hge
    exact (h.vacant i (not_lt.1 hge)).worker hi
  · by_contra hge
    exact (h.vacant i (not_lt.1 hge)).lock hi
  · by_contra hge
    exact (h.vacant i (not_lt.1 hge)).caller hi

theorem SystemInv.safe (h : SystemInv s) : Safe s := by
  refine ⟨fun i j t u hi hj => h.owner hi hj (.inl ⟨rfl, rfl⟩), h.inv.once,
    fun i j a b hi hj => h.owner hi hj (.inr ⟨rfl, rfl⟩), fun i a hi => ?_, fun i r hi => ?_, fun i r t hi => (h.ok i _ hi).knows,
    fun hover => ?_⟩
  · obtain ⟨⟨hsaved, t, ht, hstatus⟩, -⟩ := (h.ok i _ hi).knows
    exact ⟨t, ht, hstatus, h.inv.saved hsaved t ht⟩
  · have hclear : Clear r.key s.shared := (h.ok i _ hi).knows
    unfold Shared.known
    rw [hclear.receipt, Option.or_none, Option.filter_eq_none_iff]
    exact fun t ht => by simpa using hclear.task t ht
  · obtain ⟨hworker, hlock, hcaller⟩ := h.none_of_over hover
    refine ⟨hworker, ?_, hlock, h.inv.idle hworker, h.inv.saved⟩
    rw [h.inv.calling, hcaller]
    rfl

theorem conflict_ne (message : String) : idempotencyConflict ≠ stateUnavailable message := fun heq =>
  absurd (show "idempotency_conflict" = "update_state_unavailable" from congrArg FirmwareError.code heq) (by decide)

/-- A known key is looked up in vain only where the files fail. -/
theorem admission_unavailable {s : Shared} {r : Request} {old : Record} (hknown : s.known r.key = some old) {c : Choice}
    {message : String} (h : (s.admission r c).1 = .error (stateUnavailable message)) : Unavailable s r c := by
  unfold Shared.admission at h
  split at h
  · rename_i hload
    exact .inl hload
  · split at h
    · split at h
      · cases h
      · exact absurd (Except.error.inj h) (conflict_ne message)
    · rename_i hnone
      split at h
      · rename_i hreadable
        exact .inr (.inl (by simpa using hreadable))
      · rename_i hreadable
        unfold Shared.known at hknown
        rw [hnone, Option.none_or] at hknown
        rw [hknown] at h
        dsimp only at h
        split at h
        · rename_i hvalid
          exact .inr (.inr (.inl ⟨old, hknown, by simpa using hvalid⟩))
        · split at h
          · exact absurd (Except.error.inj h) (conflict_ne message)
          · split at h
            · cases h
            · refine .inr (.inr (.inr fun hwritten => ?_))
              rw [hwritten] at h
              cases h

/-- The answer to a known key. -/
theorem admission_answers {s : Shared} (h : Inv s) {r : Request} {old : Record} (hknown : s.known r.key = some old) (c : Choice) :
    ∃ x s₁, s.admission r c = (x, s₁) ∧ s₁.admitted = s.admitted ∧
      ((∃ e, x = .error e ∧ Answers s r c old (.error (.error e))) ∨ ∃ t, x = .ok (some t) ∧ Answers s r c old (.ok t)) := by
  have ha := admission_admitted h r c
  have hunavailable : ∀ message, (s.admission r c).1 = .error (stateUnavailable message) → Unavailable s r c :=
    fun _ => admission_unavailable hknown
  generalize s.admission r c = x at ha hunavailable
  obtain ⟨x, s₁⟩ := x
  refine ⟨x, s₁, rfl, ?_, ?_⟩
  · have := ha.same
    dsimp only at this
    rw [this]
  · cases hcheck : Shared.checkTaskIdentity old r with
    | false =>
      have hne : ¬(old.action = r.action ∧ old.targetCommit = r.commit) := by
        rintro ⟨h1, h2⟩
        simp [Shared.checkTaskIdentity, h1, h2] at hcheck
      rcases ha.conflict old hknown hcheck with rfl | ⟨message, rfl⟩
      · refine .inl ⟨_, rfl, .inr ?_⟩
        rw [if_neg hne]
      · exact .inl ⟨_, rfl, .inl ⟨hunavailable message rfl, message, rfl⟩⟩
    | true =>
      rcases ha.answered old hknown hcheck with ⟨t, rfl⟩ | ⟨message, rfl⟩
      · refine .inr ⟨t, rfl, .inr ?_⟩
        rw [if_pos (checkTaskIdentity_eq hcheck)]
        exact ⟨t, rfl, ha.record t rfl⟩
      · exact .inl ⟨_, rfl, .inl ⟨hunavailable message rfl, message, rfl⟩⟩

theorem SystemInv.keeps {a : Act} (h : SystemInv s) (hstep : step s a = some s') : Keeps s a s' := by
  -- a client that comes in changes nothing
  have hsame : s'.shared = s.shared → (∀ i c, a ≠ .step i c) → Keeps s a s' := fun hs ha => by
    refine ⟨lasts_of_receipts (by rw [hs]), .inl (by rw [hs]), .inl (by rw [hs]), fun i c r old hi => absurd hi (ha i c)⟩
  cases a with
  | status =>
    cases hstep
    exact hsame rfl (by simp)
  | start action key commit =>
    cases hstep
    exact hsame rfl (by simp)
  | restart c =>
    cases hstep
    obtain ⟨-, hlasts, -, hruns, hadmitted⟩ := boot_restored h.inv c
    exact ⟨hlasts, .inl hruns, .inr (.inl ⟨⟨c, rfl⟩, hadmitted⟩), by simp⟩
  | step i c =>
    obtain ⟨pc, r, hpc, hadvance, rfl⟩ := step_thread hstep
    have hi : i < s.threads.length := (List.getElem?_eq_some_iff.1 hpc).1
    have hadvanced := advance_advanced h.inv (h.ok i pc hpc) hi.ne hadvance
    have hget : (s.threads.set i r.2.1 ++ r.2.2.toList)[i]? = some r.2.1 := by
      rw [List.getElem?_append_left (by rw [List.length_set]; exact hi), List.getElem?_set_self hi]
    refine ⟨hadvanced.lasts, ?_, ?_, ?_⟩
    · rcases hadvanced.runs with hruns | ⟨t, hrunning, hruns, -, hfile, hreceipt, hmem⟩
      · exact .inl hruns
      · refine .inr ⟨i, c, t, rfl, hrunning ▸ hget, hruns, ⟨hfile, hreceipt⟩, ?_⟩
        rcases hadvanced.admitted with hsame | ⟨_, _, hdone, -⟩
        · exact hsame ▸ hmem
        · rw [hrunning] at hdone
          cases hdone
    · rcases hadvanced.admitted with hsame | ⟨request, t, hdone, -, hid, hmem⟩
      · exact .inl hsame
      · exact .inr (.inr ⟨i, c, request, t, rfl, hdone ▸ hget, hid, hid ▸ hmem⟩)
    · rintro _ _ request old ⟨⟩ hadmission hknown
      cases hadmission.symm.trans hpc
      obtain ⟨x, s₁, hx, hadmitted, hanswer⟩ := admission_answers h.inv hknown c
      rw [Shared.advance, hx] at hadvance
      obtain ⟨answer, hr, hanswer⟩ : ∃ answer, r = s₁.answer request answer ∧ Answers s.shared request c old answer := by
        rcases hanswer with ⟨e, rfl, he⟩ | ⟨t, rfl, ht⟩
        · exact ⟨_, (Option.some.inj hadvance).symm, he⟩
        · exact ⟨_, (Option.some.inj hadvance).symm, ht⟩
      subst hr
      refine ⟨?_, hadmitted, answer, hget, hanswer⟩
      change (s.threads.set i _ ++ []).length = _
      rw [List.append_nil, List.length_set]

/-- Firmware tasks run at most once and keep their identity. -/
theorem firmware_tasks_once {acts : List Act} {s : System} (hrun : run step System.init acts = some s) :
    Safe s ∧ ∀ a s', step s a = some s' → Keeps s a s' := by
  have h : SystemInv s := run_invariant (fun _ _ _ hs hstep => step_inv hs hstep) init_inv hrun
  exact ⟨h.safe, fun a s' hstep => h.keeps hstep⟩

/-! ### A rollback, and the start of the same key behind a restart -/

def sampleRequest : Request :=
  ⟨.rollback, "11111111-1111-4111-8111-111111111111", "aaaaaaaaaaaaaaaaaaaaaaaaaaaaaaaaaaaaaaaa"⟩

def sampleStart : Act := .start "rollback" sampleRequest.key sampleRequest.commit

def sampleSave : Save := ⟨.written, .written, []⟩

def sampleChoice (readable : Bool) : Choice :=
  ⟨1, readable, true, sampleSave, sampleSave, sampleSave, .written, .started, false, .returns, none, true⟩

/-- The rollback runs, and `task.json` cannot be read in the next process. -/
def sampleActs : List Act :=
  sampleStart :: List.replicate 6 (.step 0 (sampleChoice true)) ++ List.replicate 7 (.step 1 (sampleChoice true)) ++
    [.restart (sampleChoice false), sampleStart, .step 0 (sampleChoice false), .step 0 (sampleChoice false)]

def sampleState : System := (run step System.init sampleActs).getD System.init

theorem firmware_tasks_once_sample :
    sampleState.shared.runs = [sampleRequest.key] ∧ Safe sampleState ∧
      ∀ a s', step sampleState a = some s' → Keeps sampleState a s' :=
  ⟨by decide, firmware_tasks_once (show run step System.init sampleActs = some sampleState from rfl)⟩

/-- The receipt of the key says that the rollback succeeded, and the start raises. -/
theorem firmware_tasks_once_fails :
    run step System.init sampleActs = some sampleState ∧ sampleState.threads = [Pc.admission sampleRequest] ∧
      (∃ old, sampleState.shared.known sampleRequest.key = some old ∧ old.status = .succeeded ∧
        old.action = sampleRequest.action ∧ old.targetCommit = sampleRequest.commit) ∧
      (step sampleState (.step 0 (sampleChoice false))).map System.threads =
        some [Pc.done (some (sampleRequest, .error (.error (stateUnavailable "更新任务状态尚未恢复，请检查状态文件"))))] :=
  ⟨rfl, rfl, ⟨_, rfl, rfl, rfl, rfl⟩, rfl⟩

end Conductor.Firmware
