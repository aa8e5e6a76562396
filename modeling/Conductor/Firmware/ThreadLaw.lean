import Conductor.Firmware.StateLaw

/-! The threads of the supervisor. Each of the three owners (the worker, the holder of `start_lock`, the
caller of `on_success`) is one thread, and says where that thread is. `Leaves j` is what a thread `j`
relies on while other threads run. -/

namespace Conductor.Firmware

open KeyTable

/-! ### Where a thread is -/

def After.works : After → Bool
  | .worker => true
  | _ => false

def After.holds : After → Bool
  | .admission _ => true
  | .checked _ => true
  | _ => false

/-- The thread is the admitted worker. -/
def Pc.works : Pc → Bool
  | .gate admitted => admitted
  | .executing => true
  | .running _ => true
  | .failing => true
  | .succeeding => true
  | .repair _ after => after.works
  | .clearing admitted => admitted
  | _ => false

/-- The thread has `start_lock`. -/
def Pc.holds : Pc → Bool
  | .repair _ after => after.holds
  | .admission _ => true
  | .checks _ => true
  | .checked _ => true
  | .submission _ => true
  | _ => false

/-- The thread calls `on_success`, or has not yet left the call. -/
def Pc.calls : Pc → Bool
  | .repair .enter _ => false
  | .repair _ _ => true
  | _ => false

/-- Nobody knows the key, nothing is to be done and nobody works. -/
structure Clear (key : String) (s : Shared) : Prop where
  worker : s.worker = none
  notification : s.successNotificationPending = false
  caller : s.caller = none
  saved : s.taskSavePending = false
  loaded : s.taskLoadPending = false
  task : ∀ t ∈ s.task, t.id ≠ key
  receipt : s.disk.receipts.lookup key = none

/-- The task is accepted and its runner was not started. -/
def Fresh (s : Shared) : Prop :=
  ∃ t, s.task = some t ∧ t.status = .accepted ∧ (t.id ∈ s.runs → t.id ∈ s.pruned) ∧ t.id ∈ s.admitted

/-- The task is not over. -/
def Open (s : Shared) : Prop := ∃ t, s.task = some t ∧ t.status.terminal = false

def Over (s : Shared) : Prop := ∀ t ∈ s.task, t.status.terminal = true

def After.Local (s : Shared) : After → Prop
  | .checked r => Clear r.key s
  | .worker => Over s
  | _ => True

/-- What a thread knows of the state. -/
def Pc.Local (s : Shared) : Pc → Prop
  | .repair .enter after => after.Local s
  | .repair _ after => Settled s ∧ after.Local s
  | .checks r => Clear r.key s
  | .checked r => Clear r.key s
  | .submission r => Clear r.key s
  | .gate true => Fresh s
  | .executing => Fresh s
  | .running _ => Open s
  | .failing => Open s
  | .succeeding => Open s
  | .clearing true => Over s
  | .done (some (r, .ok t)) => t.id = r.key ∧ t.action = r.action ∧ t.targetCommit = r.commit
  | _ => True

structure Ok (i : ℕ) (pc : Pc) (s : Shared) : Prop where
  works : s.worker = some i ↔ pc.works = true
  holds : s.startLock = some i ↔ pc.holds = true
  calls : s.caller = some i ↔ pc.calls = true
  knows : pc.Local s

/-- What a thread `j` relies on. -/
structure Leaves (j : ℕ) (s s' : Shared) : Prop where
  worker : s'.worker = some j ↔ s.worker = some j
  lock : s'.startLock = some j ↔ s.startLock = some j
  caller : s'.caller = some j ↔ s.caller = some j
  pruned : s.pruned ⊆ s'.pruned
  work : s.worker = some j → s'.task = s.task ∧ s'.runs = s.runs ∧ s.admitted ⊆ s'.admitted
  clear : s.startLock = some j → ∀ key, Clear key s → Clear key s'
  settled : s.caller = some j → Settled s → Settled s'

theorem Leaves.refl (j : ℕ) (s : Shared) : Leaves j s s :=
  ⟨Iff.rfl, Iff.rfl, Iff.rfl, List.Subset.refl _, fun _ => ⟨rfl, rfl, List.Subset.refl _⟩, fun _ _ h => h, fun _ h => h⟩

variable {after : After} {s : Shared} {n i : ℕ} {r : Request} {key : String} {t : Record}

variable {j : ℕ} {s' : Shared} {pc : Pc}

theorem After.Local.leave (h : after.Local s) (hl : Leaves j s s')
    (hworks : after.works = true → s.worker = some j) (hholds : after.holds = true → s.startLock = some j) :
    after.Local s' := by
  cases after with
  | status => trivial
  | admission r => trivial
  | checked r => exact hl.clear (hholds rfl) r.key h
  | worker =>
    unfold After.Local Over
    rw [(hl.work (hworks rfl)).1]
    exact h

/-- A thread goes on where the others left it. -/
theorem Ok.leave (h : Ok j pc s) (hl : Leaves j s s') : Ok j pc s' := by
  refine ⟨hl.worker.trans h.works, hl.lock.trans h.holds, hl.caller.trans h.calls, ?_⟩
  have hknows := h.knows
  have hopen : pc.works = true → Open s → Open s' := fun hw ho => by
    unfold Open
    rw [(hl.work (h.works.2 hw)).1]
    exact ho
  have hfresh : pc.works = true → Fresh s → Fresh s' := fun hw hf => by
    obtain ⟨htask, hruns, hadmitted⟩ := hl.work (h.works.2 hw)
    obtain ⟨t, ht, hstatus, hrun, hadm⟩ := hf
    exact ⟨t, htask.trans ht, hstatus, fun hmem => hl.pruned (hrun (hruns ▸ hmem)), hadmitted hadm⟩
  have hclear : pc.holds = true → ∀ key, Clear key s → Clear key s' := fun hw => hl.clear (h.holds.2 hw)
  cases pc with
  | starting r => trivial
  | repair stage after =>
    have hafter : after.Local s → after.Local s' := fun ha => ha.leave hl h.works.2 h.holds.2
    cases stage with
    | enter => exact hafter hknows
    | calling => exact ⟨hl.settled (h.calls.2 rfl) hknows.1, hafter hknows.2⟩
    | raised cancelled => exact ⟨hl.settled (h.calls.2 rfl) hknows.1, hafter hknows.2⟩
    | leaving cancelled => exact ⟨hl.settled (h.calls.2 rfl) hknows.1, hafter hknows.2⟩
  | admission r => trivial
  | checks r => exact hclear rfl r.key hknows
  | checked r => exact hclear rfl r.key hknows
  | submission r => exact hclear rfl r.key hknows
  | gate admitted =>
    cases admitted with
    | false => trivial
    | true => exact hfresh rfl hknows
  | executing => exact hfresh rfl hknows
  | running t => exact hopen rfl hknows
  | failing => exact hopen rfl hknows
  | succeeding => exact hopen rfl hknows
  | clearing admitted =>
    cases admitted with
    | false => trivial
    | true =>
      unfold Pc.Local Over
      rw [(hl.work (h.works.2 rfl)).1]
      exact hknows
  | refused error => trivial
  | done answer =>
    match answer with
    | none => trivial
    | some (_, .error _) => trivial
    | some (_, .ok _) => exact hknows

/-! ### What a section does -/

theorem not_other {x : Option ℕ} (hx : x = some i ∨ x = none) (hj : j ≠ i) : x ≠ some j := by
  rintro rfl
  rcases hx with hx | hx
  · exact hj (Option.some.inj hx)
  · cases hx

theorem not_mine {x : Option ℕ} (hx : x = none) : x = some i ↔ false = true :=
  iff_of_false (fun heq => (nomatch hx.symm.trans heq)) Bool.false_ne_true

/-- A thread that does not exist yet owns nothing. -/
structure Vacant (n : ℕ) (s : Shared) : Prop where
  worker : s.worker ≠ some n
  lock : s.startLock ≠ some n
  caller : s.caller ≠ some n

theorem Vacant.ok (h : Vacant n s) (hworks : pc.works = false) (hholds : pc.holds = false)
    (hcalls : pc.calls = false) (hknows : pc.Local s) : Ok n pc s := by
  refine ⟨?_, ?_, ?_, hknows⟩
  · rw [hworks]
    exact iff_of_false h.worker Bool.false_ne_true
  · rw [hholds]
    exact iff_of_false h.lock Bool.false_ne_true
  · rw [hcalls]
    exact iff_of_false h.caller Bool.false_ne_true

theorem Vacant.leave (h : Vacant n s) (hl : Leaves n s s') : Vacant n s' :=
  ⟨fun hw => h.worker (hl.worker.1 hw), fun hw => h.lock (hl.lock.1 hw), fun hw => h.caller (hl.caller.1 hw)⟩

/-- A run of the runner that begins. -/
def Starts (s s' : Shared) (pc : Pc) : Prop :=
  ∃ t, pc = .running t ∧ s'.runs = s.runs ++ [t.id] ∧ s'.task = some t ∧ s'.disk.task = some t ∧
    s'.disk.receipts.lookup t.id = some t ∧ t.id ∈ s'.admitted

/-- A start that answers with the record of its own worker. -/
def Admits (s s' : Shared) (pc : Pc) (created : Option Pc) : Prop :=
  ∃ request t, pc = .done (some (request, .ok t)) ∧ created = some (.gate true) ∧ t.id = request.key ∧
    s'.admitted = t.id :: s.admitted

/-- What a section of thread `i` does, where `n` is the number of a new thread. -/
structure Advanced (s : Shared) (i n : ℕ) (r : Shared × Pc × Option Pc) : Prop where
  inv : Inv r.1
  ok : Ok i r.2.1 r.1
  created : ∀ pc ∈ r.2.2, Ok n pc r.1
  leaves : ∀ j, j ≠ i → (j = n → r.2.2 = none) → Leaves j s r.1
  lasts : Lasts s r.1
  runs : r.1.runs = s.runs ∨ Starts s r.1 r.2.1
  admitted : r.1.admitted = s.admitted ∨ Admits s r.1 r.2.1 r.2.2

/-- A thread that goes on and leaves the state alone. -/
theorem advanced_same {pc' : Pc} (h : Inv s) (hok : Ok i pc s) (hworks : pc'.works = pc.works)
    (hholds : pc'.holds = pc.holds) (hcalls : pc'.calls = pc.calls) (hknows : pc'.Local s) :
    Advanced s i n (s, pc', none) where
  inv := h
  ok := ⟨hworks ▸ hok.works, hholds ▸ hok.holds, hcalls ▸ hok.calls, hknows⟩
  created := fun _ hpc => (nomatch hpc)
  leaves := fun j _ _ => .refl j s
  lasts := lasts_of_receipts rfl
  runs := .inl rfl
  admitted := .inl rfl

/-- The locks and the history do not matter to the files. -/
theorem Inv.lock (h : Inv s) (startLock : Option ℕ) : Inv { s with startLock := startLock } := { h with }

/-- What a holder of the lock leaves of the files. -/
theorem leaves_disk (hlock : s.startLock = some i) (hj : j ≠ i) (disk : Disk) :
    Leaves j s { s with disk := disk, startLock := none } :=
  ⟨Iff.rfl, iff_of_false (fun h => (nomatch h)) (not_other (.inl hlock) hj), Iff.rfl, List.Subset.refl _,
    fun _ => ⟨rfl, rfl, List.Subset.refl _⟩, fun hl => absurd hl (not_other (.inl hlock) hj), fun _ h => h⟩

variable {answer : Except Raised Record} {created : Option Pc}

/-- A start that holds the lock and nothing else answers. -/
theorem answer_advanced (h : Inv s)
    (hlock : s.startLock = some i) (hworker : s.worker ≠ some i) (hcaller : s.caller ≠ some i)
    (hanswer : ∀ t, answer = .ok t → t.id = r.key ∧ t.action = r.action ∧ t.targetCommit = r.commit) :
    Advanced s i n (s.answer r answer) where
  inv := h.lock none
  ok := by
    refine ⟨iff_of_false hworker Bool.false_ne_true, not_mine rfl,
      iff_of_false hcaller Bool.false_ne_true, ?_⟩
    cases answer with
    | error raised => trivial
    | ok t => exact hanswer t rfl
  created := fun _ hpc => (nomatch hpc)
  leaves := fun j hj _ => leaves_disk hlock hj s.disk
  lasts := lasts_of_receipts rfl
  runs := .inl rfl
  admitted := .inl rfl

/-! ### The sections of a client -/

theorem starting_advanced (h : Inv s) (hok : Ok i (.starting r) s)
    (hfree : s.startLock = none) : Advanced s i n ({ s with startLock := some i }, .repair .enter (.admission r), none) where
  inv := h.lock (some i)
  ok := ⟨hok.works, iff_of_true rfl rfl, hok.calls, trivial⟩
  created := fun _ hpc => (nomatch hpc)
  leaves := fun j hj _ => by
    have hne : s.startLock ≠ some j := not_other (.inr hfree) hj
    exact ⟨Iff.rfl, iff_of_false (fun heq => hj (Option.some.inj heq).symm) hne, Iff.rfl, List.Subset.refl _,
      fun _ => ⟨rfl, rfl, List.Subset.refl _⟩, fun hl => absurd hl hne, fun _ h => h⟩
  lasts := lasts_of_receipts rfl
  runs := .inl rfl
  admitted := .inl rfl

theorem Inv.loaded (h : Inv s) (hi : s.worker = some i ∨ s.caller = some i) : s.taskLoadPending = false := by
  by_contra hload
  obtain ⟨-, hworker, -, hcaller⟩ := h.loading (Bool.not_eq_false _ ▸ hload)
  rcases hi with hi | hi
  · rw [hworker] at hi
    cases hi
  · rw [hcaller] at hi
    cases hi

/-- A clear state is not repaired. -/
theorem Repaired.of_clear {r : Bool × Shared} (h : Repaired s i r) (hc : Clear key s) :
    r = (false, s) := h.same hc.loaded hc.saved (.inl hc.notification)

theorem next_classes (after : After) :
    after.next.works = after.works ∧ after.next.holds = after.holds ∧ after.next.calls = false := by
  cases after <;> exact ⟨rfl, rfl, rfl⟩

theorem next_local (h : after.Local s) : after.next.Local s := by
  cases after with
  | status => trivial
  | admission r => trivial
  | checked r => exact h
  | worker => exact h

theorem enter_advanced (h : Inv s) (hok : Ok i (.repair .enter after) s) (c : Choice) :
    Advanced s i n ((s.repair i c).2, if (s.repair i c).1 then .repair .calling after else after.next, none) := by
  have hr := repair_repaired h i c
  generalize s.repair i c = r at hr
  obtain ⟨calls, s'⟩ := r
  have hnot : s.caller ≠ some i := fun heq => Bool.false_ne_true (hok.calls.1 heq)
  have hlocal : after.Local s' := by
    have hknows : after.Local s := hok.knows
    cases after with
    | status => trivial
    | admission r => trivial
    | checked r =>
      obtain rfl : s' = s := congrArg Prod.snd (hr.of_clear hknows)
      exact hknows
    | worker =>
      unfold After.Local Over
      rw [hr.task (h.loaded (.inl (hok.works.2 rfl)))]
      exact hknows
  constructor
  · exact hr.inv
  · cases calls with
    | true =>
      obtain ⟨-, hcaller, hsettled, -⟩ := hr.calls rfl
      exact ⟨hr.worker ▸ hok.works, hr.lock ▸ hok.holds, iff_of_true hcaller rfl, hsettled, hlocal⟩
    | false =>
      obtain ⟨hworks, hholds, hcalls⟩ := next_classes after
      refine ⟨?_, ?_, ?_, next_local hlocal⟩
      · rw [hr.worker]
        exact hworks ▸ hok.works
      · rw [hr.lock]
        exact hholds ▸ hok.holds
      · rw [hr.quiet rfl]
        change s.caller = some i ↔ after.next.calls = true
        rw [hcalls]
        exact iff_of_false hnot Bool.false_ne_true
  · exact fun _ hpc => (nomatch hpc)
  · intro j hj _
    constructor
    · rw [hr.worker]
    · rw [hr.lock]
    · cases calls with
      | false => rw [hr.quiet rfl]
      | true =>
        obtain ⟨hnone, hcaller, -⟩ := hr.calls rfl
        rw [hcaller, hnone]
        exact iff_of_false (fun heq => hj (Option.some.inj heq).symm) fun heq => (nomatch heq)
    · exact hr.pruned
    · intro hj
      exact ⟨hr.task (h.loaded (.inl hj)), hr.runs, hr.admitted ▸ List.Subset.refl _⟩
    · intro _ key hclear
      obtain rfl : s' = s := congrArg Prod.snd (hr.of_clear hclear)
      exact hclear
    · intro hj hsettled
      have hactive : s.callbackActive = true := by
        rw [h.calling, hj]
        rfl
      obtain rfl : s' = s := congrArg Prod.snd (hr.same (h.loaded (.inr hj)) hsettled.1 (.inr hactive))
      exact hsettled
  · exact hr.lasts
  · exact .inl hr.runs
  · exact .inl hr.admitted

/-- A call of `on_success` that has not been left has no cleared start. -/
theorem After.Local.not_checked (h : after.Local s) (hcaller : s.caller = some i)
    (r : Request) : after ≠ .checked r := by
  rintro rfl
  have hclear : Clear r.key s := h
  rw [hclear.caller] at hcaller
  cases hcaller

theorem After.Local.same (h : after.Local s) (hnot : ∀ r, after ≠ .checked r)
    (htask : s'.task = s.task) : after.Local s' := by
  cases after with
  | status => trivial
  | admission r => trivial
  | checked r => exact absurd rfl (hnot r)
  | worker =>
    unfold After.Local Over
    rw [htask]
    exact h

theorem raised_advanced {cancelled : Bool} (h : Inv s) (hok : Ok i (.repair (.raised cancelled) after) s) :
    Advanced s i n ({ s with successNotificationPending := true }, .repair (.leaving cancelled) after, none) := by
  have hcaller : s.caller = some i := hok.calls.2 rfl
  obtain ⟨hsettled, hlocal⟩ := hok.knows
  constructor
  · refine { h with loading := fun htrue => ?_, notified := fun _ => hsettled.2 }
    change s.taskLoadPending = true at htrue
    rw [h.loaded (.inr hcaller)] at htrue
    cases htrue
  · exact ⟨hok.works, hok.holds, hok.calls, hsettled, hlocal.same (hlocal.not_checked hcaller) rfl⟩
  · exact fun _ hpc => (nomatch hpc)
  · intro j hj _
    have hne : s.caller ≠ some j := not_other (.inl hcaller) hj
    refine ⟨Iff.rfl, Iff.rfl, Iff.rfl, List.Subset.refl _, fun _ => ⟨rfl, rfl, List.Subset.refl _⟩, fun _ key hclear => ?_,
      fun hl => absurd hl hne⟩
    rw [hclear.caller] at hcaller
    cases hcaller
  · exact lasts_of_receipts rfl
  · exact .inl rfl
  · exact .inl rfl

/-- The caller leaves, and no one else is touched. -/
theorem leaves_caller (hcaller : s.caller = some i) (hj : j ≠ i) (startLock : Option ℕ)
    (hlock : startLock = s.startLock ∨ s.startLock = some i ∧ startLock = none) :
    Leaves j s { s with callbackActive := false, caller := none, startLock := startLock } := by
  have hne : s.caller ≠ some j := not_other (.inl hcaller) hj
  refine ⟨Iff.rfl, ?_, iff_of_false (fun h => (nomatch h)) hne, List.Subset.refl _,
    fun _ => ⟨rfl, rfl, List.Subset.refl _⟩, fun _ key hclear => ?_, fun hl => absurd hl hne⟩
  · rcases hlock with rfl | ⟨hown, rfl⟩
    · exact Iff.rfl
    · exact iff_of_false (fun h => (nomatch h)) (not_other (.inl hown) hj)
  · rw [hclear.caller] at hcaller
    cases hcaller

theorem leaving_advanced {cancelled : Bool} (h : Inv s) (hok : Ok i (.repair (.leaving cancelled) after) s) :
    Advanced s i n (let s := { s with callbackActive := false, caller := none }
      if cancelled then s.cancel after else (s, after.next, none)) := by
  have hcaller : s.caller = some i := hok.calls.2 rfl
  obtain ⟨hsettled, hlocal⟩ := hok.knows
  have hnot := hlocal.not_checked hcaller
  have hinv : Inv { s with callbackActive := false, caller := none } :=
    { h with
      loading := fun htrue => ⟨(h.loading htrue).1, (h.loading htrue).2.1, (h.loading htrue).2.2.1, rfl⟩
      calling := rfl }
  have hlocal' : after.Local { s with callbackActive := false, caller := none } := hlocal.same hnot rfl
  -- the thread goes on
  have hgoes : ∀ pc : Pc, pc.works = after.works → pc.holds = after.holds → pc.calls = false →
      pc.Local { s with callbackActive := false, caller := none } →
      Advanced s i n ({ s with callbackActive := false, caller := none }, pc, none) := by
    intro pc hworks hholds hcalls hknows
    refine ⟨hinv, ⟨hworks ▸ hok.works, hholds ▸ hok.holds, ?_, hknows⟩, fun _ hpc => (nomatch hpc),
      fun j hj _ => leaves_caller hcaller hj s.startLock (.inl rfl), lasts_of_receipts rfl, .inl rfl, .inl rfl⟩
    rw [hcalls]
    exact not_mine rfl
  -- a start is cancelled
  have hanswers : ∀ r, after.holds = true → after.works = false →
      Advanced s i n (Shared.answer { s with callbackActive := false, caller := none } r (.error .cancelled)) := by
    intro r hholds hworks
    refine ⟨hinv.lock none, ⟨?_, not_mine rfl,
      not_mine rfl, trivial⟩, fun _ hpc => (nomatch hpc),
      fun j hj _ => leaves_caller hcaller hj none (.inr ⟨hok.holds.2 hholds, rfl⟩), lasts_of_receipts rfl, .inl rfl, .inl rfl⟩
    have hw := hok.works
    unfold Pc.works at hw
    dsimp only at hw
    rw [hworks] at hw
    exact hw
  cases cancelled with
  | false =>
    obtain ⟨hworks, hholds, hcalls⟩ := next_classes after
    exact hgoes after.next hworks hholds hcalls (next_local hlocal')
  | true =>
    cases after with
    | status => exact hgoes (.done none) rfl rfl rfl trivial
    | admission r => exact hanswers r rfl rfl
    | checked r => exact absurd rfl (hnot r)
    | worker => exact hgoes (.clearing true) rfl rfl rfl hlocal'

/-- The receipt of a task that nobody owns. -/
theorem Inv.putOld (h : Inv s) {old new : Record} (hload : s.taskLoadPending = false)
    (htask : ∀ t ∈ s.task, t.id ≠ key) (hold : s.disk.receipts.lookup key = some old) (hopen : old.status.terminal = false)
    (hid : new.id = old.id) : Inv (s.putReceipt new) := by
  have hkey : new.id = key := hid.trans (h.keyed key old hold)
  refine
    { h with
      keyed := fun k r hr => ?_
      saved := fun hsaved t ht => ?_
      behind := fun t ht r hr => ?_
      file := fun d hd r hr => ?_
      other := fun hl d hd hne => ?_
      recorded := fun k hk => ?_ }
  · rw [lookup_putReceipt] at hr
    split_ifs at hr with heq
    · rw [← Option.some.inj hr, heq]
    · exact h.keyed k r hr
  · rw [lookup_putReceipt, hkey, if_neg (htask t ht)]
    exact h.saved hsaved t ht
  · rw [lookup_putReceipt, hkey, if_neg (htask t ht)] at hr
    exact h.behind t ht r hr
  · -- the file of another task has a terminal receipt
    have hne : d.id ≠ key := by
      rintro rfl
      obtain ⟨r', hr', hterminal⟩ := h.other hload d hd htask
      obtain rfl : old = r' := Option.some.inj (hold.symm.trans hr')
      rw [hopen] at hterminal
      cases hterminal
    rw [lookup_putReceipt, hkey, if_neg hne] at hr
    exact h.file d hd r hr
  · obtain ⟨r', hr', hterminal⟩ := h.other hl d hd hne
    have hdiffer : d.id ≠ key := by
      rintro rfl
      obtain rfl : old = r' := Option.some.inj (hold.symm.trans hr')
      rw [hopen] at hterminal
      cases hterminal
    refine ⟨r', ?_, hterminal⟩
    rw [lookup_putReceipt, hkey, if_neg hdiffer]
    exact hr'
  · rw [lookup_putReceipt]
    split_ifs
    · exact .inr rfl
    · exact h.recorded k hk

/-- The record that a key has. -/
def Shared.known (s : Shared) (key : String) : Option Record :=
  (s.task.filter (·.id = key)).or (s.disk.receipts.lookup key)

/-- What the first section of a start gives. -/
structure Admitted (s : Shared) (r : Request) (x : Except FirmwareError (Option Record) × Shared) : Prop where
  inv : Inv x.2
  lasts : Lasts s x.2
  same : x.2 = { s with disk := x.2.disk }
  record : ∀ t, x.1 = .ok (some t) → t.id = r.key ∧ t.action = r.action ∧ t.targetCommit = r.commit
  clear : x.1 = .ok none → s.known r.key = none ∧ x.2 = s ∧ Clear r.key s
  conflict : ∀ old, s.known r.key = some old → Shared.checkTaskIdentity old r = false →
    x.1 = .error idempotencyConflict ∨ ∃ message, x.1 = .error (stateUnavailable message)
  answered : ∀ old, s.known r.key = some old → Shared.checkTaskIdentity old r = true →
    (∃ t, x.1 = .ok (some t)) ∨ ∃ message, x.1 = .error (stateUnavailable message)

theorem checkTaskIdentity_eq (h : Shared.checkTaskIdentity t r = true) :
    t.action = r.action ∧ t.targetCommit = r.commit := by
  simpa [Shared.checkTaskIdentity] using h

/-- A section that gives an error and leaves the state alone. -/
theorem admitted_unavailable (h : Inv s) (r : Request) (message : String) :
    Admitted s r (.error (stateUnavailable message), s) where
  inv := h
  lasts := lasts_of_receipts rfl
  same := rfl
  record := fun _ ht => (nomatch ht)
  clear := fun hc => (nomatch hc)
  conflict := fun _ _ _ => .inr ⟨message, rfl⟩
  answered := fun _ _ _ => .inr ⟨message, rfl⟩

/-- A known record is answered, or it conflicts. -/
theorem admitted_known (h : Inv s) (hknown : s.known r.key = some t) (hid : t.id = r.key) :
    Admitted s r (if Shared.checkTaskIdentity t r then .ok (some t) else .error idempotencyConflict, s) := by
  have hsame : ∀ old, s.known r.key = some old → old = t := fun old ho => Option.some.inj (ho.symm.trans hknown)
  refine ⟨h, lasts_of_receipts rfl, rfl, fun x hx => ?_, fun hx => ?_, fun old ho hcheck => ?_, fun old ho hcheck => ?_⟩
  · dsimp only at hx
    split_ifs at hx with hcheck
    obtain rfl : t = x := Option.some.inj (Except.ok.inj hx)
    exact ⟨hid, checkTaskIdentity_eq hcheck⟩
  · dsimp only at hx
    split_ifs at hx
    cases Except.ok.inj hx
  · rw [hsame old ho] at hcheck
    exact .inl (if_neg (Bool.eq_false_iff.1 hcheck))
  · rw [hsame old ho] at hcheck
    exact .inl ⟨t, if_pos hcheck⟩

theorem admission_admitted (h : Inv s) (r : Request) (c : Choice) : Admitted s r (s.admission r c) := by
  unfold Shared.admission
  by_cases hload : s.taskLoadPending = true
  · rw [if_pos hload]
    exact admitted_unavailable h r _
  rw [if_neg hload]
  cases htask : s.task.filter (·.id = r.key) with
  | some t =>
    have hid : t.id = r.key := of_decide_eq_true (Option.filter_eq_some_iff.1 htask).2
    exact admitted_known h (by rw [Shared.known, htask]; rfl) hid
  | none =>
    have hne : ∀ t ∈ s.task, t.id ≠ r.key := by
      intro t ht heq
      rw [Option.filter_eq_none_iff] at htask
      exact htask t ht (decide_eq_true heq)
    have hknown : s.known r.key = s.disk.receipts.lookup r.key := by rw [Shared.known, htask, Option.none_or]
    dsimp only
    by_cases hreadable : (!c.receiptReadable) = true
    · rw [if_pos hreadable]
      exact admitted_unavailable h r _
    rw [if_neg hreadable]
    cases hlookup : s.disk.receipts.lookup r.key with
    | some old =>
      rw [hlookup] at hknown
      have hid : old.id = r.key := h.keyed r.key old hlookup
      dsimp only
      by_cases hvalid : (!old.valid (some r.key)) = true
      · rw [if_pos hvalid]
        exact admitted_unavailable h r _
      rw [if_neg hvalid]
      have hadmitted := admitted_known h hknown hid
      by_cases hcheck : Shared.checkTaskIdentity old r = true
      · rw [if_neg (by simpa using hcheck)]
        rw [if_pos hcheck] at hadmitted
        by_cases hterminal : old.status.terminal = true
        · rw [if_pos hterminal]
          exact hadmitted
        rw [if_neg hterminal]
        -- nobody owns the task
        have hopen : old.status.terminal = false := Bool.eq_false_iff.2 hterminal
        have hinv : Inv (s.putReceipt (old.finish .failed "更新任务曾中断，请检查当前版本后重试" c.now)) :=
          h.putOld (Bool.eq_false_iff.2 hload) hne hlookup hopen rfl
        have hlasts : Lasts s (s.putReceipt (old.finish .failed "更新任务曾中断，请检查当前版本后重试" c.now)) := by
          refine putReceipt_lasts (lasts_of_receipts rfl) fun x hx hxt => ?_
          rw [show (old.finish .failed "更新任务曾中断，请检查当前版本后重试" c.now).id = r.key from hid, hlookup] at hx
          rw [← Option.some.inj hx, hopen] at hxt
          cases hxt
        have hidentity := checkTaskIdentity_eq hcheck
        cases c.receipt with
        | written =>
          refine ⟨hinv, hlasts, rfl, fun x hx => ?_, fun hx => (nomatch hx), fun x hx hx' => ?_, fun x hx hx' => .inl ⟨_, rfl⟩⟩
          · cases Except.ok.inj hx
            exact ⟨hid, hidentity⟩
          · obtain rfl : old = x := Option.some.inj (hknown.symm.trans hx)
            rw [hcheck] at hx'
            cases hx'
        | lost => exact admitted_unavailable h r _
        | late =>
          exact ⟨hinv, hlasts, rfl, fun x hx => (nomatch hx), fun hx => (nomatch hx), fun _ _ _ => .inr ⟨_, rfl⟩,
            fun _ _ _ => .inr ⟨_, rfl⟩⟩
      · rw [if_pos (by simpa using hcheck)]
        rw [if_neg hcheck] at hadmitted
        exact hadmitted
    | none =>
      rw [hlookup] at hknown
      have hunknown : ∀ x : Except FirmwareError (Option Record), (∀ t, x ≠ .ok (some t)) → (x = .ok none → Clear r.key s) →
          Admitted s r (x, s) := by
        intro x hx hclear
        refine ⟨h, lasts_of_receipts rfl, rfl, fun t ht => absurd ht (hx t), fun hn => ⟨hknown, rfl, hclear hn⟩, fun old ho => ?_,
          fun old ho => ?_⟩
        · rw [hknown] at ho
          cases ho
        · rw [hknown] at ho
          cases ho
      dsimp only
      by_cases hpending : (s.taskSavePending || s.successNotificationPending) = true
      · rw [if_pos hpending]
        exact admitted_unavailable h r _
      rw [if_neg hpending]
      by_cases hbusy : (s.worker.isSome || s.callbackActive) = true
      · rw [if_pos hbusy]
        exact hunknown _ (fun t ht => (nomatch ht)) fun hn => (nomatch hn)
      · rw [if_neg hbusy]
        simp only [Bool.or_eq_true, not_or, Bool.not_eq_true] at hpending hbusy
        have hcaller : s.caller = none := by
          have := h.calling
          rw [hbusy.2] at this
          exact Option.isNone_iff_eq_none.1 (by simpa using this.symm)
        refine hunknown _ (fun t ht => (nomatch ht)) fun _ => ?_
        exact ⟨Option.isNone_iff_eq_none.1 (by simpa using hbusy.1), hpending.2, hcaller, hpending.1, Bool.eq_false_iff.2 hload, hne,
          hlookup⟩

theorem admission_advanced (h : Inv s) (hok : Ok i (.admission r) s) (c : Choice) :
    Advanced s i n (match s.admission r c with
      | (.error error, s) => s.answer r (.error (.error error))
      | (.ok (some t), s) => s.answer r (.ok t)
      | (.ok none, s) => (s, .checks r, none)) := by
  have hlock : s.startLock = some i := hok.holds.2 rfl
  have hadmitted := admission_admitted h r c
  generalize s.admission r c = x at hadmitted
  obtain ⟨x, s'⟩ := x
  have hsame : s' = { s with disk := s'.disk } := hadmitted.same
  -- an answer after the files were changed
  have hanswers : ∀ answer : Except Raised Record,
      (∀ t, answer = .ok t → t.id = r.key ∧ t.action = r.action ∧ t.targetCommit = r.commit) →
        Advanced s i n (s'.answer r answer) := by
    intro answer hanswer
    have hworker : s'.worker = s.worker := by rw [hsame]
    have hcaller : s'.caller = s.caller := by rw [hsame]
    refine ⟨hadmitted.inv.lock none, ⟨?_, not_mine rfl, ?_, ?_⟩,
      fun _ hpc => (nomatch hpc), fun j hj _ => ?_, hadmitted.lasts, .inl ?_, .inl ?_⟩
    · exact hworker ▸ hok.works
    · exact hcaller ▸ hok.calls
    · cases answer with
      | error raised => trivial
      | ok t => exact hanswer t rfl
    · unfold Shared.answer
      rw [hsame]
      exact leaves_disk hlock hj s'.disk
    · unfold Shared.answer
      rw [hsame]
    · unfold Shared.answer
      rw [hsame]
  cases x with
  | error error => exact hanswers _ fun t ht => (nomatch ht)
  | ok o =>
    cases o with
    | some t => exact hanswers _ fun t' ht' => Except.ok.inj ht' ▸ hadmitted.record t rfl
    | none =>
      obtain ⟨-, rfl, hclear⟩ := hadmitted.clear rfl
      exact advanced_same h hok rfl rfl rfl hclear

/-- A start that has not answered refuses. -/
theorem refuse_advanced (h : Inv s) (hok : Ok i pc s) (hholds : pc.holds = true)
    (hworks : pc.works = false) (hcalls : pc.calls = false) (error : FirmwareError) :
    Advanced s i n (s.answer r (.error (.error error))) := by
  refine answer_advanced h (hok.holds.2 hholds) (fun hw => ?_) (fun hc => ?_) fun t ht => (nomatch ht)
  · rw [hok.works, hworks] at hw
    cases hw
  · rw [hok.calls, hcalls] at hc
    cases hc

theorem saveTask_none (ht : s.task = none) (w : Save) : s.saveTask w = (false, s) := by
  simp only [Shared.saveTask, ht]

theorem saveTask_some (ht : s.task = some t) (w : Save) : s.saveTask w = s.saveRecord t w := by
  simp only [Shared.saveTask, ht]

/-- The worker of a save can be set before it. -/
theorem saveTask_worker (s : Shared) (worker : Option ℕ) (w : Save) :
    ({ s with worker := worker } : Shared).saveTask w = ((s.saveTask w).1, { (s.saveTask w).2 with worker := worker }) := by
  rcases Option.eq_none_or_eq_some s.task with ht | ⟨t, ht⟩
  · rw [saveTask_none ht, saveTask_none (show ({ s with worker := worker } : Shared).task = none from ht)]
  · rw [saveTask_some ht, saveTask_some (show ({ s with worker := worker } : Shared).task = some t from ht)]
    unfold Shared.saveRecord
    cases w.task with
    | lost => rfl
    | late => rfl
    | written => cases w.receipt <;> rfl

theorem Inv.noWorker (h : Inv s) (hover : Over s) : Inv { s with worker := none } :=
  { h with
    loading := fun htrue => ⟨(h.loading htrue).1, rfl, (h.loading htrue).2.2.1, (h.loading htrue).2.2.2⟩
    idle := fun _ => hover }

/-- A start with a clear state answers. -/
theorem start_answers (hlock : s.startLock = some i)
    (hclear : Clear key s) (hin : i ≠ n) (hinv : Inv s') (hcaller : s'.caller = none)
    (hworker : ∀ j, s'.worker = some j → j = n ∧ created ≠ none) (hpruned : s.pruned ⊆ s'.pruned) (hlasts : Lasts s s')
    (hruns : s'.runs = s.runs) (hanswer : ∀ t, answer = .ok t → t.id = r.key ∧ t.action = r.action ∧ t.targetCommit = r.commit)
    (hcreated : ∀ pc ∈ created, Ok n pc { s' with startLock := none })
    (hadmitted : s'.admitted = s.admitted ∨ Admits s s' (.done (some (r, answer))) created) :
    Advanced s i n ({ s' with startLock := none }, .done (some (r, answer)), created) where
  inv := hinv.lock none
  ok := by
    refine ⟨iff_of_false (fun heq => hin (hworker i heq).1) Bool.false_ne_true, not_mine rfl, not_mine hcaller, ?_⟩
    cases answer with
    | error raised => trivial
    | ok t => exact hanswer t rfl
  created := hcreated
  leaves := fun j hj hjn => by
    have hw : s.worker ≠ some j := not_other (.inr hclear.worker) hj
    have hl : s.startLock ≠ some j := not_other (.inl hlock) hj
    have hc : s.caller ≠ some j := not_other (.inr hclear.caller) hj
    exact ⟨iff_of_false (fun heq => (hworker j heq).2 (hjn (hworker j heq).1)) hw, iff_of_false (fun h => (nomatch h)) hl,
      iff_of_false (not_other (.inr hcaller) hj) hc, hpruned, fun h => absurd h hw, fun h => absurd h hl, fun h => absurd h hc⟩
  lasts := hlasts
  runs := .inl hruns
  admitted := hadmitted

/-- The task of a start is saved with the worker that it is to get. -/
theorem submit_saves (h : Inv s) (hclear : Clear r.key s) (n : ℕ) (now : ℤ) (w : Save) :
    Saves { s with worker := some n } (r.record now) (Shared.saveTask { s with worker := some n, task := some (r.record now) } w) := by
  have hw : Inv { s with worker := some n } := { h with
    loading := fun htrue => by
      change s.taskLoadPending = true at htrue
      rw [hclear.loaded] at htrue
      cases htrue
    idle := fun hnone => (nomatch hnone) }
  refine saveTask_saves (hw.replaceTask hclear.loaded hclear.notification (fun x hx _ => ?_) (fun d hd hne => ?_)
    fun hnone => (nomatch hnone)) _ w
  · change s.disk.receipts.lookup r.key = some x at hx
    rw [hclear.receipt] at hx
    cases hx
  · change d ∈ s.disk.task at hd
    by_cases hsome : ∀ t ∈ s.task, t.id ≠ d.id
    · exact h.other hclear.loaded d hd hsome
    · -- the file has the task of before
      push Not at hsome
      obtain ⟨x, hx, -⟩ := hsome
      obtain ⟨hfile, hreceipt⟩ := h.saved hclear.saved x hx
      obtain rfl : x = d := Option.some.inj (hfile.symm.trans hd)
      exact ⟨x, hreceipt, h.idle hclear.worker x hx⟩

variable {s₁ : Shared} {ok : Bool} {now : ℤ}

/-- A start that fails saves its task again, as a failure. -/
theorem submit_failed (hlock : s.startLock = some i) (hclear : Clear r.key s) (hin : i ≠ n)
    (hsaves : Saves { s with worker := some n } (r.record now) (ok, s₁)) (message : String) (w : Save) (raised : Raised)
    (hcreated : ∀ pc ∈ created, pc = .gate false) :
    Advanced s i n ({ (Shared.saveTask (Shared.finishTask { s₁ with worker := none } .failed message now) w).2 with
      startLock := none }, .done (some (r, .error raised)), created) := by
  have htask : s₁.task = some (r.record now) := hsaves.task
  rw [finishTask_eq (s := { s₁ with worker := none }) htask]
  have hfinish : Inv { s₁ with worker := none, task := some ((r.record now).finish .failed message now), taskSavePending := true } :=
    Inv.noWorker (s := { s₁ with task := some ((r.record now).finish .failed message now), taskSavePending := true })
      (hsaves.inv.goOn htask rfl rfl fun _ => rfl) fun x hx => Option.some.inj hx ▸ rfl
  have hagain := saveTask_saves (s := { s₁ with worker := none }) hfinish true w
  refine start_answers hlock hclear hin hagain.inv (hagain.caller.trans (hsaves.caller.trans hclear.caller))
    (fun j hj => (nomatch hagain.worker.symm.trans hj)) (List.Subset.trans hsaves.pruned hagain.pruned) ?_
    (hagain.runs.trans hsaves.runs) (fun t ht => (nomatch ht)) (fun pc hpc => ?_) (.inl (hagain.admitted.trans hsaves.admitted))
  · refine saveTask_lasts ?_ (fun x hx y hy => ?_) w
    · exact hsaves.lasts
    · obtain rfl := Option.some.inj hx
      cases hclear.receipt.symm.trans hy
  · rw [hcreated pc hpc]
    exact ⟨not_mine hagain.worker, not_mine rfl, not_mine (hagain.caller.trans (hsaves.caller.trans hclear.caller)), trivial⟩

/-- The worker of a start that goes through is the new thread. -/
theorem submit_started (h : Inv s) (hlock : s.startLock = some i) (hclear : Clear r.key s) (hin : i ≠ n)
    (hsaves : Saves { s with worker := some n } (r.record now) (ok, s₁)) :
    Advanced s i n ({ s₁ with admitted := r.key :: s₁.admitted, startLock := none }, .done (some (r, .ok (r.record now))),
      some (.gate true)) := by
  have hcaller : s₁.caller = none := hsaves.caller.trans hclear.caller
  have hadmitted : r.key :: s₁.admitted = r.key :: s.admitted := congrArg _ hsaves.admitted
  have hinv : Inv { s₁ with admitted := r.key :: s₁.admitted } := { hsaves.inv with }
  refine start_answers hlock hclear hin hinv hcaller
    (fun j hj => ⟨(Option.some.inj (hsaves.worker.symm.trans hj)).symm, fun h => (nomatch h)⟩) hsaves.pruned hsaves.lasts
    hsaves.runs (fun t ht => Except.ok.inj ht ▸ ⟨rfl, rfl, rfl⟩) (fun pc hpc => ?_) (.inr ⟨r, _, rfl, rfl, rfl, hadmitted⟩)
  obtain rfl := (Option.some.inj hpc).symm
  refine ⟨iff_of_true hsaves.worker rfl, not_mine rfl, not_mine hcaller, r.record now, hsaves.task, rfl, fun hrun => ?_,
    List.mem_cons_self⟩
  have hruns : s₁.runs = s.runs := hsaves.runs
  rcases h.recorded r.key (hruns ▸ hrun) with hp | hp
  · exact hsaves.pruned hp
  · rw [hclear.receipt] at hp
    cases hp

/-- The last section of a start admits its worker or answers that it failed. -/
theorem submit_advanced (h : Inv s) (hok : Ok i (.submission r) s)
    (hin : i ≠ n) (c : Choice) : Advanced s i n (s.submit r n c) := by
  have hlock : s.startLock = some i := hok.holds.2 rfl
  have hclear : Clear r.key s := hok.knows
  have hsaves := submit_saves h hclear n c.now c.saved
  have hsave : ({ s with task := some (r.record c.now) } : Shared).saveTask c.saved =
      ((Shared.saveTask { s with worker := some n, task := some (r.record c.now) } c.saved).1,
        { (Shared.saveTask { s with worker := some n, task := some (r.record c.now) } c.saved).2 with worker := none }) := by
    have hworker := saveTask_worker { s with worker := some n, task := some (r.record c.now) } none c.saved
    rw [← hworker, ← hclear.worker]
  unfold Shared.submit
  dsimp only
  rw [hsave]
  generalize Shared.saveTask { s with worker := some n, task := some (r.record c.now) } c.saved = saved at hsaves
  obtain ⟨ok, s₁⟩ := saved
  cases ok with
  | false => exact submit_failed hlock hclear hin hsaves _ _ _ fun _ hpc => (nomatch hpc)
  | true =>
    rw [Bool.not_true, if_neg Bool.false_ne_true]
    cases c.started with
    | failed => exact submit_failed hlock hclear hin hsaves _ _ _ fun _ hpc => (nomatch hpc)
    | failedCreated => exact submit_failed hlock hclear hin hsaves _ _ _ fun _ hpc => (Option.some.inj hpc).symm
    | started =>
      have hstarted := submit_started h hlock hclear hin hsaves
      have hworker : s₁.worker = some n := hsaves.worker
      rw [show s₁ = { s₁ with worker := some n } by rw [← hworker]] at hstarted
      exact hstarted

/-! ### The sections of a worker -/

theorem Open.not_settled (h : Open s) : ¬Settled s := by
  rintro ⟨-, t, ht, hstatus⟩
  obtain ⟨x, hx, hopen⟩ := h
  obtain rfl : t = x := Option.some.inj (ht.symm.trans hx)
  rw [hstatus] at hopen
  cases hopen

/-- What the worker leaves to the others. -/
theorem leaves_work (hworker : s.worker = some i) (hj : j ≠ i)
    (hnext : s'.worker = some i ∨ s'.worker = none) (hlock : s'.startLock = s.startLock) (hcaller : s'.caller = s.caller)
    (hpruned : s.pruned ⊆ s'.pruned) (hsettled : Settled s → Settled s') : Leaves j s s' := by
  have hne : s.worker ≠ some j := not_other (.inl hworker) hj
  refine ⟨iff_of_false (not_other hnext hj) hne, by rw [hlock], by rw [hcaller], hpruned, fun h => absurd h hne,
    fun _ key hclear => ?_, fun _ => hsettled⟩
  rw [hclear.worker] at hworker
  cases hworker

/-- The task of the worker is running in both files, or the section failed. -/
theorem executing_advanced (h : Inv s) (hok : Ok i .executing s) (c : Choice) :
    Advanced s i n (match s.runTask.saveTask c.saved, s.runTask.task with
      | (true, s), some t => ({ s with runs := s.runs ++ [t.id] }, .running t, none)
      | (_, s), _ => (s, .failing, none)) := by
  have hworker : s.worker = some i := hok.works.2 rfl
  obtain ⟨t, ht, hstatus, hfresh, hadmitted⟩ := hok.knows
  have hopen : t.status.terminal = false := by rw [hstatus]; rfl
  have hrun : s.runTask = { s with task := some t.run } := by rw [Shared.runTask, ht]; rfl
  have hsaves := saveTask_saves (h.goOn ht hopen rfl fun hnone => (nomatch hworker.symm.trans hnone) :
    Inv { s with task := some t.run, taskSavePending := true }) s.taskSavePending c.saved
  rw [hrun]
  generalize Shared.saveTask { s with task := some t.run } c.saved = saved at hsaves
  obtain ⟨ok, s₂⟩ := saved
  have hworker₂ : s₂.worker = some i := hsaves.worker.trans hworker
  have hlock₂ : s₂.startLock = s.startLock := hsaves.lock
  have hcaller₂ : s₂.caller = s.caller := hsaves.caller
  have hnot : Settled s → ∀ s' : Shared, Settled s' := fun hsettled => absurd hsettled (Open.not_settled ⟨t, ht, hopen⟩)
  cases ok with
  | false =>
    refine ⟨hsaves.inv, ⟨iff_of_true hworker₂ rfl, hlock₂ ▸ hok.holds, hcaller₂ ▸ hok.calls, t.run, hsaves.task, rfl⟩,
      fun _ hpc => (nomatch hpc), fun j hj _ => ?_, hsaves.lasts, .inl hsaves.runs, .inl hsaves.admitted⟩
    exact leaves_work hworker hj (.inl hworker₂) hlock₂ hcaller₂ hsaves.pruned fun hs => hnot hs _
  | true =>
    obtain ⟨hfile, hreceipt⟩ := hsaves.saved rfl
    have hruns₂ : s₂.runs = s.runs := hsaves.runs
    have hadmitted₂ : s₂.admitted = s.admitted := hsaves.admitted
    refine ⟨?_, ⟨iff_of_true hworker₂ rfl, hlock₂ ▸ hok.holds, hcaller₂ ▸ hok.calls, t.run, hsaves.task, rfl⟩,
      fun _ hpc => (nomatch hpc), fun j hj _ => ?_, hsaves.lasts, .inr ⟨t.run, rfl, ?_, hsaves.task, hfile, hreceipt, ?_⟩,
      .inl hadmitted₂⟩
    · refine { hsaves.inv with recorded := fun key hkey => ?_, once := ?_ }
      · rcases mem_concat.1 hkey with hkey | rfl
        · exact hsaves.inv.recorded key hkey
        · exact .inr (Option.isSome_iff_exists.2 ⟨_, hreceipt⟩)
      · change ((s₂.runs ++ [t.run.id]).filter (· ∉ s₂.pruned)).Nodup
        rw [List.filter_append]
        by_cases hp : t.run.id ∈ s₂.pruned
        · rw [List.filter_cons_of_neg (by simpa using hp), List.filter_nil, List.append_nil]
          exact hsaves.inv.once
        · have hnew : t.run.id ∉ s₂.runs := by
            rw [hruns₂]
            exact fun hmem => hp (hsaves.pruned (hfresh hmem))
          rw [List.filter_cons_of_pos (by simpa using hp), List.filter_nil]
          refine List.nodup_append.2 ⟨hsaves.inv.once, List.nodup_singleton _, fun a ha b hb => ?_⟩
          rw [List.mem_singleton.1 hb]
          rintro rfl
          exact hnew (List.mem_filter.1 ha).1
    · exact leaves_work hworker hj (.inl hworker₂) hlock₂ hcaller₂ hsaves.pruned fun hs => hnot hs _
    · change s₂.runs ++ [t.run.id] = s.runs ++ [t.run.id]
      rw [hruns₂]
    · change t.run.id ∈ s₂.admitted
      rw [hadmitted₂]
      exact hadmitted

theorem failing_advanced (h : Inv s) (hok : Ok i .failing s) (message : String) (c : Choice) :
    Advanced s i n (((s.finishTask .failed message c.now).saveTask c.saved).2, .clearing true, none) := by
  have hworker : s.worker = some i := hok.works.2 rfl
  obtain ⟨t, ht, hopen⟩ := hok.knows
  rw [finishTask_eq ht]
  have hsaves := saveTask_saves (h.goOn ht hopen rfl fun _ => rfl :
    Inv { s with task := some (t.finish .failed message c.now), taskSavePending := true }) true c.saved
  refine ⟨hsaves.inv, ⟨iff_of_true (hsaves.worker.trans hworker) rfl, ?_, ?_, fun x hx => ?_⟩, fun _ hpc => (nomatch hpc),
    fun j hj _ => ?_, hsaves.lasts, .inl hsaves.runs, .inl hsaves.admitted⟩
  · rw [hsaves.lock]
    exact hok.holds
  · rw [hsaves.caller]
    exact hok.calls
  · cases hsaves.task.symm.trans hx
    rfl
  · exact leaves_work hworker hj (.inl (hsaves.worker.trans hworker)) hsaves.lock hsaves.caller hsaves.pruned
      fun hs => absurd hs (Open.not_settled ⟨t, ht, hopen⟩)

theorem succeeding_advanced (h : Inv s) (hok : Ok i .succeeding s) (message : String) (now : ℤ) :
    Advanced s i n ({ s.finishTask .succeeded message now with successNotificationPending := true },
      .repair .enter .worker, none) := by
  have hworker : s.worker = some i := hok.works.2 rfl
  obtain ⟨t, ht, hopen⟩ := hok.knows
  have hinv : Inv (s.finishTask .succeeded message now) := finishTask_inv h ht hopen rfl _ _
  have htask : (s.finishTask .succeeded message now).task = some (t.finish .succeeded message now) := by
    rw [finishTask_eq ht]
  constructor
  · refine { hinv with loading := fun htrue => ?_, notified := fun _ => ⟨_, htask, rfl⟩ }
    change s.taskLoadPending = true at htrue
    rw [h.loaded (.inl hworker)] at htrue
    cases htrue
  · refine ⟨hok.works, hok.holds, hok.calls, fun x hx => ?_⟩
    cases htask.symm.trans (show (s.finishTask .succeeded message now).task = some x from hx)
    rfl
  · exact fun _ hpc => (nomatch hpc)
  · intro j hj _
    exact leaves_work hworker hj (.inl hworker) rfl rfl (List.Subset.refl _)
      fun hs => absurd hs (Open.not_settled ⟨t, ht, hopen⟩)
  · exact lasts_of_receipts rfl
  · exact .inl rfl
  · exact .inl rfl

theorem clearing_advanced {admitted : Bool} (h : Inv s) (hok : Ok i (.clearing admitted) s) :
    Advanced s i n ({ s with worker := if s.worker = some i then none else s.worker }, .done none, none) := by
  cases admitted with
  | false =>
    have hne : s.worker ≠ some i := fun heq => Bool.false_ne_true (hok.works.1 heq)
    rw [if_neg hne]
    exact advanced_same h hok rfl rfl rfl trivial
  | true =>
    have hworker : s.worker = some i := hok.works.2 rfl
    rw [if_pos hworker]
    refine ⟨h.noWorker hok.knows, ⟨not_mine rfl, hok.holds, hok.calls, trivial⟩,
      fun _ hpc => (nomatch hpc), fun j hj _ => ?_, lasts_of_receipts rfl, .inl rfl, .inl rfl⟩
    exact leaves_work hworker hj (.inr rfl) rfl rfl (List.Subset.refl _) fun hs => hs

/-! ### Every section -/

theorem advance_advanced {r : Shared × Pc × Option Pc} (h : Inv s) (hok : Ok i pc s)
    (hin : i ≠ n) {c : Choice} (hadvance : s.advance i n c pc = some r) : Advanced s i n r := by
  cases pc with
  | starting request =>
    unfold Shared.advance at hadvance
    dsimp only at hadvance
    split at hadvance
    · cases hadvance
    · rename_i hfree
      cases hadvance
      exact starting_advanced h hok (Option.not_isSome_iff_eq_none.1 hfree)
  | repair stage after =>
    cases stage with
    | enter =>
      cases hadvance
      exact enter_advanced h hok c
    | calling =>
      unfold Shared.advance at hadvance
      dsimp only at hadvance
      split at hadvance
      · cases hadvance
        exact advanced_same h hok rfl rfl rfl hok.knows
      · cases hadvance
        exact advanced_same h hok rfl rfl rfl hok.knows
      · cases hadvance
        exact advanced_same h hok rfl rfl rfl hok.knows
    | raised cancelled =>
      cases hadvance
      exact raised_advanced h hok
    | leaving cancelled =>
      cases hadvance
      exact leaving_advanced h hok
  | admission request =>
    have hsome := admission_advanced (n := n) h hok c
    unfold Shared.advance at hadvance
    dsimp only at hadvance
    split at hadvance
    · rename_i heq
      rw [heq] at hsome
      cases hadvance
      exact hsome
    · rename_i heq
      rw [heq] at hsome
      cases hadvance
      exact hsome
    · rename_i heq
      rw [heq] at hsome
      cases hadvance
      exact hsome
  | checks request =>
    unfold Shared.advance at hadvance
    dsimp only at hadvance
    split at hadvance
    · cases hadvance
      exact refuse_advanced h hok rfl rfl rfl _
    · cases hadvance
      exact advanced_same h hok rfl rfl rfl hok.knows
    · cases hadvance
      exact advanced_same h hok rfl rfl rfl hok.knows
  | checked request =>
    unfold Shared.advance at hadvance
    dsimp only at hadvance
    split at hadvance
    · cases hadvance
      exact refuse_advanced h hok rfl rfl rfl _
    · cases hadvance
      exact advanced_same h hok rfl rfl rfl hok.knows
  | submission request =>
    cases hadvance
    exact submit_advanced h hok hin c
  | gate admitted =>
    cases hadvance
    cases admitted with
    | false => exact advanced_same h hok rfl rfl rfl trivial
    | true => exact advanced_same h hok rfl rfl rfl hok.knows
  | executing =>
    have hsome := executing_advanced (n := n) h hok c
    unfold Shared.advance at hadvance
    dsimp only at hadvance
    generalize s.runTask.saveTask c.saved = saved at hsome hadvance
    generalize s.runTask.task = task at hsome hadvance
    obtain ⟨ok, s₁⟩ := saved
    cases ok with
    | false =>
      cases hadvance
      exact hsome
    | true =>
      cases task with
      | none =>
        cases hadvance
        exact hsome
      | some t =>
        cases hadvance
        exact hsome
  | running task =>
    cases hadvance
    cases c.succeeds with
    | false => exact advanced_same h hok rfl rfl rfl hok.knows
    | true => exact advanced_same h hok rfl rfl rfl hok.knows
  | failing =>
    cases hadvance
    exact failing_advanced h hok _ c
  | succeeding =>
    cases hadvance
    exact succeeding_advanced h hok _ _
  | clearing admitted =>
    cases hadvance
    exact clearing_advanced h hok
  | refused error => cases hadvance
  | done answer => cases hadvance

end Conductor.Firmware
