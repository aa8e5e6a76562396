import Conductor.Firmware.Supervisor

/-! What the files and the fields of the supervisor keep between two sections. A receipt with a terminal
status has the status of the task with its id, in memory and in `task.json`; and a task that is
not waiting to be saved is in both files. -/

namespace Conductor.Firmware

open KeyTable

structure Inv (s : Shared) : Prop where
  keyed : ∀ key r, s.disk.receipts.lookup key = some r → r.id = key
  saved : s.taskSavePending = false → ∀ t ∈ s.task, s.disk.task = some t ∧ s.disk.receipts.lookup t.id = some t
  behind : ∀ t ∈ s.task, ∀ r, s.disk.receipts.lookup t.id = some r → r.status.terminal = true → t.status = r.status
  file : ∀ d ∈ s.disk.task, ∀ r, s.disk.receipts.lookup d.id = some r → r.status.terminal = true → d.status = r.status
  other : s.taskLoadPending = false → ∀ d ∈ s.disk.task, (∀ t ∈ s.task, t.id ≠ d.id) →
    ∃ r, s.disk.receipts.lookup d.id = some r ∧ r.status.terminal = true
  recorded : ∀ key ∈ s.runs, key ∈ s.pruned ∨ (s.disk.receipts.lookup key).isSome = true
  once : (s.runs.filter (· ∉ s.pruned)).Nodup
  loading : s.taskLoadPending = true →
    s.task = none ∧ s.worker = none ∧ s.successNotificationPending = false ∧ s.caller = none
  calling : s.callbackActive = s.caller.isSome
  notified : s.successNotificationPending = true → ∃ t, s.task = some t ∧ t.status = .succeeded
  idle : s.worker = none → ∀ t ∈ s.task, t.status.terminal = true

/-- A terminal receipt has its status as long as it is there. -/
def Lasts (s s' : Shared) : Prop :=
  ∀ key r r', s.disk.receipts.lookup key = some r → r.status.terminal = true → s'.disk.receipts.lookup key = some r' →
    r'.status = r.status

variable {s : Shared} {t : Record}

theorem lasts_of_receipts {s' : Shared} (h : s'.disk.receipts = s.disk.receipts) : Lasts s s' := by
  intro key r r' hr _ hr'
  rw [h, hr] at hr'
  rw [Option.some.inj hr']

/-! ### Saving -/

theorem Inv.pending (h : Inv s) : Inv { s with taskSavePending := true } :=
  { h with saved := fun hfalse => (nomatch hfalse) }

/-- `task.json` gets the task. -/
theorem Inv.putTask (h : Inv s) (hpending : s.taskSavePending = true) (ht : s.task = some t) :
    Inv (s.putTask t) := by
  have hown : ∀ d ∈ some t, d = t := fun d hd => (Option.some.inj hd).symm
  refine { h with saved := fun hfalse => ?_, file := fun d hd => ?_, other := fun _ d hd hne => ?_ }
  · change s.taskSavePending = false at hfalse
    rw [hpending] at hfalse
    cases hfalse
  · rw [hown d hd]
    exact h.behind t ht
  · exact absurd (hown d hd ▸ rfl) (hne t ht)

theorem lookup_putReceipt (s : Shared) (t : Record) (key : String) :
    (s.putReceipt t).disk.receipts.lookup key = if key = t.id then some t else s.disk.receipts.lookup key :=
  lookup_insertOrReplace _ _ key

/-- The receipt gets the task that `task.json` has. -/
theorem Inv.putReceipt (h : Inv s) (hpending : s.taskSavePending = true) (ht : s.task = some t)
    (hdisk : s.disk.task = some t) : Inv (s.putReceipt t) := by
  have hown : ∀ r, (s.putReceipt t).disk.receipts.lookup t.id = some r → t = r := by
    intro r hr
    rw [lookup_putReceipt, if_pos rfl] at hr
    exact Option.some.inj hr
  have htask : ∀ x ∈ (s.putReceipt t).task, x = t := fun x hx => Option.some.inj ((show s.task = some x from hx).symm.trans ht)
  have hfile : ∀ d ∈ (s.putReceipt t).disk.task, d = t := fun d hd =>
    Option.some.inj ((show s.disk.task = some d from hd).symm.trans hdisk)
  refine
    { h with
      keyed := fun key r hr => ?_
      saved := fun hfalse => ?_
      behind := fun x hx r hr _ => ?_
      file := fun d hd r hr _ => ?_
      other := fun _ d hd hne => ?_
      recorded := fun key hkey => ?_ }
  · rw [lookup_putReceipt] at hr
    split_ifs at hr with heq
    · rw [← Option.some.inj hr, heq]
    · exact h.keyed key r hr
  · change s.taskSavePending = false at hfalse
    rw [hpending] at hfalse
    cases hfalse
  · obtain rfl := htask x hx
    rw [hown r hr]
  · obtain rfl := hfile d hd
    rw [hown r hr]
  · exact absurd (hfile d hd ▸ rfl) (hne t ht)
  · rw [lookup_putReceipt]
    split_ifs with heq
    · exact .inr rfl
    · exact h.recorded key hkey

theorem lookup_prune (s : Shared) (t : Record) (old : List String) {key : String} {r : Record}
    (h : (s.prune t old).disk.receipts.lookup key = some r) : s.disk.receipts.lookup key = some r := by
  unfold Shared.prune at h
  dsimp only at h
  rw [lookup_foldl_delete] at h
  split_ifs at h
  exact h

/-- Old receipts are removed while both files have the task. -/
theorem Inv.prune (h : Inv s) (ht : s.task = some t) (hdisk : s.disk.task = some t)
    (hreceipt : s.disk.receipts.lookup t.id = some t) (old : List String) :
    Inv { s.prune t old with taskSavePending := false } := by
  obtain ⟨keys, hkeys⟩ : ∃ keys, keys = old.filter fun key => key ≠ t.id && (s.disk.receipts.lookup key).isSome := ⟨_, rfl⟩
  have hprune : s.prune t old =
      { s with disk := { s.disk with receipts := keys.foldl delete s.disk.receipts }, pruned := s.pruned ++ keys } := by
    rw [hkeys]
    rfl
  have hnot : t.id ∉ keys := by
    rw [hkeys, List.mem_filter]
    simp
  have hkept : ∀ key r, (keys.foldl delete s.disk.receipts).lookup key = some r → s.disk.receipts.lookup key = some r := by
    intro key r hr
    refine lookup_prune s t old ?_
    rw [hprune]
    exact hr
  have hown : (keys.foldl delete s.disk.receipts).lookup t.id = some t := by
    rw [lookup_foldl_delete, if_neg hnot, hreceipt]
  rw [hprune]
  refine
    { h with
      keyed := fun key r hr => h.keyed key r (hkept key r hr)
      saved := fun _ x hx => ?_
      behind := fun x hx r hr => h.behind x hx r (hkept _ r hr)
      file := fun d hd r hr => h.file d hd r (hkept _ r hr)
      other := fun _ d hd hne => ?_
      recorded := fun key hkey => ?_
      once := ?_ }
  · change x ∈ s.task at hx
    rw [ht] at hx
    cases hx
    exact ⟨hdisk, hown⟩
  · change d ∈ s.disk.task at hd
    rw [hdisk] at hd
    cases hd
    exact absurd rfl (hne t ht)
  · rcases h.recorded key hkey with hpruned | hrecorded
    · exact .inl (List.mem_append_left _ hpruned)
    · by_cases hmem : key ∈ keys
      · exact .inl (List.mem_append_right _ hmem)
      · refine .inr ?_
        rw [lookup_foldl_delete, if_neg hmem]
        exact hrecorded
  · refine h.once.sublist (List.monotone_filter_right _ fun key hkey => ?_)
    simp only [decide_eq_true_eq, List.mem_append, not_or] at hkey ⊢
    exact hkey.1

/-- What a save leaves alone. -/
structure SaveKeeps (s s' : Shared) : Prop where
  task : s'.task = s.task
  worker : s'.worker = s.worker
  notification : s'.successNotificationPending = s.successNotificationPending
  callback : s'.callbackActive = s.callbackActive
  load : s'.taskLoadPending = s.taskLoadPending
  lock : s'.startLock = s.startLock
  caller : s'.caller = s.caller
  admitted : s'.admitted = s.admitted
  runs : s'.runs = s.runs
  pruned : s.pruned ⊆ s'.pruned

theorem saveKeeps_refl (s : Shared) : SaveKeeps s s :=
  ⟨rfl, rfl, rfl, rfl, rfl, rfl, rfl, rfl, rfl, List.Subset.refl _⟩

theorem saveRecord_keeps (s : Shared) (t : Record) (w : Save) : SaveKeeps s (s.saveRecord t w).2 := by
  unfold Shared.saveRecord
  cases w.task with
  | lost => exact ⟨rfl, rfl, rfl, rfl, rfl, rfl, rfl, rfl, rfl, List.Subset.refl _⟩
  | late => exact ⟨rfl, rfl, rfl, rfl, rfl, rfl, rfl, rfl, rfl, List.Subset.refl _⟩
  | written =>
    cases w.receipt with
    | lost => exact ⟨rfl, rfl, rfl, rfl, rfl, rfl, rfl, rfl, rfl, List.Subset.refl _⟩
    | late => exact ⟨rfl, rfl, rfl, rfl, rfl, rfl, rfl, rfl, rfl, List.Subset.refl _⟩
    | written => exact ⟨rfl, rfl, rfl, rfl, rfl, rfl, rfl, rfl, rfl, List.subset_append_left _ _⟩

theorem saveTask_keeps (s : Shared) (w : Save) : SaveKeeps s (s.saveTask w).2 := by
  unfold Shared.saveTask
  split
  · exact saveKeeps_refl s
  · exact saveRecord_keeps s _ w

theorem saveTask_inv (h : Inv s) (w : Save) : Inv (s.saveTask w).2 := by
  unfold Shared.saveTask
  split
  · exact h
  · rename_i t ht
    have hpending : Inv { s with taskSavePending := true } := h.pending
    have htask := hpending.putTask rfl ht
    have hreceipt := htask.putReceipt rfl ht rfl
    unfold Shared.saveRecord
    cases w.task with
    | lost => exact hpending
    | late => exact htask
    | written =>
      cases w.receipt with
      | lost => exact htask
      | late => exact hreceipt
      | written =>
        refine hreceipt.prune ht rfl ?_ w.old
        rw [lookup_putReceipt, if_pos rfl]

/-- A save that returns has the task in both files. -/
theorem saveTask_saved {w : Save} (hw : (s.saveTask w).1 = true) : (s.saveTask w).2.taskSavePending = false := by
  unfold Shared.saveTask at hw ⊢
  split at hw
  · cases hw
  · unfold Shared.saveRecord at hw ⊢
    cases htask : w.task with
    | lost => rw [htask] at hw; cases hw
    | late => rw [htask] at hw; cases hw
    | written =>
      cases hreceipt : w.receipt with
      | lost => rw [htask, hreceipt] at hw; cases hw
      | late => rw [htask, hreceipt] at hw; cases hw
      | written => rfl

theorem putReceipt_lasts {s₀ : Shared} (h : Lasts s₀ s)
    (ht : ∀ r, s₀.disk.receipts.lookup t.id = some r → r.status.terminal = true → t.status = r.status) :
    Lasts s₀ (s.putReceipt t) := by
  intro key r r' hr hterminal hr'
  rw [lookup_putReceipt] at hr'
  split_ifs at hr' with heq
  · rw [heq] at hr
    rw [← Option.some.inj hr']
    exact ht r hr hterminal
  · exact h key r r' hr hterminal hr'

theorem saveTask_lasts {s₀ : Shared} (h : Lasts s₀ s)
    (ht : ∀ t ∈ s.task, ∀ r, s₀.disk.receipts.lookup t.id = some r → r.status.terminal = true → t.status = r.status)
    (w : Save) : Lasts s₀ (s.saveTask w).2 := by
  unfold Shared.saveTask
  split
  · exact h
  · rename_i t htask
    have hput : ∀ pending, Lasts s₀ (({ s with taskSavePending := pending } : Shared).putTask t |>.putReceipt t) :=
      fun pending => putReceipt_lasts (s := ({ s with taskSavePending := pending } : Shared).putTask t) h (ht t htask)
    unfold Shared.saveRecord
    cases w.task with
    | lost => exact h
    | late => exact h
    | written =>
      cases w.receipt with
      | lost => exact h
      | late => exact hput true
      | written =>
        intro key r r' hr hterminal hr'
        exact hput true key r r' hr hterminal (lookup_prune _ t w.old hr')

/-- A save begins by marking the task. -/
theorem saveTask_pending (s : Shared) (ht : s.task = some t) (w : Save) :
    ({ s with taskSavePending := true } : Shared).saveTask w = s.saveTask w := by
  have hof : ∀ x : Shared, x.task = some t → x.saveTask w = x.saveRecord t w := by
    intro x hx
    simp only [Shared.saveTask, hx]
  rw [hof s ht, hof { s with taskSavePending := true } ht]
  rfl

/-- A task that changes and is to be saved: with the status of a terminal receipt of its id, and terminal unless there
is a worker. -/
theorem Inv.replaceTask (h : Inv s) (hload : s.taskLoadPending = false)
    (hnotification : s.successNotificationPending = false)
    (hbehind : ∀ r, s.disk.receipts.lookup t.id = some r → r.status.terminal = true → t.status = r.status)
    (hother : ∀ d ∈ s.disk.task, t.id ≠ d.id → ∃ r, s.disk.receipts.lookup d.id = some r ∧ r.status.terminal = true)
    (hidle : s.worker = none → t.status.terminal = true) :
    Inv { s with task := some t, taskSavePending := true } := by
  have hown : ∀ x ∈ some t, x = t := fun x hx => (Option.some.inj hx).symm
  refine
    { h with
      saved := fun hfalse => (nomatch hfalse)
      behind := fun x hx => ?_
      other := fun _ d hd hne => hother d hd (hne t rfl)
      loading := fun htrue => ?_
      notified := fun htrue => ?_
      idle := fun hnone x hx => ?_ }
  · rw [hown x hx]
    exact hbehind
  · change s.taskLoadPending = true at htrue
    rw [hload] at htrue
    cases htrue
  · change s.successNotificationPending = true at htrue
    rw [hnotification] at htrue
    cases htrue
  · rw [hown x hx]
    exact hidle hnone

/-- A task that goes on keeps its id. -/
theorem Inv.goOn (h : Inv s) {t' : Record} (ht : s.task = some t) (hopen : t.status.terminal = false)
    (hid : t'.id = t.id) (hidle : s.worker = none → t'.status.terminal = true) :
    Inv { s with task := some t', taskSavePending := true } := by
  have hload : s.taskLoadPending = false := by
    by_contra hload
    rw [(h.loading (Bool.not_eq_false _ ▸ hload)).1] at ht
    cases ht
  have hnotification : s.successNotificationPending = false := by
    by_contra hnotification
    obtain ⟨x, hx, hstatus⟩ := h.notified (Bool.not_eq_false _ ▸ hnotification)
    obtain rfl : t = x := Option.some.inj (ht.symm.trans hx)
    rw [hstatus] at hopen
    cases hopen
  refine h.replaceTask hload hnotification (fun r hr hterminal => ?_) (fun d hd hne => ?_) hidle
  · rw [hid] at hr
    rw [h.behind t ht r hr hterminal, hterminal] at hopen
    cases hopen
  · refine h.other hload d hd fun x hx => ?_
    obtain rfl : t = x := Option.some.inj (ht.symm.trans hx)
    rw [← hid]
    exact hne

/-- What a save of a new task gives. -/
structure Saves (s : Shared) (t : Record) (r : Bool × Shared) : Prop where
  inv : Inv r.2
  lasts : Lasts s r.2
  task : r.2.task = some t
  worker : r.2.worker = s.worker
  lock : r.2.startLock = s.startLock
  caller : r.2.caller = s.caller
  admitted : r.2.admitted = s.admitted
  runs : r.2.runs = s.runs
  pruned : s.pruned ⊆ r.2.pruned
  saved : r.1 = true → r.2.disk.task = some t ∧ r.2.disk.receipts.lookup t.id = some t

theorem saveTask_saves (h : Inv { s with task := some t, taskSavePending := true }) (pending : Bool) (w : Save) :
    Saves s t (Shared.saveTask { s with task := some t, taskSavePending := pending } w) := by
  rw [← saveTask_pending { s with task := some t, taskSavePending := pending } rfl w]
  have hkeeps := saveTask_keeps { s with task := some t, taskSavePending := true } w
  have hinv := saveTask_inv h w
  exact ⟨hinv, saveTask_lasts (lasts_of_receipts rfl) h.behind w, hkeeps.task, hkeeps.worker, hkeeps.lock, hkeeps.caller,
    hkeeps.admitted, hkeeps.runs, hkeeps.pruned, fun hok => hinv.saved (saveTask_saved hok) t hkeeps.task⟩

theorem finishTask_eq (ht : s.task = some t) (status : TaskStatus) (message : String) (now : ℤ) :
    s.finishTask status message now = { s with task := some (t.finish status message now), taskSavePending := true } := by
  unfold Shared.finishTask
  rw [ht]
  rfl

theorem finishTask_inv (h : Inv s) (ht : s.task = some t) (hopen : t.status.terminal = false)
    {status : TaskStatus} (hstatus : status.terminal = true) (message : String) (now : ℤ) :
    Inv (s.finishTask status message now) := by
  rw [finishTask_eq ht]
  exact h.goOn ht hopen rfl fun _ => hstatus

/-! ### Restoring -/

/-- What a restore leaves alone. -/
structure RestoreKeeps (s s' : Shared) : Prop where
  worker : s'.worker = s.worker
  notification : s'.successNotificationPending = s.successNotificationPending
  callback : s'.callbackActive = s.callbackActive
  lock : s'.startLock = s.startLock
  caller : s'.caller = s.caller
  admitted : s'.admitted = s.admitted
  runs : s'.runs = s.runs
  pruned : s.pruned ⊆ s'.pruned

theorem SaveKeeps.restore {s' : Shared} (h : SaveKeeps s s') : RestoreKeeps s s' :=
  ⟨h.worker, h.notification, h.callback, h.lock, h.caller, h.admitted, h.runs, h.pruned⟩

/-- The task of the file, which nobody executes any more. -/
def Record.abandon (r : Record) (now : ℤ) : Record :=
  if r.status.terminal then r else r.finish .failed "更新服务曾中断，请检查当前版本后重试" now

theorem abandon_id (r : Record) (now : ℤ) : (r.abandon now).id = r.id := by
  unfold Record.abandon
  split_ifs <;> rfl

theorem abandon_terminal (r : Record) (now : ℤ) : (r.abandon now).status.terminal = true := by
  unfold Record.abandon
  split_ifs with h
  · exact h
  · rfl

theorem restoreTaskState_eq (s : Shared) (allowMissing : Bool) (c : Choice) :
    s.restoreTaskState allowMissing c = (false, { s with taskLoadPending := true }) ∨
      s.disk.task = none ∧ s.restoreTaskState allowMissing c = (true, { s with taskLoadPending := false }) ∨
      ∃ t, s.disk.task = some t ∧ s.restoreTaskState allowMissing c =
        (true, (Shared.saveTask { s with taskLoadPending := false, task := some (t.abandon c.now), taskSavePending := true }
          c.restored).2) := by
  unfold Shared.restoreTaskState Shared.readTask
  cases c.readable with
  | false => exact .inl rfl
  | true =>
    cases hdisk : s.disk.task with
    | none =>
      cases allowMissing with
      | false => exact .inl rfl
      | true => exact .inr (.inl ⟨rfl, rfl⟩)
    | some t =>
      cases hvalid : t.valid none with
      | false =>
        left
        simp only [Bool.not_true, Bool.false_eq_true, if_false, hvalid]
      | true =>
        refine .inr (.inr ⟨t, rfl, ?_⟩)
        simp only [Bool.not_true, Bool.false_eq_true, if_false, hvalid, if_true]
        unfold Record.abandon Shared.finishTask
        split_ifs <;> rfl

/-- What a restore gives. -/
structure Restored (s : Shared) (r : Bool × Shared) : Prop where
  inv : Inv r.2
  lasts : Lasts s r.2
  behind : ∀ t ∈ r.2.task, ∀ x, s.disk.receipts.lookup t.id = some x → x.status.terminal = true → t.status = x.status
  keeps : RestoreKeeps s r.2
  load : r.1 = true → r.2.taskLoadPending = false

theorem restoreTaskState_restored (h : Inv s) (hload : s.taskLoadPending = true) (allowMissing : Bool) (c : Choice) :
    Restored s (s.restoreTaskState allowMissing c) := by
  obtain ⟨htask, hworker, hnotification, hcaller⟩ := h.loading hload
  rcases restoreTaskState_eq s allowMissing c with heq | ⟨hdisk, heq⟩ | ⟨t, hdisk, heq⟩
  · rw [heq]
    refine ⟨{ h with other := fun hfalse => (nomatch hfalse), loading := fun _ => h.loading hload }, lasts_of_receipts rfl,
      h.behind, ⟨rfl, rfl, rfl, rfl, rfl, rfl, rfl, List.Subset.refl _⟩, fun hfalse => (nomatch hfalse)⟩
  · rw [heq]
    refine ⟨{ h with other := fun _ d hd => ?_, loading := fun hfalse => (nomatch hfalse) }, lasts_of_receipts rfl,
      h.behind, ⟨rfl, rfl, rfl, rfl, rfl, rfl, rfl, List.Subset.refl _⟩, fun _ => rfl⟩
    change d ∈ s.disk.task at hd
    rw [hdisk] at hd
    cases hd
  · rw [heq]
    have hinv : Inv { s with taskLoadPending := false, task := some (t.abandon c.now), taskSavePending := true } := by
      have hown : ∀ x ∈ some (t.abandon c.now), x = t.abandon c.now := fun x hx => (Option.some.inj hx).symm
      refine
        { h with
          saved := fun hfalse => (nomatch hfalse)
          behind := fun x hx r hr hterminal => ?_
          other := fun _ d hd hne => ?_
          loading := fun hfalse => (nomatch hfalse)
          notified := fun htrue => ?_
          idle := fun _ x hx => ?_ }
      · rw [hown x hx] at hr ⊢
        rw [abandon_id] at hr
        have hstatus := h.file t hdisk r hr hterminal
        unfold Record.abandon
        rw [if_pos (hstatus ▸ hterminal), hstatus]
      · change d ∈ s.disk.task at hd
        rw [hdisk] at hd
        obtain rfl : t = d := Option.some.inj hd
        exact absurd (abandon_id t c.now) (hne _ rfl)
      · change s.successNotificationPending = true at htrue
        rw [hnotification] at htrue
        cases htrue
      · rw [hown x hx]
        exact abandon_terminal t c.now
    have hkeeps := saveTask_keeps { s with taskLoadPending := false, task := some (t.abandon c.now), taskSavePending := true }
      c.restored
    refine ⟨saveTask_inv hinv _, saveTask_lasts (lasts_of_receipts rfl) hinv.behind _, fun x hx => ?_,
      ⟨hkeeps.worker, hkeeps.notification, hkeeps.callback, hkeeps.lock, hkeeps.caller, hkeeps.admitted, hkeeps.runs, hkeeps.pruned⟩,
      fun _ => hkeeps.load⟩
    rw [hkeeps.task] at hx
    exact hinv.behind x hx

/-! ### Repairing -/

/-- The task is a success that both files have. -/
def Settled (s : Shared) : Prop := s.taskSavePending = false ∧ ∃ t, s.task = some t ∧ t.status = .succeeded

/-- What the section of the repair gives. -/
structure Repaired (s : Shared) (i : ℕ) (r : Bool × Shared) : Prop where
  inv : Inv r.2
  lasts : Lasts s r.2
  worker : r.2.worker = s.worker
  lock : r.2.startLock = s.startLock
  admitted : r.2.admitted = s.admitted
  runs : r.2.runs = s.runs
  pruned : s.pruned ⊆ r.2.pruned
  task : s.taskLoadPending = false → r.2.task = s.task
  quiet : r.1 = false → r.2.caller = s.caller
  calls : r.1 = true → s.caller = none ∧ r.2.caller = some i ∧ Settled r.2 ∧ s.successNotificationPending = true
  same : s.taskLoadPending = false → s.taskSavePending = false →
    (s.successNotificationPending = false ∨ s.callbackActive = true) → r = (false, s)

theorem repair_repaired (h : Inv s) (i : ℕ) (c : Choice) : Repaired s i (s.repair i c) := by
  -- the record is loaded
  obtain ⟨loaded, s₁, hloaded, hr, hsame⟩ : ∃ loaded s₁,
      (if s.taskLoadPending then s.restoreTaskState false c else (true, s)) = (loaded, s₁) ∧ Restored s (loaded, s₁) ∧
        (s.taskLoadPending = false → loaded = true ∧ s₁ = s) := by
    by_cases hload : s.taskLoadPending = true
    · refine ⟨_, _, if_pos hload, restoreTaskState_restored h hload false c, fun hfalse => ?_⟩
      rw [hload] at hfalse
      cases hfalse
    · exact ⟨true, s, if_neg hload, ⟨h, lasts_of_receipts rfl, h.behind, (saveKeeps_refl s).restore,
        fun _ => Bool.eq_false_iff.2 hload⟩, fun _ => ⟨rfl, rfl⟩⟩
  have hquiet : ∀ s₂ : Shared, Inv s₂ → Lasts s s₂ → SaveKeeps s₁ s₂ →
      (s.taskLoadPending = false → s.taskSavePending = false → s₂ = s) → Repaired s i (false, s₂) := by
    intro s₂ hinv hlasts hkeeps hsame₂
    refine ⟨hinv, hlasts, hkeeps.worker.trans hr.keeps.worker, hkeeps.lock.trans hr.keeps.lock,
      hkeeps.admitted.trans hr.keeps.admitted, hkeeps.runs.trans hr.keeps.runs, List.Subset.trans hr.keeps.pruned hkeeps.pruned, fun hload => ?_,
      fun _ => hkeeps.caller.trans hr.keeps.caller, fun hfalse => (nomatch hfalse), fun hload hpending _ => ?_⟩
    · rw [← (hsame hload).2]
      exact hkeeps.task
    · rw [hsame₂ hload hpending]
  unfold Shared.repair
  rw [hloaded]
  cases loaded with
  | false => exact hquiet s₁ hr.inv hr.lasts (saveKeeps_refl s₁) fun hload _ => (hsame hload).2
  | true =>
    -- the record is saved
    obtain ⟨saved, s₂, hsaved, hinv, hkeeps, hlasts, hpending, hsame₂⟩ : ∃ saved s₂,
        (if s₁.taskSavePending then s₁.saveTask c.saved else (true, s₁)) = (saved, s₂) ∧ Inv s₂ ∧ SaveKeeps s₁ s₂ ∧ Lasts s s₂ ∧
          (saved = true → s₂.taskSavePending = false) ∧ (s₁.taskSavePending = false → saved = true ∧ s₂ = s₁) := by
      by_cases hpending : s₁.taskSavePending = true
      · refine ⟨_, _, if_pos hpending, saveTask_inv hr.inv _, saveTask_keeps _ _, saveTask_lasts hr.lasts hr.behind _,
          saveTask_saved, fun hfalse => ?_⟩
        rw [hpending] at hfalse
        cases hfalse
      · exact ⟨true, s₁, if_neg hpending, hr.inv, saveKeeps_refl s₁, hr.lasts, fun _ => Bool.eq_false_iff.2 hpending,
          fun _ => ⟨rfl, rfl⟩⟩
    have hunchanged : s.taskLoadPending = false → s.taskSavePending = false → s₂ = s := by
      intro hload hpending
      obtain ⟨-, rfl⟩ := hsame hload
      exact (hsame₂ hpending).2
    dsimp only
    rw [hsaved]
    cases saved with
    | false => exact hquiet s₂ hinv hlasts hkeeps hunchanged
    | true =>
      dsimp only
      by_cases hcall : (!s₂.successNotificationPending || s₂.callbackActive) = true
      · rw [if_pos hcall]
        exact hquiet s₂ hinv hlasts hkeeps hunchanged
      · rw [if_neg hcall]
        have hnotification : s₂.successNotificationPending = true := by
          by_contra hfalse
          simp [hfalse] at hcall
        have hcallback : s₂.callbackActive = false := by
          by_contra htrue
          simp [htrue] at hcall
        have hcaller : s₂.caller = none := by
          have := hinv.calling
          rw [hcallback] at this
          exact Option.isNone_iff_eq_none.1 (by simpa using this.symm)
        have hload : s₂.taskLoadPending = false := by
          by_contra hload
          rw [(hinv.loading (Bool.not_eq_false _ ▸ hload)).2.2.1] at hnotification
          cases hnotification
        have hback : s.successNotificationPending = true :=
          (hkeeps.notification.trans hr.keeps.notification).symm.trans hnotification
        refine ⟨?_, hlasts, hkeeps.worker.trans hr.keeps.worker, hkeeps.lock.trans hr.keeps.lock,
          hkeeps.admitted.trans hr.keeps.admitted, hkeeps.runs.trans hr.keeps.runs, List.Subset.trans hr.keeps.pruned hkeeps.pruned,
          fun hload => ?_, fun hfalse => (nomatch hfalse), fun _ => ⟨?_, rfl, ⟨hpending rfl, hinv.notified hnotification⟩, hback⟩,
          fun hload hpending hquiet => ?_⟩
        · refine
            { hinv with
              loading := fun htrue => ?_
              calling := rfl
              notified := fun hfalse => (nomatch hfalse) }
          change s₂.taskLoadPending = true at htrue
          rw [hload] at htrue
          cases htrue
        · rw [← (hsame hload).2]
          exact hkeeps.task
        · exact (hkeeps.caller.trans hr.keeps.caller).symm.trans hcaller
        · obtain rfl := hunchanged hload hpending
          rcases hquiet with hq | hq
          · rw [hnotification] at hq
            cases hq
          · rw [hcallback] at hq
            cases hq

end Conductor.Firmware
