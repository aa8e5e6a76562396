import Conductor.Control.NetworkHealth
import Conductor.Control.NetworkStateLaw

/-! When `_monitor_once` accepts a health timeout. Of the store only two calls touch what it reads:
an acceptance, which needs that there is no current transaction, and a transition of the current
one. What the monitor has read stays true as long as there is none, and it notices a transaction
only by finding it current; so the run is sound when no transaction ends unnoticed. -/

namespace Conductor.NetworkHealth

open NetworkState (Value Fields Transaction Transition Acceptance Database Write)

/-! ### What a call leaves -/

section Store

variable {sha256Hex : ByteArray → String}

/-- What the monitor reads of the store. -/
structure Same (s s' : NetworkState.State) : Prop where
  desired : s'.desired = s.desired
  saved : s'.saved = s.saved
  current : s'.current = s.current
  latest : s'.latest = s.latest

theorem Same.refl (s : NetworkState.State) : Same s s := ⟨rfl, rfl, rfl, rfl⟩

/-- A state that is written is stored, and what it has from a loaded one stays. -/
theorem Same.stored {s s' : NetworkState.State} (h : Same s s') (hs : s.stored = s) : Same s s'.stored := by
  refine ⟨?_, h.saved, ?_, ?_⟩
  · change s'.desired.stored = s.desired
    rw [h.desired]
    exact congrArg NetworkState.State.desired hs
  · change s'.current.map (·.stored) = s.current
    rw [h.current]
    exact congrArg NetworkState.State.current hs
  · change s'.latest.map (·.stored) = s.latest
    rw [h.latest]
    exact congrArg NetworkState.State.latest hs

theorem step_same_of_call {db : Database} {a : NetworkState.Act}
    (h : ∀ answer s, a.call sha256Hex db.state = .ok (answer, some s) → Same db.state s) :
    Same db.state (db.step sha256Hex a).2.state := by
  unfold Database.step
  cases hcall : a.call sha256Hex db.state with
  | error error => exact .refl _
  | ok r =>
    obtain ⟨answer, o⟩ := r
    cases o with
    | none => exact .refl _
    | some s =>
      have hsame := (h answer s hcall).stored db.loaded
      dsimp only
      cases a.write with
      | committed => exact hsame
      | raised => exact .refl _
      | raisedCommitted readable => exact hsame

/-- The calls that are no acceptance and no transition. -/
def keeps : NetworkState.Act → Bool
  | .acceptTransaction _ _ => false
  | .transition _ _ _ => false
  | _ => true

theorem step_keeps (db : Database) {a : NetworkState.Act} (ha : keeps a = true) :
    Same db.state (db.step sha256Hex a).2.state := by
  apply step_same_of_call
  intro answer s hcall
  cases a with
  | acceptTransaction arguments write => cases ha
  | transition id arguments write => cases ha
  | replayReceipt p k f =>
    obtain ⟨-, hcall⟩ := NetworkState.load_bind_eq_ok.1 hcall
    split at hcall
    · cases hcall
    · split_ifs at hcall
      cases hcall
  | markBootReconciled bootId write =>
    change db.state.markBootReconciled bootId = _ at hcall
    unfold NetworkState.State.markBootReconciled at hcall
    split_ifs at hcall
    obtain ⟨-, hcall⟩ := NetworkState.load_bind_eq_ok.1 hcall
    split_ifs at hcall
    · cases hcall
    · obtain ⟨-, -, h⟩ := NetworkState.validated_eq_ok hcall
      cases h
      exact ⟨rfl, rfl, rfl, rfl⟩
  | releaseExecution id write =>
    obtain ⟨-, hcall⟩ := NetworkState.load_bind_eq_ok.1 hcall
    split_ifs at hcall
    · cases hcall
    · obtain ⟨-, -, h⟩ := NetworkState.validated_eq_ok hcall
      cases h
      exact ⟨rfl, rfl, rfl, rfl⟩
    · cases hcall
  | scanStamp write =>
    obtain ⟨-, hcall⟩ := NetworkState.load_bind_eq_ok.1 hcall
    obtain ⟨-, -, h⟩ := NetworkState.validated_eq_ok hcall
    cases h
    exact ⟨rfl, rfl, rfl, rfl⟩

/-- An acceptance changes nothing, or there was no current transaction and now there is this one. -/
theorem step_accept (db : Database) (arguments : Acceptance) (write : Write) :
    Same db.state (db.step sha256Hex (.acceptTransaction arguments write)).2.state ∨
      db.state.current = none ∧
        ∃ t, (db.step sha256Hex (.acceptTransaction arguments write)).2.state.current = some t ∧
          t.transactionId = arguments.transactionId := by
  have hstepped := @NetworkState.step_stepped sha256Hex db (.acceptTransaction arguments write)
  generalize db.step sha256Hex (.acceptTransaction arguments write) = r at hstepped
  cases hstepped with
  | kept answer hanswer => exact .inl (.refl _)
  | changed answer db' hchange hvalid hanswer =>
    cases hchange with
    | accepted arguments write t hfree hfresh hid hstatus hrevision hown hcurrent => exact .inr ⟨hfree, t, hcurrent, hid⟩
    | flagged _ hcounts => cases hcounts

/-- A transition of another transaction than the current one changes nothing. -/
theorem step_transition_other (db : Database) {id : String} (transition : Transition) (write : Write)
    (h : ∀ t, db.state.current = some t → t.transactionId ≠ id) :
    Same db.state (db.step sha256Hex (.transition id transition write)).2.state := by
  apply step_same_of_call
  intro answer s hcall
  exfalso
  have hnone : db.state.current.filter (·.transactionId = id) = none := by
    rw [Option.filter_eq_none_iff]
    intro t ht
    simpa using h t ht
  change db.state.transition id transition = _ at hcall
  unfold NetworkState.State.transition at hcall
  split at hcall
  · split_ifs at hcall
    obtain ⟨-, hcall⟩ := NetworkState.load_bind_eq_ok.1 hcall
    rw [hnone] at hcall
    cases hcall
  · cases hcall

end Store

/-! ### What an acceptance promises -/

/-- The last acceptance is a fallback, with no healthy finding behind it. -/
def spent : List Event → Bool
  | .fellBack _ :: _ => true
  | .healthy _ :: _ => false
  | .accepted _ :: _ => false
  | _ :: log => spent log
  | [] => false

/-- Nothing but unhealthy findings of a network since one of them. -/
def Since (desired : Value) (startNs : ℤ) (log : List Event) : Prop :=
  ∃ recent older, log = recent ++ .unhealthy desired (some startNs) :: older ∧
    ∀ e ∈ recent, ∃ observedNs, e = .unhealthy desired observedNs

theorem Since.start (desired : Value) (startNs : ℤ) (log : List Event) :
    Since desired startNs (.unhealthy desired (some startNs) :: log) := ⟨[], log, rfl, by simp⟩

theorem Since.cons {desired : Value} {startNs : ℤ} {log : List Event} (h : Since desired startNs log)
    (observedNs : Option ℤ) : Since desired startNs (.unhealthy desired observedNs :: log) := by
  obtain ⟨recent, older, rfl, hrecent⟩ := h
  refine ⟨.unhealthy desired observedNs :: recent, older, rfl, fun e he => ?_⟩
  rcases List.mem_cons.1 he with rfl | he
  · exact ⟨observedNs, rfl⟩
  · exact hrecent e he

/-- The desired network is a saved client network. -/
structure Client (s : NetworkState.State) : Prop where
  saved : s.saved = true
  mode : mode s.desired ≠ "hotspot"

theorem Client.same {s s' : NetworkState.State} (h : Client s) (hsame : Same s s') : Client s' :=
  ⟨hsame.saved.trans h.saved, by rw [hsame.desired]; exact h.mode⟩

/-- At least `_health_failure_seconds` have elapsed. -/
def Elapsed (c : Controller) (failureStartedNs observedNs : ℤ) : Prop :=
  (elapsed failureStartedNs observedNs).lt c.healthFailureSeconds = false

open Double in
/-- What is below ten by more than half a unit of its size is rounded below ten. -/
theorem round_lt_ten {q : ℚ} (h : q ≤ 10 - 1 / 1000000000) : (Double.round q).lt (.finite 10) = true := by
  have hunit : (0 : ℚ) < 2 ^ exponent q := zpow_pos two_pos _
  have hlt : ∀ v : ℚ, v < 10 → (finite v).lt (.finite 10) = true := fun v hv => by simpa [Double.lt, Double.le] using hv
  unfold Double.round
  dsimp only
  rcases lt_or_ge q 0 with hneg | hpos
  · have hle : (roundHalfEven (q / 2 ^ exponent q) : ℚ) ≤ 0 := Int.cast_nonpos.2
      ((roundHalfEven_mono (div_nonpos_of_nonpos_of_nonneg hneg.le hunit.le)).trans (by simp [roundHalfEven]))
    split
    · rw [decide_eq_true hneg]
      rfl
    · exact hlt _ ((mul_nonpos_of_nonpos_of_nonneg hle hunit.le).trans_lt (by norm_num))
  · have hsmall : (2 : ℚ) ^ exponent q ≤ 2 ^ (-49 : ℤ) := by
      refine zpow_le_zpow_right₀ one_le_two (max_le (by decide) ?_)
      rw [abs_of_nonneg hpos]
      have hlog : Int.log 2 q ≤ 3 := by
        rcases hpos.eq_or_lt with rfl | hpos
        · rw [Int.log_zero_right]
          decide
        · exact Int.lt_add_one_iff.1 ((Int.lt_zpow_iff_log_lt Nat.one_lt_two hpos).1 (h.trans_lt (by norm_num)))
      omega
    have hnonneg : (0 : ℚ) ≤ roundHalfEven (q / 2 ^ exponent q) := by
      exact_mod_cast roundHalfEven_nonneg (div_nonneg hpos hunit.le)
    have hround := mul_le_mul_of_nonneg_right (roundHalfEven_le (q / 2 ^ exponent q)) hunit.le
    rw [add_mul, div_mul_cancel₀ _ hunit.ne'] at hround
    norm_num at hsmall
    rw [if_neg]
    · exact hlt _ (by linarith)
    · rw [abs_of_nonneg (mul_nonneg hnonneg hunit.le), not_le]
      exact lt_of_lt_of_le (by linarith) (pow_le_pow_right₀ one_le_two (by norm_num : 4 ≤ 1024))

/-- With the default of ten seconds no rounding shortens the wait. -/
theorem Elapsed.ten_seconds {c : Controller} {failureStartedNs observedNs : ℤ} (hc : c.healthFailureSeconds = .finite 10)
    (h : Elapsed c failureStartedNs observedNs) : failureStartedNs + 10000000000 ≤ observedNs := by
  by_contra hlt
  have hle : observedNs - failureStartedNs ≤ 9999999999 := by omega
  unfold Elapsed elapsed at h
  rw [hc, round_lt_ten] at h
  · cases h
  · rw [div_le_iff₀ (by norm_num)]
    have hcast : ((observedNs - failureStartedNs : ℤ) : ℚ) ≤ 9999999999 := by exact_mod_cast hle
    norm_num at hcast ⊢
    exact hcast
/-- What holds where a health timeout may be accepted; `nowNs` is what the monitor has last read of the clock. -/
structure Due (c : Controller) (s : State) : Prop where
  client : Client s.db.state
  waited : ∃ startNs, Elapsed c startNs s.nowNs ∧ Since s.db.state.desired startNs s.log
  latest : down s.db.state.latest = false
  unspent : spent s.log = false

/-- The step accepts a health timeout durably. -/
def FallsBack (s : State) (a : Act) (t : State) : Prop :=
  (∃ x, a = .submit x) ∧ s.db.state.current = none ∧ t.db.state.current.isSome = true

/-! ### The invariant -/

/-- What the monitor keeps in the middle of `_monitor_once`, where there is no current transaction. -/
def Reads (c : Controller) (s : State) : Monitor → Prop
  | .idle => True
  | .probing desired latest => desired = s.db.state.desired ∧ latest = s.db.state.latest ∧ Client s.db.state
  | .unhealthy desired latest => desired = s.db.state.desired ∧ latest = s.db.state.latest ∧ Client s.db.state
  | .waited startNs => Client s.db.state ∧ (Elapsed c startNs s.nowNs ∧ Since s.db.state.desired startNs s.log) ∧
      down s.db.state.latest = false ∧ spent s.log = false

/-- A fallback whose acceptance raised stays current, since it was never handed to the worker. -/
structure Inv (c : Controller) (s : State) : Prop where
  reads : s.db.state.current = none → Reads c s s.monitor
  since : s.db.state.current = none → ∀ startNs, s.healthFailureStartedNs = some startNs →
    down s.db.state.latest = true ∨ Since s.db.state.desired startNs s.log
  latched : spent s.log = true → s.db.state.current = none → s.healthFallbackLatched = true ∨ ¬Client s.db.state
  stuck : spent s.log = true → ∀ t, s.db.state.current = some t →
    s.healthFallbackLatched = true ∨ t.transactionId ∈ s.ids ∧ t.transactionId ∉ s.handed

/-- A step of the monitor raises in front of its finding. -/
def State.raises (s : State) : Act → Bool
  | .snapshot readable => !readable || !s.db.state.valid
  | .probe probe => probe = .raises
  | _ => false

/-- No transaction ends inside a step of the monitor, or behind the start of a failure unless it ends without its
network; and no step of the monitor raises in front of its finding behind the start of a failure. -/
def Noticed (s : State) (a : Act) (t : State) : Prop :=
  (s.db.state.current.isSome = true → t.db.state.current.isNone = true →
    s.monitor.isIdle = true ∧ (s.healthFailureStartedNs = none ∨ down t.db.state.latest = true)) ∧
  (s.raises a = true → s.healthFailureStartedNs = none)

instance (s : State) (a : Act) (t : State) : Decidable (Noticed s a t) := by
  unfold Noticed
  infer_instance

variable {c : Controller}

theorem Inv.start (c : Controller) (db : Database) : Inv c (.start db) where
  reads _ := trivial
  since _ _ h := nomatch h
  latched h := nomatch h
  stuck h := nomatch h

variable {s t : State}

theorem Reads.same {m : Monitor} (h : Reads c s m) (hsame : Same s.db.state t.db.state)
    (hnow : t.nowNs = s.nowNs) (hlog : t.log = s.log) : Reads c t m := by
  cases m with
  | idle => trivial
  | probing desired latest => exact ⟨h.1.trans hsame.desired.symm, h.2.1.trans hsame.latest.symm, h.2.2.same hsame⟩
  | unhealthy desired latest => exact ⟨h.1.trans hsame.desired.symm, h.2.1.trans hsame.latest.symm, h.2.2.same hsame⟩
  | waited startNs =>
    obtain ⟨hclient, helapsed, hdown, hspent⟩ := h
    refine ⟨hclient.same hsame, ?_, ?_, ?_⟩
    · rwa [hnow, hlog, hsame.desired]
    · rwa [hsame.latest]
    · rwa [hlog]

/-- A step that leaves what the monitor reads and the monitor. -/
theorem Inv.same (h : Inv c s) (hsame : Same s.db.state t.db.state) (hmonitor : t.monitor = s.monitor)
    (hstarted : t.healthFailureStartedNs = s.healthFailureStartedNs)
    (hlatched : t.healthFallbackLatched = s.healthFallbackLatched) (hnow : t.nowNs = s.nowNs) (hlog : t.log = s.log)
    (hids : ∀ id ∈ s.ids, id ∈ t.ids ∧ (id ∈ t.handed → id ∈ s.handed)) : Inv c t := by
  refine ⟨fun hnone => ?_, fun hnone => ?_, fun hspent hnone => ?_, fun hspent x hx => ?_⟩
  · rw [hsame.current] at hnone
    rw [hmonitor]
    exact (h.reads hnone).same hsame hnow hlog
  · rw [hsame.current] at hnone
    rw [hstarted, hsame.latest, hsame.desired, hlog]
    exact h.since hnone
  · rw [hsame.current] at hnone
    rw [hlog] at hspent
    rw [hlatched]
    refine (h.latched hspent hnone).imp_right fun hclient hc => hclient ?_
    exact ⟨hsame.saved ▸ hc.saved, by rw [← hsame.desired]; exact hc.mode⟩
  · rw [hsame.current] at hx
    rw [hlog] at hspent
    rw [hlatched]
    refine (h.stuck hspent x hx).imp_right fun hx => ?_
    exact ⟨(hids _ hx.1).1, fun hmem => hx.2 ((hids _ hx.1).2 hmem)⟩

/-! ### One step -/

/-- Behind a new transaction nothing is left to show until it ends. -/
theorem Inv.of_current {x : Transaction} (hcurrent : t.db.state.current = some x) (hstuck : spent t.log = true →
      t.healthFallbackLatched = true ∨ x.transactionId ∈ t.ids ∧ x.transactionId ∉ t.handed) : Inv c t := by
  refine ⟨fun hnone => ?_, fun hnone => ?_, fun _ hnone => ?_, fun hspent y hy => ?_⟩
  · rw [hcurrent] at hnone
    cases hnone
  · rw [hcurrent] at hnone
    cases hnone
  · rw [hcurrent] at hnone
    cases hnone
  · obtain rfl : x = y := Option.some.inj (hcurrent.symm.trans hy)
    exact hstuck hspent

theorem Inv.request {call : NetworkState.Act} (h : Inv c s) (hs : s.request c call = some t) : Inv c t := by
  -- a call that keeps what the monitor reads
  have kept : ∀ hkeeps : keeps call = true, some { s with db := (s.db.step c.sha256Hex call).2 } = some t → Inv c t := by
    intro hkeeps ht
    cases ht
    exact h.same (step_keeps _ hkeeps) rfl rfl rfl rfl rfl fun _ hid => ⟨hid, fun h => h⟩
  cases call with
  | replayReceipt p k f => exact kept rfl hs
  | markBootReconciled bootId write => exact kept rfl hs
  | releaseExecution id write => exact kept rfl hs
  | scanStamp write => exact kept rfl hs
  | transition id transition write => cases hs
  | acceptTransaction arguments write =>
    have haccept := @step_accept c.sha256Hex s.db arguments write
    unfold State.request at hs
    dsimp only at hs
    split_ifs at hs with hfresh haccepted
    · rw [Option.some.injEq] at hs
      subst hs
      simp only [Bool.and_eq_true] at haccepted
      obtain ⟨x, hx⟩ := Option.isSome_iff_exists.1 haccepted.2
      exact .of_current hx fun hspent => nomatch hspent
    · rw [Option.some.injEq] at hs
      subst hs
      obtain ⟨-, hids, -⟩ : s.closed = false ∧ arguments.transactionId ∉ s.ids ∧ arguments.transactionId ∉ s.handed := by
        simpa [State.fresh] using hfresh
      rcases haccept with hsame | ⟨hnone, x, hx, -⟩
      · refine h.same hsame rfl rfl rfl rfl rfl fun id hid => ⟨List.mem_cons_of_mem _ hid, fun hmem => ?_⟩
        -- the scheduled id is a new one
        dsimp only at hmem
        split at hmem
        · rcases List.mem_cons.1 hmem with rfl | hmem
          · exact absurd hid hids
          · exact hmem
        · exact hmem
      · exact absurd (by rw [hnone, hx]; rfl) haccepted

theorem Inv.work {id : String} {transition : Transition} {write : Write} (h : Inv c s)
    (hs : s.work c id transition write = some t) (hnoticed : Noticed s (.work id transition write) t) : Inv c t := by
  unfold State.work at hs
  split_ifs at hs with hhanded
  rw [Option.some.injEq] at hs
  subst hs
  by_cases hother : ∀ x, s.db.state.current = some x → x.transactionId ≠ id
  · exact h.same (step_transition_other _ _ _ hother) rfl rfl rfl rfl rfl fun _ hid => ⟨hid, fun h => h⟩
  push Not at hother
  obtain ⟨x, hx, rfl⟩ := hother
  -- the current transaction was handed to the worker, so that it is no fallback whose acceptance raised
  have hlatched : spent s.log = true → s.healthFallbackLatched = true := by
    intro hspent
    exact (h.stuck hspent x hx).resolve_right fun hstuck => hstuck.2 hhanded
  cases hcurrent : (s.db.step c.sha256Hex (.transition x.transactionId transition write)).2.state.current with
  | some y => exact .of_current hcurrent fun hspent => .inl (hlatched hspent)
  | none =>
    obtain ⟨hidle, hstarted⟩ := hnoticed.1 (by rw [hx]; rfl) (by dsimp only; rw [hcurrent]; rfl)
    refine ⟨fun _ => ?_, fun _ startNs hstart => ?_, fun hspent _ => .inl (hlatched hspent), fun _ y hy => ?_⟩
    · change Reads c _ s.monitor
      cases hmonitor : s.monitor with
      | idle => trivial
      | _ =>
        rw [hmonitor] at hidle
        cases hidle
    · rcases hstarted with hstarted | hdown
      · cases hstarted.symm.trans hstart
      · exact .inl hdown
    · cases hcurrent.symm.trans hy

/-- A step of the monitor that leaves the store. -/
theorem Inv.monitor (h : Inv c s) (hdb : t.db = s.db) (hids : t.ids = s.ids) (hhanded : t.handed = s.handed)
    (hreads : s.db.state.current = none → Reads c t t.monitor)
    (hsince : s.db.state.current = none → ∀ startNs, t.healthFailureStartedNs = some startNs →
      down s.db.state.latest = true ∨ Since s.db.state.desired startNs t.log)
    (hspent : spent t.log = true → spent s.log = true)
    (hlatched : spent t.log = true → s.healthFallbackLatched = true →
      t.healthFallbackLatched = true ∨ s.db.state.current = none ∧ ¬Client s.db.state) : Inv c t := by
  refine ⟨?_, ?_, fun hs => ?_, fun hs => ?_⟩
  · rwa [hdb]
  · rwa [hdb]
  · rw [hdb]
    intro hnone
    rcases h.latched (hspent hs) hnone with hl | hclient
    · exact (hlatched hs hl).imp_right And.right
    · exact .inr hclient
  · rw [hdb, hids, hhanded]
    intro x hx
    rcases h.stuck (hspent hs) x hx with hl | hstuck
    · refine (hlatched hs hl).imp_right fun hnone => ?_
      cases hx.symm.trans hnone.1
    · exact .inr hstuck

theorem Inv.snapshot {readable : Bool} (h : Inv c s) (hs : s.snapshot readable = some t)
    (hnoticed : Noticed s (.snapshot readable) t) : Inv c t := by
  unfold State.snapshot at hs
  split at hs
  · rename_i hmonitor
    have hidle : ∀ s' : State, Reads c s' s.monitor := fun s' => by rw [hmonitor]; trivial
    split_ifs at hs with hraises hcurrent hclient
    · cases hs
      refine h.monitor rfl rfl rfl (fun _ => hidle _) (fun _ startNs hstart => ?_) id fun _ => .inl
      cases (hnoticed.2 hraises).symm.trans hstart
    · cases hs
      exact h.monitor rfl rfl rfl (fun _ => hidle _) (fun _ _ hstart => nomatch hstart) id fun _ => .inl
    · cases hs
      -- the latch goes with the client network
      refine h.monitor rfl rfl rfl (fun _ => hidle _) (fun _ _ hstart => nomatch hstart) id fun _ _ => .inr ⟨?_, fun hc => ?_⟩
      · simpa using hcurrent
      · simp [hc.saved, hc.mode] at hclient
    · cases hs
      refine h.monitor rfl rfl rfl (fun _ => ?_) h.since id fun _ => .inl
      simp only [Bool.or_eq_true, decide_eq_true_eq, Bool.not_eq_true', not_or, Bool.not_eq_false] at hclient
      exact ⟨rfl, rfl, hclient.2, hclient.1⟩
  · cases hs

theorem Inv.probe {probe : Probe} (h : Inv c s) (hs : s.probe probe = some t)
    (hnoticed : Noticed s (.probe probe) t) : Inv c t := by
  unfold State.probe at hs
  split at hs
  · rename_i desired latest hmonitor
    have hgoes : (some { s with monitor := .unhealthy desired latest } = some t) → Inv c t := by
      intro ht
      cases ht
      refine h.monitor rfl rfl rfl (fun hnone => ?_) h.since id fun _ => .inl
      have hreads := h.reads hnone
      rw [hmonitor] at hreads
      exact hreads
    cases probe with
    | captureActive =>
      cases hs
      exact h.monitor rfl rfl rfl (fun _ => trivial) (fun _ _ hstart => nomatch hstart) id fun _ => .inl
    | healthy =>
      cases hs
      exact h.monitor rfl rfl rfl (fun _ => trivial) (fun _ _ hstart => nomatch hstart) (fun hspent => nomatch hspent)
        fun hspent => nomatch hspent
    | raises =>
      cases hs
      refine h.monitor rfl rfl rfl (fun _ => trivial) (fun _ startNs hstart => ?_) id fun _ => .inl
      cases (hnoticed.2 rfl).symm.trans hstart
    | unhealthy => exact hgoes hs
    | networkError => exact hgoes hs
  · cases hs

theorem Inv.clock {observedNs : ℤ} (h : Inv c s) (hs : s.clock c observedNs = some t) : Inv c t := by
  unfold State.clock at hs
  split at hs
  · rename_i desired latest hmonitor
    have hreads : s.db.state.current = none → desired = s.db.state.desired ∧ latest = s.db.state.latest ∧ Client s.db.state := by
      intro hnone
      have hreads := h.reads hnone
      rwa [hmonitor] at hreads
    -- an unhealthy finding of the same network goes on with the failure
    have hsince : ∀ ns : Option ℤ, s.db.state.current = none → ∀ startNs, s.healthFailureStartedNs = some startNs →
        down s.db.state.latest = true ∨ Since s.db.state.desired startNs (.unhealthy desired ns :: s.log) := by
      intro ns hnone startNs hstart
      rw [(hreads hnone).1]
      exact (h.since hnone startNs hstart).imp_right (·.cons ns)
    split_ifs at hs with hlatched hbefore
    · cases hs
      exact h.monitor rfl rfl rfl (fun _ => trivial) (hsince none) id fun _ _ => .inl rfl
    · simp only [Bool.or_eq_true, not_or, Bool.not_eq_true] at hlatched
      dsimp only at hs
      split at hs
      · cases hs
        refine h.monitor rfl rfl rfl (fun _ => trivial) (fun hnone startNs hstart => .inr ?_) id fun _ => .inl
        cases hstart
        rw [(hreads hnone).1]
        exact .start _ _ _
      · rename_i startNs hstart
        split_ifs at hs with helapsed
        · cases hs
          exact h.monitor rfl rfl rfl (fun _ => trivial) (hsince _) id fun _ => .inl
        · cases hs
          refine h.monitor rfl rfl rfl (fun hnone => ?_) (hsince _) id fun _ => .inl
          obtain ⟨-, hlatest, hclient⟩ := hreads hnone
          rw [hlatest] at hlatched
          refine ⟨hclient, ⟨by simpa [Elapsed] using helapsed, ?_⟩, hlatched.2, ?_⟩
          · refine (hsince _ hnone startNs hstart).resolve_left ?_
            rw [hlatched.2]
            simp
          · change spent s.log = false
            rw [← Bool.not_eq_true]
            intro hspent
            rcases h.latched hspent hnone with hl | hc
            · cases hl.symm.trans hlatched.1
            · exact hc hclient
  · cases hs

variable {x : Submission}

theorem Inv.fallBack (h : Inv c s) (hfree : s.db.state.current = none) (hmonitor : s.monitor = .idle)
    (hfresh : s.fresh x.transactionId = true) (desired work : Fields) : Inv c (s.fallBack c x desired work) := by
  obtain ⟨hids, hhanded⟩ : x.transactionId ∉ s.ids ∧ x.transactionId ∉ s.handed := by
    simpa [State.fresh] using hfresh
  have haccept := @step_accept c.sha256Hex s.db (c.acceptance s.db desired work x) x.write
  unfold State.fallBack
  generalize s.db.step c.sha256Hex (.acceptTransaction (c.acceptance s.db desired work x) x.write) = r at haccept
  obtain ⟨answer, db⟩ := r
  rcases haccept with hsame | ⟨-, y, hy, hid⟩
  · -- nothing was stored
    have hlog : (if db.state.current.isSome then Event.fellBack x.transactionId :: s.log else s.log) = s.log := by
      rw [hsame.current, hfree]
      rfl
    dsimp only
    rw [hlog]
    split
    · refine ⟨fun _ => ?_, fun _ _ hstart => (nomatch hstart), fun _ _ => .inl rfl, fun _ y hy => ?_⟩
      · change Reads c _ s.monitor
        rw [hmonitor]
        trivial
      · cases (hsame.current.trans hfree).symm.trans hy
    · exact h.same hsame rfl rfl rfl rfl rfl fun _ hid => ⟨List.mem_cons_of_mem _ hid, fun h => h⟩
  · have hlog : (if db.state.current.isSome then Event.fellBack x.transactionId :: s.log else s.log) =
        .fellBack x.transactionId :: s.log := by
      rw [hy]
      rfl
    dsimp only
    rw [hlog]
    split
    · exact .of_current hy fun _ => .inl rfl
    · refine .of_current hy fun _ => .inr ⟨?_, ?_⟩
      · rw [hid]
        exact List.mem_cons_self
      · rw [hid]
        exact hhanded

theorem Inv.submit (h : Inv c s) (hs : s.submit c x = some t) : Inv c t := by
  unfold State.submit at hs
  split at hs
  · rename_i startNs hmonitor
    have hended : Inv c { s with monitor := .idle } := h.monitor rfl rfl rfl (fun _ => trivial) h.since id fun _ => .inl
    have hcleared : Inv c { s with monitor := .idle, healthFailureStartedNs := none } :=
      h.monitor rfl rfl rfl (fun _ => trivial) (fun _ _ hstart => nomatch hstart) id fun _ => .inl
    dsimp only at hs
    split_ifs at hs with hfresh hraises hcurrent
    · cases hs
      exact hended
    · cases hs
      exact hcleared
    · rw [Bool.not_eq_true, Bool.not_eq_false'] at hfresh
      rw [Bool.not_eq_true, Option.isSome_eq_false_iff, Option.isNone_iff_eq_none] at hcurrent
      split at hs
      · cases hs
        exact hcleared
      · cases hs
        exact hended.fallBack hcurrent rfl hfresh _ _
      · cases hs
        exact hended
  · cases hs

/-- A health timeout is accepted where it is due. -/
theorem Inv.due (h : Inv c s) (hs : s.submit c x = some t) (hfree : s.db.state.current = none) : Due c s := by
  have hreads := h.reads hfree
  unfold State.submit at hs
  split at hs
  · rename_i startNs hmonitor
    rw [hmonitor] at hreads
    exact ⟨hreads.1, ⟨startNs, hreads.2.1⟩, hreads.2.2.1, hreads.2.2.2⟩
  · cases hs

theorem Inv.step {a : Act} (h : Inv c s) (hs : step c s a = some t) (hnoticed : Noticed s a t) : Inv c t := by
  cases a with
  | request call => exact h.request hs
  | work id transition write => exact h.work hs hnoticed
  | snapshot readable => exact h.snapshot hs hnoticed
  | probe probe => exact h.probe hs hnoticed
  | clock observedNs => exact h.clock hs
  | submit x => exact h.submit hs
  | close =>
    cases hs
    exact h.same (.refl _) rfl rfl rfl rfl rfl fun _ hid => ⟨hid, fun h => h⟩

/-! ### Runs -/

/-- When every transaction is noticed, a health timeout is accepted only where it is due. -/
theorem health_fallback_waits (c : Controller) (db : Database) (acts : List Act)
    (hnoticed : Runs.Along (step c) Noticed (.start db) acts) :
    Runs.Along (step c) (fun s a t => FallsBack s a t → Due c s) (.start db) acts := by
  refine Runs.along_of_guard (I := Inv c) (fun s a t h hs hguard => ⟨h.step hs hguard, ?_⟩) (.start c db) hnoticed
  rintro ⟨⟨x, rfl⟩, hfree, -⟩
  exact h.due hs hfree

def sampleController : Controller where
  sha256Hex := NetworkState.sampleDigest
  requestFingerprint _ := "bbbbbbbbbbbbbbbbbbbbbbbbbbbbbbbbbbbbbbbbbbbbbbbbbbbbbbbbbbbbbbbb"
  bootId := "6f1c1f0e-8f5e-4d0a-9a55-0d5f2c6b7a10"
  healthFailureSeconds := .finite 10

/-- A saved Wi-Fi network. -/
def sampleSaved : Database where
  state := ⟨"6f1c1f0e-8f5e-4d0a-9a55-0d5f2c6b7a10", 0, true, true,
    .dict [("mode", .str "wifi-client"), ("wifi_client", .dict [("ssid", .str "Field LAN"), ("security", .str "open"),
      ("credential_state", .str "absent")]), ("ethernet", .none)], none, none, [], [], [], none⟩
  loaded := rfl

def sampleSubmission : Submission where
  readable := true
  lock := .acquired
  candidate := .networkError "network_not_saved"
  transactionId := "0198d2a0-52b1-7c8b-9862-1f97b4ae5ec2"
  acceptedAt := "2026-08-23T15:00:10+08:00"
  write := .committed

def sampleFailure : List Act := [.snapshot true, .probe .unhealthy, .clock 0, .snapshot true]

def sampleHotspot : List Act :=
  [.request (NetworkState.sampleAccept "idem-1" []),
    .work NetworkState.sampleId ⟨"committed", "committed", "2026-08-23T15:00:01+08:00", some true, none, none, false, none,
      "reconnect_rescue_ap", some false, some false, false, false, []⟩ .committed]

def sampleElapsed : List Act := [.probe .unhealthy, .clock 10000000000]

/-- A failure of ten seconds, and the fallback. -/
theorem health_fallback_waits_sample :
    Runs.Along (step sampleController) (fun s a t => FallsBack s a t → Due sampleController s) (.start sampleSaved)
      (sampleFailure ++ sampleElapsed ++ [.submit sampleSubmission]) :=
  health_fallback_waits sampleController sampleSaved _ (by decide +kernel)

/-- While the probe of the second step is under way the device is switched to its hotspot; the fallback is then
accepted for the hotspot. -/
theorem hotspot_falls_back :
    ¬∀ (c : Controller) (db : Database) (acts : List Act),
      Runs.Along (step c) (fun s a t => FallsBack s a t → Due c s) (.start db) acts := by
  intro h
  have hrun : ((Runs.run (step sampleController) (.start sampleSaved) (sampleFailure ++ sampleHotspot ++ sampleElapsed)).bind
      fun s => (step sampleController s (.submit sampleSubmission)).map fun t =>
        (s.db.state.saved, s.db.state.current.isNone, t.db.state.current.isSome)) = some (false, true, true) := by
    decide +kernel
  obtain ⟨s, hs, hrun⟩ := Option.bind_eq_some_iff.1 hrun
  obtain ⟨t, ht, hrun⟩ := Option.map_eq_some_iff.1 hrun
  simp only [Prod.mk.injEq, Option.isNone_iff_eq_none] at hrun
  obtain ⟨hsaved, hfree, hsome⟩ := hrun
  have hdue := ((h sampleController sampleSaved (_ ++ [_])).append hs).2 t ht
  have hclient := (hdue.1 ⟨⟨_, rfl⟩, hfree, hsome⟩).client.saved
  rw [hsaved] at hclient
  cases hclient

end Conductor.NetworkHealth
