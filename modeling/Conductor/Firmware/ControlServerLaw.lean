import Conductor.Firmware.ControlServer
import Mathlib.Data.List.Nodup

/-! The connections do not share anything but the lock, the flag and the registry, so the invariant says for each
one what holds where its call is. -/

namespace Conductor.Firmware.ControlServer

open Runs

/-! ### One connection -/

/-- A thread that was not admitted. -/
def Idle (threads : List WorkerStage) (registered : Bool) : Prop :=
  threads = [] ∨ ∃ w, threads = [w] ∧ (w = .waiting ∨ w = .leaving ∨ w = .ended) ∧ (w = .ended → registered = false)

/-- The one thread of an admitted connection. -/
def Working (k : Call) (registered : Bool) : Prop :=
  ∃ w, k.threads = [w] ∧ (w = .ended ↔ registered = false) ∧ k.served = if w = .waiting then 0 else 1

/-- What holds of a connection where its call is. -/
def Local (k : Call) (registered : Bool) : Prop :=
  match k.stage with
  | .idle | .outside | .inside | .rejecting =>
    k.gate = none ∧ k.admitted = false ∧ registered = false ∧ k.threads = [] ∧ k.served = 0 ∧ k.refused = 0
  | .registered =>
    k.gate = none ∧ k.admitted = false ∧ registered = true ∧ k.threads = [] ∧ k.served = 0 ∧ k.refused = 0
  | .gated | .built =>
    k.gate = some false ∧ k.admitted = false ∧ registered = true ∧ k.threads = [] ∧ k.served = 0 ∧ k.refused = 0
  | .started =>
    k.gate = some false ∧ k.admitted = false ∧ registered = true ∧ k.threads = [.waiting] ∧ k.served = 0 ∧
      k.refused = 0
  | .admitted =>
    k.gate = some false ∧ k.admitted = true ∧ registered = true ∧ k.threads = [.waiting] ∧ k.served = 0 ∧
      k.refused = 0
  | .opened => k.gate = some true ∧ k.admitted = true ∧ Working k registered ∧ k.refused = 0
  | .failed _ =>
    k.gate ≠ some true ∧ k.admitted = false ∧ (k.threads = [] ∨ k.threads = [.waiting]) ∧ k.served = 0 ∧ k.refused = 0
  | .unwound _ | .handling _ => k.admitted = false ∧ Idle k.threads registered ∧ k.served = 0 ∧ k.refused = 0
  | .released _ =>
    k.admitted = false ∧ registered = false ∧ Idle k.threads registered ∧ k.served = 0 ∧ k.refused = 0
  | .returned =>
    if k.admitted then k.gate = some true ∧ Working k registered ∧ k.refused = 0
    else registered = false ∧ Idle k.threads registered ∧ k.served = 0 ∧ k.refused ≤ 1

variable {registered : Bool} {w : WorkerStage}

theorem Local.threads_le {k : Call} (h : Local k registered) : k.threads.length ≤ 1 := by
  cases hstage : k.stage <;> simp only [Local, hstage, Idle, Working] at h <;> grind

theorem Local.thread {k : Call} {i : ℕ} (h : Local k registered)
    (hw : k.threads[i]? = some w) : i = 0 ∧ k.threads = [w] := by
  have hle := h.threads_le
  match hk : k.threads with
  | [] => simp [hk] at hw
  | [v] =>
    rw [hk] at hw
    cases i with
    | zero => exact ⟨rfl, by simpa using hw⟩
    | succ i => simp at hw
  | _ :: _ :: _ => simp [hk] at hle

/-- A thread that is past the gate, or may pass it. -/
theorem Local.past {k : Call} (h : Local k registered) (hk : k.threads = [w])
    (hpast : w = .waiting → k.gate = some true) : (k.admitted = true →
      (k.stage = .opened ∨ k.stage = .returned) ∧ k.gate = some true ∧ Working k registered ∧ k.refused = 0) ∧
      (k.admitted = false → Idle k.threads registered ∧ k.served = 0 ∧
        ∃ e, k.stage = .unwound e ∨ k.stage = .handling e ∨ k.stage = .released e ∨ k.stage = .returned) := by
  cases hstage : k.stage <;> simp only [Local, hstage] at h <;> grind [Idle, Working]

/-- Such a thread goes on; `registered'` is what its step leaves in the registry. -/
theorem Local.worker {k k' : Call} {registered' : Bool} {w' : WorkerStage} (h : Local k registered)
    (hk : k.threads = [w]) (hpast : w = .waiting → k.gate = some true)
    (hsame : k'.stage = k.stage ∧ k'.gate = k.gate ∧ k'.admitted = k.admitted ∧ k'.refused = k.refused)
    (hk' : k'.threads = [w']) (hregistered : registered' = registered ∨ registered' = false)
    (hadmitted : k.admitted = true → w' ≠ .waiting ∧ (w' = .ended ↔ registered' = false) ∧ k'.served = 1)
    (hidle : k.admitted = false →
      (w' = .leaving ∨ w' = .ended) ∧ (w' = .ended → registered' = false) ∧ k'.served = k.served) :
    Local k' registered' := by
  obtain ⟨hstage, hgate, hadm, hrefused⟩ := hsame
  obtain ⟨hworking, hwaiting⟩ := h.past hk hpast
  cases hcase : k.admitted with
  | true =>
    obtain ⟨hat, hopen, -, hnone⟩ := hworking hcase
    obtain ⟨hw', hended, hserved⟩ := hadmitted hcase
    have hwork : Working k' registered' := ⟨w', hk', hended, by rw [if_neg hw', hserved]⟩
    rcases hat with hat | hat
    · simp only [Local, hstage, hat]
      exact ⟨hgate.trans hopen, hadm.trans hcase, hwork, hrefused.trans hnone⟩
    · simp only [Local, hstage, hat, hadm, hcase, if_true]
      exact ⟨hgate.trans hopen, hwork, hrefused.trans hnone⟩
  | false =>
    obtain ⟨-, hserved, e, hat⟩ := hwaiting hcase
    obtain ⟨hw', hended, hsame'⟩ := hidle hcase
    have hidle' : Idle k'.threads registered' := .inr ⟨w', hk', .inr hw', hended⟩
    have hnone : k'.served = 0 := hsame'.trans hserved
    have hadm' : k'.admitted = false := hadm.trans hcase
    rcases hat with hat | hat | hat | hat
    · simp only [Local, hat] at h
      simp only [Local, hstage, hat]
      exact ⟨hadm', hidle', hnone, hrefused.trans h.2.2.2⟩
    · simp only [Local, hat] at h
      simp only [Local, hstage, hat]
      exact ⟨hadm', hidle', hnone, hrefused.trans h.2.2.2⟩
    · simp only [Local, hat] at h
      simp only [Local, hstage, hat]
      exact ⟨hadm', hregistered.elim (·.trans h.2.1) id, hidle', hnone, hrefused.trans h.2.2.2.2⟩
    · simp only [Local, hat, hcase, if_false, Bool.false_eq_true] at h
      simp only [Local, hstage, hat, hadm', if_false, Bool.false_eq_true]
      exact ⟨hregistered.elim (·.trans h.1) id, hidle', hnone, hrefused ▸ h.2.2.2⟩

theorem Local.working {k : Call} (h : Local k registered) (hk : k.threads = [w])
    (hw : w = .serving ∨ w = .cleared ∨ w = .answered) : k.admitted = true ∧ registered = true ∧ k.served = 1 := by
  have hpast := h.past hk (by rintro rfl; simp at hw)
  cases hcase : k.admitted with
  | true =>
    obtain ⟨-, -, ⟨v, hv, hended, hserved⟩, -⟩ := hpast.1 hcase
    obtain rfl : v = w := by simpa [hk] using hv.symm
    refine ⟨rfl, ?_, ?_⟩
    · by_contra hr
      have := hended.2 (by simpa using hr)
      subst this
      simp at hw
    · rw [hserved, if_neg (by rintro rfl; simp at hw)]
  | false =>
    obtain ⟨hidle | ⟨v, hv, hat, -⟩, -⟩ := hpast.2 hcase
    · simp [hk] at hidle
    · obtain rfl : v = w := by simpa [hk] using hv.symm
      rcases hw with rfl | rfl | rfl <;> simp at hat

/-! ### The server -/

structure Inv (maxConnections : ℕ) (s : Server) : Prop where
  nodup : s.connections.Nodup
  bounded : s.connections.length ≤ maxConnections
  connection : ∀ c, Local (s.call c) (decide (c ∈ s.connections))
  /-- Only a cleared request is dispatched. -/
  cleared : ∀ c, (s.call c).dispatched + (s.call c).threads.count .cleared = (s.call c).clearances

variable {maxConnections : ℕ} {s s' : Server} {c : ℕ} {k : Call}

theorem Inv.empty : Inv maxConnections {} where
  nodup := List.nodup_nil
  bounded := Nat.zero_le _
  connection _ := ⟨rfl, rfl, rfl, rfl, rfl, rfl⟩
  cleared _ := rfl

/-- A step changes one connection. -/
theorem Inv.change (h : Inv maxConnections s) (hcall : s'.call = Function.update s.call c k)
    (hothers : ∀ d, d ≠ c → (d ∈ s'.connections ↔ d ∈ s.connections)) (hnodup : s'.connections.Nodup)
    (hbounded : s'.connections.length ≤ maxConnections) (hlocal : Local k (decide (c ∈ s'.connections)))
    (hcleared : k.dispatched + k.threads.count .cleared = k.clearances) : Inv maxConnections s' where
  nodup := hnodup
  bounded := hbounded
  connection d := by
    by_cases hd : d = c
    · subst hd
      simpa [hcall] using hlocal
    · simpa [hcall, hd, hothers d hd] using h.connection d
  cleared d := by
    by_cases hd : d = c
    · subst hd
      simpa [hcall] using hcleared
    · simpa [hcall, hd] using h.cleared d

theorem Inv.keep (h : Inv maxConnections s) (hcall : s'.call = Function.update s.call c k)
    (hsame : s'.connections = s.connections) (hlocal : Local k (decide (c ∈ s.connections)))
    (hcleared : k.dispatched + k.threads.count .cleared = k.clearances) : Inv maxConnections s' := by
  apply h.change hcall
  · intro d _
    rw [hsame]
  · rw [hsame]
    exact h.nodup
  · rw [hsame]
    exact h.bounded
  · rw [hsame]
    exact hlocal
  · exact hcleared

theorem Inv.release (h : Inv maxConnections s) (hlocal : Local k false)
    (hcleared : k.dispatched + k.threads.count .cleared = k.clearances) :
    Inv maxConnections ((s.releaseControlRequest c).setCall c k) := by
  have hmem : ∀ d, d ∈ ((s.releaseControlRequest c).setCall c k).connections ↔ d ∈ s.connections ∧ d ≠ c := by
    intro d
    simp [Server.releaseControlRequest, Server.setCall]
  apply h.change rfl
  · intro d hd
    rw [hmem, and_iff_left hd]
  · exact h.nodup.filter _
  · exact Nat.le_trans (List.length_filter_le _ _) h.bounded
  · rw [decide_eq_false (by simp [hmem])]
    exact hlocal
  · exact hcleared

theorem Inv.register (h : Inv maxConnections s) (hc : c ∉ s.connections)
    (hroom : ¬ maxConnections ≤ s.connections.length) (hlocal : Local k true)
    (hcleared : k.dispatched + k.threads.count .cleared = k.clearances) :
    Inv maxConnections ({ s with connections := s.connections ++ [c] }.setCall c k) := by
  have hmem : ∀ d, d ∈ s.connections ++ [c] ↔ d ∈ s.connections ∨ d = c := by
    intro d
    simp
  apply h.change rfl
  · intro d hd
    exact (hmem d).trans (or_iff_left hd)
  · exact List.nodup_append.2 ⟨h.nodup, List.nodup_singleton c, by
      rintro d hd _ hcm rfl
      exact hc (List.mem_singleton.1 hcm ▸ hd)⟩
  · show (s.connections ++ [c]).length ≤ maxConnections
    rw [List.length_append, List.length_singleton]
    omega
  · show Local k (decide (c ∈ s.connections ++ [c]))
    rw [decide_eq_true ((hmem c).2 (.inr rfl))]
    exact hlocal
  · exact hcleared

theorem Inv.callStep (h : Inv maxConnections s) {fault : Fault}
    (hs : ControlServer.callStep maxConnections s c fault = some s') : Inv maxConnections s' := by
  have hl := h.connection c
  have hcl := h.cleared c
  simp only [ControlServer.callStep] at hs
  split at hs
  case h_1 hstage =>
    split at hs
    · cases hs
      simp only [Local, hstage] at hl
      exact h.keep rfl rfl hl hcl
    · cases hs
  case h_2 hstage =>
    simp only [Local, hstage] at hl
    split at hs
    · cases hs
      exact h.keep rfl rfl hl hcl
    case isFalse hroom =>
      cases hs
      obtain ⟨hgate, hadmitted, hfree, hrest⟩ := hl
      exact h.register (of_decide_eq_false hfree) (fun hle => hroom (.inr hle)) ⟨hgate, hadmitted, rfl, hrest⟩ hcl
  case h_3 hstage =>
    cases hs
    simp only [Local, hstage] at hl
    exact h.keep rfl rfl ⟨rfl, hl.2⟩ hcl
  case h_4 hstage =>
    cases hs
    simp only [Local, hstage] at hl
    exact h.keep rfl rfl hl hcl
  case h_5 hstage =>
    cases hs
    simp only [Local, hstage] at hl
    obtain ⟨hgate, hadmitted, hregistered, hthreads, hserved⟩ := hl
    exact h.keep rfl rfl ⟨hgate, hadmitted, hregistered, by rw [hthreads]; rfl, hserved⟩ (by simpa using hcl)
  case h_6 e hstage =>
    cases hs
    simp only [Local, hstage] at hl
    obtain ⟨hgate, hadmitted, hregistered, hthreads, hserved⟩ := hl
    exact h.keep rfl rfl ⟨by simp [hgate], hadmitted, .inr (by rw [hthreads]; rfl), hserved⟩ (by simpa using hcl)
  case h_7 hstage =>
    cases hs
    simp only [Local, hstage] at hl
    exact h.keep rfl rfl ⟨hl.1, rfl, hl.2.2⟩ hcl
  case h_8 e hstage | h_9 e hstage | h_10 e hstage | h_11 e hstage =>
    cases hs
    simp only [Local, hstage] at hl
    exact h.keep rfl rfl ⟨by simp [hl.1], hl.2.1, .inl hl.2.2.2.1, hl.2.2.2.2⟩ hcl
  case h_12 e hstage =>
    cases hs
    simp only [Local, hstage] at hl
    exact h.keep rfl rfl ⟨by simp [hl.1], hl.2.1, .inr hl.2.2.2.1, hl.2.2.2.2⟩ hcl
  case h_13 hstage =>
    cases hs
    simp only [Local, hstage] at hl
    obtain ⟨hgate, hadmitted, hregistered, hthreads, hserved, hrefused⟩ := hl
    have hworking : Working (s.call c) (decide (c ∈ s.connections)) :=
      ⟨.waiting, hthreads, by simp [hregistered], hserved⟩
    exact h.keep rfl rfl ⟨by rw [hgate]; rfl, hadmitted, hworking, hrefused⟩ hcl
  case h_14 hstage =>
    cases hs
    simp only [Local, hstage] at hl
    obtain ⟨hgate, hadmitted, hworking, hrefused⟩ := hl
    exact h.keep rfl rfl (by simp only [Local, hadmitted, if_true]; exact ⟨hgate, hworking, hrefused⟩) hcl
  case h_15 e hstage =>
    cases hs
    simp only [Local, hstage] at hl
    obtain ⟨-, hadmitted, hthreads, hserved⟩ := hl
    have hidle : Idle (s.call c).threads (decide (c ∈ s.connections)) :=
      hthreads.imp_right fun hw => ⟨.waiting, hw, .inl rfl, nofun⟩
    exact h.keep rfl rfl ⟨hadmitted, hidle, hserved⟩ hcl
  case h_16 e hstage =>
    cases hs
    simp only [Local, hstage] at hl
    exact h.keep rfl rfl hl hcl
  case h_17 e hstage =>
    split at hs
    · cases hs
      simp only [Local, hstage] at hl
      obtain ⟨hadmitted, hidle, hserved⟩ := hl
      exact h.release ⟨hadmitted, rfl, hidle.imp_right fun ⟨w, hw, hat, _⟩ => ⟨w, hw, hat, fun _ => rfl⟩, hserved⟩ hcl
    · cases hs
  case h_18 e hstage =>
    cases hs
    simp only [Local, hstage] at hl
    obtain ⟨hadmitted, hregistered, hidle, hserved, hrefused⟩ := hl
    refine h.keep rfl rfl ?_ hcl
    simp only [Local, hadmitted, if_false, Bool.false_eq_true]
    exact ⟨hregistered, hidle, hserved, by cases e <;> simp [hrefused]⟩
  case h_19 hstage =>
    cases hs
    simp only [Local, hstage] at hl
    obtain ⟨-, hadmitted, hregistered, hthreads, hserved, hrefused⟩ := hl
    refine h.keep rfl rfl ?_ hcl
    simp only [Local, hadmitted, if_false, Bool.false_eq_true]
    exact ⟨hregistered, .inl hthreads, hserved, by simp [hrefused]⟩
  case h_20 => cases hs

/-- A thread in the handler goes on. -/
theorem Inv.serve (h : Inv maxConnections s) (w' : WorkerStage) (hk : (s.call c).threads = [w])
    (hw : w = .serving ∨ w = .cleared ∨ w = .answered) (hw' : w' ≠ .waiting ∧ w' ≠ .ended)
    (hsame : k.stage = (s.call c).stage ∧ k.gate = (s.call c).gate ∧ k.admitted = (s.call c).admitted ∧
      k.refused = (s.call c).refused) (hserved : k.served = (s.call c).served) (hk' : k.threads = [w'])
    (hcleared : k.dispatched + [w'].count .cleared = k.clearances) : Inv maxConnections (s.setCall c k) := by
  have hl := h.connection c
  obtain ⟨hadmitted, hregistered, hone⟩ := hl.working hk hw
  refine h.keep rfl rfl ?_ ?_
  · refine hl.worker hk (by rintro rfl; simp at hw) hsame hk' (.inl rfl) ?_ ?_
    · intro _
      exact ⟨hw'.1, by simp [hw'.2, hregistered], hserved.trans hone⟩
    · intro hnot
      rw [hadmitted] at hnot
      cases hnot
  · rw [hk']
    exact hcleared

theorem Inv.workerStep (h : Inv maxConnections s) {i : ℕ} {act : WorkerAct}
    (hs : ControlServer.workerStep s c i act = some s') : Inv maxConnections s' := by
  obtain ⟨w, hw, hs⟩ := Option.bind_eq_some_iff.1 hs
  obtain ⟨rfl, hk⟩ := (h.connection c).thread hw
  have hl := h.connection c
  have hcl := h.cleared c
  rw [hk] at hcl
  have hset : ∀ w', (s.call c).threads.set 0 w' = [w'] := fun w' => by rw [hk]; rfl
  split at hs
  case h_1 =>
    split at hs
    case isFalse => cases hs
    case isTrue hgate =>
      split at hs
      case isTrue hadmitted =>
        cases hs
        refine h.keep rfl rfl ?_ ?_
        · refine hl.worker hk (fun _ => hgate) ⟨rfl, rfl, rfl, rfl⟩ (hset .serving) (.inl rfl) ?_ ?_
          · intro _
            obtain ⟨v, hv, hended, hserved⟩ := ((hl.past hk fun _ => hgate).1 hadmitted).2.2.1
            obtain rfl : v = .waiting := by simpa [hk] using hv.symm
            exact ⟨nofun, by simpa using hended, congrArg (· + 1) hserved⟩
          · intro hnot
            rw [hadmitted] at hnot
            cases hnot
        · rw [Call.setThread, hset]
          exact hcl
      case isFalse hadmitted =>
        cases hs
        refine h.keep rfl rfl ?_ ?_
        · refine hl.worker hk (fun _ => hgate) ⟨rfl, rfl, rfl, rfl⟩ (hset .leaving) (.inl rfl) ?_ ?_
          · intro hyes
            exact absurd hyes hadmitted
          · intro _
            exact ⟨.inl rfl, nofun, rfl⟩
        · rw [Call.setThread, hset]
          exact hcl
  case h_2 =>
    split at hs
    case isFalse => cases hs
    case isTrue =>
      split at hs
      · cases hs
        exact h.serve .answered hk (.inl rfl) ⟨nofun, nofun⟩ ⟨rfl, rfl, rfl, rfl⟩ rfl (hset .answered) hcl
      · cases hs
        have hcl' := congrArg (· + 1) hcl
        exact h.serve .cleared hk (.inl rfl) ⟨nofun, nofun⟩ ⟨rfl, rfl, rfl, rfl⟩ rfl (hset .cleared) hcl'
  case h_3 =>
    cases hs
    exact h.serve .answered hk (.inr (.inl rfl)) ⟨nofun, nofun⟩ ⟨rfl, rfl, rfl, rfl⟩ rfl (hset .answered) hcl
  case h_4 =>
    cases hs
    exact h.serve .leaving hk (.inl rfl) ⟨nofun, nofun⟩ ⟨rfl, rfl, rfl, rfl⟩ rfl (hset .leaving) hcl
  case h_5 =>
    cases hs
    exact h.serve .leaving hk (.inr (.inr rfl)) ⟨nofun, nofun⟩ ⟨rfl, rfl, rfl, rfl⟩ rfl (hset .leaving) hcl
  case h_6 =>
    split at hs
    case isFalse => cases hs
    case isTrue =>
      cases hs
      apply h.release
      · refine hl.worker hk nofun ⟨rfl, rfl, rfl, rfl⟩ (hset .ended) (.inr rfl) ?_ ?_
        · intro hadmitted
          obtain ⟨v, hv, -, hserved⟩ := ((hl.past hk nofun).1 hadmitted).2.2.1
          obtain rfl : v = .leaving := by simpa [hk] using hv.symm
          exact ⟨nofun, by simp, hserved⟩
        · intro _
          exact ⟨.inr rfl, fun _ => rfl, rfl⟩
      · rw [Call.setThread, hset]
        exact hcl
  case h_7 => cases hs

variable {a : Act}

theorem Inv.step (h : Inv maxConnections s) (hs : ControlServer.step maxConnections s a = some s') :
    Inv maxConnections s' := by
  cases a with
  | accept c =>
    simp only [ControlServer.step] at hs
    split at hs
    case isTrue hstage =>
      cases hs
      have hl := h.connection c
      simp only [Local, hstage] at hl
      exact h.keep rfl rfl hl (h.cleared c)
    case isFalse => cases hs
  | call c fault => exact h.callStep hs
  | worker c i act => exact h.workerStep hs
  | close =>
    simp only [ControlServer.step] at hs
    split at hs
    case isTrue =>
      cases hs
      exact ⟨h.nodup, h.bounded, h.connection, h.cleared⟩
    case isFalse => cases hs

variable {as : List Act}

theorem Inv.run (h : Inv maxConnections s)
    (hs : Runs.run (ControlServer.step maxConnections) s as = some s') : Inv maxConnections s' :=
  run_invariant (fun _ _ _ hs ht => hs.step ht) h hs

/-! ### The lock and the flag -/

/-- Between the registration and the admission. -/
def Stage.admitting : Stage → Bool
  | .registered | .gated | .built | .started => true
  | _ => false

theorem Stage.holds_of_admitting {st : Stage} (h : st.admitting = true) : st.holds = true := by
  cases st <;> simp_all [Stage.admitting, Stage.holds]

/-- What a step of a connection does to the lock, and what it leaves alone once the flag is set. -/
structure Turn (s s' : Server) (c : ℕ) (k : Call) : Prop where
  call : s'.call = Function.update s.call c k
  closing : s'.closing = s.closing
  lock : s'.holder = s.holder ∧ k.stage.holds = (s.call c).stage.holds ∨ s.holder = none ∧ s'.holder = some c ∨
    (s.call c).stage.holds = true ∧ k.stage.holds = false ∧ s'.holder = none
  admitting : k.stage.admitting = true → s.closing = true → (s.call c).stage.admitting = true
  admitted : k.admitted = true → (s.call c).admitted = true ∨ (s.call c).stage.admitting = true
  registry : s.closing = true → s'.connections ⊆ s.connections
  clearances : s.closing = true → k.clearances = (s.call c).clearances

theorem callStep_turn {fault : Fault} (hs : callStep maxConnections s c fault = some s') : ∃ k, Turn s s' c k := by
  simp only [callStep] at hs
  split at hs
  case h_1 hstage =>
    split at hs
    case isTrue hfree =>
      cases hs
      exact ⟨_, rfl, rfl, .inr (.inl ⟨hfree, rfl⟩), nofun, .inl, fun _ => .refl _, fun _ => rfl⟩
    case isFalse => cases hs
  case h_2 hstage =>
    split at hs
    case isTrue =>
      cases hs
      exact ⟨_, rfl, rfl, .inr (.inr ⟨by rw [hstage]; rfl, rfl, rfl⟩), nofun, .inl, fun _ => .refl _, fun _ => rfl⟩
    case isFalse hroom =>
      cases hs
      have hopen : ¬ s.closing = true := fun hc => hroom (.inl hc)
      exact ⟨_, rfl, rfl, .inl ⟨rfl, by rw [hstage]; rfl⟩, fun _ hc => absurd hc hopen, .inl,
        fun hc => absurd hc hopen, fun _ => rfl⟩
  case h_3 hstage | h_4 hstage | h_5 hstage =>
    cases hs
    exact ⟨_, rfl, rfl, .inl ⟨rfl, by rw [hstage]; rfl⟩, fun _ _ => by rw [hstage]; rfl, .inl,
      fun _ => .refl _, fun _ => rfl⟩
  case h_6 e hstage | h_8 e hstage | h_9 e hstage | h_10 e hstage | h_11 e hstage | h_12 e hstage | h_13 hstage |
      h_15 e hstage | h_18 e hstage | h_19 hstage =>
    cases hs
    exact ⟨_, rfl, rfl, .inl ⟨rfl, by rw [hstage]; rfl⟩, nofun, .inl, fun _ => .refl _, fun _ => rfl⟩
  case h_7 hstage =>
    cases hs
    exact ⟨_, rfl, rfl, .inl ⟨rfl, by rw [hstage]; rfl⟩, nofun, fun _ => .inr (by rw [hstage]; rfl),
      fun _ => .refl _, fun _ => rfl⟩
  case h_14 hstage | h_16 e hstage =>
    cases hs
    exact ⟨_, rfl, rfl, .inr (.inr ⟨by rw [hstage]; rfl, rfl, rfl⟩), nofun, .inl, fun _ => .refl _, fun _ => rfl⟩
  case h_17 e hstage =>
    split at hs
    case isTrue =>
      cases hs
      exact ⟨_, rfl, rfl, .inl ⟨rfl, by rw [hstage]; rfl⟩, nofun, .inl, fun _ => List.filter_subset_self ..,
        fun _ => rfl⟩
    case isFalse => cases hs
  case h_20 => cases hs

theorem workerStep_turn {i : ℕ} {act : WorkerAct} (hs : workerStep s c i act = some s') : ∃ k, Turn s s' c k := by
  obtain ⟨w, hw, hs⟩ := Option.bind_eq_some_iff.1 hs
  split at hs
  case h_1 =>
    split at hs
    case isFalse => cases hs
    case isTrue =>
      split at hs <;> cases hs <;>
        exact ⟨_, rfl, rfl, .inl ⟨rfl, rfl⟩, fun h _ => h, .inl, fun _ => .refl _, fun _ => rfl⟩
  case h_2 =>
    split at hs
    case isFalse => cases hs
    case isTrue =>
      split at hs
      case isTrue =>
        cases hs
        exact ⟨_, rfl, rfl, .inl ⟨rfl, rfl⟩, fun h _ => h, .inl, fun _ => .refl _, fun _ => rfl⟩
      case isFalse hopen =>
        cases hs
        exact ⟨_, rfl, rfl, .inl ⟨rfl, rfl⟩, fun h _ => h, .inl, fun _ => .refl _, fun hc => absurd hc hopen⟩
  case h_3 | h_4 | h_5 =>
    cases hs
    exact ⟨_, rfl, rfl, .inl ⟨rfl, rfl⟩, fun h _ => h, .inl, fun _ => .refl _, fun _ => rfl⟩
  case h_6 =>
    split at hs
    case isFalse => cases hs
    case isTrue =>
      cases hs
      exact ⟨_, rfl, rfl, .inl ⟨rfl, rfl⟩, fun h _ => h, .inl, fun _ => List.filter_subset_self .., fun _ => rfl⟩
  case h_7 => cases hs

/-- A call in the `with` block has the lock, and none is between the registration and the admission when the flag is
set. -/
structure Locked (s : Server) : Prop where
  holder : ∀ c, (s.call c).stage.holds = true → s.holder = some c
  closed : s.closing = true → ∀ c, (s.call c).stage.admitting = false

theorem Locked.empty : Locked {} := ⟨fun _ => nofun, nofun⟩

theorem Locked.turn (h : Locked s) (hs : Turn s s' c k) : Locked s' where
  holder d hd := by
    by_cases hdc : d = c
    · subst hdc
      simp only [hs.call, Function.update_self] at hd
      rcases hs.lock with ⟨hsame, hholds⟩ | ⟨-, htaken⟩ | ⟨-, hleft, -⟩
      · rw [hsame]
        exact h.holder d (hholds ▸ hd)
      · exact htaken
      · rw [hleft] at hd
        cases hd
    · simp only [hs.call, Function.update_of_ne hdc] at hd
      have hholder := h.holder d hd
      rcases hs.lock with ⟨hsame, -⟩ | ⟨hfree, -⟩ | ⟨hmine, -, -⟩
      · rw [hsame]
        exact hholder
      · rw [hfree] at hholder
        cases hholder
      · rw [h.holder c hmine] at hholder
        exact absurd (Option.some.inj hholder).symm hdc
  closed hc d := by
    rw [hs.closing] at hc
    have hold := h.closed hc
    by_cases hdc : d = c
    · subst hdc
      simp only [hs.call, Function.update_self]
      by_contra hadmitting
      rw [Bool.not_eq_false] at hadmitting
      have := hs.admitting hadmitting hc
      rw [hold d] at this
      cases this
    · simp only [hs.call, Function.update_of_ne hdc]
      exact hold d

/-- What a closing server has left open. -/
structure Closed (s t : Server) : Prop where
  closing : t.closing = true
  registry : t.connections ⊆ s.connections
  admitted : ∀ c, (t.call c).admitted = true → (s.call c).admitted = true
  clearances : ∀ c, (t.call c).clearances = (s.call c).clearances

theorem Closed.turn {t t' : Server} (h : Closed s t) (hl : Locked t) (ht : Turn t t' c k) : Closed s t' where
  closing := ht.closing.trans h.closing
  registry := List.Subset.trans (ht.registry h.closing) h.registry
  admitted d hd := by
    by_cases hdc : d = c
    · subst hdc
      simp only [ht.call, Function.update_self] at hd
      rcases ht.admitted hd with hold | hadmitting
      · exact h.admitted d hold
      · rw [hl.closed h.closing d] at hadmitting
        cases hadmitting
    · simp only [ht.call, Function.update_of_ne hdc] at hd
      exact h.admitted d hd
  clearances d := by
    by_cases hdc : d = c
    · subst hdc
      simp only [ht.call, Function.update_self]
      exact (ht.clearances h.closing).trans (h.clearances d)
    · simp only [ht.call, Function.update_of_ne hdc]
      exact h.clearances d

theorem step_cases (hs : step maxConnections s a = some s') :
    (∃ c k, Turn s s' c k) ∨ s.holder = none ∧ s' = { s with closing := true } := by
  cases a with
  | accept c =>
    simp only [step] at hs
    split at hs
    case isTrue hstage =>
      cases hs
      exact .inl ⟨c, _, rfl, rfl, .inl ⟨rfl, by rw [hstage]; rfl⟩, nofun, .inl, fun _ => .refl _, fun _ => rfl⟩
    case isFalse => cases hs
  | call c fault => exact .inl ⟨c, callStep_turn hs⟩
  | worker c i act => exact .inl ⟨c, workerStep_turn hs⟩
  | close =>
    simp only [step] at hs
    split at hs
    case isTrue hfree =>
      cases hs
      exact .inr ⟨hfree, rfl⟩
    case isFalse => cases hs

theorem Locked.step (h : Locked s) (hs : ControlServer.step maxConnections s a = some s') : Locked s' := by
  rcases step_cases hs with ⟨c, k, hturn⟩ | ⟨hfree, rfl⟩
  · exact h.turn hturn
  · refine ⟨h.holder, fun _ c => ?_⟩
    by_contra hadmitting
    have hheld := h.holder c (Stage.holds_of_admitting (by simpa using hadmitting))
    rw [hfree] at hheld
    cases hheld

theorem Locked.run (h : Locked s) (hs : Runs.run (ControlServer.step maxConnections) s as = some s') : Locked s' :=
  run_invariant (fun _ _ _ hs ht => hs.step ht) h hs

theorem Closed.run (h : Locked s) (hc : s.closing = true)
    (hs : Runs.run (ControlServer.step maxConnections) s as = some s') : Closed s s' := by
  have hstep : ∀ t a t', Locked t ∧ Closed s t → ControlServer.step maxConnections t a = some t' →
      Locked t' ∧ Closed s t' := by
    rintro t a t' ⟨hl, ht⟩ ha
    refine ⟨hl.step ha, ?_⟩
    rcases step_cases ha with ⟨c, k, hturn⟩ | ⟨-, rfl⟩
    · exact ht.turn hl hturn
    · exact ⟨rfl, ht.registry, ht.admitted, ht.clearances⟩
  exact (run_invariant hstep ⟨h, hc, List.Subset.refl _, fun _ h => h, fun _ => rfl⟩ hs).2

/-! ### Every run -/

/-- The connection has one worker, in the handler once it is past its gate, or it has none and is not registered. -/
def Settled (k : Call) (registered : Prop) : Prop :=
  k.admitted = true ∧ k.refused = 0 ∧ (∃ w, k.threads = [w] ∧ k.served = if w = .waiting then 0 else 1) ∨
    k.admitted = false ∧ k.served = 0 ∧ k.refused ≤ 1 ∧ ¬ registered

structure Lawful (maxConnections : ℕ) (s : Server) : Prop where
  bounded : s.connections.length ≤ maxConnections
  one_worker : ∀ c, (s.call c).threads.length ≤ 1
  never_both : ∀ c, (s.call c).served + (s.call c).refused ≤ 1
  settled : ∀ c, (s.call c).stage = .returned → Settled (s.call c) (c ∈ s.connections)
  /-- A worker in the handler finds its connection in the registry. -/
  serving : ∀ c, .serving ∈ (s.call c).threads → c ∈ s.connections
  ended : ∀ c, .ended ∈ (s.call c).threads → c ∉ s.connections
  /-- A slot is held by a call that has not returned or by a thread that has not ended. -/
  held : ∀ c ∈ s.connections,
    (s.call c).stage ≠ .idle ∧ ((s.call c).stage ≠ .returned ∨ ∃ w ∈ (s.call c).threads, w ≠ .ended)

theorem Local.never_both (h : Local k registered) : k.served + k.refused ≤ 1 := by
  cases hstage : k.stage <;> simp only [Local, hstage, Working] at h <;> grind

theorem Local.settled (h : Local k registered) (hstage : k.stage = .returned) : Settled k (registered = true) := by
  simp only [Local, hstage] at h
  split at h
  case isTrue hadmitted =>
    obtain ⟨-, ⟨w, hw, -, hserved⟩, hrefused⟩ := h
    exact .inl ⟨hadmitted, hrefused, w, hw, hserved⟩
  case isFalse hadmitted =>
    obtain ⟨hfree, -, hserved, hrefused⟩ := h
    exact .inr ⟨by simpa using hadmitted, hserved, hrefused, by simp [hfree]⟩

theorem Local.ended (h : Local k registered) (hk : k.threads = [.ended]) : registered = false := by
  cases hstage : k.stage <;> simp only [Local, hstage, Idle, Working] at h <;> grind

theorem Local.held (h : Local k registered) (hr : registered = true) :
    k.stage ≠ .idle ∧ (k.stage ≠ .returned ∨ ∃ w ∈ k.threads, w ≠ .ended) := by
  refine ⟨fun hstage => ?_, or_iff_not_imp_left.2 fun hstage => ?_⟩
  · simp only [Local, hstage] at h
    exact absurd hr (by simp [h.2.2.1])
  · rw [not_not] at hstage
    rcases h.settled hstage with ⟨-, -, w, hw, -⟩ | ⟨-, -, -, hfree⟩
    · refine ⟨w, by simp [hw], ?_⟩
      rintro rfl
      rw [h.ended hw] at hr
      cases hr
    · exact absurd hr hfree

theorem Inv.lawful (h : Inv maxConnections s) : Lawful maxConnections s where
  bounded := h.bounded
  one_worker c := (h.connection c).threads_le
  never_both c := (h.connection c).never_both
  settled c hstage := by simpa only [decide_eq_true_eq] using (h.connection c).settled hstage
  serving c hw := by
    obtain ⟨i, hi⟩ := List.getElem?_of_mem hw
    have hk := ((h.connection c).thread hi).2
    exact of_decide_eq_true ((h.connection c).working hk (.inl rfl)).2.1
  ended c hw := by
    obtain ⟨i, hi⟩ := List.getElem?_of_mem hw
    have hk := ((h.connection c).thread hi).2
    exact of_decide_eq_false ((h.connection c).ended hk)
  held c hc := (h.connection c).held (decide_eq_true hc)

theorem Inv.dispatched_le (h : Inv maxConnections s) (c : ℕ) : (s.call c).dispatched ≤ (s.call c).clearances :=
  Nat.le.intro (h.cleared c)

/-- In every interleaving the slots are bounded and given back, and a closing server admits no connection, clears no
request and dispatches those only that it had cleared. -/
theorem slots_never_leaked {as bs : List Act} {t : Server} (hs : run (step maxConnections) {} as = some s)
    (ht : run (step maxConnections) s bs = some t) :
    Lawful maxConnections s ∧
      (s.closing = true → Closed s t ∧ ∀ c, (t.call c).dispatched ≤ (s.call c).clearances) := by
  have hinv := Inv.empty.run hs
  refine ⟨hinv.lawful, fun hc => ?_⟩
  have hclosed := Closed.run (Locked.empty.run hs) hc ht
  refine ⟨hclosed, fun c => ?_⟩
  rw [← hclosed.clearances c]
  exact (hinv.run ht).dispatched_le c

/-- One connection, cleared by `dispatch_control` before the flag is set. -/
def clearedThenClosed : List Act :=
  [.accept 0, .call 0 .none, .call 0 .none, .call 0 .none, .call 0 .none, .call 0 .none, .call 0 .none, .call 0 .none,
    .call 0 .none, .worker 0 0 .wake, .worker 0 0 .check, .close]

def answer : List Act := [.worker 0 0 .dispatch, .worker 0 0 .finish, .worker 0 0 .release]

theorem slots_never_leaked_closing : ∃ s t, run (step 1) {} clearedThenClosed = some s ∧
    run (step 1) s answer = some t ∧
    Lawful 1 s ∧ (s.closing = true → Closed s t ∧ ∀ c, (t.call c).dispatched ≤ (s.call c).clearances) :=
  ⟨_, _, rfl, rfl, @slots_never_leaked 1 _ clearedThenClosed answer _ rfl rfl⟩

/-- The test of the flag and `dispatch` are two steps, and `server_close` goes between them. -/
theorem dispatched_after_close : ∃ s t, run (step 1) {} clearedThenClosed = some s ∧ s.closing = true ∧
    (s.call 0).dispatched = 0 ∧ step 1 s (.worker 0 0 .dispatch) = some t ∧ (t.call 0).dispatched = 1 :=
  ⟨_, _, rfl, rfl, rfl, rfl, rfl⟩

end Conductor.Firmware.ControlServer
