import Conductor.Api.HttpCapacity
import Mathlib.Data.Nat.Cast.Order.Ring

/-! The capacity of the server in every run: what is registered, what is reclaimed, and which
deadlines expire. -/

namespace Conductor.HttpCapacity

open Runs KeyTable

variable {k : Config} {s t : Server} {c d : Connection}

/-! ### One connection -/

/-- The phases in which a handler is in an I/O of this kind. -/
def Kind.fits : Kind → Phase → Prop
  | .read, phase => phase = .header ∨ phase = .body
  | .write, phase => phase = .header ∨ phase = .command

/-- What the table of the deadlines has of a connection. -/
structure Ios (s : Server) (c : Connection) : Prop where
  phases : ∀ kind id, (s.handlers c).io kind = some id → kind.fits (s.handlers c).phase
  entries : ∀ kind id, ((c, kind), id) ∈ s.ioDeadlines → (s.handlers c).io kind = some id
  bounded : ∀ kind id, (s.handlers c).io kind = some id → id < s.nextDeadline
  apart : ∀ kind other id, (s.handlers c).io kind = some id → (s.handlers c).io other = some id → kind = other

/-- What the tables have of it. -/
structure Own (s : Server) (c : Connection) : Prop extends Ios s c where
  registered : c ∈ s.httpConnections ↔ (s.handlers c).phase.live = true
  reclaimable : (s.httpReclaimable c).isSome → (s.handlers c).phase.input = true
  cancelled : c ∈ s.httpCancelled → (s.handlers c).phase.live = true
  downloads : c ∈ s.sessionDownloads → (s.handlers c).phase.live = true

/-- A change that leaves the I/Os of the handler as they are. -/
theorem Ios.keep (h : Ios s c) (hio : ∀ kind, (t.handlers c).io kind = (s.handlers c).io kind)
    (hentries : ∀ kind id, ((c, kind), id) ∈ t.ioDeadlines → ((c, kind), id) ∈ s.ioDeadlines)
    (hnext : s.nextDeadline ≤ t.nextDeadline)
    (hphases : ∀ kind id, (s.handlers c).io kind = some id → kind.fits (t.handlers c).phase) : Ios t c := by
  refine ⟨fun kind id heq => hphases kind id ((hio kind).symm.trans heq), fun kind id hmem => ?_, fun kind id heq => ?_,
    fun kind other id hkind hother => ?_⟩
  · rw [hio]
    exact h.entries kind id (hentries kind id hmem)
  · exact (h.bounded kind id ((hio kind).symm.trans heq)).trans_le hnext
  · exact h.apart kind other id ((hio kind).symm.trans hkind) ((hio other).symm.trans hother)

theorem Own.change (h : Own s c) (hlive : (t.handlers c).phase.live = (s.handlers c).phase.live)
    (hconnections : c ∈ t.httpConnections ↔ c ∈ s.httpConnections)
    (hcancelled : c ∈ t.httpCancelled → c ∈ s.httpCancelled)
    (hdownloads : c ∈ t.sessionDownloads → (s.handlers c).phase.live = true)
    (hinput : (t.httpReclaimable c).isSome → (t.handlers c).phase.input = true) (hios : Ios t c) : Own t c := by
  refine ⟨hios, ?_, hinput, ?_, ?_⟩
  · rw [hlive]
    exact hconnections.trans h.registered
  · rw [hlive]
    exact fun hc => h.cancelled (hcancelled hc)
  · rw [hlive]
    exact hdownloads

theorem Own.same (h : Own s c) (hhandler : t.handlers c = s.handlers c)
    (hconnections : c ∈ t.httpConnections ↔ c ∈ s.httpConnections)
    (hreclaimable : t.httpReclaimable c = s.httpReclaimable c)
    (hcancelled : c ∈ t.httpCancelled → c ∈ s.httpCancelled)
    (hdownloads : c ∈ t.sessionDownloads → c ∈ s.sessionDownloads)
    (hentries : ∀ kind id, ((c, kind), id) ∈ t.ioDeadlines → ((c, kind), id) ∈ s.ioDeadlines)
    (hnext : s.nextDeadline ≤ t.nextDeadline) : Own t c := by
  refine h.change (by rw [hhandler]) hconnections hcancelled (fun hc => h.downloads (hdownloads hc)) ?_
    (h.keep (fun kind => by rw [hhandler]) hentries hnext ?_)
  · rw [hhandler, hreclaimable]
    exact h.reclaimable
  · rw [hhandler]
    exact h.phases

/-- A step of the handler of one connection. -/
structure Local (s t : Server) (c : Connection) : Prop where
  handlers : ∀ d, d ≠ c → t.handlers d = s.handlers d
  connections : ∀ d, d ≠ c → (d ∈ t.httpConnections ↔ d ∈ s.httpConnections)
  reclaimable : ∀ d, d ≠ c → t.httpReclaimable d = s.httpReclaimable d
  cancelled : ∀ d, d ≠ c → (d ∈ t.httpCancelled ↔ d ∈ s.httpCancelled)
  downloads : ∀ d, d ≠ c → (d ∈ t.sessionDownloads ↔ d ∈ s.sessionDownloads)
  entries : ∀ d, d ≠ c → ∀ kind id, ((d, kind), id) ∈ t.ioDeadlines → ((d, kind), id) ∈ s.ioDeadlines
  next : s.nextDeadline ≤ t.nextDeadline

theorem Own.other (h : Own s d) (hlocal : Local s t c) (hne : d ≠ c) : Own t d :=
  h.same (hlocal.handlers d hne) (hlocal.connections d hne) (hlocal.reclaimable d hne) (hlocal.cancelled d hne).1
    (hlocal.downloads d hne).1 (hlocal.entries d hne) hlocal.next

/-! ### What an I/O changes -/

section Io

variable {kind : Kind} {id : ℕ} {io : Option ℕ} {expiresAt : ℚ} {ok : Bool}

@[simp] theorem setIo_phase (h : Handler) (deadline : Option ℕ) : (h.setIo kind deadline).phase = h.phase := by
  cases kind <;> rfl

@[simp] theorem setIo_io (h : Handler) (deadline : Option ℕ) (other : Kind) :
    (h.setIo kind deadline).io other = if other = kind then deadline else h.io other := by
  cases kind <;> cases other <;> rfl

/-- What the start of an I/O and its end have in common. -/
structure Moved (s t : Server) (c : Connection) (kind : Kind) (io : Option ℕ) : Prop where
  handlers : t.handlers = Function.update s.handlers c ((s.handlers c).setIo kind io)
  connections : t.httpConnections = s.httpConnections
  reclaimable : ∀ d, d ≠ c → t.httpReclaimable d = s.httpReclaimable d
  cancelled : t.httpCancelled = s.httpCancelled
  downloads : t.sessionDownloads = s.sessionDownloads
  acceptor : t.acceptor = s.acceptor
  entries : ∀ d other id, ((d, other), id) ∈ t.ioDeadlines →
    d = c ∧ other = kind ∧ io = some id ∨ (d = c → other ≠ kind) ∧ ((d, other), id) ∈ s.ioDeadlines
  fresh : ∀ id, io = some id → id = s.nextDeadline
  next : s.nextDeadline ≤ t.nextDeadline ∧ ∀ id, io = some id → id < t.nextDeadline

/-- An I/O that was started. -/
structure Entered (s t : Server) (c : Connection) (kind : Kind) (expiresAt : ℚ) : Prop
    extends Moved s t c kind (some s.nextDeadline) where
  free : s.refuses c = false
  answers : kind = .write → t.httpReclaimable = s.httpReclaimable
  deadlines : t.deadlines = Function.update s.deadlines s.nextDeadline ⟨expiresAt, false⟩
  log : t.log = s.log ++ [.started c kind s.nextDeadline]
  watcher : ∀ time, t.watcher = .sleeping time → s.watcher = .sleeping time ∧
    t.deadlineNextCheck = s.deadlineNextCheck ∧ ∃ check, s.deadlineNextCheck = some check ∧ check ≤ expiresAt

@[simp] theorem notifyAll_watcher (time : Option ℚ) : s.notifyAll.watcher ≠ .sleeping time := by
  unfold Server.notifyAll
  dsimp only
  split
  · simp
  · rename_i hwatcher
    exact hwatcher time

theorem enter_entered (h : s.enter k c kind expiresAt = some t) : Entered s t c kind expiresAt := by
  unfold Server.enter at h
  rw [Option.ite_none_left_eq_some, not_or, not_le, Bool.not_eq_true] at h
  obtain ⟨⟨hfree, -⟩, h⟩ := h
  dsimp only at h
  rw [Option.some.injEq] at h
  have hcheck : s.deadlineNextCheck.all (expiresAt < ·) ≠ true → ∃ check, s.deadlineNextCheck = some check ∧
    check ≤ expiresAt := by
    cases s.deadlineNextCheck <;> simp
  have hentries : ∀ d other id, ((d, other), id) ∈ insertOrReplace s.ioDeadlines ((c, kind), s.nextDeadline) →
      d = c ∧ other = kind ∧ some s.nextDeadline = some id ∨ (d = c → other ≠ kind) ∧
        ((d, other), id) ∈ s.ioDeadlines := by
    intro d other id hmem
    rw [insertOrReplace, List.mem_append, List.mem_singleton] at hmem
    rcases hmem with hmem | hmem
    · obtain ⟨hmem, hkey⟩ := List.mem_filter.1 hmem
      refine .inr ⟨?_, hmem⟩
      rintro rfl rfl
      simp at hkey
    · cases hmem
      exact .inl ⟨rfl, rfl, rfl⟩
  have hfresh : ∀ id, some s.nextDeadline = some id → id = s.nextDeadline := fun _ heq => (Option.some.inj heq).symm
  have hlt : ∀ id, some s.nextDeadline = some id → id < s.nextDeadline + 1 :=
    fun id heq => (hfresh id heq).trans_lt (Nat.lt_succ_self _)
  subst h
  split_ifs with hkind hnotify hnotify
  · exact ⟨⟨rfl, rfl, fun d hd => Function.update_of_ne hd _ _, rfl, rfl, rfl, hentries, hfresh,
      Nat.le_succ _, hlt⟩, hfree,
      by simp [hkind], rfl, rfl, fun time htime => absurd htime (notifyAll_watcher time)⟩
  · exact ⟨⟨rfl, rfl, fun d hd => Function.update_of_ne hd _ _, rfl, rfl, rfl, hentries, hfresh,
      Nat.le_succ _, hlt⟩, hfree, by simp [hkind], rfl, rfl, fun _ htime => ⟨htime, rfl, hcheck hnotify⟩⟩
  · exact ⟨⟨rfl, rfl, fun _ _ => rfl, rfl, rfl, rfl, hentries, hfresh, Nat.le_succ _, hlt⟩, hfree,
      fun _ => rfl, rfl, rfl, fun time htime => absurd htime (notifyAll_watcher time)⟩
  · exact ⟨⟨rfl, rfl, fun _ _ => rfl, rfl, rfl, rfl, hentries, hfresh, Nat.le_succ _, hlt⟩, hfree,
      fun _ => rfl, rfl, rfl, fun _ htime => ⟨htime, rfl, hcheck hnotify⟩⟩

/-- An I/O that has ended, with the answer `ok`. -/
structure Left (s t : Server) (c : Connection) (kind : Kind) (id : ℕ) (ok : Bool) :
    Prop extends Moved s t c kind none where
  claim : t.httpReclaimable c = if kind = .read then none else s.httpReclaimable c
  expiresAt : ∀ other, (t.deadlines other).expiresAt = (s.deadlines other).expiresAt
  watcher : t.watcher = s.watcher
  check : t.deadlineNextCheck = s.deadlineNextCheck
  log : t.log = s.log ++ [.ended c kind id ok] ∨ t.log = s.log ++ [.expired c id, .ended c kind id ok]
  success : ok = true → c ∉ s.httpCancelled

theorem expire_spec (s : Server) (c : Connection) (id : ℕ) : ∃ deadlines log,
    s.expire c id = { s with deadlines := deadlines, log := log } ∧
      (∀ other, (deadlines other).expiresAt = (s.deadlines other).expiresAt) ∧
      (log = s.log ∨ log = s.log ++ [.expired c id]) := by
  unfold Server.expire
  split
  · refine ⟨_, _, rfl, fun other => ?_, .inr rfl⟩
    show (Function.update s.deadlines id _ other).expiresAt = _
    rw [Function.update_apply]
    split
    · rename_i heq
      rw [heq]
    · rfl
  · exact ⟨_, _, rfl, fun _ => rfl, .inl rfl⟩

theorem drop_entries : (s.drop c kind id).ioDeadlines =
    if ((c, kind), id) ∈ s.ioDeadlines then delete s.ioDeadlines (c, kind) else s.ioDeadlines := by
  unfold Server.drop
  split <;> rfl

theorem drop_cases : s.drop c kind id = { s with ioDeadlines := (s.drop c kind id).ioDeadlines } := by
  unfold Server.drop
  split <;> rfl

/-- The entry of an I/O leaves the table with it. -/
theorem leave_left {result : Bool} (hown : Own s c) (hio : (s.handlers c).io kind = some id)
    (h : s.leave c kind id ok = (result, t)) : Left s t c kind id result := by
  obtain ⟨deadlines, log, hexpire, hdeadlines, hlog⟩ := expire_spec s c id
  have hentries : ∀ d other entry,
      ((d, other), entry) ∈ (if ((c, kind), id) ∈ s.ioDeadlines then delete s.ioDeadlines (c, kind) else s.ioDeadlines) →
      d = c ∧ other = kind ∧ none = some entry ∨ (d = c → other ≠ kind) ∧ ((d, other), entry) ∈ s.ioDeadlines := by
    intro d other entry hmem
    split at hmem
    · obtain ⟨hmem, hkey⟩ := List.mem_filter.1 hmem
      refine .inr ⟨?_, hmem⟩
      rintro rfl rfl
      simp at hkey
    · rename_i hlookup
      refine .inr ⟨?_, hmem⟩
      rintro rfl rfl
      cases (hown.entries other entry hmem).symm.trans hio
      exact hlookup hmem
  unfold Server.leave at h
  rw [hexpire, drop_cases, drop_entries, Prod.mk.injEq] at h
  obtain ⟨rfl, rfl⟩ := h
  cases kind
  · refine ⟨⟨rfl, rfl, fun d hd => Function.update_of_ne hd _ _, rfl, rfl, rfl, hentries, by simp,
      Nat.le_refl _, by simp⟩, Function.update_self .., hdeadlines, rfl, rfl, ?_, fun hok => ?_⟩
    · exact hlog.imp (fun h => by rw [h]; rfl) fun h => by rw [h]; exact List.append_assoc ..
    · simp at hok
      exact hok.2
  · refine ⟨⟨rfl, rfl, fun _ _ => rfl, rfl, rfl, rfl, hentries, by simp, Nat.le_refl _, by simp⟩,
      rfl, hdeadlines, rfl, rfl, ?_, fun hok => ?_⟩
    · exact hlog.imp (fun h => by rw [h]; rfl) fun h => by rw [h]; exact List.append_assoc ..
    · simp at hok
      exact hok.2

end Io

/-! ### What is observed -/

/-- An I/O of the connection that was started, or that has ended well. -/
def Event.uses : Event → Connection → Bool
  | .input d, c | .started d _ _, c => decide (d = c)
  | .ended d _ _ ok, c => decide (d = c) && ok
  | _, _ => false

def Event.reclaims : Event → Option Connection
  | .reclaimed c _ _ => some c
  | _ => none

/-- It waits for input or reads it; a write is the answer to a header. -/
def Chosen (phase : Phase) (writing : Bool) : Prop := phase.input = true ∧ (writing = true → phase = .header)

/-- After the loss of a connection none of its I/Os starts or ends well. -/
def Silent (lost : Event → Option Connection) (log : List Event) : Prop :=
  log.Pairwise fun e later => ∀ c, lost e = some c → later.uses c = false

/-- No deadline expires after its I/O has ended. -/
def Punctual (log : List Event) : Prop :=
  log.Pairwise fun e later => ∀ c kind id ok, e = .ended c kind id ok → ∀ d, later ≠ .expired d id

/-- The watcher does not sleep past the earliest deadline. -/
def Timely (s : Server) : Prop :=
  ∀ time, s.watcher = .sleeping time →
    ∀ e ∈ s.ioDeadlines, ∃ check, time = some check ∧ check ≤ (s.deadlines e.2).expiresAt

/-- Nothing of an ended handler is left in the five tables. -/
def Unregistered (s : Server) (c : Connection) : Prop :=
  c ∉ s.httpConnections ∧ s.httpReclaimable c = none ∧ c ∉ s.httpCancelled ∧ c ∉ s.sessionDownloads ∧
    ∀ kind id, ((c, kind), id) ∉ s.ioDeadlines

theorem Own.unregistered (h : Own s c) (hended : (s.handlers c).phase = .ended) : Unregistered s c := by
  have hlive : ¬ (s.handlers c).phase.live = true := by simp [hended, Phase.live]
  refine ⟨fun hc => hlive (h.registered.1 hc), ?_, fun hc => hlive (h.cancelled hc),
    fun hc => hlive (h.downloads hc), ?_⟩
  · cases hr : s.httpReclaimable c with
    | none => rfl
    | some time =>
      have hinput := h.reclaimable (by rw [hr]; rfl)
      rw [hended] at hinput
      cases hinput
  · intro kind id hmem
    have hfits := h.phases kind id (h.entries kind id hmem)
    rw [hended] at hfits
    cases kind <;> simp [Kind.fits] at hfits

structure Inv (k : Config) (s : Server) : Prop where
  own : ∀ c, Own s c
  apart : ∀ c d kind other id, (s.handlers c).io kind = some id → (s.handlers d).io other = some id → c = d
  capacity : s.httpConnections.card ≤ k.maxHttpConnections
  downloads : s.sessionDownloads.card ≤ Server.downloadLimit k
  starting : ∀ c, s.acceptor = .starting c → (s.handlers c).phase = .registered
  reclaiming : ∀ c, s.acceptor = .reclaiming c → (s.handlers c).phase = .absent
  chosen : ∀ c phase writing, .reclaimed c phase writing ∈ s.log →
    Chosen phase writing ∧ (c ∈ s.httpCancelled ∨ (s.handlers c).phase = .ended)
  done : ∀ c kind id ok, .ended c kind id ok ∈ s.log → id < s.nextDeadline ∧ ∀ d other, (s.handlers d).io other ≠ some id
  silent : Silent Event.reclaims s.log
  punctual : Punctual s.log
  sleeping : ∀ time, s.watcher = .sleeping time → s.deadlineNextCheck = time
  timely : Timely s

/-- An event of a step of this handler. -/
structure Fit (s t : Server) (c : Connection) (e : Event) : Prop where
  reclaims : e.reclaims = none
  uses : ∀ d, e.uses d = true → d = c ∧ c ∉ s.httpCancelled ∧ (s.handlers c).phase ≠ .ended
  expired : ∀ d id, e = .expired d id → ∃ kind, (s.handlers c).io kind = some id
  ended : ∀ d kind id ok, e = .ended d kind id ok →
    (s.handlers c).io kind = some id ∧ ∀ other, (t.handlers c).io other ≠ some id

section Local

variable {l : List Event}

theorem Inv.silent_append (h : Inv k s) (hnew : ∀ e ∈ l, Fit s t c e) : Silent Event.reclaims (s.log ++ l) := by
  refine List.pairwise_append.2 ⟨h.silent, ?_, ?_⟩
  · refine List.pairwise_of_forall_mem_list fun e he later hlater d hd => ?_
    rw [(hnew e he).reclaims] at hd
    cases hd
  · intro e he later hlater d hd
    cases huses : later.uses d with
    | false => rfl
    | true =>
      obtain ⟨rfl, hcancelled, hended⟩ := (hnew later hlater).uses d huses
      cases e with
      | reclaimed d phase writing =>
        cases hd
        exact ((h.chosen d phase writing he).2.elim hcancelled hended).elim
      | _ => cases hd

theorem Inv.punctual_append (h : Inv k s) (hnew : ∀ e ∈ l, Fit s t c e) (hpunctual : Punctual l) :
    Punctual (s.log ++ l) := by
  refine List.pairwise_append.2 ⟨h.punctual, hpunctual, ?_⟩
  rintro e he later hlater d kind id ok rfl other rfl
  obtain ⟨kind', hio⟩ := (hnew _ hlater).expired other id rfl
  exact (h.done d kind id ok he).2 c kind' hio

/-- A step of one handler keeps what holds of all. -/
theorem Inv.local (h : Inv k s) (hlocal : Local s t c) (hown : Own t c)
    (hio : ∀ kind id, (t.handlers c).io kind = some id → (s.handlers c).io kind = some id ∨ s.nextDeadline ≤ id)
    (hcard : t.httpConnections.card ≤ k.maxHttpConnections)
    (hdownloads : t.sessionDownloads.card ≤ Server.downloadLimit k)
    (hstarting : ∀ d, t.acceptor = .starting d → (t.handlers d).phase = .registered)
    (hreclaiming : ∀ d, t.acceptor = .reclaiming d → (t.handlers d).phase = .absent)
    (hkeeps : c ∈ s.httpCancelled ∨ (s.handlers c).phase = .ended → c ∈ t.httpCancelled ∨ (t.handlers c).phase = .ended)
    (hlog : t.log = s.log ++ l) (hnew : ∀ e ∈ l, Fit s t c e) (hpunctual : Punctual l)
    (hsleeping : ∀ time, t.watcher = .sleeping time → t.deadlineNextCheck = time) (htimely : Timely t) : Inv k t := by
  refine ⟨fun d => ?_, ?_, hcard, hdownloads, hstarting, hreclaiming, ?_, ?_, ?_, ?_, hsleeping, htimely⟩
  · by_cases hd : d = c
    · exact hd ▸ hown
    · exact (h.own d).other hlocal hd
  · intro a b kind other id ha hb
    by_cases hac : a = c
    · by_cases hbc : b = c
      · rw [hac, hbc]
      · rw [hlocal.handlers b hbc] at hb
        subst hac
        rcases hio kind id ha with ha | ha
        · exact h.apart _ _ _ _ _ ha hb
        · exact absurd ((h.own b).bounded other id hb) (Nat.not_lt.2 ha)
    · rw [hlocal.handlers a hac] at ha
      by_cases hbc : b = c
      · subst hbc
        rcases hio other id hb with hb | hb
        · exact h.apart _ _ _ _ _ ha hb
        · exact absurd ((h.own a).bounded kind id ha) (Nat.not_lt.2 hb)
      · rw [hlocal.handlers b hbc] at hb
        exact h.apart _ _ _ _ _ ha hb
  · intro d phase writing hmem
    rw [hlog, List.mem_append] at hmem
    rcases hmem with hmem | hmem
    · obtain ⟨hinput, hlost⟩ := h.chosen d phase writing hmem
      refine ⟨hinput, ?_⟩
      by_cases hd : d = c
      · subst hd
        exact hkeeps hlost
      · rw [hlocal.handlers d hd, hlocal.cancelled d hd]
        exact hlost
    · cases (hnew _ hmem).reclaims
  · intro d kind id ok hmem
    rw [hlog, List.mem_append] at hmem
    rcases hmem with hmem | hmem
    · obtain ⟨hlt, hnone⟩ := h.done d kind id ok hmem
      refine ⟨hlt.trans_le hlocal.next, fun b other hb => ?_⟩
      by_cases hbc : b = c
      · subst hbc
        rcases hio other id hb with hb | hb
        · exact hnone b other hb
        · exact absurd hlt (Nat.not_lt.2 hb)
      · rw [hlocal.handlers b hbc] at hb
        exact hnone b other hb
    · obtain ⟨hended, hnone⟩ := (hnew _ hmem).ended d kind id ok rfl
      refine ⟨((h.own c).bounded kind id hended).trans_le hlocal.next, fun b other hb => ?_⟩
      by_cases hbc : b = c
      · exact hnone other (hbc ▸ hb)
      · rw [hlocal.handlers b hbc] at hb
        exact hbc (h.apart _ _ _ _ _ hended hb).symm
  · rw [hlog]
    exact h.silent_append hnew
  · rw [hlog]
    exact h.punctual_append hnew hpunctual

end Local

/-! ### The steps of a handler -/

section Handlers

variable {phase : Phase}

theorem setPhase_handler : (s.setPhase c phase).handlers c = { s.handlers c with phase := phase } :=
  Function.update_self ..

theorem setPhase_self : s.setPhase c (s.handlers c).phase = s := by
  simp [Server.setPhase, Server.setHandler]

@[simp] theorem io_phase (h : Handler) (kind : Kind) : ({ h with phase := phase } : Handler).io kind = h.io kind := by
  cases kind <;> rfl

theorem Local.setPhase : Local s (s.setPhase c phase) c where
  handlers _ hd := Function.update_of_ne hd _ _
  connections _ _ := Iff.rfl
  reclaimable _ _ := rfl
  cancelled _ _ := Iff.rfl
  downloads _ _ := Iff.rfl
  entries _ _ _ _ h := h
  next := Nat.le_refl _

theorem Local.trans {u : Server} (h : Local s t c) (h' : Local t u c) : Local s u c where
  handlers d hd := (h'.handlers d hd).trans (h.handlers d hd)
  connections d hd := (h'.connections d hd).trans (h.connections d hd)
  reclaimable d hd := (h'.reclaimable d hd).trans (h.reclaimable d hd)
  cancelled d hd := (h'.cancelled d hd).trans (h.cancelled d hd)
  downloads d hd := (h'.downloads d hd).trans (h.downloads d hd)
  entries d hd kind id hmem := h.entries d hd kind id (h'.entries d hd kind id hmem)
  next := h.next.trans h'.next

theorem Timely.mono (h : Timely s) (hwatcher : ∀ time, t.watcher = .sleeping time → s.watcher = .sleeping time)
    (hentries : ∀ e ∈ t.ioDeadlines, e ∈ s.ioDeadlines)
    (hdeadlines : ∀ id, (t.deadlines id).expiresAt = (s.deadlines id).expiresAt) : Timely t := by
  intro time htime e he
  rw [hdeadlines]
  exact h time (hwatcher time htime) e (hentries e he)

def Phase.running : Phase → Bool
  | .absent | .registered | .ended => false
  | _ => true

variable {l : List Event}

/-- A step of a thread that is neither about to start nor at its end. -/
theorem Inv.handler (h : Inv k s) (hrunning : (s.handlers c).phase.running = true) (hlocal : Local s t c)
    (hown : Own t c)
    (hio : ∀ kind id, (t.handlers c).io kind = some id → (s.handlers c).io kind = some id ∨ s.nextDeadline ≤ id)
    (hconnections : t.httpConnections = s.httpConnections) (hcancelled : t.httpCancelled = s.httpCancelled)
    (hdownloads : t.sessionDownloads.card ≤ Server.downloadLimit k) (hacceptor : t.acceptor = s.acceptor)
    (hlog : t.log = s.log ++ l) (hnew : ∀ e ∈ l, Fit s t c e) (hpunctual : Punctual l)
    (hsleeping : ∀ time, t.watcher = .sleeping time → t.deadlineNextCheck = time) (htimely : Timely t) : Inv k t := by
  have hstays : ∀ {d phase}, (s.handlers d).phase = phase → phase.running = false → (t.handlers d).phase = phase := by
    intro d phase hphase hnot
    have hne : d ≠ c := by
      rintro rfl
      rw [hphase, hnot] at hrunning
      cases hrunning
    rw [hlocal.handlers d hne]
    exact hphase
  refine h.local hlocal hown hio (hconnections ▸ h.capacity) hdownloads
    (fun d hd => hstays (h.starting d (hacceptor ▸ hd)) rfl)
    (fun d hd => hstays (h.reclaiming d (hacceptor ▸ hd)) rfl) ?_ hlog hnew hpunctual hsleeping htimely
  exact Or.imp (fun hc => hcancelled ▸ hc) fun hended => hstays hended rfl

theorem running_live (h : phase.running = true) : phase.live = true := by
  cases phase <;> simp_all [Phase.running, Phase.live]

theorem punctual_nil : Punctual [] := List.Pairwise.nil

theorem punctual_singleton (e : Event) : Punctual [e] := List.pairwise_singleton _ _

/-- A step without an I/O. -/
theorem Inv.touch {handler : Handler} {reclaimable : Connection → Option ℚ} {log : List Event} (h : Inv k s)
    (hrunning : (s.handlers c).phase.running = true) (hio : ∀ kind, handler.io kind = (s.handlers c).io kind)
    (hlive : handler.phase.live = true) (hothers : ∀ d, d ≠ c → reclaimable d = s.httpReclaimable d)
    (hinput : (reclaimable c).isSome → handler.phase.input = true)
    (hphases : ∀ kind id, (s.handlers c).io kind = some id → kind.fits handler.phase)
    (hlog : log = s.log ++ l)
    (hnew : ∀ e ∈ l, Fit s { s.setHandler c handler with httpReclaimable := reclaimable, log := log } c e)
    (hpunctual : Punctual l) : Inv k { s.setHandler c handler with httpReclaimable := reclaimable, log := log } := by
  have hhandler : ({ s.setHandler c handler with
    httpReclaimable := reclaimable, log := log } : Server).handlers c = handler :=
    Function.update_self ..
  have hlocal : Local s { s.setHandler c handler with httpReclaimable := reclaimable, log := log } c :=
    ⟨fun d hd => Function.update_of_ne hd _ _, fun _ _ => Iff.rfl, hothers, fun _ _ => Iff.rfl, fun _ _ => Iff.rfl,
      fun _ _ _ _ hmem => hmem, Nat.le_refl _⟩
  have hios : Ios { s.setHandler c handler with httpReclaimable := reclaimable, log := log } c :=
    (h.own c).keep (by rw [hhandler]; exact hio) (fun _ _ hmem => hmem) (Nat.le_refl _) (by rw [hhandler]; exact hphases)
  refine h.handler hrunning hlocal ((h.own c).change ?_ Iff.rfl id (h.own c).downloads ?_ hios)
    (fun kind id heq => ?_) rfl rfl
    h.downloads rfl hlog hnew hpunctual h.sleeping (h.timely.mono (fun _ htime => htime) (fun _ he => he) fun _ => rfl)
  · rw [hhandler, hlive, running_live hrunning]
  · rw [hhandler]
    exact hinput
  · rw [hhandler, hio] at heq
    exact .inl heq

theorem Inv.setPhase (h : Inv k s) (hrunning : (s.handlers c).phase.running = true) (hlive : phase.live = true)
    (hinput : (s.httpReclaimable c).isSome → phase.input = true)
    (hphases : ∀ kind id, (s.handlers c).io kind = some id → kind.fits phase) : Inv k (s.setPhase c phase) :=
  h.touch (l := []) hrunning (fun kind => io_phase ..) hlive (fun _ _ => rfl) hinput hphases
    (List.append_nil _).symm (by simp) punctual_nil

section Io

variable {kind : Kind} {id : ℕ} {io : Option ℕ} {expiresAt : ℚ} {ok : Bool}

theorem Moved.local (hm : Moved s t c kind io) : Local s t c where
  handlers d hd := by rw [hm.handlers, Function.update_of_ne hd]
  connections d _ := by rw [hm.connections]
  reclaimable := hm.reclaimable
  cancelled d _ := by rw [hm.cancelled]
  downloads d _ := by rw [hm.downloads]
  entries d hd other id hmem := ((hm.entries d other id hmem).resolve_left fun h => hd h.1).2
  next := hm.next.1

theorem Moved.handler (hm : Moved s t c kind io) : t.handlers c = (s.handlers c).setIo kind io := by
  rw [hm.handlers, Function.update_self]

theorem Moved.own (hm : Moved s t c kind io) (h : Own s c) (hlive : phase.live = (s.handlers c).phase.live)
    (hinput : (t.httpReclaimable c).isSome → phase.input = true)
    (hphases : ∀ other id, ((s.handlers c).setIo kind io).io other = some id → other.fits phase) :
    Own (t.setPhase c phase) c := by
  refine h.change (t := t.setPhase c phase) ?_ (hm.connections ▸ Iff.rfl) (hm.cancelled ▸ fun hc => hc)
    (hm.downloads ▸ h.downloads) ?_ ⟨?_, ?_, ?_, ?_⟩
  all_goals simp only [setPhase_handler, io_phase, hlive, hm.handler]
  · exact hinput
  · exact hphases
  · intro other id hmem
    rw [setIo_io]
    rcases hm.entries c other id hmem with ⟨-, rfl, heq⟩ | ⟨hne, hmem⟩
    · rw [if_pos rfl, heq]
    · rw [if_neg (hne rfl)]
      exact h.entries other id hmem
  · intro other id hid
    rw [setIo_io] at hid
    split at hid
    · exact hm.next.2 id hid
    · exact (h.bounded other id hid).trans_le hm.next.1
  · intro a b id ha hb
    rw [setIo_io] at ha hb
    split at ha
    · split at hb
      · rename_i hak hbk
        rw [hak, hbk]
      · exact absurd (hm.fresh id ha) (h.bounded b id hb).ne
    · split at hb
      · exact absurd (hm.fresh id hb) (h.bounded a id ha).ne
      · exact h.apart a b id ha hb

theorem Inv.moved (h : Inv k s) (hm : Moved s t c kind io) (hrunning : (s.handlers c).phase.running = true)
    (hlive : phase.live = true) (hinput : (t.httpReclaimable c).isSome → phase.input = true)
    (hphases : ∀ other id, ((s.handlers c).setIo kind io).io other = some id → other.fits phase)
    (hlog : t.log = s.log ++ l) (hnew : ∀ e ∈ l, Fit s (t.setPhase c phase) c e) (hpunctual : Punctual l)
    (hsleeping : ∀ time, t.watcher = .sleeping time → t.deadlineNextCheck = time) (htimely : Timely t) :
    Inv k (t.setPhase c phase) := by
  have hown := hm.own (h.own c) (hlive.trans (running_live hrunning).symm) hinput hphases
  have hdownloads : t.sessionDownloads.card ≤ Server.downloadLimit k := by
    rw [hm.downloads]
    exact h.downloads
  refine h.handler hrunning (hm.local.trans .setPhase) hown (fun other id hio => ?_) hm.connections
    hm.cancelled hdownloads hm.acceptor hlog hnew hpunctual hsleeping htimely
  rw [setPhase_handler, io_phase, hm.handler, setIo_io] at hio
  split at hio
  · exact .inr (hm.fresh id hio).ge
  · exact .inl hio

theorem Entered.timely (he : Entered s t c kind expiresAt) (h : Inv k s) :
    (∀ time, t.watcher = .sleeping time → t.deadlineNextCheck = time) ∧ Timely t := by
  constructor
  · intro time htime
    obtain ⟨hsleeps, hcheck, -⟩ := he.watcher time htime
    rw [hcheck]
    exact h.sleeping time hsleeps
  · rintro time htime ⟨⟨d, other⟩, id⟩ hmem
    obtain ⟨hsleeps, -, check, hcheck, hle⟩ := he.watcher time htime
    rcases he.entries d other id hmem with ⟨-, -, heq⟩ | ⟨-, hold⟩
    · rw [he.deadlines, ← Option.some.inj heq, Function.update_self]
      exact ⟨check, (h.sleeping time hsleeps).symm.trans hcheck, hle⟩
    · have hlt := (h.own d).bounded other id ((h.own d).entries other id hold)
      rw [he.deadlines, Function.update_of_ne hlt.ne]
      exact h.timely time hsleeps _ hold

theorem Inv.entered (h : Inv k s) (he : Entered s t c kind expiresAt) (hrunning : (s.handlers c).phase.running = true)
    (hlive : phase.live = true) (hinput : (t.httpReclaimable c).isSome → phase.input = true)
    (hphases : ∀ other id, ((s.handlers c).setIo kind (some s.nextDeadline)).io other = some id → other.fits phase) :
    Inv k (t.setPhase c phase) := by
  obtain ⟨hsleeping, htimely⟩ := he.timely h
  refine h.moved he.toMoved hrunning hlive hinput hphases he.log (fun e hmem => ?_)
    (punctual_singleton _) hsleeping htimely
  rw [List.mem_singleton.1 hmem]
  refine ⟨rfl, fun d huses => ?_, by simp, by simp⟩
  have hfree := he.free
  simp only [Server.refuses, Bool.or_eq_false_iff, decide_eq_false_iff_not] at hfree
  refine ⟨(of_decide_eq_true huses).symm, hfree.2, ?_⟩
  intro hended
  rw [hended] at hrunning
  cases hrunning

theorem Inv.left (h : Inv k s) (hl : Left s t c kind id ok)
    (hio : (s.handlers c).io kind = some id) (hrunning : (s.handlers c).phase.running = true)
    (hlive : phase.live = true) (hinput : (t.httpReclaimable c).isSome → phase.input = true)
    (hphases : ∀ other id, ((s.handlers c).setIo kind none).io other = some id → other.fits phase) :
    Inv k (t.setPhase c phase) := by
  have hnone : ∀ other, ((t.setPhase c phase).handlers c).io other ≠ some id := by
    intro other heq
    rw [setPhase_handler, io_phase, hl.handler, setIo_io] at heq
    split at heq
    · cases heq
    · rename_i hne
      exact hne ((h.own c).apart other kind id heq hio)
  have hended : Fit s (t.setPhase c phase) c (.ended c kind id ok) := by
    refine ⟨rfl, fun d huses => ?_, by simp, ?_⟩
    · obtain ⟨hd, hok⟩ := Bool.and_eq_true_iff.1 huses
      refine ⟨(of_decide_eq_true hd).symm, hl.success hok, ?_⟩
      intro hended
      rw [hended] at hrunning
      cases hrunning
    · rintro d other entry ok' heq
      cases heq
      exact ⟨hio, hnone⟩
  have hexpired : Fit s (t.setPhase c phase) c (.expired c id) := by
    refine ⟨rfl, by simp [Event.uses], ?_, by simp⟩
    rintro d entry heq
    cases heq
    exact ⟨kind, hio⟩
  have hlog : ∃ new, t.log = s.log ++ new ∧ (∀ e ∈ new, Fit s (t.setPhase c phase) c e) ∧ Punctual new := by
    rcases hl.log with hlog | hlog
    · exact ⟨_, hlog, by simpa using hended, punctual_singleton _⟩
    · refine ⟨_, hlog, by simp [hended, hexpired], ?_⟩
      simp [Punctual]
  obtain ⟨new, hlog, hnew, hpunctual⟩ := hlog
  refine h.moved hl.toMoved hrunning hlive hinput hphases hlog hnew hpunctual ?_ ?_
  · rw [hl.watcher, hl.check]
    exact h.sleeping
  · refine h.timely.mono (fun time htime => hl.watcher.symm.trans htime) (fun e he => ?_) hl.expiresAt
    exact ((hl.entries e.1.1 e.1.2 e.2 he).resolve_left (by simp)).2

end Io

end Handlers

/-! ### The actions -/

section Actions

variable {kind : Kind} {phase : Phase}

theorem fits_running (h : kind.fits phase) : phase.running = true := by
  cases kind <;> rcases h with rfl | rfl <;> rfl

theorem Own.quiet (h : Own s c) (hfits : ∀ kind : Kind, ¬ kind.fits (s.handlers c).phase) (kind : Kind) :
    (s.handlers c).io kind = none := by
  cases hio : (s.handlers c).io kind with
  | none => rfl
  | some id => exact absurd (h.phases kind id hio) (hfits kind)

/-- A handler that writes nothing, in a phase without a read. -/
theorem Own.unread (h : Own s c) (hwriting : (s.handlers c).writing = none)
    (hphase : (s.handlers c).phase ≠ .header ∧ (s.handlers c).phase ≠ .body) (kind : Kind) :
    (s.handlers c).io kind = none := by
  cases kind with
  | read =>
    cases hio : (s.handlers c).io .read with
    | none => rfl
    | some id => exact (h.phases .read id hio).elim (fun hp => absurd hp hphase.1) fun hp => absurd hp hphase.2
  | write => exact hwriting

/-- A step of a command without an I/O. -/
theorem Inv.rephase (h : Inv k s) (hquiet : ∀ kind, (s.handlers c).io kind = none)
    (hrunning : (s.handlers c).phase.running = true) (hinput : (s.handlers c).phase.input = false)
    (hlive : phase.live = true) :
    Inv k (s.setPhase c phase) := by
  refine h.setPhase hrunning hlive (fun hsome => ?_) fun kind id hio => ?_
  · rw [(h.own c).reclaimable hsome] at hinput
    cases hinput
  · rw [hquiet] at hio
    cases hio

theorem requestRead_inv (h : Inv k s) (ht : s.requestRead k c = some t) : Inv k t := by
  unfold Server.requestRead at ht
  dsimp only at ht
  rw [Option.ite_none_left_eq_some, not_or, Option.not_isSome_iff_eq_none, Option.not_isSome_iff_eq_none] at ht
  obtain ⟨⟨hreading, hwriting⟩, ht⟩ := ht
  have hquiet : ∀ kind, (s.handlers c).io kind = none := by
    intro kind
    cases kind
    · exact hreading
    · exact hwriting
  have hphases : ∀ phase : Phase, phase = .header ∨ phase = .body → ∀ other id,
      ((s.handlers c).setIo .read (some s.nextDeadline)).io other = some id → other.fits phase := by
    intro phase hphase other id hio
    rw [setIo_io, hquiet] at hio
    cases other
    · exact hphase
    · simp at hio
  split at ht
  · rename_i hphase
    obtain ⟨u, hu, rfl⟩ := Option.map_eq_some_iff.1 ht
    exact h.entered (enter_entered hu) (by rw [hphase]; rfl) rfl (fun _ => rfl) (hphases _ (.inl rfl))
  · rename_i hphase
    rw [Option.some.injEq] at ht
    subst ht
    split
    · rename_i u hu
      exact h.entered (enter_entered hu) (by rw [hphase]; rfl) rfl (fun _ => rfl) (hphases _ (.inr rfl))
    · exact h.rephase hquiet (by rw [hphase]; rfl) (by rw [hphase]; rfl) rfl
  · cases ht

theorem responseWrite_entered {expiresAt : ℚ} (h : Inv k s) (he : Entered s t c kind expiresAt)
    (hkind : kind = .write) (hfits : Kind.fits .write (s.handlers c).phase) : Inv k t := by
  subst hkind
  have hphase : (t.handlers c).phase = (s.handlers c).phase := by rw [he.handler, setIo_phase]
  rw [← setPhase_self (s := t) (c := c), hphase]
  refine h.entered he (fits_running hfits) (running_live (fits_running hfits)) ?_ fun other id hio => ?_
  · rw [he.answers rfl]
    exact (h.own c).reclaimable
  · cases other with
    | read =>
      rw [setIo_io] at hio
      exact (h.own c).phases .read id hio
    | write => exact hfits

theorem responseWrite_inv {time : ℚ} (h : Inv k s) (ht : s.responseWrite k c time = some t) : Inv k t := by
  unfold Server.responseWrite at ht
  dsimp only at ht
  rw [Option.ite_none_left_eq_some, not_or] at ht
  obtain ⟨⟨-, hwriting⟩, ht⟩ := ht
  split at ht
  · rename_i hphase
    exact responseWrite_entered h (enter_entered ht) rfl (.inl hphase)
  · rename_i hphase
    rw [Option.some.injEq] at ht
    subst ht
    cases hu : s.enter k c .write (time + k.writeTimeout) with
    | some u => exact responseWrite_entered h (enter_entered hu) rfl (.inr hphase)
    | none =>
      refine h.rephase ((h.own c).unread (by simpa using hwriting) (by simp [hphase])) ?_ ?_ rfl
      · rw [hphase]
        rfl
      · rw [hphase]
        rfl
  · cases ht

theorem after_live {ok timeout : Bool} (h : kind.fits phase) : (Server.after phase kind ok timeout).live = true := by
  cases kind <;> rcases h with rfl | rfl <;> cases ok <;> rfl

theorem endIo_inv {ok : Bool} (h : Inv k s) (ht : s.endIo c kind ok = some t) : Inv k t := by
  unfold Server.endIo at ht
  dsimp only at ht
  rw [Option.ite_none_left_eq_some] at ht
  obtain ⟨hnested, ht⟩ := ht
  obtain ⟨id, hio, hr⟩ := Option.map_eq_some_iff.1 ht
  obtain ⟨result, u, hleave⟩ : ∃ result u, s.leave c kind id ok = (result, u) := ⟨_, _, rfl⟩
  rw [hleave] at hr
  subst hr
  have hl := leave_left (h.own c) hio hleave
  have hfits := (h.own c).phases kind id hio
  refine h.left hl hio (fits_running hfits) ?_ ?_ ?_
  · exact after_live hfits
  · rw [hl.claim]
    cases kind with
    | read => simp
    | write =>
      intro hsome
      have hinput := (h.own c).reclaimable (by simpa using hsome)
      rcases hfits with hphase | hphase
      · rw [hphase]
        rfl
      · rw [hphase] at hinput
        cases hinput
  · intro other entry hentry
    rw [setIo_io] at hentry
    cases kind with
    | read =>
      cases other with
      | read => simp at hentry
      | write => exact absurd ⟨rfl, Option.isSome_iff_exists.2 ⟨entry, by simpa [Handler.io] using hentry⟩⟩ hnested
    | write =>
      cases other with
      | write => simp at hentry
      | read =>
        have hread := (h.own c).phases .read entry (by simpa using hentry)
        rcases hfits with hphase | hphase
        · rw [hphase]
          exact .inl rfl
        · rcases hread with hread | hread
          all_goals
            rw [hphase] at hread
            cases hread

theorem beginRequestInput_inv (h : Inv k s) (hphase : (s.handlers c).phase = .begun ∨ (s.handlers c).phase = .command)
    (hwriting : (s.handlers c).writing = none) (hfree : s.refuses c = false) :
    Inv k (((s.reclaim c (some s.now)).setPhase c .waiting).note (.input c)) := by
  have hrunning : (s.handlers c).phase.running = true := by rcases hphase with h | h <;> rw [h] <;> rfl
  have hquiet := (h.own c).unread hwriting (by rcases hphase with h | h <;> simp [h])
  refine h.touch (l := [.input c]) hrunning (fun kind => io_phase ..) rfl
    (fun d hd => Function.update_of_ne hd _ _) (fun _ => rfl)
    (fun kind id hio => by simp [hquiet] at hio) rfl (fun e hmem => ?_) (punctual_singleton _)
  rw [List.mem_singleton.1 hmem]
  refine ⟨rfl, fun d huses => ?_, by simp, by simp⟩
  simp only [Server.refuses, Bool.or_eq_false_iff, decide_eq_false_iff_not] at hfree
  refine ⟨(of_decide_eq_true huses).symm, hfree.2, ?_⟩
  rcases hphase with hphase | hphase <;> simp [hphase]

theorem peeked_inv {time : ℚ} (h : Inv k s) (hphase : (s.handlers c).phase = .waiting) :
    Inv k (s.setHandler c { s.handlers c with requestReadExpiresAt := time }) :=
  h.touch (l := []) (by rw [hphase]; rfl) (fun kind => by cases kind <;> rfl) (by rw [hphase]; rfl) (fun _ _ => rfl)
    (h.own c).reclaimable (h.own c).phases (List.append_nil _).symm (by simp) punctual_nil

/-- A command that has caught an exception, or has let it through. -/
theorem raised_inv {timeout : Bool} (h : Inv k s) (hphase : (s.handlers c).phase = .raised timeout)
    (hnext : phase = .command ∨ phase = .closing) : Inv k (s.setPhase c phase) := by
  refine h.rephase ((h.own c).quiet fun kind hfits => ?_) (by rw [hphase]; rfl) (by rw [hphase]; rfl)
    (by rcases hnext with rfl | rfl <;> rfl)
  rw [hphase] at hfits
  cases kind <;> simp [Kind.fits] at hfits

theorem sessionDownloads_inv {downloads : Finset Connection} (h : Inv k s)
    (hrunning : (s.handlers c).phase.running = true)
    (hdownloads : ∀ d, d ≠ c → (d ∈ downloads ↔ d ∈ s.sessionDownloads))
    (hcard : downloads.card ≤ Server.downloadLimit k) : Inv k { s with sessionDownloads := downloads } := by
  have hlocal : Local s { s with sessionDownloads := downloads } c :=
    ⟨fun _ _ => rfl, fun _ _ => Iff.rfl, fun _ _ => rfl, fun _ _ => Iff.rfl, hdownloads,
      fun _ _ _ _ hmem => hmem, Nat.le_refl _⟩
  refine h.handler (l := []) hrunning hlocal ?_ (fun kind id hio => .inl hio) rfl rfl hcard rfl (List.append_nil _).symm
    (by simp) punctual_nil h.sleeping (h.timely.mono (fun _ htime => htime) (fun _ he => he) fun _ => rfl)
  exact (h.own c).change rfl Iff.rfl id (fun _ => running_live hrunning) (h.own c).reclaimable
    ((h.own c).keep (fun _ => rfl) (fun _ _ hmem => hmem) (Nat.le_refl _) (h.own c).phases)

theorem beginSessionDownload_inv (h : Inv k s) (hphase : (s.handlers c).phase = .command) :
    Inv k (s.beginSessionDownload k c) := by
  unfold Server.beginSessionDownload
  split
  · exact h
  · rename_i hfree
    rw [not_or, not_le] at hfree
    refine sessionDownloads_inv (c := c) h (by rw [hphase]; rfl) (fun d hd => ?_) ?_
    · rw [Finset.mem_insert, or_iff_right hd]
    · exact (Finset.card_insert_le _ _).trans hfree.2

theorem endSessionDownload_inv (h : Inv k s) (hrunning : (s.handlers c).phase.running = true) :
    Inv k { s with sessionDownloads := s.sessionDownloads.erase c } := by
  refine sessionDownloads_inv (c := c) h hrunning (fun d hd => ?_) ?_
  · rw [Finset.mem_erase, and_iff_right hd]
  · exact (Finset.card_erase_le).trans h.downloads

section

attribute [local simp] Server.httpFinished Server.setPhase Server.setHandler Server.notifyAll Server.reclaim

/-- The tables after `_http_finished`, whatever the acceptor does. -/
theorem httpFinished_inv {acceptor : Acceptor} (h : Inv k s) (hquiet : ∀ kind, (s.handlers c).io kind = none)
    (hstarting : ∀ d, acceptor = .starting d → s.acceptor = .starting d ∧ d ≠ c)
    (hreclaiming : ∀ d, acceptor = .reclaiming d → s.acceptor = .reclaiming d ∧ d ≠ c) :
    Inv k { s.httpFinished c with acceptor := acceptor } := by
  have hhandler : ({ s.httpFinished c with acceptor := acceptor } : Server).handlers c =
      { s.handlers c with phase := .ended } := Function.update_self ..
  have hlocal : Local s { s.httpFinished c with acceptor := acceptor } c :=
    ⟨fun d hd => Function.update_of_ne hd _ _, fun d hd => by simp [hd], fun d hd => Function.update_of_ne hd _ _,
      fun d hd => by simp [hd], fun d hd => by simp [hd], fun _ _ _ _ hmem => hmem, Nat.le_refl _⟩
  have hio : ∀ kind, (({ s.httpFinished c with acceptor := acceptor } : Server).handlers c).io kind = none := by
    intro kind
    rw [hhandler, io_phase, hquiet]
  refine h.local (l := []) hlocal ?_ (fun kind id heq => ?_) ?_ ?_ (fun d hd => ?_) (fun d hd => ?_) (fun _ => .inr ?_)
    (List.append_nil _).symm (by simp) punctual_nil (fun time htime => ?_) fun time htime => ?_
  · refine ⟨(h.own c).keep (fun kind => by rw [hio, hquiet]) (fun _ _ hmem => hmem)
      (Nat.le_refl _) fun kind id heq => ?_, ?_, ?_, ?_, ?_⟩
    · rw [hquiet] at heq
      cases heq
    · rw [hhandler]
      simp [Phase.live]
    all_goals simp
  · rw [hio] at heq
    cases heq
  · exact (Finset.card_erase_le).trans h.capacity
  · exact (Finset.card_erase_le).trans h.downloads
  · obtain ⟨hd, hne⟩ := hstarting d hd
    rw [hlocal.handlers d hne]
    exact h.starting d hd
  · obtain ⟨hd, hne⟩ := hreclaiming d hd
    rw [hlocal.handlers d hne]
    exact h.reclaiming d hd
  · rw [hhandler]
  · exact absurd htime (notifyAll_watcher time)
  · exact absurd htime (notifyAll_watcher time)

end

/-- A step that changes no table. -/
theorem Inv.same (h : Inv k s) (hhandlers : t.handlers = s.handlers)
    (hconnections : t.httpConnections = s.httpConnections)
    (hreclaimable : t.httpReclaimable = s.httpReclaimable) (hcancelled : t.httpCancelled = s.httpCancelled)
    (hdownloads : t.sessionDownloads = s.sessionDownloads) (hentries : t.ioDeadlines = s.ioDeadlines)
    (hdeadlines : t.deadlines = s.deadlines) (hnext : t.nextDeadline = s.nextDeadline) (hlog : t.log = s.log)
    (hcheck : t.deadlineNextCheck = s.deadlineNextCheck)
    (hacceptor : t.acceptor = .idle ∨ t.acceptor = s.acceptor)
    (hwatcher : ∀ time, t.watcher = .sleeping time → s.watcher = .sleeping time) : Inv k t := by
  refine ⟨fun c => ?_, ?_, ?_, ?_, ?_, ?_, ?_, ?_, ?_, ?_, ?_, ?_⟩
  · exact (h.own c).same (by rw [hhandlers]) (by rw [hconnections]) (by rw [hreclaimable]) (by rw [hcancelled]; exact id)
      (by rw [hdownloads]; exact id) (by rw [hentries]; exact fun _ _ hmem => hmem) hnext.ge
  · rw [hhandlers]
    exact h.apart
  · rw [hconnections]
    exact h.capacity
  · rw [hdownloads]
    exact h.downloads
  · rw [hhandlers]
    rcases hacceptor with hidle | hsame
    · simp [hidle]
    · rw [hsame]
      exact h.starting
  · rw [hhandlers]
    rcases hacceptor with hidle | hsame
    · simp [hidle]
    · rw [hsame]
      exact h.reclaiming
  · rw [hlog, hcancelled, hhandlers]
    exact h.chosen
  · rw [hlog, hnext, hhandlers]
    exact h.done
  · rw [hlog]
    exact h.silent
  · rw [hlog]
    exact h.punctual
  · intro time htime
    rw [hcheck]
    exact h.sleeping time (hwatcher time htime)
  · exact h.timely.mono hwatcher (by rw [hentries]; exact fun _ he => he) fun id => by rw [hdeadlines]

theorem Own.absent (h : Own s c) (hphase : (s.handlers c).phase = .absent) :
    c ∉ s.httpConnections ∧ c ∉ s.httpCancelled ∧ c ∉ s.sessionDownloads ∧ ∀ kind, (s.handlers c).io kind = none := by
  have hlive : ¬ (s.handlers c).phase.live = true := by simp [hphase, Phase.live]
  refine ⟨fun hc => hlive (h.registered.1 hc), fun hc => hlive (h.cancelled hc), fun hc => hlive (h.downloads hc),
    h.quiet fun kind hfits => ?_⟩
  rw [hphase] at hfits
  cases kind <;> simp [Kind.fits] at hfits

theorem admission_inv (h : Inv k s) (hphase : (s.handlers c).phase = .absent) : Inv k (s.admission k c) := by
  unfold Server.admission
  split
  · rename_i hroom
    obtain ⟨hconnection, hcancelled, hdownload, hquiet⟩ := (h.own c).absent hphase
    set t : Server := { (s.reclaim c (some s.now)).setPhase c .registered with
      httpConnections := insert c s.httpConnections, acceptor := .starting c } with ht
    have hhandler : t.handlers c = { s.handlers c with phase := .registered } := Function.update_self ..
    have hio : ∀ kind, (t.handlers c).io kind = none := by
      intro kind
      rw [hhandler, io_phase, hquiet]
    have hlocal : Local s t c :=
      ⟨fun d hd => Function.update_of_ne hd _ _, fun d hd => by rw [ht]; simp [hd],
        fun d hd => Function.update_of_ne hd _ _,
        fun _ _ => Iff.rfl, fun _ _ => Iff.rfl, fun _ _ _ _ hmem => hmem, Nat.le_refl _⟩
    refine h.local (l := []) hlocal ?_ (fun kind id heq => ?_) ?_ h.downloads (fun d hd => ?_) (fun d hd => by cases hd)
      (fun hlost => ?_) (List.append_nil _).symm (by simp) punctual_nil h.sleeping
      (h.timely.mono (fun _ htime => htime) (fun _ he => he) fun _ => rfl)
    · refine ⟨(h.own c).keep (fun kind => by rw [hio, hquiet]) (fun _ _ hmem => hmem)
        (Nat.le_refl _) fun kind id heq => ?_, ?_, ?_,
        fun hc => absurd hc hcancelled, fun hc => absurd hc hdownload⟩
      · rw [hquiet] at heq
        cases heq
      · rw [hhandler]
        exact ⟨fun _ => rfl, fun _ => Finset.mem_insert_self _ _⟩
      · rw [hhandler]
        exact fun _ => rfl
    · rw [hio] at heq
      cases heq
    · exact (Finset.card_insert_le _ _).trans hroom.2
    · cases hd
      rw [hhandler]
    · rcases hlost with hc | hended
      · exact absurd hc hcancelled
      · rw [hphase] at hended
        cases hended
  · exact h.same rfl rfl rfl rfl rfl rfl rfl rfl rfl rfl (.inl rfl) fun _ htime => htime

/-- A connection is chosen while its input is awaited or read, or a header is answered. -/
theorem reclaimed_inv (h : Inv k s) (habsent : (s.handlers c).phase = .absent) (hregistered : d ∈ s.httpConnections)
    (hcandidate : s.candidate d = true) :
    Inv k ({ s with httpCancelled := insert d s.httpCancelled, acceptor := .reclaiming c }.note
      (.reclaimed d (s.handlers d).phase (s.handlers d).writing.isSome)) := by
  have hinput : Chosen (s.handlers d).phase (s.handlers d).writing.isSome := by
    simp only [Server.candidate, Bool.and_eq_true] at hcandidate
    have hphase := (h.own d).reclaimable hcandidate.1
    refine ⟨hphase, fun hwriting => ?_⟩
    obtain ⟨id, hid⟩ := Option.isSome_iff_exists.1 hwriting
    rcases (h.own d).phases .write id hid with hheader | hcommand
    · exact hheader
    · rw [hcommand] at hphase
      cases hphase
  refine ⟨fun b => ?_, h.apart, h.capacity, h.downloads, (fun b hb => by cases hb), fun b hb => ?_, ?_, ?_, ?_, ?_,
    h.sleeping, h.timely.mono (fun _ htime => htime) (fun _ he => he) fun _ => rfl⟩
  · refine { h.own b with cancelled := fun hb => ?_ }
    rcases Finset.mem_insert.1 hb with rfl | hb
    · exact (h.own b).registered.1 hregistered
    · exact (h.own b).cancelled hb
  · cases hb
    exact habsent
  · intro b phase writing hmem
    rcases mem_concat.1 hmem with hmem | hmem
    · obtain ⟨hphase, hlost⟩ := h.chosen b phase writing hmem
      exact ⟨hphase, hlost.imp_left fun hb => Finset.mem_insert_of_mem hb⟩
    · cases hmem
      exact ⟨hinput, .inl (Finset.mem_insert_self _ _)⟩
  · intro b kind id ok hmem
    rcases mem_concat.1 hmem with hmem | hmem
    · exact h.done b kind id ok hmem
    · cases hmem
  · refine List.pairwise_append.2 ⟨h.silent, List.pairwise_singleton _ _, fun e _ later hlater b _ => ?_⟩
    rw [List.mem_singleton.1 hlater]
    rfl
  · refine List.pairwise_append.2
      ⟨h.punctual, List.pairwise_singleton _ _, fun e _ later hlater b kind id ok _ other => ?_⟩
    rw [List.mem_singleton.1 hlater]
    simp

theorem processRequest_inv {oldest : Option Connection} (h : Inv k s) (ht : s.processRequest k c oldest = some t) :
    Inv k t := by
  unfold Server.processRequest at ht
  rw [Option.ite_none_right_eq_some] at ht
  obtain ⟨⟨-, habsent⟩, ht⟩ := ht
  split at ht
  · cases oldest with
    | none => cases ht
    | some d =>
      dsimp only at ht
      rw [Option.ite_none_right_eq_some] at ht
      obtain ⟨⟨hregistered, hcandidate, -⟩, ht⟩ := ht
      cases ht
      exact reclaimed_inv h habsent hregistered hcandidate
  · cases ht
    exact admission_inv h habsent

theorem min?_le {l : List ℚ} {x : ℚ} (hx : x ∈ l) : ∃ m, l.min? = some m ∧ m ≤ x := by
  obtain ⟨m, hm⟩ := Option.isSome_iff_exists.1 (List.isSome_min?_of_mem hx)
  exact ⟨m, hm, (List.min?_eq_some_iff.1 hm).2 x hx⟩

theorem watch_inv (h : Inv k s) : Inv k s.watch := by
  unfold Server.watch
  split
  · exact h.same rfl rfl rfl rfl rfl rfl rfl rfl rfl rfl (.inr rfl) (by simp)
  · dsimp only
    refine ⟨fun c => ?_, h.apart, h.capacity, h.downloads, h.starting, h.reclaiming, ?_, ?_, ?_, ?_, ?_, ?_⟩
    · exact (h.own c).same rfl Iff.rfl rfl id id (fun _ _ hmem => List.mem_of_mem_filter hmem) (Nat.le_refl _)
    · intro c phase writing hmem
      rcases List.mem_append.1 hmem with hmem | hmem
      · exact h.chosen c phase writing hmem
      · obtain ⟨_, -, heq⟩ := List.mem_map.1 hmem
        cases heq
    · intro c kind id ok hmem
      rcases List.mem_append.1 hmem with hmem | hmem
      · exact h.done c kind id ok hmem
      · obtain ⟨_, -, heq⟩ := List.mem_map.1 hmem
        cases heq
    · refine List.pairwise_append.2 ⟨h.silent, ?_, ?_⟩
      · refine List.pairwise_of_forall_mem_list fun e he later _ d hd => ?_
        obtain ⟨_, -, rfl⟩ := List.mem_map.1 he
        cases hd
      · intro e _ later hlater d _
        obtain ⟨_, -, rfl⟩ := List.mem_map.1 hlater
        rfl
    · refine List.pairwise_append.2 ⟨h.punctual, ?_, ?_⟩
      · refine List.pairwise_of_forall_mem_list fun e he later _ d kind id ok heq => ?_
        obtain ⟨_, -, rfl⟩ := List.mem_map.1 he
        cases heq
      · rintro e he later hlater d kind id ok rfl other rfl
        obtain ⟨⟨⟨b, kind'⟩, entry⟩, hentry, heq⟩ := List.mem_map.1 hlater
        cases heq
        have hio := (h.own b).entries kind' entry (List.mem_of_mem_filter hentry)
        exact (h.done d kind entry ok he).2 b kind' hio
    · rintro time htime
      cases htime
      rfl
    · rintro time htime e he
      cases htime
      exact min?_le (List.mem_map.2 ⟨e, he, rfl⟩)

theorem startThread_inv {ok : Bool} (h : Inv k s) (hc : s.acceptor = .starting c) :
    Inv k (if ok then { s.setPhase c .begun with acceptor := .idle } else
      { s.httpFinished c with acceptor := .idle }) := by
  have hphase := h.starting c hc
  have hquiet : ∀ kind, (s.handlers c).io kind = none := by
    refine (h.own c).quiet fun kind hfits => ?_
    rw [hphase] at hfits
    cases kind <;> simp [Kind.fits] at hfits
  split
  · have hhandler : (s.setPhase c .begun).handlers c = { s.handlers c with phase := .begun } := setPhase_handler
    have hlocal : Local s { s.setPhase c .begun with acceptor := .idle } c :=
      ⟨fun d hd => Function.update_of_ne hd _ _, fun _ _ => Iff.rfl, fun _ _ => rfl, fun _ _ => Iff.rfl,
        fun _ _ => Iff.rfl, fun _ _ _ _ hmem => hmem, Nat.le_refl _⟩
    refine h.local (l := []) hlocal ?_ (fun kind id heq => ?_) h.capacity h.downloads (fun d hd => by cases hd)
      (fun d hd => by cases hd) (fun hlost => ?_) (List.append_nil _).symm (by simp) punctual_nil h.sleeping
      (h.timely.mono (fun _ htime => htime) (fun _ he => he) fun _ => rfl)
    · refine (h.own c).change ?_ Iff.rfl id (h.own c).downloads ?_
        ((h.own c).keep (fun kind => ?_) (fun _ _ hmem => hmem) (Nat.le_refl _) fun kind id heq => ?_)
      · simp only [hhandler, hphase]
        rfl
      · simp only [hhandler]
        exact fun _ => rfl
      · simp only [hhandler, io_phase]
      · rw [hquiet] at heq
        cases heq
    · change ((s.setPhase c .begun).handlers c).io kind = some id at heq
      rw [hhandler, io_phase] at heq
      exact .inl heq
    · refine hlost.imp_right fun hended => ?_
      rw [hphase] at hended
      cases hended
  · exact httpFinished_inv h hquiet (fun d hd => by cases hd) (fun d hd => by cases hd)

theorem finish_inv (h : Inv k s) (hphase : (s.handlers c).phase ∈ [Phase.begun, .waiting, .command, .closing])
    (hwriting : (s.handlers c).writing = none) : Inv k (s.httpFinished c) := by
  have hquiet := (h.own c).unread hwriting (by constructor <;> intro hp <;> simp [hp] at hphase)
  show Inv k { s.httpFinished c with acceptor := s.acceptor }
  refine httpFinished_inv h hquiet (fun d hd => ⟨hd, ?_⟩) fun d hd => ⟨hd, ?_⟩
  · rintro rfl
    rw [h.starting d hd] at hphase
    simp at hphase
  · rintro rfl
    rw [h.reclaiming d hd] at hphase
    simp at hphase

theorem step_inv {a : Action} (h : Inv k s) (ht : step k s a = some t) : Inv k t := by
  cases a with
  | tick time =>
    simp only [step, Option.ite_none_right_eq_some, Option.some.injEq] at ht
    obtain ⟨-, rfl⟩ := ht
    exact h.same rfl rfl rfl rfl rfl rfl rfl rfl rfl rfl (.inr rfl) fun _ htime => htime
  | processRequest c oldest => exact processRequest_inv h ht
  | resume =>
    simp only [step] at ht
    split at ht
    · rename_i c hc
      cases ht
      exact admission_inv h (h.reclaiming c hc)
    · cases ht
  | startThread ok =>
    simp only [step] at ht
    split at ht
    · rename_i c hc
      cases ht
      exact startThread_inv h hc
    · cases ht
  | beginRequestInput c =>
    simp only [step, Option.ite_none_right_eq_some, Option.some.injEq] at ht
    obtain ⟨⟨hphase, hwriting, hfree⟩, rfl⟩ := ht
    exact beginRequestInput_inv h hphase hwriting (by simpa using hfree)
  | peeked c =>
    simp only [step, Option.ite_none_right_eq_some, Option.some.injEq] at ht
    obtain ⟨hphase, rfl⟩ := ht
    exact peeked_inv h hphase
  | requestRead c => exact requestRead_inv h ht
  | responseWrite c time => exact responseWrite_inv h ht
  | endIo c kind ok => exact endIo_inv h ht
  | caught c =>
    simp only [step] at ht
    split at ht
    · rename_i hphase
      cases ht
      exact raised_inv h hphase (.inl rfl)
    · cases ht
  | propagated c =>
    simp only [step] at ht
    split at ht
    · rename_i hphase
      cases ht
      exact raised_inv h hphase (.inr rfl)
    · cases ht
  | beginSessionDownload c =>
    simp only [step, Option.ite_none_right_eq_some, Option.some.injEq] at ht
    obtain ⟨hphase, rfl⟩ := ht
    exact beginSessionDownload_inv h hphase
  | endSessionDownload c =>
    simp only [step, Option.ite_none_right_eq_some, Option.some.injEq] at ht
    obtain ⟨hphase, rfl⟩ := ht
    refine endSessionDownload_inv h ?_
    rcases List.mem_pair.1 hphase with hphase | hphase <;> rw [hphase] <;> rfl
  | finish c =>
    simp only [step, Option.ite_none_right_eq_some, Option.some.injEq] at ht
    obtain ⟨⟨hphase, hwriting⟩, rfl⟩ := ht
    exact finish_inv h hphase hwriting
  | watch =>
    simp only [step] at ht
    split at ht
    · cases ht
      exact watch_inv h
    · obtain ⟨-, ht⟩ := Option.ite_none_right_eq_some.1 ht
      cases ht
      exact watch_inv h
    · cases ht
  | cancelHttpConnections =>
    cases ht
    exact h.same rfl rfl rfl rfl rfl rfl rfl rfl rfl rfl (.inr rfl) fun time htime =>
      absurd htime (notifyAll_watcher time)

theorem init_inv (k : Config) : Inv k {} := by
  have hquiet : ∀ kind, ({} : Handler).io kind = none := by
    intro kind
    cases kind <;> rfl
  refine ⟨fun c => ⟨⟨?_, by simp, ?_, ?_⟩, by simp [Phase.live], by simp, by simp, by simp⟩, ?_,
    Nat.zero_le _, Nat.zero_le _, by simp,
    by simp, by simp, by simp, List.Pairwise.nil, List.Pairwise.nil, by simp, by simp [Timely]⟩
  all_goals simp [hquiet]

theorem run_inv {actions : List Action} (ht : run (step k) {} actions = some t) : Inv k t :=
  run_invariant (fun _ _ _ h ht => step_inv h ht) (init_inv k) ht

end Actions

/-! ### Every run -/

def sampleConfig : Config := ⟨2, 1, 15, 10, Nat.two_pos, Nat.one_pos, Nat.ofNat_pos, Nat.ofNat_pos⟩

/-- A download whose answer expires, and an idle connection that is reclaimed for a third one. -/
def sampleRun : List Action :=
  [.processRequest 0 none, .startThread true, .beginRequestInput 0, .peeked 0, .requestRead 0, .endIo 0 .read true,
    .beginSessionDownload 0, .responseWrite 0 0, .processRequest 1 none, .startThread true, .beginRequestInput 1,
    .processRequest 2 (some 1), .finish 1, .resume, .startThread true, .watch, .tick 11, .watch, .endIo 0 .write false,
    .propagated 0, .endSessionDownload 0, .finish 0]

theorem sample_run : ∃ t, run (step sampleConfig) {} sampleRun = some t ∧ (t.handlers 1).phase = .ended ∧
    t.log = [.input 0, .started 0 .read 0, .ended 0 .read 0 true, .started 0 .write 1, .input 1, .reclaimed 1 .waiting false,
      .expired 0 1, .ended 0 .write 1 false] := by
  have hrun : (run (step sampleConfig) {} sampleRun).map (fun t => ((t.handlers 1).phase, t.log)) =
      some (.ended, [.input 0, .started 0 .read 0, .ended 0 .read 0 true, .started 0 .write 1, .input 1,
        .reclaimed 1 .waiting false, .expired 0 1, .ended 0 .write 1 false]) := by decide +kernel
  obtain ⟨t, ht, hfields⟩ := Option.map_eq_some_iff.1 hrun
  exact ⟨t, ht, Prod.mk.inj hfields⟩

section Run

variable {actions : List Action}

/-- The tables are bounded, and an ended handler is in none of them. -/
theorem capacity_bounded (ht : run (step k) {} actions = some t) :
    t.httpConnections.card ≤ k.maxHttpConnections ∧ t.sessionDownloads.card ≤ Server.downloadLimit k ∧
      ∀ c, (t.handlers c).phase = .ended → Unregistered t c := by
  have h := run_inv ht
  exact ⟨h.capacity, h.downloads, fun c hended => (h.own c).unregistered hended⟩

theorem capacity_bounded_sample : ∃ t, run (step sampleConfig) {} sampleRun = some t ∧ .reclaimed 1 .waiting false ∈ t.log ∧
    t.httpConnections.card ≤ 2 ∧ t.sessionDownloads.card ≤ 1 ∧ Unregistered t 1 := by
  obtain ⟨t, ht, hended, hlog⟩ := sample_run
  obtain ⟨hconnections, hdownloads, hunregistered⟩ := capacity_bounded ht
  exact ⟨t, ht, by rw [hlog]; decide, hconnections, hdownloads, hunregistered 1 hended⟩

/-- A connection is reclaimed while it waits for input or reads it, or answers a header that cannot be parsed or asks to be
answered first; and it is not used after it. -/
theorem reclaimed_silent (ht : run (step k) {} actions = some t) :
    (∀ c phase writing, .reclaimed c phase writing ∈ t.log → Chosen phase writing) ∧ Silent Event.reclaims t.log := by
  have h := run_inv ht
  exact ⟨fun c phase writing hmem => (h.chosen c phase writing hmem).1, h.silent⟩

/-- The answer to a header is written when its connection is reclaimed. -/
def answeredRun : List Action :=
  [.processRequest 0 none, .startThread true, .beginRequestInput 0, .peeked 0, .requestRead 0, .processRequest 1 none,
    .startThread true, .beginRequestInput 1, .peeked 1, .responseWrite 0 0, .processRequest 2 (some 0), .endIo 0 .write true]

theorem reclaimed_silent_sample : ∃ t, run (step sampleConfig) {} answeredRun = some t ∧
    t.log = [.input 0, .started 0 .read 0, .input 1, .started 0 .write 1, .reclaimed 0 .header true, .ended 0 .write 1 false] ∧
    Chosen .header true ∧ Silent Event.reclaims t.log := by
  have hrun : (run (step sampleConfig) {} answeredRun).map (·.log) = some [.input 0, .started 0 .read 0, .input 1,
      .started 0 .write 1, .reclaimed 0 .header true, .ended 0 .write 1 false] := by decide +kernel
  obtain ⟨t, ht, hlog⟩ := Option.map_eq_some_iff.1 hrun
  obtain ⟨hchosen, hsilent⟩ := reclaimed_silent ht
  exact ⟨t, ht, hlog, hchosen 0 .header true (by rw [hlog]; decide), hsilent⟩

/-- No deadline expires after the locked end of its I/O, and the watcher wakes up for the earliest. -/
theorem deadlines_punctual (ht : run (step k) {} actions = some t) : Punctual t.log ∧ Timely t := by
  have h := run_inv ht
  exact ⟨h.punctual, h.timely⟩

theorem deadlines_punctual_sample : ∃ t, run (step sampleConfig) {} sampleRun = some t ∧ .expired 0 1 ∈ t.log ∧ Punctual t.log ∧
    Timely t := by
  obtain ⟨t, ht, -, hlog⟩ := sample_run
  exact ⟨t, ht, by rw [hlog]; decide, deadlines_punctual ht⟩

end Run

end Conductor.HttpCapacity
