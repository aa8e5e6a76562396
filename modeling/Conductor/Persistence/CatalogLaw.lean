import Conductor.Persistence.CatalogCache

/-! The validation cache of the catalog holds only texts that its validators have accepted, and
changes no answer: without it every call answers the same. A run is observed with the acceptances
of validators so far and with the keys that each thread has used in its scan. -/

namespace Conductor.Persistence.Catalog

open Runs KeyTable

variable {Raw Fn Thread : Type} {env : Env Raw Fn}

/-! ### Observed runs -/

/-- The validator accepts what `cached` decodes from the text. -/
def Accepts (env : Env Raw Fn) (row : Key × Entry Raw Fn) : Prop :=
  ∃ value, env.summary row.1.session row.2.raw = some value ∧ env.validate row.2.validate value = .accepted

variable [DecidableEq Raw] [DecidableEq Fn] [DecidableEq Thread]

/-- The state with the acceptances so far and the keys that each thread has used in its scan. -/
structure Observed (Raw Fn Thread : Type) where
  state : State Raw Fn Thread
  accepted : List (Key × Entry Raw Fn) := []
  used : Thread → List Key := fun _ => []

/-- The acceptance by a validator that a step is. -/
def acceptance (env : Env Raw Fn) (s : State Raw Fn Thread) : Action Raw Fn Thread → List (Key × Entry Raw Fn)
  | .cached t call =>
    match call.select (s.view t), call.validateSummary with
    | some raw, some validate =>
      match env.summary call.session raw with
      | some value =>
        if call.cacheValidation = false ∧ env.validate validate value = .accepted then
          [(call.key, ⟨call.validator, raw, validate⟩)]
        else []
      | none => []
    | _, _ => []
  | .lookup t =>
    match s.phase t with
    | .lookup call raw validate value =>
      if s.cache.entries.lookup call.key ≠ some ⟨call.validator, raw, validate⟩ ∧
          env.validate validate value = .accepted then
        [(call.key, ⟨call.validator, raw, validate⟩)]
      else []
    | _ => []
  | _ => []

/-- A call uses the key whose entry it finds, or stores. -/
def use (s s' : State Raw Fn Thread) (used : Thread → List Key) : Action Raw Fn Thread → Thread → List Key
  | .beginScan t => Function.update used t []
  | .lookup t =>
    match s.phase t with
    | .lookup call raw validate _ =>
      if s.cache.entries.lookup call.key = some ⟨call.validator, raw, validate⟩ then
        Function.update used t (addKey (used t) call.key)
      else used
    | _ => used
  | .remember t =>
    match s.phase t with
    | .remember call _ _ _ =>
      match s'.cache.entries.lookup call.key with
      | some _ => Function.update used t (addKey (used t) call.key)
      | none => used
    | _ => used
  | _ => used

def observe (env : Env Raw Fn) (o : Observed Raw Fn Thread) (a : Action Raw Fn Thread) :
    Option (Observed Raw Fn Thread) :=
  (step env o.state a).map fun s => ⟨s, o.accepted ++ acceptance env o.state a, use o.state s o.used a⟩

/-- What is known of the value that a call carries. -/
def PhaseOk (env : Env Raw Fn) (accepted : List (Key × Entry Raw Fn)) : Phase Raw Fn → Prop
  | .lookup call raw _ value => env.summary call.session raw = some value
  | .remember call raw validate _ => (call.key, ⟨call.validator, raw, validate⟩) ∈ accepted
  | _ => True

structure Lawful (env : Env Raw Fn) (o : Observed Raw Fn Thread) : Prop where
  bounded : o.state.cache.Bounded env
  entries : ∀ e ∈ o.state.cache.entries, e ∈ o.accepted
  accepted : ∀ e ∈ o.accepted, Accepts env e
  phases : ∀ t, PhaseOk env o.accepted (o.state.phase t)
  seen : ∀ t l, o.state.seen t = some l → l = (o.used t).take validationCacheEntries

omit [DecidableEq Raw] [DecidableEq Fn] [DecidableEq Thread] in
theorem lawful_start (env : Env Raw Fn) (rows : Table Raw) :
    Lawful env (⟨start rows, [], fun _ => []⟩ : Observed Raw Fn Thread) :=
  ⟨bounded_empty env, fun _ he => absurd he List.not_mem_nil, fun _ he => absurd he List.not_mem_nil,
    fun _ => trivial, fun _ _ hl => absurd hl (Option.some_ne_none _).symm⟩

variable {accepted : List (Key × Entry Raw Fn)} {n : ℕ} {call : Call Fn} {s : State Raw Fn Thread}
  {a : Action Raw Fn Thread}

omit [DecidableEq Raw] [DecidableEq Fn] [DecidableEq Thread] in
theorem PhaseOk.mono {more : List (Key × Entry Raw Fn)} {p : Phase Raw Fn} (h : PhaseOk env accepted p)
    (hsub : ∀ e ∈ accepted, e ∈ more) : PhaseOk env more p := by
  cases p with
  | remember call raw validate value => exact hsub _ h
  | lookup call raw validate value => exact h
  | _ => trivial

section Threads

omit [DecidableEq Raw] [DecidableEq Fn]

/-- A step of one thread. -/
theorem Lawful.of_thread {o o' : Observed Raw Fn Thread} (h : Lawful env o) (t : Thread)
    (haccepted : ∀ e ∈ o.accepted, e ∈ o'.accepted) (hvalid : ∀ e ∈ o'.accepted, Accepts env e)
    (hbounded : o'.state.cache.Bounded env) (hentries : ∀ e ∈ o'.state.cache.entries, e ∈ o'.accepted)
    (hother : ∀ u, u ≠ t → o'.state.threads u = o.state.threads u ∧ o'.used u = o.used u)
    (hphase : PhaseOk env o'.accepted (o'.state.phase t))
    (hseen : ∀ l, o'.state.seen t = some l → l = (o'.used t).take validationCacheEntries) : Lawful env o' where
  bounded := hbounded
  entries := hentries
  accepted := hvalid
  phases u := by
    by_cases hu : u = t
    · rw [hu]
      exact hphase
    · unfold State.phase
      rw [(hother u hu).1]
      exact (h.phases u).mono haccepted
  seen u l hl := by
    by_cases hu : u = t
    · subst hu
      exact hseen l hl
    · unfold State.seen at hl
      rw [(hother u hu).1] at hl
      rw [(hother u hu).2]
      exact h.seen u l hl

theorem threads_setThread_of_ne (s : State Raw Fn Thread) {t u : Thread} (hu : u ≠ t) (p : Phase Raw Fn) (q : Seen) :
    (s.setThread t p q).threads u = s.threads u :=
  Function.update_of_ne hu _ _

@[simp] theorem cache_setThread (s : State Raw Fn Thread) (t : Thread) (p : Phase Raw Fn) (q : Seen) :
    (s.setThread t p q).cache = s.cache := rfl

@[simp] theorem phase_setThread (s : State Raw Fn Thread) (t : Thread) (p : Phase Raw Fn) (q : Seen) :
    (s.setThread t p q).phase t = p := by
  simp [State.phase, State.setThread]

@[simp] theorem seen_setThread (s : State Raw Fn Thread) (t : Thread) (p : Phase Raw Fn) (q : Seen) :
    (s.setThread t p q).seen t = q := by
  simp [State.seen, State.setThread]

variable {more : List (Key × Entry Raw Fn)} {s : State Raw Fn Thread} {used : Thread → List Key}

/-- The thread `t` goes on at `p`. -/
theorem Lawful.advance {o : Observed Raw Fn Thread} (h : Lawful env o) (t : Thread) {p : Phase Raw Fn} {q : Seen}
    (hthreads : s.threads = o.state.threads) (hbounded : s.cache.Bounded env)
    (hentries : ∀ e ∈ s.cache.entries, e ∈ o.accepted ++ more) (hmore : ∀ e ∈ more, Accepts env e)
    (hphase : PhaseOk env (o.accepted ++ more) p) (hused : ∀ u, u ≠ t → used u = o.used u)
    (hseen : ∀ l, q = some l → l = (used t).take validationCacheEntries) :
    Lawful env ⟨s.setThread t p q, o.accepted ++ more, used⟩ := by
  refine h.of_thread t (fun e he => List.mem_append_left _ he) ?_ hbounded hentries ?_ ?_ ?_
  · intro e he
    exact (List.mem_append.1 he).elim (h.accepted e) (hmore e)
  · intro u hu
    exact ⟨by rw [threads_setThread_of_ne _ hu, hthreads], hused u hu⟩
  · simpa using hphase
  · simpa using hseen

/-- The thread goes on at `p`, and the cache keeps within the old one. -/
theorem Lawful.move {o : Observed Raw Fn Thread} (h : Lawful env o) (t : Thread)
    {p : Phase Raw Fn} (hthreads : s.threads = o.state.threads)
    (hbounded : s.cache.Bounded env) (hentries : ∀ e ∈ s.cache.entries, e ∈ o.state.cache.entries)
    (hmore : ∀ e ∈ more, Accepts env e) (hphase : PhaseOk env (o.accepted ++ more) p) :
    Lawful env ⟨s.setPhase t p, o.accepted ++ more, o.used⟩ := by
  apply h.advance t hthreads hbounded (fun e he => List.mem_append_left _ (h.entries e (hentries e he))) hmore hphase
    fun _ _ => rfl
  intro l hl
  unfold State.seen at hl
  rw [hthreads] at hl
  exact h.seen t l hl

omit [DecidableEq Thread] in
/-- Only the rows, the admissions or the answers change. -/
theorem Lawful.congr {s' : State Raw Fn Thread}
    (h : Lawful env ⟨s, accepted, used⟩)
    (hthreads : s'.threads = s.threads) (hcache : s'.cache = s.cache) : Lawful env ⟨s', accepted, used⟩ := by
  obtain ⟨hbounded, hentries, haccepted, hphases, hseen⟩ := h
  refine ⟨hcache ▸ hbounded, hcache ▸ hentries, haccepted, ?_, ?_⟩
  · unfold State.phase at hphases ⊢
    rw [hthreads]
    exact hphases
  · unfold State.seen at hseen ⊢
    rw [hthreads]
    exact hseen

end Threads

/-! ### The marks of a scan -/

theorem addKey_take (used : List Key) (key : Key) (n : ℕ) :
    (if (used.take n).length < n then addKey (used.take n) key else used.take n) = (addKey used key).take n := by
  by_cases hshort : used.length < n
  · rw [List.take_of_length_le hshort.le, if_pos hshort, List.take_of_length_le]
    unfold addKey
    split
    · exact hshort.le
    · rw [List.length_append, List.length_singleton]
      exact hshort
  · have hlong : n ≤ used.length := not_lt.1 hshort
    rw [if_neg (by rw [List.length_take]; omega)]
    unfold addKey
    split
    · rfl
    · exact (List.take_append_of_le_length hlong).symm

theorem addKey_take_of_mem {used : List Key} {key : Key} (h : key ∈ used.take n ∨ (used.take n).length < n) :
    addKey (used.take n) key = (addKey used key).take n := by
  rw [← addKey_take]
  split_ifs with hshort
  · rfl
  · have hmem := h.resolve_right hshort
    unfold addKey
    rw [if_pos hmem]

/-! ### One step -/

variable {raw : Raw} {o' : Observed Raw Fn Thread}

theorem lawful_cached {o : Observed Raw Fn Thread} (h : Lawful env o) (t : Thread)
    (hselect : call.select (o.state.view t) = some raw) :
    Lawful env ⟨o.state.setPhase t (call.decode env raw), o.accepted ++ acceptance env o.state (.cached t call),
      o.used⟩ := by
  refine h.move t rfl h.bounded (fun e he => he) ?_ ?_
  · intro e he
    simp only [acceptance, hselect] at he
    cases hvalidate : call.validateSummary with
    | none => simp [hvalidate] at he
    | some validate =>
      cases hsummary : env.summary call.session raw with
      | none => simp [hvalidate, hsummary] at he
      | some value =>
        simp only [hvalidate, hsummary] at he
        split_ifs at he with hrun
        · obtain rfl := List.mem_singleton.1 he
          exact ⟨value, hsummary, hrun.2⟩
        · exact absurd he List.not_mem_nil
  · unfold Call.decode
    cases hsummary : env.summary call.session raw with
    | none => trivial
    | some value =>
      cases call.validateSummary with
      | none => trivial
      | some validate =>
        dsimp only
        split_ifs
        · exact hsummary
        · cases env.validate validate value <;> trivial

omit [DecidableEq Raw] [DecidableEq Fn] in
/-- The phase after a call of the validator. -/
theorem phaseOk_verdict {v : Verdict} {next : Phase Raw Fn}
    (h : v = .accepted → PhaseOk env accepted next) : PhaseOk env accepted (v.phase call next) := by
  cases v with
  | accepted => exact h rfl
  | rejected => trivial
  | raised => trivial

theorem lawful_lookup {o : Observed Raw Fn Thread} (h : Lawful env o) (t : Thread)
    {validate : Fn} {value : PyValue} (hphase : o.state.phase t = .lookup call raw validate value) :
    ∃ o', observe env o (.lookup t) = some o' ∧ Lawful env o' ∧
      (o'.state.phase t = .admission call value → (call.key, ⟨call.validator, raw, validate⟩) ∈ o.accepted) := by
  have hsummary : env.summary call.session raw = some value := by simpa [hphase, PhaseOk] using h.phases t
  obtain ⟨c', seen', hlookup, hbounded, hsub, hseen'⟩ :=
    lookup_spec h.bounded (o.state.seen t) call.key ⟨call.validator, raw, validate⟩
  have hentries (more : List (Key × Entry Raw Fn)) : ∀ e ∈ c'.entries, e ∈ o.accepted ++ more :=
    fun e he => List.mem_append_left _ (h.entries e (hsub e he))
  unfold observe step acceptance use
  simp only [hphase, hlookup, Option.map_some]
  refine ⟨_, rfl, ?_⟩
  by_cases hhit : o.state.cache.entries.lookup call.key = some ⟨call.validator, raw, validate⟩
  · simp only [hhit, decide_true, ↓reduceIte, ne_eq, not_true_eq_false, false_and]
    rw [if_pos hhit] at hseen'
    refine ⟨h.advance t rfl hbounded (hentries []) (fun e he => absurd he List.not_mem_nil) trivial
      (fun u hu => Function.update_of_ne hu _ _) ?_, fun _ => h.entries _ ?_⟩
    · intro l hl
      obtain ⟨l₀, hl₀, rfl⟩ := Option.map_eq_some_iff.1 (hseen' ▸ hl)
      obtain rfl := h.seen t l₀ hl₀
      rw [addKey_take, Function.update_self]
    · exact (h.bounded.unique.lookup_iff).1 hhit
  · simp only [hhit, decide_false, Bool.false_eq_true, ↓reduceIte, ne_eq, not_false_eq_true, true_and]
    rw [if_neg hhit] at hseen'
    refine ⟨h.advance t rfl hbounded (hentries _) ?_ ?_ (fun _ _ => rfl) ?_, fun hadmit => ?_⟩
    · intro e he
      split_ifs at he with hvalid
      · obtain rfl := List.mem_singleton.1 he
        exact ⟨value, hsummary, hvalid⟩
      · exact absurd he List.not_mem_nil
    · apply phaseOk_verdict
      intro hvalid
      rw [if_pos hvalid]
      exact List.mem_append_right _ (List.mem_singleton_self _)
    · intro l hl
      exact h.seen t l (hseen' ▸ hl)
    · rw [phase_setThread] at hadmit
      cases hv : env.validate validate value <;> simp [hv, Verdict.phase] at hadmit

theorem lawful_remember {o : Observed Raw Fn Thread} (h : Lawful env o) (t : Thread)
    {validate : Fn} {value : PyValue} (hphase : o.state.phase t = .remember call raw validate value) :
    ∃ o', observe env o (.remember t) = some o' ∧ Lawful env o' ∧
      ∀ l, o.state.seen t = some l → ∀ e ∈ o.state.cache.entries, e.1 ≠ call.key → e ∉ o'.state.cache.entries →
        e.1 ∉ (o.used t).take validationCacheEntries := by
  have haccepted : (call.key, (⟨call.validator, raw, validate⟩ : Entry Raw Fn)) ∈ o.accepted := by
    simpa [hphase, PhaseOk] using h.phases t
  obtain ⟨c', seen', hremember, hbounded, hsub, hpopped, hstored⟩ :=
    remember_spec h.bounded (o.state.seen t) call.key ⟨call.validator, raw, validate⟩
  have hentries : ∀ e ∈ c'.entries, e ∈ o.accepted ++ [] := by
    intro e he
    apply List.mem_append_left
    rcases hsub e he with hold | rfl
    · exact h.entries e hold
    · exact haccepted
  have hmore : ∀ e ∈ ([] : List (Key × Entry Raw Fn)), Accepts env e := fun e he => absurd he List.not_mem_nil
  have hpopped' : ∀ l, o.state.seen t = some l → ∀ e ∈ o.state.cache.entries, e.1 ≠ call.key → e ∉ c'.entries →
      e.1 ∉ (o.used t).take validationCacheEntries := by
    intro l hl
    rw [← h.seen t l hl]
    exact hpopped l hl
  unfold observe step acceptance use
  rcases hstored with ⟨hnone, rfl⟩ | ⟨hsome, rfl, hroom⟩
  · simp only [hphase, hremember, Option.map_some, cache_setThread, hnone]
    exact ⟨_, rfl, h.advance t rfl hbounded hentries hmore trivial (fun _ _ => rfl) (h.seen t), hpopped'⟩
  · simp only [hphase, hremember, Option.map_some, cache_setThread, hsome]
    refine ⟨_, rfl, h.advance t rfl hbounded hentries hmore trivial (fun u hu => Function.update_of_ne hu _ _) ?_,
      hpopped'⟩
    intro l hl
    obtain ⟨l₀, hl₀, rfl⟩ := Option.map_eq_some_iff.1 hl
    have hroom := hroom l₀ hl₀
    obtain rfl := h.seen t l₀ hl₀
    rw [Function.update_self]
    exact addKey_take_of_mem hroom

/-- A lookup that goes through finds a text that the same validator has accepted before, under the
same version. -/
def HitAccepted (o : Observed Raw Fn Thread) (a : Action Raw Fn Thread) (o' : Observed Raw Fn Thread) : Prop :=
  ∀ t call raw validate value, a = .lookup t → o.state.phase t = .lookup call raw validate value →
    o'.state.phase t = .admission call value → (call.key, ⟨call.validator, raw, validate⟩) ∈ o.accepted

/-- An eviction pops none of the first 8192 keys that the scan of its thread has used. -/
def EvictsUnused (o : Observed Raw Fn Thread) (a : Action Raw Fn Thread) (o' : Observed Raw Fn Thread) : Prop :=
  ∀ t call raw validate value, a = .remember t → o.state.phase t = .remember call raw validate value →
    ∀ l, o.state.seen t = some l → ∀ e ∈ o.state.cache.entries, e.1 ≠ call.key → e ∉ o'.state.cache.entries →
      e.1 ∉ (o.used t).take validationCacheEntries

variable {s' : State Raw Fn Thread}

omit [DecidableEq Raw] [DecidableEq Fn] in
theorem lawful_write
    {used : Thread → List Key} {t : Thread} {f : Table Raw → Table Raw} (h : Lawful env ⟨s, accepted, used⟩)
    (hwrite : s.write t f = some s') : Lawful env ⟨s', accepted, used⟩ := by
  unfold State.write at hwrite
  split at hwrite
  · cases hwrite
    exact h.congr rfl rfl
  · obtain ⟨-, hwrite⟩ := Option.ite_none_right_eq_some.1 hwrite
    cases hwrite
    exact h.congr rfl rfl

omit [DecidableEq Raw] [DecidableEq Fn] in
/-- A call of `cached` ends. -/
theorem Lawful.finish {o : Observed Raw Fn Thread} (h : Lawful env o) (t : Thread)
    (r : Returned) (hthreads : s.threads = o.state.threads) (hbounded : s.cache.Bounded env)
    (hentries : ∀ e ∈ s.cache.entries, e ∈ o.state.cache.entries) :
    Lawful env ⟨s.finish t r, o.accepted ++ [], o.used⟩ :=
  (h.move t (p := .idle) hthreads hbounded hentries (fun _ he => absurd he List.not_mem_nil) trivial).congr rfl rfl

omit [DecidableEq Raw] [DecidableEq Fn] in
theorem lawful_admit {o : Observed Raw Fn Thread} (h : Lawful env o) (t : Thread) (call : Call Fn) (value : PyValue)
    (answers : Answers) : Lawful env ⟨admitStep o.state t call value answers, o.accepted ++ [], o.used⟩ := by
  have hfinish (r : Returned) : Lawful env ⟨o.state.finish t r, o.accepted ++ [], o.used⟩ :=
    h.finish t r rfl h.bounded fun e he => he
  unfold admitStep
  split_ifs with hknown
  · exact hfinish _
  · split
    · exact hfinish _
    · exact hfinish _
    · split
      · exact hfinish _
      · split_ifs
        · exact hfinish _
        · exact h.finish t _ rfl h.bounded fun e he => he

/-- A step that does not ask the cache, and what it leaves. -/
inductive Quiet (env : Env Raw Fn) (s : State Raw Fn Thread) : Action Raw Fn Thread → State Raw Fn Thread → Prop where
  | beginScan (t) (hphase : s.phase t = .idle) (hscan : s.scan = none) :
    Quiet env s (.beginScan t) ({ s with scan := some (t, s.rows) }.setThread t .idle (some []))
  | commit (t) (table) (hphase : s.phase t = .idle) (hscan : s.scan = some (t, table)) :
    Quiet env s (.commit t) ({ s with scan := none, rows := table }.setThread t .idle none)
  | rollback (t) (table) (hphase : s.phase t = .idle) (hscan : s.scan = some (t, table)) :
    Quiet env s (.rollback t) ({ s with scan := none, admitted := fun _ => none }.setPhase t .clear)
  | clear (t) (hphase : s.phase t = .clear) : Quiet env s (.clear t) ({ s with cache := {} }.setThread t .idle none)
  | missed (t) (call) (hphase : s.phase t = .idle) (hselect : call.select (s.view t) = none) :
    Quiet env s (.cached t call) (s.finish t .none)
  | found (t) (call) (raw) (hphase : s.phase t = .idle) (hselect : call.select (s.view t) = some raw) :
    Quiet env s (.cached t call) (s.setPhase t (call.decode env raw))
  | admission (t) (answers) (call) (value) (hphase : s.phase t = .admission call value) :
    Quiet env s (.admission t answers) (admitStep s t call value answers)
  | reject (t) (call) (hphase : s.phase t = .reject call) : Quiet env s (.reject t)
      ({ s with admitted := Function.update s.admitted call.key none }.setPhase t (.forget call))
  | forget (t) (call) (hphase : s.phase t = .forget call) :
    Quiet env s (.forget t) ({ s with cache := s.cache.forget env call.key }.finish t .none)
  | fail (t) (hphase : s.phase t = .fail) : Quiet env s (.fail t) (s.finish t .raised)
  | rememberRow (t) (key) (row) (s') (hphase : s.phase t = .idle)
    (hwrite : s.write t (fun table => Function.update table key (some row)) = some s') : Quiet env s (.rememberRow t key row) s'
  | discardMissing (t) (volume) (discovered) (hphase : s.phase t = .idle) : Quiet env s (.discardMissing t volume discovered)
      ({ s with admitted := fun key =>
        if key.volume = volume ∧ key.session ∉ discovered then none else s.admitted key }.setPhase t (.discard volume discovered))
  | discard (t) (volume) (discovered) (hphase : s.phase t = .discard volume discovered) : Quiet env s (.discard t)
      ({ s with cache := s.cache.discard env volume discovered }.setPhase t (.deleteRows volume discovered))
  | deleteRows (t) (volume) (discovered) (s') (hphase : s.phase t = .deleteRows volume discovered)
    (hwrite : (s.setPhase t .idle).write t (fun table key =>
      if key.volume = volume ∧ key.session ∉ discovered then none else table key) = some s') : Quiet env s (.deleteRows t) s'

theorem Quiet.step_eq (h : Quiet env s a s') : step env s a = some s' := by
  cases h <;> simp [step, *]

theorem quiet_of_step (hlookup : ∀ t, a ≠ .lookup t) (hremember : ∀ t, a ≠ .remember t)
    (hs : step env s a = some s') : Quiet env s a s' := by
  cases a with
  | lookup t => exact absurd rfl (hlookup t)
  | remember t => exact absurd rfl (hremember t)
  | beginScan t =>
    simp only [step] at hs
    split at hs <;> cases hs
    exact .beginScan t ‹_› ‹_›
  | commit t =>
    simp only [step] at hs
    split at hs
    · obtain ⟨rfl, hs⟩ := Option.ite_none_right_eq_some.1 hs
      cases hs
      exact .commit _ _ ‹_› ‹_›
    · cases hs
  | rollback t =>
    simp only [step] at hs
    split at hs
    · obtain ⟨rfl, hs⟩ := Option.ite_none_right_eq_some.1 hs
      cases hs
      exact .rollback _ _ ‹_› ‹_›
    · cases hs
  | cached t call =>
    simp only [step] at hs
    split at hs
    · split at hs <;> cases hs
      · exact .missed t call ‹_› ‹_›
      · exact .found t call _ ‹_› ‹_›
    · cases hs
  | rememberRow t key row =>
    simp only [step] at hs
    split at hs
    · exact .rememberRow t key row _ ‹_› hs
    · cases hs
  | deleteRows t =>
    simp only [step] at hs
    split at hs
    · exact .deleteRows t _ _ _ ‹_› hs
    · cases hs
  | clear t | admission t answers | reject t | forget t | fail t | discardMissing t volume discovered | discard t =>
    simp only [step] at hs
    split at hs <;> cases hs
    constructor
    assumption

/-- Every step but a lookup and a remember keeps the laws of the cache. -/
theorem lawful_quiet {o : Observed Raw Fn Thread} (h : Lawful env o) (hs : Quiet env o.state a s) :
    Lawful env ⟨s, o.accepted ++ acceptance env o.state a, use o.state s o.used a⟩ := by
  have hnone : ∀ e ∈ ([] : List (Key × Entry Raw Fn)), Accepts env e := fun e he => absurd he List.not_mem_nil
  have hkept : ∀ e ∈ o.state.cache.entries, e ∈ o.accepted ++ [] :=
    fun e he => List.mem_append_left _ (h.entries e he)
  cases hs with
  | beginScan t hphase hscan =>
    refine h.advance t rfl h.bounded hkept hnone trivial (fun u hu => Function.update_of_ne hu _ _) ?_
    intro l hl
    simp only [use, Function.update_self]
    exact (Option.some.inj hl).symm
  | commit t table hphase hscan =>
    exact h.advance t rfl h.bounded hkept hnone trivial (fun _ _ => rfl) fun l hl => by cases hl
  | rollback t table hphase hscan => exact h.move t rfl h.bounded (fun e he => he) hnone trivial
  | clear t hphase =>
    exact h.advance t rfl (bounded_empty env) (fun e he => absurd he List.not_mem_nil) hnone trivial
      (fun _ _ => rfl) fun l hl => by cases hl
  | missed t call hphase hselect =>
    have hquiet : acceptance env o.state (.cached t call) = [] := by simp [acceptance, hselect]
    rw [hquiet]
    exact h.finish t _ rfl h.bounded fun e he => he
  | found t call raw hphase hselect => exact lawful_cached h t hselect
  | admission t answers call value hphase => exact lawful_admit h t _ _ answers
  | reject t call hphase => exact h.move t rfl h.bounded (fun e he => he) hnone trivial
  | forget t call hphase =>
    refine h.finish t _ rfl (forget_bounded h.bounded call.key) ?_
    rw [forget_entries]
    exact fun e he => List.mem_of_mem_filter he
  | fail t hphase => exact h.finish t _ rfl h.bounded fun e he => he
  | rememberRow t key row s' hphase hwrite =>
    have hsame : Lawful env ⟨o.state, o.accepted ++ [], o.used⟩ := by
      rw [List.append_nil]
      exact h
    exact lawful_write hsame hwrite
  | discardMissing t volume discovered hphase => exact h.move t rfl h.bounded (fun e he => he) hnone trivial
  | discard t volume discovered hphase =>
    obtain ⟨hbounded, hsub⟩ := discard_spec h.bounded volume discovered
    exact h.move t rfl hbounded (fun e he => ((hsub e).1 he).1) hnone trivial
  | deleteRows t volume discovered s' hphase hwrite =>
    have hidle : Lawful env ⟨o.state.setPhase t .idle, o.accepted ++ [], o.used⟩ :=
      h.move t rfl h.bounded (fun e he => he) hnone trivial
    exact lawful_write hidle hwrite

/-- Every step keeps the laws of the cache, and is lawful itself. -/
theorem lawful_step {o : Observed Raw Fn Thread} (h : Lawful env o)
    (ho : observe env o a = some o') : Lawful env o' ∧ HitAccepted o a o' ∧ EvictsUnused o a o' := by
  by_cases hlookup : ∃ t, a = .lookup t
  · obtain ⟨t, rfl⟩ := hlookup
    cases hphase : o.state.phase t with
    | lookup call raw validate value =>
      obtain ⟨o₁, ho₁, hlawful, hhit⟩ := lawful_lookup h t hphase
      obtain rfl : o₁ = o' := Option.some.inj (ho₁.symm.trans ho)
      refine ⟨hlawful, ?_, (fun u _ _ _ _ ha => by cases ha)⟩
      rintro u call' raw' validate' value' ⟨⟩ hphase' hadmit
      rw [hphase] at hphase'
      cases hphase'
      exact hhit hadmit
    | _ => simp [observe, step, hphase] at ho
  by_cases hremember : ∃ t, a = .remember t
  · obtain ⟨t, rfl⟩ := hremember
    cases hphase : o.state.phase t with
    | remember call raw validate value =>
      obtain ⟨o₁, ho₁, hlawful, hpopped⟩ := lawful_remember h t hphase
      obtain rfl : o₁ = o' := Option.some.inj (ho₁.symm.trans ho)
      refine ⟨hlawful, (fun u _ _ _ _ ha => by cases ha), ?_⟩
      rintro u call' raw' validate' value' ⟨⟩ hphase'
      rw [hphase] at hphase'
      cases hphase'
      exact hpopped
    | _ => simp [observe, step, hphase] at ho
  obtain ⟨s, hs, rfl⟩ := Option.map_eq_some_iff.1 ho
  exact ⟨lawful_quiet h (quiet_of_step (fun t ha => hlookup ⟨t, ha⟩) (fun t ha => hremember ⟨t, ha⟩) hs),
    fun t _ _ _ _ ha => absurd ⟨t, ha⟩ hlookup, fun t _ _ _ _ ha => absurd ⟨t, ha⟩ hremember⟩

/-! ### Without the cache -/

/-- The same call with `cache_validation=False`. -/
def Call.uncached (call : Call Fn) : Call Fn := { call with cacheValidation := false }

/-- Where the call stands when it does not ask the cache: the sections under the lock are not there,
and the validator has run. -/
def Phase.erase (env : Env Raw Fn) : Phase Raw Fn → Phase Raw Fn
  | .lookup call _ validate value =>
    (env.validate validate value).phase call.uncached (.admission call.uncached value)
  | .remember call _ _ value => .admission call.uncached value
  | .admission call value => .admission call.uncached value
  | .reject call => .reject call.uncached
  | .forget call => .forget call.uncached
  | p => p

def Seen.erase (seen : Seen) : Seen := seen.map fun _ => []

def ThreadState.erase (env : Env Raw Fn) (s : ThreadState Raw Fn) : ThreadState Raw Fn :=
  ⟨s.phase.erase env, Seen.erase s.seen⟩

def State.erase (env : Env Raw Fn) (s : State Raw Fn Thread) : State Raw Fn Thread :=
  { s with cache := {}, threads := fun t => (s.threads t).erase env }

def Action.erase : Action Raw Fn Thread → Option (Action Raw Fn Thread)
  | .cached t call => some (.cached t call.uncached)
  | .lookup _ => none
  | .remember _ => none
  | a => some a

section Erase

omit [DecidableEq Raw] [DecidableEq Fn]

theorem erase_setThread (env : Env Raw Fn) (s : State Raw Fn Thread) (t : Thread) (p : Phase Raw Fn) (q : Seen) :
    (s.setThread t p q).erase env = (s.erase env).setThread t (p.erase env) (Seen.erase q) := by
  unfold State.setThread State.erase
  congr 1
  funext u
  by_cases hu : u = t
  · subst hu
    simp [ThreadState.erase]
  · simp [hu]

theorem erase_setPhase (env : Env Raw Fn) (s : State Raw Fn Thread) (t : Thread) (p : Phase Raw Fn) :
    (s.setPhase t p).erase env = (s.erase env).setPhase t (p.erase env) :=
  erase_setThread env s t p (s.seen t)

theorem erase_finish (env : Env Raw Fn) (s : State Raw Fn Thread) (t : Thread) (r : Returned) :
    (s.finish t r).erase env = (s.erase env).finish t r := by
  have h := erase_setPhase env s t .idle
  unfold State.finish
  rw [← show (Phase.idle : Phase Raw Fn).erase env = .idle from rfl, ← h]
  rfl

omit [DecidableEq Thread] in
theorem phase_erase {t : Thread} {p : Phase Raw Fn} (h : s.phase t = p) : (s.erase env).phase t = p.erase env := by
  rw [← h]
  rfl

theorem erase_write (env : Env Raw Fn) {t : Thread} {f : Table Raw → Table Raw}
    (h : s.write t f = some s') : (s.erase env).write t f = some (s'.erase env) := by
  unfold State.write at h ⊢
  unfold State.erase
  dsimp only
  cases hscan : s.scan with
  | none =>
    rw [hscan] at h
    cases h
    rfl
  | some scan =>
    obtain ⟨scanner, table⟩ := scan
    rw [hscan] at h
    obtain ⟨ht, h⟩ := Option.ite_none_right_eq_some.1 h
    cases h
    dsimp only
    rw [if_pos ht]

theorem erase_verdict (env : Env Raw Fn) (v : Verdict) (call : Call Fn) (next : Phase Raw Fn) :
    (v.phase call next).erase env = v.phase call.uncached (next.erase env) := by
  cases v <;> rfl

theorem erase_decode (env : Env Raw Fn) (call : Call Fn) (raw : Raw) :
    (call.decode env raw).erase env = call.uncached.decode env raw := by
  obtain ⟨volume, session, signature, validator, directory, role, validateSummary, cacheValidation⟩ := call
  unfold Call.decode Call.uncached
  dsimp only
  cases env.summary session raw with
  | none => rfl
  | some value =>
    cases validateSummary with
    | none => rfl
    | some validate =>
      cases cacheValidation with
      | true => rfl
      | false => exact erase_verdict env _ _ _

theorem erase_admitStep (s : State Raw Fn Thread) (t : Thread) (call : Call Fn) (value : PyValue)
    (answers : Answers) :
    (admitStep s t call value answers).erase env = admitStep (s.erase env) t call.uncached value answers := by
  unfold admitStep
  have hkey : call.uncached.key = call.key := rfl
  have hview : (s.erase env).view t = s.view t := rfl
  have hadmitted : (s.erase env).admitted = s.admitted := rfl
  have hdirectory : call.uncached.directory = call.directory := rfl
  have hsignature : call.uncached.signature = call.signature := rfl
  rw [hkey, hview, hadmitted, hdirectory, hsignature]
  by_cases hknown : call.directory = false ∨ s.admitted call.key = some call.signature
  · rw [if_pos hknown, if_pos hknown]
    exact erase_finish env s t _
  rw [if_neg hknown, if_neg hknown]
  cases answers.artifactsMatch (((s.view t call.key).map (·.artifacts)).getD []) with
  | none => exact erase_finish env s t _
  | some matched =>
    cases matched with
    | false => exact erase_finish env s t _
    | true =>
      cases answers.signature with
      | none => exact erase_finish env s t _
      | some signature =>
        dsimp only
        by_cases hsame : signature ≠ call.signature
        · rw [if_pos hsame, if_pos hsame]
          exact erase_finish env s t _
        · rw [if_neg hsame, if_neg hsame]
          exact erase_finish env _ t _

omit [DecidableEq Thread] in
/-- A lookup that finds the entry goes on as the validator would. -/
theorem hit_accepted {o : Observed Raw Fn Thread} {t : Thread} {raw : Raw} {validate : Fn}
    {value : PyValue} (h : Lawful env o) (hphase : o.state.phase t = .lookup call raw validate value)
    (hhit : o.state.cache.entries.lookup call.key = some ⟨call.validator, raw, validate⟩) :
    env.validate validate value = .accepted := by
  have hsummary : env.summary call.session raw = some value := by simpa [hphase, PhaseOk] using h.phases t
  obtain ⟨value', hvalue, hvalid⟩ := h.accepted _ (h.entries _ ((h.bounded.unique.lookup_iff).1 hhit))
  obtain rfl : value = value' := Option.some.inj (hsummary.symm.trans hvalue)
  exact hvalid

/-- A section under the lock leaves the call where it is without the cache. -/
theorem erase_section {t : Thread} {p : Phase Raw Fn} {q : Seen}
    (hphase : p.erase env = (s.phase t).erase env) (hseen : Seen.erase q = Seen.erase (s.seen t))
    (hs : s' = { s with cache := s'.cache, threads := Function.update s.threads t ⟨p, q⟩ }) :
    s'.erase env = s.erase env := by
  rw [hs]
  unfold State.erase
  congr 1
  funext u
  dsimp only
  by_cases hu : u = t
  · subst hu
    rw [Function.update_self]
    exact congrArg₂ ThreadState.mk hphase hseen
  · rw [Function.update_of_ne hu]

end Erase

theorem erase_lookup {o : Observed Raw Fn Thread} {t : Thread}
    (h : Lawful env o) (hs : step env o.state (.lookup t) = some s) : s.erase env = o.state.erase env := by
  simp only [step] at hs
  split at hs
  · next call raw validate value hphase =>
    obtain ⟨c', seen', hlookup, -, -, hseen'⟩ :=
      lookup_spec h.bounded (o.state.seen t) call.key ⟨call.validator, raw, validate⟩
    rw [hlookup] at hs
    cases hs
    apply erase_section (t := t) ?_ ?_ rfl
    · rw [hphase]
      by_cases hhit : o.state.cache.entries.lookup call.key = some ⟨call.validator, raw, validate⟩
      · simp [hhit, Phase.erase, hit_accepted h hphase hhit, Verdict.phase]
      · simp only [hhit, decide_false, Bool.false_eq_true, ↓reduceIte]
        exact erase_verdict env _ _ _
    · rw [hseen']
      split_ifs
      · cases o.state.seen t <;> rfl
      · rfl
  · cases hs

theorem erase_remember {o : Observed Raw Fn Thread} {t : Thread}
    (h : Lawful env o) (hs : step env o.state (.remember t) = some s) : s.erase env = o.state.erase env := by
  simp only [step] at hs
  split at hs
  · next call raw validate value hphase =>
    obtain ⟨c', seen', hremember, -, -, -, hstored⟩ :=
      remember_spec h.bounded (o.state.seen t) call.key ⟨call.validator, raw, validate⟩
    rw [hremember] at hs
    cases hs
    apply erase_section (t := t) ?_ ?_ rfl
    · rw [hphase]
      rfl
    · rcases hstored with ⟨-, rfl⟩ | ⟨-, rfl, -⟩
      · rfl
      · cases o.state.seen t <;> rfl
  · cases hs

omit [DecidableEq Raw] [DecidableEq Fn] in
/-- A step that does not ask the cache is the one of the calls that never do. -/
theorem Quiet.erase (h : Quiet env s a s') : ∃ b, a.erase = some b ∧ Quiet env (s.erase env) b (s'.erase env) := by
  cases h with
  | beginScan t hphase hscan =>
    rw [erase_setThread]
    exact ⟨_, rfl, .beginScan t (phase_erase hphase) hscan⟩
  | commit t table hphase hscan =>
    rw [erase_setThread]
    exact ⟨_, rfl, .commit t table (phase_erase hphase) hscan⟩
  | rollback t table hphase hscan =>
    rw [erase_setPhase]
    exact ⟨_, rfl, .rollback t table (phase_erase hphase) hscan⟩
  | clear t hphase =>
    rw [erase_setThread]
    exact ⟨_, rfl, .clear t (phase_erase hphase)⟩
  | missed t call hphase hselect =>
    rw [erase_finish]
    exact ⟨_, rfl, .missed t call.uncached (phase_erase hphase) hselect⟩
  | found t call raw hphase hselect =>
    rw [erase_setPhase, erase_decode]
    exact ⟨_, rfl, .found t call.uncached raw (phase_erase hphase) hselect⟩
  | admission t answers call value hphase =>
    rw [erase_admitStep]
    exact ⟨_, rfl, .admission t answers _ value (phase_erase hphase)⟩
  | reject t call hphase =>
    rw [erase_setPhase]
    exact ⟨_, rfl, .reject t call.uncached (phase_erase hphase)⟩
  | forget t call hphase =>
    rw [erase_finish]
    exact ⟨_, rfl, .forget t call.uncached (phase_erase hphase)⟩
  | fail t hphase =>
    rw [erase_finish]
    exact ⟨_, rfl, .fail t (phase_erase hphase)⟩
  | rememberRow t key row s' hphase hwrite => exact ⟨_, rfl, .rememberRow t key row _ (phase_erase hphase) (erase_write env hwrite)⟩
  | discardMissing t volume discovered hphase =>
    rw [erase_setPhase]
    exact ⟨_, rfl, .discardMissing t volume discovered (phase_erase hphase)⟩
  | discard t volume discovered hphase =>
    rw [erase_setPhase]
    exact ⟨_, rfl, .discard t volume discovered (phase_erase hphase)⟩
  | deleteRows t volume discovered s' hphase hwrite =>
    have hwrite := erase_write env hwrite
    rw [erase_setPhase] at hwrite
    exact ⟨_, rfl, .deleteRows t volume discovered _ (phase_erase hphase) hwrite⟩

/-- A step is the step of the calls that do not ask the cache, or leaves them where they are. -/
theorem step_erase {o : Observed Raw Fn Thread} (h : Lawful env o) (hs : step env o.state a = some s) :
    run (step env) (o.state.erase env) a.erase.toList = some (s.erase env) := by
  by_cases hlookup : ∃ t, a = .lookup t
  · obtain ⟨t, rfl⟩ := hlookup
    exact congrArg some (erase_lookup h hs).symm
  by_cases hremember : ∃ t, a = .remember t
  · obtain ⟨t, rfl⟩ := hremember
    exact congrArg some (erase_remember h hs).symm
  obtain ⟨b, hb, hquiet⟩ :=
    (quiet_of_step (fun t ha => hlookup ⟨t, ha⟩) (fun t ha => hremember ⟨t, ha⟩) hs).erase
  rw [hb]
  exact run_cons_eq_some.2 ⟨_, hquiet.step_eq, rfl⟩

/-- A run without the cache, next to one with it. -/
theorem run_erase {as : List (Action Raw Fn Thread)} {o : Observed Raw Fn Thread} (h : Lawful env o)
    (hrun : run (observe env) o as = some o') :
    run (step env) (o.state.erase env) (as.filterMap Action.erase) = some (o'.state.erase env) := by
  induction as generalizing o with
  | nil =>
    cases hrun
    rfl
  | cons a as ih =>
    obtain ⟨o₁, ho₁, hrest⟩ := run_cons_eq_some.1 hrun
    have htail := ih (lawful_step h ho₁).1 hrest
    obtain ⟨s, hs, rfl⟩ := Option.map_eq_some_iff.1 ho₁
    have hhead := step_erase h hs
    have hsplit : (a :: as).filterMap Action.erase = a.erase.toList ++ as.filterMap Action.erase := by
      cases ha : a.erase <;> simp [ha]
    rw [hsplit]
    exact run_append_eq_some.2 ⟨_, hhead, htail⟩

/-- In every run the cache stays within its limits; a lookup goes through only for a text that its
validator has accepted; an eviction pops none of the first 8192 keys that the scan of its thread
has used; and the same calls without the cache return the same and leave the same rows and
admissions. -/
theorem validation_cache_lawful (env : Env Raw Fn) (rows : Table Raw) {as : List (Action Raw Fn Thread)}
    {o : Observed Raw Fn Thread} (hrun : run (observe env) ⟨start rows, [], fun _ => []⟩ as = some o) :
    o.state.cache.Bounded env ∧
      Along (observe env) (fun o a o' => HitAccepted o a o' ∧ EvictsUnused o a o')
        ⟨start rows, [], fun _ => []⟩ as ∧
      ∃ s, run (step env) (start rows) (as.filterMap Action.erase) = some s ∧ s.returned = o.state.returned ∧
        s.rows = o.state.rows ∧ s.admitted = o.state.admitted := by
  have hstart : Lawful env (⟨start rows, [], fun _ => []⟩ : Observed Raw Fn Thread) := lawful_start env rows
  have hlawful : Lawful env o :=
    run_invariant (I := Lawful env) (fun _ _ _ h ho => (lawful_step h ho).1) hstart hrun
  refine ⟨hlawful.bounded, ?_, _, run_erase hstart hrun, rfl, rfl, rfl⟩
  apply along_of_invariant (I := Lawful env) _ hstart
  intro o₁ a o₂ h ho
  exact lawful_step h ho

/-! ### A text, and threads that evict

A text is a JSON object with a session id, padded with spaces to its length; one of ASCII
characters takes 49 bytes more than its length. -/

structure Text where
  session : String
  length : ℕ
  deriving DecidableEq

def textEnv : Env Text Unit where
  getsizeof text := 49 + text.length
  loads text := some (.dict [(.text "session_id", .str (.text text.session))])
  validate _ _ := .accepted

def textRow (session : String) (length : ℕ) : Row Text := ⟨"s", "c", ⟨session, length⟩, []⟩

def textCall (volume session : String) : Call Unit :=
  { volume, session, signature := "s", validator := "c", validateSummary := some (), cacheValidation := true }

def noAnswers : Answers := ⟨fun _ => none, none⟩

def sampleRows : Table Text := fun key =>
  if key = ⟨"v", "a"⟩ then some (textRow "a" (5 * 1024 * 1024))
  else if key = ⟨"v", "b"⟩ then some (textRow "b" (5 * 1024 * 1024)) else none

/-- A scan of thread 0 uses one session, and thread 1 reads another one. -/
def sampleActions : List (Action Text Unit ℕ) :=
  [.beginScan 0, .cached 0 (textCall "v" "a"), .lookup 0, .remember 0, .admission 0 noAnswers,
    .cached 1 (textCall "v" "b"), .lookup 1]

theorem validation_cache_lawful_sample :
    ∃ o, run (observe textEnv) ⟨start sampleRows, [], fun _ => []⟩ sampleActions = some o ∧
      o.state.cache.Bounded textEnv ∧
      Along (observe textEnv) (fun o a o' => HitAccepted o a o' ∧ EvictsUnused o a o')
        ⟨start sampleRows, [], fun _ => []⟩ sampleActions ∧
      ∃ s, run (step textEnv) (start sampleRows) (sampleActions.filterMap Action.erase) = some s ∧
        s.returned = o.state.returned ∧ s.rows = o.state.rows ∧ s.admitted = o.state.admitted := by
  have hrun : ∃ o, run (observe textEnv) ⟨start sampleRows, [], fun _ => []⟩ sampleActions = some o := ⟨_, rfl⟩
  obtain ⟨o, ho⟩ := hrun
  exact ⟨o, ho, validation_cache_lawful textEnv sampleRows ho⟩

/-- A step of `t` that evicts a key which the running scan of `u` has used. -/
def EvictsUsed (o : Observed Text Unit ℕ) (t u : ℕ) (o' : Observed Text Unit ℕ) : Prop :=
  (o.state.seen u).isSome ∧ ∃ e ∈ o.state.cache.entries, e.1 ∈ o.used u ∧ e.1 ∉ o'.state.cache.entries.map (·.1) ∧
    ∃ call raw value, o.state.phase t = .remember call raw () value ∧ e.1 ≠ call.key

/-- Thread 1, which is in no scan, evicts a key of the scan of thread 0. -/
theorem evicts_of_other_scan :
    ∃ o o', run (observe textEnv) ⟨start sampleRows, [], fun _ => []⟩ sampleActions = some o ∧
      observe textEnv o (.remember 1) = some o' ∧ EvictsUsed o 1 0 o' := by
  refine ⟨_, _, rfl, rfl, rfl, (⟨"v", "a"⟩, ⟨"c", ⟨"a", 5 * 1024 * 1024⟩, ()⟩), ?_, ?_, ?_, _, _, _, rfl, ?_⟩
  · exact List.mem_singleton_self _
  · exact List.mem_singleton_self _
  · decide
  · decide

/-! ### A scan of more than 8192 sessions

Thread 0 scans 8192 sessions, so its marks are full. Thread 1 discards them all, and waits for the
writer. Thread 2 reads a long text; the scan uses it, and then reads its first session again. -/

def fillSession (i : ℕ) : String :=
  String.ofList (List.replicate (i / 128) 'a' ++ List.replicate (i % 128) 'b')

theorem fillSession_injective : Function.Injective fillSession := by
  intro i j h
  have hlist := String.ofList_injective h
  have ha := congrArg (List.count 'a') hlist
  have hb := congrArg (List.count 'b') hlist
  simp [List.count_append, List.count_replicate] at ha hb
  omega

def fillKey (i : ℕ) : Key := ⟨"v", fillSession i⟩

theorem fillKey_injective : Function.Injective fillKey := fun _ _ h => fillSession_injective (congrArg Key.session h)

def fillCall (i : ℕ) : Call Unit := textCall "v" (fillSession i)

def fillEntry (i : ℕ) : Entry Text Unit := ⟨"c", ⟨fillSession i, 300⟩, ()⟩

def longText : Text := ⟨"a", 8 * 1024 * 1024 - 349⟩

def fillRows : Table Text := fun key =>
  if key.volume = "v" ∧ key.session ∈ (List.range 8192).map fillSession then some (textRow key.session 300)
  else if key = ⟨"w", "a"⟩ then some (textRow "a" longText.length) else none

def textValue (session : String) : PyValue :=
  .dict [(.text "session_id", .str (.text session)), (.text "verification", .none)]

theorem textEnv_summary (text : Text) : textEnv.summary text.session text = some (textValue text.session) := by
  simp [Env.summary, textEnv, PyValue.lookup, PyValue.eqStr, setItem, textValue]

/-- What the scenes below look at. -/
structure Scene (o : Observed Text Unit ℕ) (cache : Cache Text Unit) (threads : ℕ → ThreadState Text Unit) : Prop where
  rows : o.state.rows = fillRows
  scan : o.state.scan = some (0, fillRows)
  cache : o.state.cache = cache
  threads : o.state.threads = threads

variable {o : Observed Text Unit ℕ} {cache : Cache Text Unit} {threads : ℕ → ThreadState Text Unit} {t : ℕ}
  {volume : String} {text : Text} {seen : Seen}

theorem Scene.view (h : Scene o cache threads) (t : ℕ) : o.state.view t = fillRows := by
  unfold State.view
  rw [h.scan, h.rows]
  exact ite_self _

theorem scene_cached (h : Scene o cache threads) (hthread : threads t = ⟨.idle, seen⟩)
    (hselect : (textCall volume text.session).select fillRows = some text) :
    ∃ o', observe textEnv o (.cached t (textCall volume text.session)) = some o' ∧
      Scene o' cache (Function.update threads t
        ⟨.lookup (textCall volume text.session) text () (textValue text.session), seen⟩) ∧ o'.used = o.used := by
  have hphase : o.state.phase t = .idle := by rw [State.phase, h.threads, hthread]
  have hseen : o.state.seen t = seen := by rw [State.seen, h.threads, hthread]
  have hdecode : (textCall volume text.session).decode textEnv text =
      .lookup (textCall volume text.session) text () (textValue text.session) := by
    unfold Call.decode
    rw [show (textCall volume text.session).session = text.session from rfl, textEnv_summary]
    rfl
  have hview : (textCall volume text.session).select (o.state.view t) = some text := by rw [h.view, hselect]
  simp only [observe, step, hphase, hview, hdecode, Option.map_some]
  refine ⟨_, rfl, ⟨h.rows, h.scan, h.cache, ?_⟩, rfl⟩
  simp only [State.setPhase, State.setThread, h.threads, hseen]

theorem scene_miss (h : Scene o cache threads)
    (hthread : threads t = ⟨.lookup (textCall volume text.session) text () (textValue text.session), seen⟩)
    (hmiss : cache.entries.lookup ⟨volume, text.session⟩ = none) :
    ∃ o', observe textEnv o (.lookup t) = some o' ∧
      Scene o' cache (Function.update threads t
        ⟨.remember (textCall volume text.session) text () (textValue text.session), seen⟩) ∧ o'.used = o.used := by
  have hphase : o.state.phase t = .lookup (textCall volume text.session) text () (textValue text.session) := by
    rw [State.phase, h.threads, hthread]
  have hseen : o.state.seen t = seen := by rw [State.seen, h.threads, hthread]
  have hlookup : cache.entries.lookup (textCall volume text.session).key = none := hmiss
  have hsection (e : Entry Text Unit) :
      summaryWasValidated textEnv cache seen (textCall volume text.session).key e = (false, cache, seen) := by
    simp [summaryWasValidated, Cache.forget, hlookup]
  simp only [observe, step, use, hphase, h.cache, hseen, hsection, hlookup, Option.map_some, reduceCtorEq, ↓reduceIte]
  refine ⟨_, rfl, ⟨h.rows, h.scan, rfl, ?_⟩, rfl⟩
  simp only [State.setThread, h.threads]
  rfl

variable {cache' : Cache Text Unit}

theorem scene_store {seen' : Seen} (h : Scene o cache threads)
    (hthread : threads t = ⟨.remember (textCall volume text.session) text () (textValue text.session), seen⟩)
    (hsection : rememberSummaryValidation textEnv cache seen ⟨volume, text.session⟩ ⟨"c", text, ()⟩ =
      (cache', seen')) : ∃ o', observe textEnv o (.remember t) = some o' ∧
      Scene o' cache' (Function.update threads t
        ⟨.admission (textCall volume text.session) (textValue text.session), seen'⟩) := by
  have hphase : o.state.phase t = .remember (textCall volume text.session) text () (textValue text.session) := by
    rw [State.phase, h.threads, hthread]
  have hseen : o.state.seen t = seen := by rw [State.seen, h.threads, hthread]
  have hsection : rememberSummaryValidation textEnv cache seen (textCall volume text.session).key
      ⟨(textCall volume text.session).validator, text, ()⟩ = (cache', seen') := hsection
  simp only [observe, step, hphase, h.cache, hseen, hsection, Option.map_some]
  refine ⟨_, rfl, h.rows, h.scan, rfl, ?_⟩
  simp only [State.setThread, h.threads]

theorem scene_admit (h : Scene o cache threads)
    (hthread : threads t = ⟨.admission (textCall volume text.session) (textValue text.session), seen⟩) :
    ∃ o', observe textEnv o (.admission t noAnswers) = some o' ∧
      Scene o' cache (Function.update threads t ⟨.idle, seen⟩) ∧ o'.used = o.used := by
  have hphase : o.state.phase t = .admission (textCall volume text.session) (textValue text.session) := by
    rw [State.phase, h.threads, hthread]
  have hseen : o.state.seen t = seen := by rw [State.seen, h.threads, hthread]
  have hadmit : admitStep o.state t (textCall volume text.session) (textValue text.session) noAnswers =
      o.state.finish t (.value (textValue text.session)) := if_pos (.inl rfl)
  simp only [observe, step, hphase, hadmit, Option.map_some]
  refine ⟨_, rfl, ⟨h.rows, h.scan, h.cache, ?_⟩, rfl⟩
  simp only [State.finish, State.setPhase, State.setThread, h.threads, hseen]

/-- A call that does not find its entry, up to the section that stores it. -/
theorem scene_call (h : Scene o cache threads) (hthread : threads t = ⟨.idle, seen⟩)
    (hselect : (textCall volume text.session).select fillRows = some text)
    (hmiss : cache.entries.lookup ⟨volume, text.session⟩ = none) :
    ∃ o', run (observe textEnv) o [.cached t (textCall volume text.session), .lookup t] = some o' ∧
      Scene o' cache (Function.update threads t
        ⟨.remember (textCall volume text.session) text () (textValue text.session), seen⟩) ∧ o'.used = o.used := by
  obtain ⟨o₁, ho₁, h₁, hused₁⟩ := scene_cached h hthread hselect
  obtain ⟨o₂, ho₂, h₂, hused₂⟩ := scene_miss h₁ (Function.update_self ..) hmiss
  rw [Function.update_idem] at h₂
  exact ⟨o₂, run_cons_eq_some.2 ⟨o₁, ho₁, run_cons_eq_some.2 ⟨o₂, ho₂, rfl⟩⟩, h₂, hused₂.trans hused₁⟩

/-- A whole call whose text is stored. -/
theorem scene_validate {seen' : Seen} (volume : String) (text : Text)
    (h : Scene o cache threads) (hthread : threads t = ⟨.idle, seen⟩) (hselect : (textCall volume text.session).select fillRows = some text)
    (hmiss : cache.entries.lookup ⟨volume, text.session⟩ = none)
    (hsection : rememberSummaryValidation textEnv cache seen ⟨volume, text.session⟩ ⟨"c", text, ()⟩ =
      (cache', seen')) : ∃ o', run (observe textEnv) o
        [.cached t (textCall volume text.session), .lookup t, .remember t, .admission t noAnswers] = some o' ∧
      Scene o' cache' (Function.update threads t ⟨.idle, seen'⟩) := by
  obtain ⟨o₁, ho₁, h₁, -⟩ := scene_call h hthread hselect hmiss
  obtain ⟨o₂, ho₂, h₂⟩ := scene_store h₁ (Function.update_self ..) hsection
  obtain ⟨o₃, ho₃, h₃, -⟩ := scene_admit h₂ (Function.update_self ..)
  rw [Function.update_idem, Function.update_idem] at h₃
  have hrest : run (observe textEnv) o₁ [.remember t, .admission t noAnswers] = some o₃ :=
    run_cons_eq_some.2 ⟨o₂, ho₂, run_cons_eq_some.2 ⟨o₃, ho₃, rfl⟩⟩
  exact ⟨o₃, run_append_eq_some.2 ⟨o₁, ho₁, hrest⟩, h₃⟩

/-! The scan of thread 0 reads the first `n` sessions. -/

def fillCache (n : ℕ) : Cache Text Unit := ⟨(List.range n).map fun i => (fillKey i, fillEntry i), 349 * n⟩

def fillThreads (n : ℕ) : ℕ → ThreadState Text Unit :=
  Function.update (fun _ => {}) 0 ⟨.idle, some ((List.range n).map fillKey)⟩

def fillActions : ℕ → List (Action Text Unit ℕ)
  | 0 => [.beginScan 0]
  | n + 1 => fillActions n ++ [.cached 0 (fillCall n), .lookup 0, .remember 0, .admission 0 noAnswers]

theorem fillKey_not_mem (n : ℕ) : fillKey n ∉ (List.range n).map fillKey := by
  rintro hmem
  obtain ⟨i, hi, heq⟩ := List.mem_map.1 hmem
  rw [fillKey_injective heq] at hi
  exact absurd (List.mem_range.1 hi) (lt_irrefl n)

theorem fillCache_lookup (n : ℕ) : (fillCache n).entries.lookup (fillKey n) = none := by
  rw [List.lookup_eq_none_iff]
  intro e he
  obtain ⟨i, hi, rfl⟩ := List.mem_map.1 he
  have hne : fillKey n ≠ fillKey i := fun heq => by
    rw [fillKey_injective heq] at hi
    exact absurd (List.mem_range.1 hi) (lt_irrefl i)
  exact bne_iff_ne.2 hne

theorem fill_select (hn : n < 8192) : (fillCall n).select fillRows = some ⟨fillSession n, 300⟩ := by
  have hrow : fillRows (fillKey n) = some (textRow (fillSession n) 300) :=
    if_pos ⟨rfl, List.mem_map_of_mem (List.mem_range.2 hn)⟩
  unfold Call.select
  rw [show (fillCall n).key = fillKey n from rfl, hrow]
  rfl

theorem fill_section (hn : n < 8192) :
    rememberSummaryValidation textEnv (fillCache n) (some ((List.range n).map fillKey)) (fillKey n) (fillEntry n) =
      (fillCache (n + 1), some ((List.range (n + 1)).map fillKey)) := by
  have hlimit : validationCacheEntries = 8192 := rfl
  have hbytes : (validationCacheBytes : ℤ) = 8388608 := rfl
  have hsize : (textEnv.getsizeof (fillEntry n).raw : ℤ) = 349 := rfl
  rw [remember_fits (fillCache_lookup n) _ _ _ _]
  · simp [fillCache, List.range_succ, hsize, addKey, fillKey_not_mem n]
    ring
  · rintro l ⟨⟩
    exact .inr (by simpa [hlimit] using hn)
  · simpa [fillCache, hlimit] using hn
  · simp only [fillCache]
    omega
  · rw [hsize, hbytes]
    simp only [fillCache]
    omega

theorem fill_run (hn : n ≤ 8192) :
    ∃ o, run (observe textEnv) ⟨start fillRows, [], fun _ => []⟩ (fillActions n) = some o ∧
      Scene o (fillCache n) (fillThreads n) := by
  induction n with
  | zero => exact ⟨_, rfl, rfl, rfl, rfl, rfl⟩
  | succ n ih =>
    obtain ⟨o, ho, h⟩ := ih (Nat.le_of_succ_le hn)
    obtain ⟨o', ho', h'⟩ := scene_validate "v" ⟨fillSession n, 300⟩ h (Function.update_self ..) (fill_select hn)
      (fillCache_lookup n) (fill_section hn)
    unfold fillThreads at h'
    rw [Function.update_idem] at h'
    exact ⟨o', run_append_eq_some.2 ⟨o, ho, ho'⟩, h'⟩

/-! The long text, and the eviction. -/

theorem scene_discard (h : Scene o cache threads) (hthread : threads t = ⟨.idle, seen⟩) (volume : String) :
    ∃ o', run (observe textEnv) o [.discardMissing t volume [], .discard t] = some o' ∧
      Scene o' (cache.discard textEnv volume []) (Function.update threads t ⟨.deleteRows volume [], seen⟩) := by
  have hphase : o.state.phase t = .idle := by rw [State.phase, h.threads, hthread]
  have hseen : o.state.seen t = seen := by rw [State.seen, h.threads, hthread]
  simp only [run_cons, observe, step, hphase, Option.map_some, Option.bind_some, State.setPhase, phase_setThread,
    run_nil]
  refine ⟨_, rfl, h.rows, h.scan, ?_, ?_⟩
  · rw [← h.cache]
    rfl
  · simp only [State.setThread, State.seen, Function.update_self, Function.update_idem, h.threads]
    rw [hthread]

theorem scene_hit (h : Scene o cache threads)
    (hthread : threads t = ⟨.lookup (textCall volume text.session) text () (textValue text.session), seen⟩)
    (hhit : cache.entries = [(⟨volume, text.session⟩, ⟨"c", text, ()⟩)])
    (hfull : ∀ l, seen = some l → ¬ l.length < validationCacheEntries) :
    ∃ o', observe textEnv o (.lookup t) = some o' ∧
      Scene o' cache (Function.update threads t
        ⟨.admission (textCall volume text.session) (textValue text.session), seen⟩) ∧
      (⟨volume, text.session⟩ : Key) ∈ o'.used t := by
  have hphase : o.state.phase t = .lookup (textCall volume text.session) text () (textValue text.session) := by
    rw [State.phase, h.threads, hthread]
  have hseen : o.state.seen t = seen := by rw [State.seen, h.threads, hthread]
  have hlookup : cache.entries.lookup (textCall volume text.session).key =
      some ⟨(textCall volume text.session).validator, text, ()⟩ := by
    rw [hhit, lookup_singleton]
    exact if_pos rfl
  have hsection : summaryWasValidated textEnv cache seen (textCall volume text.session).key
      ⟨(textCall volume text.session).validator, text, ()⟩ = (true, cache, seen) := by
    have hentries : insertOrReplace cache.entries ((textCall volume text.session).key,
        (⟨(textCall volume text.session).validator, text, ()⟩ : Entry Text Unit)) = cache.entries := by
      rw [hhit]
      simp [insertOrReplace, delete, textCall, Call.key]
    unfold summaryWasValidated
    rw [if_pos hlookup, hentries]
    cases seen with
    | none => rfl
    | some l => simp [hfull l rfl]
  simp only [observe, step, use, hphase, h.cache, hseen, hsection, hlookup, Option.map_some, ↓reduceIte]
  refine ⟨_, rfl, ⟨h.rows, h.scan, rfl, ?_⟩, ?_⟩
  · simp only [State.setThread, h.threads]
  · dsimp only
    rw [Function.update_self]
    unfold addKey
    split
    · assumption
    · exact List.mem_append_right _ (List.mem_singleton_self _)

def longKey : Key := ⟨"w", "a"⟩

def longEntry : Entry Text Unit := ⟨"c", longText, ()⟩

def longCache : Cache Text Unit := ⟨[(longKey, longEntry)], 8 * 1024 * 1024 - 300⟩

def fullSeen : Seen := some ((List.range 8192).map fillKey)

theorem longKey_not_mem : longKey ∉ (List.range 8192).map fillKey := by
  intro hmem
  obtain ⟨i, -, heq⟩ := List.mem_map.1 hmem
  have hvolume : "v" = "w" := congrArg Key.volume heq
  exact absurd hvolume (by decide)

/-- The first session again: its entry does not fit beside the long one. -/
theorem long_evicted : rememberSummaryValidation textEnv longCache fullSeen (fillKey 0) (fillEntry 0) =
    (⟨[(fillKey 0, fillEntry 0)], 349⟩, fullSeen) := by
  have hfirst : fillKey 0 ∈ (List.range 8192).map fillKey := List.mem_map_of_mem (List.mem_range.2 (by decide))
  have hforget : longCache.forget textEnv (fillKey 0) = longCache := rfl
  have hmarked : ¬ fullSeen.any (fun seen => fillKey 0 ∉ seen ∧ validationCacheEntries ≤ seen.length) = true := by
    simp [fullSeen, hfirst]
  have hunseen : ¬ fullSeen.any (longKey ∈ ·) = true := by simpa [fullSeen] using longKey_not_mem
  have hevict : evict textEnv fullSeen 349 longCache.entries longCache.bytes = (⟨[], 0⟩, true) := by
    unfold evict longCache
    dsimp only
    rw [if_pos (by decide), if_neg hunseen]
    rfl
  unfold rememberSummaryValidation
  dsimp only
  rw [if_neg (by decide), if_neg hmarked, hforget, show textEnv.getsizeof (fillEntry 0).raw = 349 from rfl, hevict]
  simp [fullSeen, addKey, hfirst]

theorem fill_discarded (h : (fillCache n).Bounded textEnv) : (fillCache n).discard textEnv "v" [] = {} := by
  obtain ⟨hbounded, hmem⟩ := discard_spec h "v" []
  have hentries : ((fillCache n).discard textEnv "v" []).entries = [] := by
    rw [List.eq_nil_iff_forall_not_mem]
    intro e he
    obtain ⟨hold, hkept⟩ := (hmem e).1 he
    obtain ⟨i, -, rfl⟩ := List.mem_map.1 hold
    exact hkept ⟨rfl, List.not_mem_nil⟩
  have htotal := hbounded.total
  rw [hentries, totalBytes_nil] at htotal
  generalize (fillCache n).discard textEnv "v" [] = c at hentries htotal
  obtain ⟨entries, bytes⟩ := c
  dsimp only at hentries htotal
  rw [hentries, htotal]

/-- The scan evicts a key that it has used: its marks were full when it used it. -/
theorem evicts_of_own_scan : ∃ as o o', run (observe textEnv) ⟨start fillRows, [], fun _ => []⟩ as = some o ∧
      observe textEnv o (.remember 0) = some o' ∧ EvictsUsed o 0 0 o' := by
  obtain ⟨o₁, ho₁, h₁⟩ := fill_run (le_refl 8192)
  have hlawful : Lawful textEnv o₁ :=
    run_invariant (I := Lawful textEnv) (fun _ _ _ h ho => (lawful_step h ho).1) (lawful_start textEnv fillRows) ho₁
  have hbounded : (fillCache 8192).Bounded textEnv := h₁.cache ▸ hlawful.bounded
  -- thread 1 discards what the scan has read
  obtain ⟨o₂, ho₂, h₂⟩ := scene_discard (t := 1) h₁ rfl "v"
  rw [fill_discarded hbounded] at h₂
  -- thread 2 stores the long text
  have hstore : rememberSummaryValidation textEnv {} none longKey longEntry = (longCache, none) := rfl
  obtain ⟨o₃, ho₃, h₃⟩ := scene_validate (t := 2) "w" longText h₂ rfl rfl rfl hstore
  -- the scan uses it, unmarked, and goes on to its first session
  have hscan₃ : Function.update (Function.update (fillThreads 8192) 1 ⟨.deleteRows "v" [], none⟩) 2 ⟨.idle, none⟩ 0 =
      (⟨.idle, fullSeen⟩ : ThreadState Text Unit) := rfl
  have hfull : ∀ l, fullSeen = some l → ¬ l.length < validationCacheEntries := by
    intro l hl
    rw [fullSeen, Option.some.injEq] at hl
    rw [← hl, List.length_map, List.length_range]
    exact lt_irrefl _
  have hlongRow : (textCall "w" longText.session).select fillRows = some longText := rfl
  obtain ⟨o₄, ho₄, h₄, -⟩ := scene_cached h₃ hscan₃ hlongRow
  obtain ⟨o₅, ho₅, h₅, hused₅⟩ := scene_hit h₄ (Function.update_self ..) rfl hfull
  obtain ⟨o₆, ho₆, h₆, hused₆⟩ := scene_admit h₅ (Function.update_self ..)
  have hfirstRow : (textCall "v" (⟨fillSession 0, 300⟩ : Text).session).select fillRows =
      some ⟨fillSession 0, 300⟩ := fill_select (Nat.succ_pos _)
  obtain ⟨o₇, ho₇, h₇, hused₇⟩ := scene_call h₆ (Function.update_self ..) hfirstRow rfl
  -- and evicts it
  obtain ⟨o₈, ho₈, h₈⟩ := scene_store h₇ (Function.update_self ..) long_evicted
  have hrun := run_append_eq_some.2 ⟨o₁, ho₁, run_append_eq_some.2 ⟨o₂, ho₂, run_append_eq_some.2 ⟨o₃, ho₃,
    run_cons_eq_some.2 ⟨o₄, ho₄, run_cons_eq_some.2 ⟨o₅, ho₅, run_cons_eq_some.2 ⟨o₆, ho₆, ho₇⟩⟩⟩⟩⟩⟩
  refine ⟨_, o₇, o₈, hrun, ho₈, ?_, (longKey, longEntry), ?_, ?_, ?_, fillCall 0, ⟨fillSession 0, 300⟩,
    textValue (fillSession 0), ?_, ?_⟩
  · rw [State.seen, h₇.threads]
    rfl
  · rw [h₇.cache]
    exact List.mem_singleton_self _
  · rw [hused₇, hused₆]
    exact hused₅
  · rw [h₈.cache]
    decide
  · rw [State.phase, h₇.threads, Function.update_self]
    rfl
  · decide

/-- An eviction pops a key that the running scan has used: of the scan of another thread, and of
the scan of its own. -/
theorem used_keys_evicted :
    (∃ as o o', run (observe textEnv) ⟨start sampleRows, [], fun _ => []⟩ as = some o ∧
      observe textEnv o (.remember 1) = some o' ∧ EvictsUsed o 1 0 o') ∧
    (∃ as o o', run (observe textEnv) ⟨start fillRows, [], fun _ => []⟩ as = some o ∧
      observe textEnv o (.remember 0) = some o' ∧ EvictsUsed o 0 0 o') := by
  obtain ⟨o, o', hrun, hstep, hused⟩ := evicts_of_other_scan
  exact ⟨⟨_, o, o', hrun, hstep, hused⟩, evicts_of_own_scan⟩

end Conductor.Persistence.Catalog
