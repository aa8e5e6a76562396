import Conductor.Coordinator.Handles

/-! What the handle count says. It is one for an engine that is installed and one for a recording; an
engine that was made is installed, in the hands of one call, or closed once. While a safe swap is
pending nothing but an engine is left of the sources, so that it is blocked by the engine alone. -/

namespace Conductor.Handles

open Sections Coordinator Runs

/-! ### The invariant -/

/-- One for what is there. -/
def one (x : Option ℕ) : ℤ := if x.isSome then 1 else 0

structure Sources.Inv (s : Sources) : Prop where
  handles : s.openHandles = one s.engine + one s.recording
  engines : ∀ e, s.closed.count e + (s.held.map (·.2)).count e + s.engine.toList.count e = (List.range s.created).count e

/-- With `owned` only the coordinator starts recordings. -/
structure Inv (owned : Prop) (w : World) : Prop where
  sources : w.sources.Inv
  pending : w.flow.pendingSafeSwap.isSome → w.flow.active = none ∧ w.flow.failureProjection = false ∧
    w.flow.failureInflight = none ∧ (owned → w.sources.recording = none)
  projection : w.flow.failureProjection = true → w.flow.failureInflight.isSome ∨ w.flow.failurePendingCommit.isSome
  commit : ∀ session, w.flow.failurePendingCommit = some session → w.flow.active = some session
  owners : ∀ a b, w.flow.failureInflight = some a → w.flow.stopInflight = some b → a = b
  numbered : ∀ session, w.flow.active = some session → session < w.flow.sessions

/-- The engines in the hands of a call. -/
def Sources.hands (s : Sources) (i : ℕ) : List (ℕ × ℕ) := s.held.filter (·.1 = i)

/-- What the owner of a stop relies on, as long as there is a take. -/
structure StopKept (owned : Prop) (s t : World) : Prop where
  stop : t.flow.stopInflight = s.flow.stopInflight
  inflight : t.flow.failureInflight = s.flow.failureInflight
  active : t.flow.active = s.flow.active
  commit : t.flow.failurePendingCommit = s.flow.failurePendingCommit
  projection : t.flow.failureProjection = s.flow.failureProjection
  recording : owned → s.sources.recording = none → t.sources.recording = none

/-- What the owner of a failure relies on. -/
structure FailureKept (s t : World) : Prop where
  inflight : t.flow.failureInflight = s.flow.failureInflight
  active : t.flow.active = s.flow.active
  commit : t.flow.failurePendingCommit = s.flow.failurePendingCommit

/-- A take that is over. -/
def Flow.Past (f : Flow) (session : Session) : Prop := f.active ≠ some session ∧ session < f.sessions

/-- What the other threads leave of what a call has. -/
structure Others (owned : Prop) (i : ℕ) (s t : World) : Prop where
  inv : Inv owned s → Inv owned t
  hands : t.sources.hands i = s.sources.hands i
  locked : s.lock = some i → t.lock = some i ∧ t.flow = s.flow
  stop : s.flow.stopInflight = some i → s.flow.active.isSome → StopKept owned s t
  failure : s.flow.failureInflight = some i → FailureKept s t
  closing : s.closeLock = some i → t.closeLock = some i ∧ (s.flow.closing = true →
    t.flow.closing = true ∧ (s.flow.active = none → t.flow.active = none))
  past : ∀ session, s.flow.Past session → t.flow.Past session
  taken : s.sources.taken = true → t.sources.taken = true

/-- What a section of a call does; with `installs` it may put an engine in place. -/
structure Moves (owned : Prop) (installs : Bool) (i : ℕ) (s t : World) : Prop where
  others : ∀ j, j ≠ i → Others owned j s t
  engine : installs = false → s.sources.engine = none → t.sources.engine = none
  taken : t.sources.taken = true → s.sources.taken = true ∨ t.sources.engine = none

variable {owned : Prop} {installs : Bool} {i : ℕ} {s t : World} {α : Type}

theorem Inv.same (hs : Inv owned s) (hsources : t.sources = s.sources) (hflow : t.flow = s.flow) : Inv owned t := by
  constructor <;> simp only [hsources, hflow]
  exacts [hs.sources, hs.pending, hs.projection, hs.commit, hs.owners, hs.numbered]

/-- The locks change hands. -/
theorem Others.same (hsources : t.sources = s.sources) (hflow : t.flow = s.flow) (hlock : s.lock = some i → t.lock = some i)
    (hclose : s.closeLock = some i → t.closeLock = some i) : Others owned i s t where
  inv hs := hs.same hsources hflow
  hands := by rw [hsources]
  locked hs := ⟨hlock hs, hflow⟩
  stop _ _ := by constructor <;> simp [hsources, hflow]
  failure _ := by constructor <;> rw [hflow]
  closing hs := ⟨hclose hs, by rw [hflow]; exact fun hc => ⟨hc, id⟩⟩
  past _ := by rw [hflow]; exact id
  taken := by rw [hsources]; exact id

theorem Others.refl (i : ℕ) (s : World) : Others owned i s s := .same rfl rfl id id

theorem Others.trans {u : World} (h : Others owned i s t) (h' : Others owned i t u) : Others owned i s u where
  inv hs := h'.inv (h.inv hs)
  hands := h'.hands.trans h.hands
  locked hs := by
    obtain ⟨ht, hflow⟩ := h.locked hs
    obtain ⟨hu, hflow'⟩ := h'.locked ht
    exact ⟨hu, hflow'.trans hflow⟩
  stop hs ha := by
    have ht := h.stop hs ha
    have hu := h'.stop (ht.stop.trans hs) (ht.active ▸ ha)
    exact ⟨hu.stop.trans ht.stop, hu.inflight.trans ht.inflight, hu.active.trans ht.active, hu.commit.trans ht.commit,
      hu.projection.trans ht.projection, fun ho hr => hu.recording ho (ht.recording ho hr)⟩
  failure hs := by
    have ht := h.failure hs
    have hu := h'.failure (ht.inflight.trans hs)
    exact ⟨hu.inflight.trans ht.inflight, hu.active.trans ht.active, hu.commit.trans ht.commit⟩
  closing hs := by
    obtain ⟨ht, hclosing⟩ := h.closing hs
    obtain ⟨hu, hclosing'⟩ := h'.closing ht
    refine ⟨hu, fun hc => ?_⟩
    obtain ⟨htc, htn⟩ := hclosing hc
    obtain ⟨huc, hun⟩ := hclosing' htc
    exact ⟨huc, fun hn => hun (htn hn)⟩
  past session hs := h'.past session (h.past session hs)
  taken hs := h'.taken (h.taken hs)

theorem others_rely (owned : Prop) (i : ℕ) : Rely (Others owned i) := ⟨Others.refl i, fun _ _ _ h h' => h.trans h'⟩

theorem Moves.refl (i : ℕ) (s : World) : Moves owned installs i s s :=
  ⟨fun j _ => .refl j s, fun _ h => h, .inl⟩

/-! ### Sections of the sources -/

/-- What a section of the sources may do to the recording: there may be one where no safe swap is
pending and nobody stops. -/
def RecordingKept (owned : Prop) (w : World) (sources : Sources) : Prop :=
  sources.recording = none ∨ sources.recording = w.sources.recording ∨
    (owned → w.flow.pendingSafeSwap = none ∧ w.flow.stopInflight = none)

structure SourcesStep (owned : Prop) (installs : Bool) (i : ℕ) (w : World) (sources : Sources) : Prop where
  inv : sources.Inv
  hands : ∀ j, j ≠ i → sources.hands j = w.sources.hands j
  recording : RecordingKept owned w sources
  engine : installs = false → w.sources.engine = none → sources.engine = none
  taken : sources.taken = true → w.sources.taken = true ∨ sources.engine = none
  kept : w.sources.taken = true → sources.taken = true

variable {sources : Sources} {w : World}

theorem SourcesStep.inv_world (h : SourcesStep owned installs i s sources) (hs : Inv owned s) :
    Inv owned { s with sources } := by
  refine ⟨h.inv, fun hp => ?_, hs.projection, hs.commit, hs.owners, hs.numbered⟩
  obtain ⟨hactive, hprojection, hinflight, hrecording⟩ := hs.pending hp
  refine ⟨hactive, hprojection, hinflight, fun ho => ?_⟩
  rcases h.recording with hnone | hsame | hfree
  · exact hnone
  · exact hsame.trans (hrecording ho)
  · rw [(hfree ho).1] at hp
    cases hp

theorem SourcesStep.moves (h : SourcesStep owned installs i s sources) :
    Moves owned installs i s { s with sources } where
  others j hj :=
    { inv := h.inv_world
      hands := h.hands j hj
      locked := fun hl => ⟨hl, rfl⟩
      stop := fun hstop _ => ⟨rfl, rfl, rfl, rfl, rfl, fun ho hnone => by
        rcases h.recording with hnone' | hsame | hfree
        · exact hnone'
        · exact hsame.trans hnone
        · rw [(hfree ho).2] at hstop
          cases hstop⟩
      failure := fun _ => ⟨rfl, rfl, rfl⟩
      closing := fun hc => ⟨hc, fun hclosing => ⟨hclosing, id⟩⟩
      past := fun _ => id
      taken := h.kept }
  engine := h.engine
  taken := h.taken

/-- The call holds these engines, and the context holds. -/
structure Hands (owned : Prop) (i : ℕ) (engines : List ℕ) (X : World → Prop) (w : World) : Prop where
  inv : Inv owned w
  hands : w.sources.hands i = engines.map fun e => (i, e)
  context : X w

/-- What holds of the flow and the locks, and that the engine is taken. -/
structure Context (owned : Prop) (i : ℕ) (X : World → Prop) : Prop where
  stable : Stable (Others owned i) X
  frame : ∀ w sources, (w.sources.taken = true → sources.taken = true) → X w → X { w with sources }

theorem stable_hands {X : World → Prop} (hX : Stable (Others owned i) X) (engines : List ℕ) :
    Stable (Others owned i) (Hands owned i engines X) :=
  fun s t hs h => ⟨h.inv hs.inv, h.hands.trans hs.hands, hX s t hs.context h⟩

theorem Hands.imp {X Y : World → Prop} {engines : List ℕ} (hw : Hands owned i engines X w) (h : X w → Y w) :
    Hands owned i engines Y w := ⟨hw.inv, hw.hands, h hw.context⟩

/-- What a program of a call does that has no engine in its hands, before and after. -/
abbrev Does (owned : Prop) (installs : Bool) (i : ℕ) (X : World → Prop) (p : Program α) (Y : α → World → Prop)
    (Z : World → Prop) : Prop :=
  Triple (Others owned i) (Moves owned installs i) (Hands owned i [] X) p (fun a => Hands owned i [] (Y a))
    fun _ => Hands owned i [] Z

abbrev Leaves (owned : Prop) (installs : Bool) (i : ℕ) (X : World → Prop) (p : Program α) : Prop :=
  Keeps (Others owned i) (Moves owned installs i) (Hands owned i [] X) p

variable {f : Sources → List (Except Error α × Sources)}

theorem triple_onSources {X : World → Prop} (after : α → List ℕ) (hX : Context owned i X) {engines failed : List ℕ}
    (h : ∀ w, Hands owned i engines X w → ∀ r ∈ f w.sources, SourcesStep owned installs i w r.2 ∧ match r.1 with
      | .ok a => r.2.hands i = (after a).map fun e => (i, e)
      | .error _ => r.2.hands i = failed.map fun e => (i, e)) :
    Triple (Others owned i) (Moves owned installs i) (Hands owned i engines X) (onSources f)
      (fun a => Hands owned i (after a) X) fun _ => Hands owned i failed X := by
  refine triple_critical (stable_hands hX.stable _) (fun _ => stable_hands hX.stable _)
    (fun _ => stable_hands hX.stable _) fun w hw r hr => ?_
  obtain ⟨⟨o, sources⟩, hmem, rfl⟩ := List.mem_map.1 hr
  obtain ⟨hstep, hhands⟩ := h w hw _ hmem
  refine ⟨hstep.moves, ?_⟩
  cases o with
  | ok a => exact ⟨hstep.inv_world hw.inv, hhands, hX.frame w sources hstep.kept hw.context⟩
  | error e => exact ⟨hstep.inv_world hw.inv, hhands, hX.frame w sources hstep.kept hw.context⟩

/-! ### What the sections of the sources do -/

namespace Sources

variable {s : Sources} {e : ℕ}

theorem hands_cons (s : Sources) (i e j : ℕ) (closed : List ℕ) (engine : Option ℕ) (handles : ℤ) (created : ℕ) (taken : Bool) :
    hands { s with engine, openHandles := handles, created, closed, taken, held := (i, e) :: s.held } j =
      if i = j then (i, e) :: s.hands j else s.hands j := by
  simp only [hands, List.filter_cons, decide_eq_true_eq]

theorem mem_held (h : s.hands i = [e].map fun e => (i, e)) : (i, e) ∈ s.held := by
  have hmem : (i, e) ∈ s.hands i := by rw [h]; exact List.mem_singleton_self _
  exact (List.mem_filter.1 hmem).1

variable {held : List (ℕ × ℕ)}

theorem filter_erase_other {j : ℕ} (hj : j ≠ i) (e : ℕ) :
    (held.erase (i, e)).filter (·.1 = j) = held.filter (·.1 = j) := by
  rw [← List.erase_filter, List.erase_of_not_mem]
  intro hmem
  have hij := (List.mem_filter.1 hmem).2
  simp only [decide_eq_true_eq] at hij
  exact hj hij.symm

theorem filter_erase_self (h : held.filter (·.1 = i) = [e].map fun e => (i, e)) :
    (held.erase (i, e)).filter (·.1 = i) = [] := by
  rw [← List.erase_filter, h]
  simp

/-- What is taken out of the hands of a call. -/
theorem count_erase (h : (i, e) ∈ held) (x : ℕ) :
    (held.map (·.2)).count x = ((held.erase (i, e)).map (·.2)).count x + [e].count x := by
  have hperm := ((List.perm_cons_erase h).map (·.2)).count_eq x
  rw [hperm, List.map_cons, List.count_cons, List.count_singleton]

theorem Inv.close (h : s.Inv) (he : (i, e) ∈ s.held) : (s.close i e).Inv := by
  refine ⟨h.handles, fun x => ?_⟩
  have hx := h.engines x
  rw [count_erase he] at hx
  simp only [Sources.close, List.count_append]
  omega

end Sources

variable {engines : List ℕ} {e : ℕ} {X : World → Prop}

theorem close_step (hw : Hands owned i [e] X w) :
    SourcesStep owned installs i w (w.sources.close i e) ∧ (w.sources.close i e).hands i = [] :=
  ⟨⟨hw.inv.sources.close (Sources.mem_held hw.hands), fun _ hj => Sources.filter_erase_other hj e, .inr (.inl rfl),
    fun _ hn => hn, .inl, id⟩, Sources.filter_erase_self hw.hands⟩

theorem triple_closeEngine (hX : Context owned i X) :
    Triple (Others owned i) (Moves owned installs i) (Hands owned i [e] X) (closeEngine i e)
      (fun _ => Hands owned i [] X) fun _ => Hands owned i [] X := by
  refine triple_onSources (fun _ => []) hX fun w hw r hr => ?_
  rw [List.mem_singleton.1 hr]
  exact close_step hw

theorem keeps_act (hX : Stable (Others owned i) X) (error : Error) :
    Keeps (Others owned i) (Moves owned installs i) X (act error) := by
  refine keeps_critical hX fun w hw r hr => ?_
  rcases List.mem_pair.1 hr with rfl | rfl
  · exact ⟨.refl i w, hw⟩
  · exact ⟨.refl i w, hw⟩

/-- An engine is taken away. -/
theorem away_step (hw : Hands owned i [] X w) {engine : ℕ} (hengine : w.sources.engine = some engine) {taken : Bool}
    (h : sources = { w.sources with
      engine := none, openHandles := w.sources.openHandles - 1, held := (i, engine) :: w.sources.held, taken })
    (hkept : w.sources.taken = true → taken = true) :
    SourcesStep owned installs i w sources ∧ sources.hands i = [(i, engine)] := by
  subst h
  have hhandles := hw.inv.sources.handles
  refine ⟨⟨⟨?_, fun x => ?_⟩, fun j hj => ?_, .inr (.inl rfl), fun _ _ => rfl, fun _ => .inr rfl, hkept⟩, ?_⟩
  · simp only [hengine, one, Option.isSome_some, if_true] at hhandles ⊢
    simp only [Option.isSome_none, Bool.false_eq_true, if_false]
    omega
  · have hx := hw.inv.sources.engines x
    rw [hengine] at hx
    simp only [Option.toList_some, Option.toList_none, List.map_cons, List.count_cons, List.count_nil] at hx ⊢
    omega
  · rw [Sources.hands_cons, if_neg hj.symm]
  · rw [Sources.hands_cons, if_pos rfl, hw.hands]
    rfl

/-- The engines of a call after the first section of `start_preview`. -/
def Found.taken : Found → List ℕ
  | .stale engine => [engine]
  | _ => []

theorem triple_find (hX : Context owned i X) :
    Triple (Others owned i) (Moves owned true i) (Hands owned i [] X) (onSources (Sources.find i))
      (fun found => Hands owned i found.taken X) fun _ => Hands owned i [] X := by
  refine triple_onSources Found.taken hX fun w hw r hr => ?_
  have hsame : SourcesStep owned true i w w.sources := ⟨hw.inv.sources, fun _ _ => rfl, .inr (.inl rfl), nofun, .inl, id⟩
  unfold Sources.find at hr
  split at hr
  · rw [List.mem_singleton.1 hr]
    exact ⟨hsame, hw.hands⟩
  · next engine hengine =>
    rcases List.mem_cons.1 hr with rfl | hr
    · exact ⟨hsame, hw.hands⟩
    · split at hr
      · cases hr
      · next hrecording =>
        rw [List.mem_singleton.1 hr]
        exact away_step hw hengine rfl id

theorem triple_create (hX : Context owned i X) :
    Triple (Others owned i) (Moves owned true i) (Hands owned i [] X) (onSources (Sources.create i))
      (fun engine => Hands owned i [engine] X) fun _ => Hands owned i [] X := by
  refine triple_onSources (fun engine => [engine]) hX fun w hw r hr => ?_
  rcases List.mem_pair.1 hr with rfl | rfl
  · have hinv := hw.inv.sources
    refine ⟨⟨⟨hinv.handles, fun x => ?_⟩, fun j hj => ?_, .inr (.inl rfl), nofun, .inl, id⟩, ?_⟩
    · have hx := hinv.engines x
      simp only [List.map_cons, List.count_cons, List.range_succ, List.count_append, List.count_nil]
      omega
    · rw [Sources.hands_cons, if_neg hj.symm]
    · rw [Sources.hands_cons, if_pos rfl, hw.hands]
      rfl
  · exact ⟨⟨hw.inv.sources, fun _ _ => rfl, .inr (.inl rfl), nofun, .inl, id⟩, hw.hands⟩

theorem triple_install (hX : Context owned i X) :
    Triple (Others owned i) (Moves owned true i) (Hands owned i [e] X) (onSources (Sources.install i e))
      (fun _ => Hands owned i [] X) fun _ => Hands owned i [] X := by
  refine triple_onSources (fun _ => []) hX fun w hw r hr => ?_
  unfold Sources.install at hr
  split at hr
  · rw [List.mem_singleton.1 hr]
    exact close_step hw
  · next hnone =>
    rw [List.mem_singleton.1 hr]
    have hinv := hw.inv.sources
    have hhandles := hinv.handles
    refine ⟨⟨⟨?_, fun x => ?_⟩, fun j hj => Sources.filter_erase_other hj e, .inr (.inl rfl), nofun, .inl, id⟩,
      Sources.filter_erase_self hw.hands⟩
    · simp only [hnone, one, Option.isSome_none, Bool.false_eq_true, if_false] at hhandles
      simp only [one, Option.isSome_some, if_true]
      omega
    · have hx := hinv.engines x
      rw [Sources.count_erase (Sources.mem_held hw.hands), hnone] at hx
      simp only [Option.toList_some, Option.toList_none, List.count_nil] at hx ⊢
      omega

/-! ### The calls of the sources -/

theorem keeps_openPreview (hX : Context owned i X) :
    Leaves owned true i X (openPreview i) := by
  have hR := others_rely owned i
  refine Keeps.bind hR (keeps_act (stable_hands hX.stable []) _) fun _ => ?_
  refine triple_bind hR (triple_create hX) fun engine => triple_bind (M := fun _ => Hands owned i [engine] X) hR ?_ fun _ =>
    triple_install hX
  refine triple_attempt hR (keeps_act (stable_hands hX.stable [engine]) _) fun e => ?_
  exact triple_bind hR (triple_closeEngine hX) fun _ => triple_raise (stable_hands hX.stable []) fun _ h => h

theorem keeps_startPreview (hX : Context owned i X) :
    Leaves owned true i X (startPreview i) := by
  have hR := others_rely owned i
  refine triple_bind hR (triple_find hX) fun found => ?_
  cases found with
  | running => exact keeps_pure (stable_hands hX.stable []) _
  | missing => exact keeps_openPreview hX
  | stale engine => exact triple_bind hR (triple_closeEngine hX) fun _ => keeps_openPreview hX

theorem keeps_control (hX : Context owned i X) :
    Leaves owned true i X (control i) := by
  have hR := others_rely owned i
  have hP := stable_hands hX.stable []
  refine (keeps_startPreview hX).bind hR fun _ => Keeps.bind hR (keeps_critical hP fun w hw r hr => ?_) fun engine => ?_
  · rw [List.mem_singleton.1 hr]
    exact ⟨.refl i w, hw⟩
  · split
    · exact keeps_act hP _
    · exact keeps_raise hP _

theorem recording_step (hw : Inv owned w) {recording : Option ℕ}
    (hkept : RecordingKept owned w { w.sources with recording }) :
    SourcesStep owned installs i w { w.sources with recording, openHandles := one w.sources.engine + one recording } :=
  ⟨⟨rfl, hw.sources.engines⟩, fun _ _ => rfl, hkept, fun _ h => h, .inl, id⟩

/-- A section that only touches the recording. -/
theorem keeps_recording (hX : Context owned i X)
    (h : ∀ w, Hands owned i [] X w → ∀ r ∈ f w.sources, r.2 = w.sources ∨ ∃ recording, RecordingKept owned w { w.sources with recording } ∧
      r.2 = { w.sources with recording, openHandles := one w.sources.engine + one recording }) :
    Leaves owned installs i X (onSources f) := by
  refine triple_onSources (fun _ => []) hX fun w hw r hr => ?_
  have hstep : SourcesStep owned installs i w r.2 ∧ r.2.hands i = [] := by
    rcases h w hw r hr with hsame | ⟨recording, hkept, hsame⟩
    · rw [hsame]
      exact ⟨⟨hw.inv.sources, fun _ _ => rfl, .inr (.inl rfl), fun _ h => h, .inl, id⟩, hw.hands⟩
    · rw [hsame]
      exact ⟨recording_step hw.inv hkept, hw.hands⟩
  refine ⟨hstep.1, ?_⟩
  cases r.1 <;> exact hstep.2

theorem Sources.Inv.drop_cases {s : Sources} (h : s.Inv) (tap : ℕ) :
    s.drop tap = s ∨ s.drop tap = { s with recording := none, openHandles := one s.engine + one none } := by
  unfold Sources.drop
  split
  · next hrecording =>
    refine .inr ?_
    rw [h.handles, hrecording]
    simp [one]
  · exact .inl rfl

theorem Sources.Inv.stop_cases {s : Sources} (h : s.Inv) :
    s.stop.2 = { s with recording := none, openHandles := one s.engine + one none } := by
  have hhandles := h.handles
  unfold Sources.stop
  cases hrecording : s.recording with
  | none =>
    rw [hrecording] at hhandles
    simp only [Option.isSome_none, Bool.false_eq_true, if_false]
    rw [← hhandles, ← hrecording]
  | some tap =>
    rw [hrecording] at hhandles
    simp only [Option.isSome_some, if_true, hhandles]
    simp [one]

theorem keeps_drop (hX : Context owned i X) (tap : ℕ) :
    Leaves owned installs i X (onSources fun s => [(.ok (), s.drop tap)]) := by
  refine keeps_recording hX fun w hw r hr => ?_
  rw [List.mem_singleton.1 hr]
  exact (hw.inv.sources.drop_cases tap).imp_right fun h => ⟨none, .inl rfl, h⟩

theorem keeps_stop (hX : Context owned i X) :
    Leaves owned installs i X stop := by
  have hR := others_rely owned i
  refine Keeps.bind hR (keeps_recording hX fun w hw r hr => ?_) fun engine => ?_
  · rw [List.mem_singleton.1 hr]
    exact .inr ⟨none, .inl rfl, hw.inv.sources.stop_cases⟩
  · split
    · exact keeps_act (stable_hands hX.stable []) _
    · exact keeps_pure (stable_hands hX.stable []) _

/-- A recording is only started where no safe swap is pending and nobody stops. -/
theorem keeps_start (hX : Context owned i X)
    (hfree : ∀ w, X w → owned → w.flow.pendingSafeSwap = none ∧ w.flow.stopInflight = none) :
    Leaves owned true i X (start i) := by
  have hR := others_rely owned i
  have hP := stable_hands (i := i) hX.stable []
  refine (keeps_act hP _).bind hR fun _ => (keeps_startPreview hX).bind hR fun _ => Keeps.bind hR ?_ fun _ => ?_
  · refine keeps_recording hX fun w hw r hr => ?_
    unfold Sources.beginRecording at hr
    split at hr
    · exact .inl (congrArg Prod.snd (List.mem_singleton.1 hr))
    · next hguard =>
      rw [List.mem_singleton.1 hr]
      refine .inr ⟨some i, .inr (.inr (hfree w hw.context)), ?_⟩
      have hnone : w.sources.recording = none := (by simpa using hguard : w.sources.recording = none ∧ _).1
      rw [hw.inv.sources.handles, hnone]
      simp [one]
  · exact Keeps.attempt hR (keeps_act hP _) fun e => (keeps_drop hX i).bind hR fun _ => keeps_raise hP _

theorem take_step (hw : Hands owned i [] X w) : SourcesStep owned installs i w (w.sources.take i).2 ∧
      (w.sources.take i).2.hands i = (w.sources.take i).1.toList.map (fun e => (i, e)) ∧ (w.sources.take i).2.taken = true := by
  unfold Sources.take
  split
  · next hnone =>
    exact ⟨⟨⟨hw.inv.sources.handles, hw.inv.sources.engines⟩, fun _ _ => rfl, .inr (.inl rfl), fun _ h => h, fun _ => .inr hnone,
      fun _ => rfl⟩, hw.hands, rfl⟩
  · next engine hengine =>
    have haway : SourcesStep owned installs i w _ ∧ _ := away_step hw hengine rfl fun _ => rfl
    exact ⟨haway.1, haway.2, rfl⟩

/-- Once `close` has returned its engine is taken. -/
theorem context_taken (hX : Context owned i X) : Context owned i fun w => X w ∧ w.sources.taken = true where
  stable s t hs h := ⟨hX.stable s t hs.1 h, h.taken hs.2⟩
  frame w sources hkept h := ⟨hX.frame w sources hkept h.1, hkept h.2⟩

theorem triple_close (hX : Context owned i X) :
    Does owned installs i X (close i) (fun _ w => X w ∧ w.sources.taken = true) X := by
  have hR := others_rely owned i
  have hP := stable_hands hX.stable (i := i) []
  have hY := context_taken hX
  refine triple_bind hR (Keeps.attempt hR (keeps_stop hX) fun _ => keeps_pure hP _) fun _ => ?_
  refine triple_bind (M := fun engine : Option ℕ => Hands owned i engine.toList fun w => X w ∧ w.sources.taken = true) hR ?_ fun engine => ?_
  · refine triple_critical hP (fun engine => stable_hands hY.stable engine.toList) (fun _ => hP) fun w hw r hr => ?_
    obtain ⟨result, hmem, rfl⟩ := List.mem_map.1 hr
    rw [List.mem_singleton.1 hmem]
    obtain ⟨hstep, hhands, htaken⟩ := take_step hw
    exact ⟨hstep.moves, hstep.inv_world hw.inv, hhands, hX.frame w _ hstep.kept hw.context, htaken⟩
  · cases engine with
    | none => exact triple_ret (stable_hands hY.stable []) fun _ h => h
    | some engine => exact (triple_closeEngine hY).mono (fun _ h => h) (fun _ _ h => h) fun _ _ hw => hw.imp And.left

end Conductor.Handles
