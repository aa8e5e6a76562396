import Conductor.Control.NetworkControl
import Mathlib.Data.List.ReduceOption

/-! What the controller keeps in every run in which no exception gets past the worker's handlers: scheduling,
the stages of a transaction, and what a commit says. -/

namespace Conductor.NetworkControl

open Runs

/-! ### Stages -/

def State.movesOf (s : State) (id : String) : List NetworkState.Stage := (s.moves.filter (·.1 = id)).map (·.2)

def Statement.stage : Statement → Option NetworkState.Stage
  | .transition stage _ => some stage
  | _ => none

def Statement.operation? : Statement → Option Operation
  | .operation op => some op
  | _ => none

/-- The paths of a transaction that does not fail. -/
def normalPaths : List (List NetworkState.Stage) :=
  [[.prepared, .activating, .verifying, .committed], [.prepared, .apReady, .committed],
    [.prepared, .apReady, .fallingBack, .rescued], [.forgetting, .forgotten]]

/-- No stage is a last one. -/
def Running (l : List NetworkState.Stage) : Prop := ∀ stage ∈ l, stage.status.terminal = false

/-- The stages of a transaction behind `accepted`: a normal path up to some stage, or a part of one without its last
stage that is left for `falling_back` and then `rescued` or `failed`. Recording `falling_back` again is no move. -/
def Path (l : List NetworkState.Stage) : Prop :=
  ∃ n ∈ normalPaths, ∃ p k e, p <+: n ∧ l = p ++ List.replicate k .fallingBack ++ e ∧ (0 < k → Running p) ∧
    (e = [] ∨ 0 < k ∧ (e = [.rescued] ∨ e = [.failed]))

/-- A part of a normal path without its last stage, and the fallback up to now. -/
def Left (l : List NetworkState.Stage) (k : ℕ) : Prop :=
  ∃ n ∈ normalPaths, ∃ p, p <+: n ∧ Running p ∧ l = p ++ List.replicate k .fallingBack

variable {l : List NetworkState.Stage} {stage : NetworkState.Stage} {outcome : Outcome}

theorem Left.path {k : ℕ} (h : Left l k) : Path l := by
  obtain ⟨n, hn, p, hp, hrunning, rfl⟩ := h
  exact ⟨n, hn, p, k, [], hp, (List.append_nil _).symm, fun _ => hrunning, .inl rfl⟩

theorem Left.back {k : ℕ} (h : Left l k) : Left (l ++ [.fallingBack]) (k + 1) := by
  obtain ⟨n, hn, p, hp, hrunning, rfl⟩ := h
  exact ⟨n, hn, p, hp, hrunning, by rw [List.append_assoc, List.replicate_succ']⟩

theorem Left.ends {k : ℕ} (h : Left l k) (hk : 0 < k) (recovered : Bool) :
    Path (l ++ [if recovered then .rescued else .failed]) := by
  obtain ⟨n, hn, p, hp, hrunning, rfl⟩ := h
  refine ⟨n, hn, p, k, _, hp, rfl, fun _ => hrunning, .inr ⟨hk, ?_⟩⟩
  cases recovered with
  | true => exact .inl rfl
  | false => exact .inr rfl

theorem left_nil : Left [] 0 := ⟨_, List.mem_cons_self, [], List.nil_prefix, fun _ h => (nomatch h), rfl⟩

theorem body_normal (w : Work) : ∃ n ∈ normalPaths, w.body.filterMap Statement.stage <+: n := by
  obtain ⟨kind, valid⟩ := w
  cases kind with
  | candidate mapping =>
    refine ⟨_, List.mem_cons_self, ?_⟩
    cases mapping <;> cases valid <;> decide
  | fallback =>
    refine ⟨[.prepared, .apReady, .fallingBack, .rescued], by decide, ?_⟩
    cases valid <;> decide
  | rescue =>
    refine ⟨[.prepared, .apReady, .committed], by decide, ?_⟩
    cases valid <;> decide
  | forget =>
    refine ⟨[.forgetting, .forgotten], by decide, ?_⟩
    cases valid <;> decide
  | other =>
    refine ⟨_, List.mem_cons_self, ?_⟩
    cases valid <;> decide

/-- A body raises, or records a last stage. -/
theorem body_ends (w : Work) (h : ∀ e, .raising e ∉ w.body) :
    ∃ x ∈ w.body, ∃ stage ∈ x.stage, NetworkState.Status.terminal (NetworkState.Stage.status stage) = true := by
  have hends : Statement.raising .networkError ∈ w.body ∨ Statement.raising .networkStateError ∈ w.body ∨
      ∃ x ∈ w.body, (x.stage.any fun stage => stage.status.terminal) = true := by
    obtain ⟨kind, valid⟩ := w
    cases kind with
    | candidate mapping => cases mapping <;> cases valid <;> decide
    | _ => cases valid <;> decide
  rcases hends with hraises | hraises | ⟨x, hx, hterminal⟩
  · exact absurd hraises (h _)
  · exact absurd hraises (h _)
  · cases hstage : x.stage with
    | none =>
      rw [hstage] at hterminal
      cases hterminal
    | some stage =>
      rw [hstage] at hterminal
      exact ⟨x, hx, stage, hstage, hterminal⟩

/-- Nothing follows the last stage of a body. -/
theorem body_last (w : Work) {gone rest : List Statement} {desired : Bool}
    (h : w.body = gone ++ .transition stage desired :: rest) (hstage : stage.status.terminal = true) : rest = [] := by
  have hlast : ∀ x ∈ w.body.dropLast, ∀ stage ∈ x.stage, NetworkState.Status.terminal (NetworkState.Stage.status stage) = false := by
    obtain ⟨kind, valid⟩ := w
    cases kind with
    | candidate mapping => cases mapping <;> cases valid <;> decide
    | _ => cases valid <;> decide
  by_contra hne
  have hmem : Statement.transition stage desired ∈ w.body.dropLast := by
    rw [h, List.dropLast_append_of_ne_nil (List.cons_ne_nil _ _), List.dropLast_cons_of_ne_nil hne]
    exact List.mem_append_right _ List.mem_cons_self
  rw [hlast _ hmem stage rfl] at hstage
  cases hstage

/-! ### The invariant -/

/-- The transaction that the worker has. -/
def Worker.busy : Worker → Option String
  | .idle => none
  | .entering id => some id
  | .executing id _ => some id
  | .fallingBack id _ => some id
  | .rescuing id _ => some id
  | .ending id _ _ => some id
  | .leaving id _ => some id
  | .returned => none
  | .died => none

def State.NotCurrent (s : State) (id : String) : Prop := ∀ c ∈ s.current, c.id ≠ id

/-- The statements `gone` of its body are behind a transaction with these stages and operations. -/
structure Behind (work : Option Work) (stages : List NetworkState.Stage) (succeeded : Operation → Prop) (closed : Prop) (w : Work)
    (gone body : List Statement) : Prop where
  work : work = some w
  body : w.body = gone ++ body
  passed : ∀ e, .raising e ∉ gone
  moves : stages = gone.filterMap Statement.stage
  succeeded : ∀ op ∈ gone.filterMap Statement.operation?, succeeded op
  ended : (∃ x ∈ gone, ∃ stage ∈ x.stage, stage.status.terminal = true) → closed

abbrev Executing (s : State) (id : String) : Work → List Statement → List Statement → Prop :=
  Behind (s.work.lookup id) (s.movesOf id) (fun op => (id, op) ∈ s.succeeded) (s.NotCurrent id)

/-- What the worker knows of its transaction. -/
def Position (s : State) : Prop :=
  match s.worker with
  | .entering id => s.movesOf id = []
  | .executing id body => ∃ w gone, Executing s id w gone body
  | .fallingBack id _ => s.NotCurrent id ∨ ∃ k, Left (s.movesOf id) k
  | .rescuing id _ => s.NotCurrent id ∨ ∃ k, Left (s.movesOf id) (k + 1)
  | .ending id _ _ => s.NotCurrent id ∨ ∃ k, Left (s.movesOf id) (k + 1)
  | .leaving id raised => raised = false ∧ s.NotCurrent id
  | .returned => s.closed = true
  | .died => False
  | .idle => True

/-- What a recorded commit says. -/
def State.Meant (s : State) : Prop :=
  ∀ id stage, (id, stage) ∈ s.moves → stage = .committed ∨ stage = .forgotten →
    ∃ w, s.work.lookup id = some w ∧ ∀ op ∈ w.body.filterMap Statement.operation?, (id, op) ∈ s.succeeded

structure Inv (s : State) : Prop where
  current : ∀ c ∈ s.current, c.id ∈ s.ids
  putIds : ∀ id ∈ s.put, id ∈ s.ids
  put : s.put.Nodup
  putReleased : ∀ id ∈ s.put, id ∈ s.released
  deferred : ∀ id ∈ s.deferred, id ∈ s.ids ∧ id ∉ s.put
  deferredNodup : s.deferred.Nodup
  accepted : ∀ a ∈ s.accepted, a.1 ∈ s.ids ∧ a.1 ∉ s.put ∧ a.1 ∉ s.deferred ∧ (a.2 = false → a.1 ∈ s.released)
  queued : s.queued = s.worker.busy.toList ++ s.queue.reduceOption
  queuedPut : s.queued.Sublist s.put
  pending : s.pending = s.queued.length
  stopped : none ∈ s.queue → s.closed = true
  unmoved : ∀ id, id ∉ s.put → s.movesOf id = []
  waiting : ∀ id, some id ∈ s.queue → s.movesOf id = []
  paths : ∀ id, Path (s.movesOf id)
  position : Position s
  ended : ∀ id ∈ s.put, id ∉ s.queued → s.NotCurrent id
  meant : s.Meant

theorem path_nil : Path [] := left_nil.path

theorem Inv.queuedNodup {s : State} (h : Inv s) : s.queued.Nodup := h.put.sublist h.queuedPut

theorem Inv.busy {s : State} (h : Inv s) {id : String} (hid : s.worker.busy = some id) : id ∈ s.queued ∧ some id ∉ s.queue := by
  have hnodup := h.queuedNodup
  rw [h.queued, hid] at hnodup ⊢
  rw [Option.toList_some, List.singleton_append] at hnodup ⊢
  exact ⟨List.mem_cons_self, fun hmem => (List.nodup_cons.1 hnodup).1 (List.reduceOption_mem_iff.2 hmem)⟩

theorem Inv.mem_queued {s : State} (h : Inv s) (id : String) : id ∈ s.queued ↔ some id ∈ s.queue ∨ s.worker.busy = some id := by
  rw [h.queued, List.mem_append, List.reduceOption_mem_iff, Option.mem_toList, or_comm]

/-- The worker goes on with its transaction, and only what belongs to it changes. -/
theorem Inv.worker {s : State} (h : Inv s) {w : Worker} (hbusy : w.busy = s.worker.busy) (hposition : Position { s with worker := w }) :
    Inv { s with worker := w } :=
  { h with queued := by rw [hbusy]; exact h.queued, position := hposition }

/-! ### Entering the queue -/

/-- A transaction is put into the queue. -/
theorem Inv.enqueue {s : State} (h : Inv s) {id : String} (hid : id ∈ s.ids) (hput : id ∉ s.put) (hdeferred : id ∉ s.deferred)
    (haccepted : ∀ a ∈ s.accepted, a.1 ≠ id) (hreleased : id ∈ s.released) : Inv (s.enqueue id) := by
  unfold State.enqueue
  split
  · exact h
  split
  · exact h
  rename_i hclosed hqueued
  refine
    { h with
      putIds := fun id' hid' => ?_
      put := ?_
      putReleased := fun id' hid' => ?_
      deferred := fun id' hid' => ⟨(h.deferred id' hid').1, fun hmem => ?_⟩
      accepted := fun a ha => ?_
      queued := ?_
      queuedPut := h.queuedPut.append (List.Sublist.refl _)
      pending := ?_
      stopped := fun hnone => h.stopped ?_
      unmoved := fun id' hid' => h.unmoved id' fun hmem => hid' (List.mem_append_left _ hmem)
      waiting := fun id' hid' => ?_
      ended := fun id' hid' hnot => ?_ }
  · rcases mem_concat.1 hid' with hmem | hmem
    · exact h.putIds id' hmem
    · exact hmem ▸ hid
  · exact List.nodup_append.2 ⟨h.put, List.nodup_singleton _, fun a ha b hb heq => hput (by rw [← List.mem_singleton.1 hb, ← heq]; exact ha)⟩
  · rcases mem_concat.1 hid' with hmem | hmem
    · exact h.putReleased id' hmem
    · exact hmem ▸ hreleased
  · rcases mem_concat.1 hmem with hmem | hmem
    · exact (h.deferred id' hid').2 hmem
    · exact hdeferred (hmem ▸ hid')
  · obtain ⟨hids, hput', hrest⟩ := h.accepted a ha
    refine ⟨hids, fun hmem => ?_, hrest⟩
    rcases mem_concat.1 hmem with hmem | hmem
    · exact hput' hmem
    · exact haccepted a ha hmem
  · change s.queued ++ [id] = s.worker.busy.toList ++ (s.queue ++ [some id]).reduceOption
    rw [h.queued, List.reduceOption_append, List.append_assoc]
    rfl
  · change s.pending + 1 = ((s.queued ++ [id]).length : ℤ)
    rw [h.pending, List.length_append, List.length_singleton, Nat.cast_add, Nat.cast_one]
  · rcases mem_concat.1 hnone with hmem | hmem
    · exact hmem
    · cases hmem
  · rcases mem_concat.1 hid' with hmem | hmem
    · exact h.waiting id' hmem
    · cases hmem
      exact h.unmoved _ hput
  · rcases List.mem_append.1 hid' with hmem | hmem
    · exact h.ended id' hmem fun hq => hnot (List.mem_append_left _ hq)
    · exact absurd (List.mem_append_right _ hmem) hnot

theorem start_inv (current : Option Current) (work : List (String × Work)) : Inv (State.start current work) := by
  have hbase : ∀ deferred : List String, (∀ id ∈ deferred, id ∈ (current.map (·.id)).toList) → deferred.Nodup →
      Inv
        { current := current
          work := work
          worker := .idle
          queue := []
          queued := []
          pending := 0
          deferred := deferred
          accepted := none
          closed := false
          stopped := false
          ids := (current.map (·.id)).toList
          put := []
          released := ((current.filter (·.released)).map (·.id)).toList
          moves := []
          succeeded := [] } := fun deferred hdeferred hnodup =>
    { current := fun c hc => by
        change c.id ∈ (current.map (·.id)).toList
        rw [show current = some c from hc]
        exact List.mem_cons_self
      putIds := fun _ hid => (nomatch hid)
      put := List.nodup_nil
      putReleased := fun _ hid => (nomatch hid)
      deferred := fun id hid => ⟨hdeferred id hid, List.not_mem_nil⟩
      deferredNodup := hnodup
      accepted := fun _ ha => (nomatch ha)
      queued := rfl
      queuedPut := List.Sublist.refl _
      pending := rfl
      stopped := fun hnone => (nomatch hnone)
      unmoved := fun _ _ => rfl
      waiting := fun _ hid => (nomatch hid)
      paths := fun _ => path_nil
      position := trivial
      ended := fun _ hid => (nomatch hid)
      meant := fun _ _ hmem => (nomatch hmem) }
  unfold State.start
  cases current with
  | none => exact hbase [] (fun _ hid => (nomatch hid)) List.nodup_nil
  | some c =>
    dsimp only
    split
    · rename_i hreleased
      refine (hbase [] (fun _ hid => (nomatch hid)) List.nodup_nil).enqueue List.mem_cons_self List.not_mem_nil List.not_mem_nil
        (fun _ ha => (nomatch ha)) ?_
      rw [Option.filter_some, if_pos hreleased]
      exact List.mem_cons_self
    · exact hbase [c.id] (fun id hid => hid) (List.nodup_singleton _)

/-! ### The other threads -/

theorem Position.accepted {s : State} (h : Position s) {c : Current} (hids : ∀ id, s.worker.busy = some id → id ≠ c.id) (w : Work)
    (accepted : Option (String × Bool)) (ids released : List String) :
    Position
      { s with
        current := some c
        work := (c.id, w) :: s.work
        accepted := accepted
        ids := ids
        released := released } := by
  have hnot : ∀ id, s.worker.busy = some id → ∀ c' ∈ some c, c'.id ≠ id := fun id hid c' hc' => by
    rw [← Option.some.inj hc']
    exact (hids id hid).symm
  unfold Position at h ⊢
  cases hworker : s.worker with
  | idle => trivial
  | entering id => rw [hworker] at h; exact h
  | executing id body =>
    rw [hworker] at h hnot hids
    obtain ⟨w', gone, h⟩ := h
    refine ⟨w', gone, { h with work := ?_, ended := fun _ => hnot id rfl }⟩
    change ((c.id, w) :: s.work).lookup id = some w'
    rw [List.lookup_cons, beq_eq_false_iff_ne.2 (hids id rfl)]
    exact h.work
  | fallingBack id handler => rw [hworker] at hnot; exact .inl (hnot id rfl)
  | rescuing id handler => rw [hworker] at hnot; exact .inl (hnot id rfl)
  | ending id handler recovered => rw [hworker] at hnot; exact .inl (hnot id rfl)
  | leaving id raised =>
    rw [hworker] at h hnot
    exact ⟨h.1, hnot id rfl⟩
  | returned => rw [hworker] at h; exact h
  | died => rw [hworker] at h; exact h

theorem accept_inv {s s' : State} (h : Inv s) {id : String} {w : Work} {deferred : Bool} (hs : s.accept id w deferred = some s') :
    Inv s' := by
  unfold State.accept at hs
  split at hs
  · cases hs
  rename_i hguard
  simp only [Bool.or_eq_true, decide_eq_true_eq, not_or, Bool.not_eq_true, Option.isSome_eq_false_iff,
    Option.isNone_iff_eq_none] at hguard
  obtain ⟨⟨⟨⟨haccepted, hclosed⟩, hcurrent⟩, hlocks⟩, hid⟩ := hguard
  cases hs
  have hput : id ∉ s.put := fun hmem => hid (h.putIds id hmem)
  have hne : ∀ id' ∈ s.put, id ≠ id' := fun id' hid' heq => hput (heq ▸ hid')
  exact
    { h with
      current := fun c hc => by
        rw [← Option.some.inj hc]
        exact List.mem_append_right _ (List.mem_singleton_self _)
      putIds := fun id' hid' => List.mem_append_left _ (h.putIds id' hid')
      putReleased := fun id' hid' => by
        dsimp only
        split
        · exact h.putReleased id' hid'
        · exact List.mem_append_left _ (h.putReleased id' hid')
      deferred := fun id' hid' => ⟨List.mem_append_left _ (h.deferred id' hid').1, (h.deferred id' hid').2⟩
      accepted := fun a ha => by
        rw [← Option.some.inj ha]
        refine ⟨List.mem_append_right _ (List.mem_singleton_self _), hput, fun hmem => hid (h.deferred id hmem).1, fun hd => ?_⟩
        dsimp only at hd ⊢
        rw [hd]
        exact List.mem_append_right _ (List.mem_singleton_self _)
      position := h.position.accepted (c := ⟨id, .accepted, !deferred⟩)
        (fun id' hid' => (hne id' (h.queuedPut.subset (h.busy hid').1)).symm) w _ _ _
      ended := fun id' hid' _ c hc => by
        rw [← Option.some.inj hc]
        exact hne id' hid'
      meant := fun id' stage hmem hstage => by
        obtain ⟨w', hlookup, hops⟩ := h.meant id' stage hmem hstage
        refine ⟨w', ?_, hops⟩
        have hmoved : id' ∈ s.put := by
          by_contra hnot
          have hnil := h.unmoved id' hnot
          have : stage ∈ s.movesOf id' := List.mem_map.2 ⟨_, List.mem_filter.2 ⟨hmem, decide_eq_true rfl⟩, rfl⟩
          rw [hnil] at this
          cases this
        change ((id, w) :: s.work).lookup id' = some w'
        rw [List.lookup_cons, beq_eq_false_iff_ne.2 (hne id' hmoved).symm]
        exact hlookup }

theorem schedule_inv {s s' : State} (h : Inv s) (hs : s.schedule = some s') : Inv s' := by
  unfold State.schedule at hs
  split at hs
  · cases hs
  · rename_i id haccepted
    cases hs
    obtain ⟨hid, hput, hdeferred, -⟩ := h.accepted _ haccepted
    exact
      { h with
        deferred := fun id' hid' => by
          rcases mem_concat.1 hid' with hmem | rfl
          · exact h.deferred id' hmem
          · exact ⟨hid, hput⟩
        deferredNodup := List.nodup_append.2 ⟨h.deferredNodup, List.nodup_singleton _, fun a ha b hb heq =>
          hdeferred (by rw [← List.mem_singleton.1 hb, ← heq]; exact ha)⟩
        accepted := fun a ha => (nomatch ha) }
  · rename_i id haccepted
    cases hs
    obtain ⟨hid, hput, hdeferred, hreleased⟩ := h.accepted _ haccepted
    have h₁ : Inv { s with accepted := none } := { h with accepted := fun a ha => (nomatch ha) }
    exact h₁.enqueue hid hput hdeferred (fun _ ha => (nomatch ha)) (hreleased rfl)

theorem releaseResponse_inv {s : State} (h : Inv s) (id : String) (returns : Bool) : Inv (s.releaseResponse id returns) := by
  unfold State.releaseResponse
  split
  · exact h
  rename_i hmem
  have hmem : id ∈ s.deferred := not_not.1 hmem
  obtain ⟨hid, hput⟩ := h.deferred id hmem
  have hother : ∀ a ∈ s.accepted, a.1 ≠ id := fun a ha heq => (h.accepted a ha).2.2.1 (heq ▸ hmem)
  have herased : Inv { s with deferred := s.deferred.erase id } :=
    { h with
      deferred := fun id' hid' => h.deferred id' (List.mem_of_mem_erase hid')
      deferredNodup := h.deferredNodup.erase id
      accepted := fun a ha =>
        ⟨(h.accepted a ha).1, (h.accepted a ha).2.1, fun hmem => (h.accepted a ha).2.2.1 (List.mem_of_mem_erase hmem),
          (h.accepted a ha).2.2.2⟩ }
  split
  · exact herased
  rename_i c hcurrent
  split
  · exact h
  obtain ⟨hsome, -⟩ := Option.filter_eq_some_iff.1 hcurrent
  have hreleased : Inv
      { s with
        current := some { c with released := true }
        released := s.released ++ [id]
        deferred := s.deferred.erase id } := by
    have hnot : ∀ id', s.NotCurrent id' → c.id ≠ id' := fun id' hnot => hnot c hsome
    refine
      { herased with
        current := fun c' hc' => by
          rw [← Option.some.inj hc']
          exact h.current c hsome
        putReleased := fun id' hid' => List.mem_append_left _ (h.putReleased id' hid')
        accepted := fun a ha =>
          ⟨(herased.accepted a ha).1, (herased.accepted a ha).2.1, (herased.accepted a ha).2.2.1,
            fun hd => List.mem_append_left _ ((herased.accepted a ha).2.2.2 hd)⟩
        position := ?_
        ended := fun id' hid' hq c' hc' => by
          rw [← Option.some.inj hc']
          exact hnot id' (h.ended id' hid' hq) }
    have hkeep : ∀ id', s.NotCurrent id' → ∀ c' ∈ some ({ c with released := true } : Current), c'.id ≠ id' := fun id' hn c' hc' => by
      rw [← Option.some.inj hc']
      exact hnot id' hn
    have hposition := h.position
    unfold Position at hposition ⊢
    cases hworker : s.worker with
    | idle => trivial
    | entering id' => rw [hworker] at hposition; exact hposition
    | executing id' body =>
      rw [hworker] at hposition
      obtain ⟨w, gone, hposition⟩ := hposition
      exact ⟨w, gone, { hposition with ended := fun ht => hkeep id' (hposition.ended ht) }⟩
    | fallingBack id' handler => rw [hworker] at hposition; exact hposition.imp (hkeep id') fun h => h
    | rescuing id' handler => rw [hworker] at hposition; exact hposition.imp (hkeep id') fun h => h
    | ending id' handler recovered => rw [hworker] at hposition; exact hposition.imp (hkeep id') fun h => h
    | leaving id' raised => rw [hworker] at hposition; exact ⟨hposition.1, hkeep id' hposition.2⟩
    | returned => rw [hworker] at hposition; exact hposition
    | died => rw [hworker] at hposition; exact hposition
  exact hreleased.enqueue hid hput (fun hmem' => (h.deferredNodup.mem_erase_iff.1 hmem').1 rfl) hother
    (List.mem_append_right _ (List.mem_singleton_self _))

/-! ### The worker -/

/-- No exception gets past the handlers: a write of the worker raises no `sqlite3.Error`, and none of the fallback that the
handler of `_worker_loop` calls raises an `OSError`. -/
def Handled (s : State) : Act → Prop
  | .worker outcome =>
    outcome ≠ .raises .sqliteError ∧
      (outcome = .raises .osError → ∀ id recovered, s.worker ≠ .fallingBack id true ∧ s.worker ≠ .ending id true recovered)
  | _ => True

def State.recorded (s : State) (c : Current) (id : String) (stage : NetworkState.Stage) : State :=
  { s with
    current := if stage.status.terminal then none else some { c with stage := stage }
    moves := s.moves ++ [(id, stage)] }

/-- How a transition ends. -/
theorem transition_cases {s s' : State} {id : String} {desired : Bool}
    {r : Except Raised Unit} (h : s.transition id stage desired outcome = some (r, s')) :
    (∃ c, r = .ok () ∧ s.current = some c ∧ c.id = id ∧ s' = s.recorded c id stage) ∨
      s' = s ∧ r = .error .networkStateError ∧ (s.NotCurrent id ∨ desired = true) ∨
      s' = s ∧ (r = .error .osError ∧ outcome = .raises .osError ∨ r = .error .sqliteError ∧ outcome = .raises .sqliteError) ∧
        ¬s.NotCurrent id := by
  unfold State.transition at h
  cases hfilter : s.current.filter (·.id = id) with
  | none =>
    rw [hfilter] at h
    have hnot : s.NotCurrent id := fun c hc => by simpa using Option.filter_eq_none_iff.1 hfilter c hc
    cases outcome with
    | ok => cases h
    | raises error =>
      cases error with
      | networkStateError =>
        obtain ⟨rfl, rfl⟩ := Prod.mk.inj (Option.some.inj h)
        exact .inr (.inl ⟨rfl, rfl, .inl hnot⟩)
      | networkError => cases h
      | osError => cases h
      | sqliteError => cases h
  | some c =>
    rw [hfilter] at h
    obtain ⟨hsome, hid⟩ := Option.filter_eq_some_iff.1 hfilter
    have hid : c.id = id := by simpa using hid
    have hcurrent : ¬s.NotCurrent id := fun hnot => hnot c hsome hid
    cases outcome with
    | ok =>
      obtain ⟨rfl, rfl⟩ := Prod.mk.inj (Option.some.inj h)
      exact .inl ⟨c, rfl, hsome, hid, rfl⟩
    | raises error =>
      cases error with
      | networkStateError =>
        dsimp only at h
        split at h
        · obtain ⟨rfl, rfl⟩ := Prod.mk.inj (Option.some.inj h)
          exact .inr (.inl ⟨rfl, rfl, .inr ‹_›⟩)
        · cases h
      | networkError => cases h
      | osError =>
        obtain ⟨rfl, rfl⟩ := Prod.mk.inj (Option.some.inj h)
        exact .inr (.inr ⟨rfl, .inl ⟨rfl, rfl⟩, hcurrent⟩)
      | sqliteError =>
        obtain ⟨rfl, rfl⟩ := Prod.mk.inj (Option.some.inj h)
        exact .inr (.inr ⟨rfl, .inr ⟨rfl, rfl⟩, hcurrent⟩)

theorem movesOf_append (s : State) (id id' : String) (stage : NetworkState.Stage) :
    ((s.moves ++ [(id, stage)]).filter (·.1 = id')).map (·.2) = if id' = id then s.movesOf id ++ [stage] else s.movesOf id' := by
  rw [List.filter_append, List.map_append]
  split
  · rename_i heq
    subst heq
    rw [List.filter_cons_of_pos (by simp)]
    rfl
  · rename_i hne
    rw [List.filter_cons_of_neg (by simpa using fun heq => hne heq.symm)]
    exact List.append_nil _

/-- The worker records a stage of its transaction. -/
theorem Inv.record {s : State} (h : Inv s) {c : Current} {id : String} {w : Worker}
    (hcurrent : s.current = some c) (hid : c.id = id) (hbusy : s.worker.busy = some id) (hw : w.busy = some id)
    (hpath : Path (s.movesOf id ++ [stage])) (hposition : Position { s.recorded c id stage with worker := w })
    (hmeant : stage = .committed ∨ stage = .forgotten →
      ∃ w, s.work.lookup id = some w ∧ ∀ op ∈ w.body.filterMap Statement.operation?, (id, op) ∈ s.succeeded) :
    Inv { s.recorded c id stage with worker := w } := by
  have hsame : ∀ c' ∈ (if stage.status.terminal then none else some { c with stage := stage } : Option Current), c'.id = c.id := by
    intro c' hc'
    split at hc'
    · cases hc'
    · rw [← Option.some.inj hc']
  have hput : id ∈ s.put := h.queuedPut.subset (h.busy hbusy).1
  refine
    { h with
      current := fun c' hc' => by rw [hsame c' hc']; exact h.current c hcurrent
      queued := by rw [hw, ← hbusy]; exact h.queued
      unmoved := fun id' hid' => ?_
      waiting := fun id' hid' => ?_
      paths := fun id' => ?_
      position := hposition
      ended := fun id' hid' hq c' hc' => by rw [hsame c' hc']; exact h.ended id' hid' hq c hcurrent
      meant := fun id' stage' hmem hstage => ?_ }
  · refine (movesOf_append s id id' stage).trans ?_
    rw [if_neg fun heq : id' = id => hid' (heq ▸ hput)]
    exact h.unmoved id' hid'
  · refine (movesOf_append s id id' stage).trans ?_
    rw [if_neg fun heq : id' = id => (h.busy hbusy).2 (heq ▸ hid')]
    exact h.waiting id' hid'
  · have heq := movesOf_append s id id' stage
    change Path (((s.moves ++ [(id, stage)]).filter (·.1 = id')).map (·.2))
    rw [heq]
    split
    · exact hpath
    · exact h.paths id'
  · rcases mem_concat.1 hmem with hmem | hmem
    · exact h.meant id' stage' hmem hstage
    · obtain ⟨rfl, rfl⟩ := Prod.mk.inj hmem
      exact hmeant hstage

theorem movesOf_recorded (s : State) (c : Current) (id : String) (stage : NetworkState.Stage) (w : Worker) :
    ({ s.recorded c id stage with worker := w } : State).movesOf id = s.movesOf id ++ [stage] :=
  (movesOf_append s id id stage).trans (if_pos rfl)

/-- The stages of a body up to one of its statements are on a normal path. -/
theorem body_path {w : Work} {gone body : List Statement} (hbody : w.body = gone ++ body) :
    ∃ n ∈ normalPaths, gone.filterMap Statement.stage <+: n := by
  obtain ⟨n, hn, hp⟩ := body_normal w
  refine ⟨n, hn, List.IsPrefix.trans ?_ hp⟩
  rw [hbody, List.filterMap_append]
  exact List.prefix_append _ _

section

variable {s s' : State} {id : String} {w : Work} {gone body : List Statement}

/-- A transaction that leaves its body is over, or falls back from a normal path. -/
theorem Executing.left (h : Executing s id w gone body) : s.NotCurrent id ∨ ∃ k, Left (s.movesOf id) k := by
  by_cases hterminal : ∃ x ∈ gone, ∃ stage ∈ x.stage, stage.status.terminal = true
  · exact .inl (h.ended hterminal)
  obtain ⟨n, hn, hp⟩ := body_path h.body
  rw [← h.moves] at hp
  refine .inr ⟨0, n, hn, s.movesOf id, hp, fun stage hstage => ?_, (List.append_nil _).symm⟩
  rw [h.moves] at hstage
  obtain ⟨x, hx, heq⟩ := List.mem_filterMap.1 hstage
  exact Bool.eq_false_iff.2 fun hterm => hterminal ⟨x, hx, stage, heq, hterm⟩

/-- A statement that records no stage is behind the transaction. -/
theorem Executing.pass {x : Statement} (h : Executing s id w gone (x :: body)) (hraising : ∀ e, x ≠ .raising e)
    (hstage : x.stage = none) (hsucceeded : ∀ op ∈ x.operation?, (id, op) ∈ s.succeeded) : Executing s id w (gone ++ [x]) body := by
  refine ⟨h.work, by rw [h.body, List.append_assoc]; rfl, fun e hmem => ?_, ?_, fun op hop => ?_,
    fun ⟨y, hy, stage, hystage, hterm⟩ => ?_⟩
  · exact (List.mem_append.1 hmem).elim (h.passed e) fun hmem => hraising e (List.mem_singleton.1 hmem).symm
  · rw [List.filterMap_append, List.filterMap_cons_none hstage]
    exact h.moves.trans (List.append_nil _).symm
  · obtain ⟨y, hy, hyop⟩ := List.mem_filterMap.1 hop
    rcases mem_concat.1 hy with hy | hy
    · exact h.succeeded op (List.mem_filterMap.2 ⟨y, hy, hyop⟩)
    · exact hsucceeded op (by rw [← hy]; exact hyop)
  · rcases mem_concat.1 hy with hy | rfl
    · exact h.ended ⟨y, hy, stage, hystage, hterm⟩
    · rw [hstage] at hystage
      cases hystage

variable {stage : NetworkState.Stage} {outcome : Outcome}

/-- A stage that is recorded is behind the transaction. -/
theorem Executing.recorded {desired : Bool} {c : Current}
    (h : Executing s id w gone (.transition stage desired :: body)) (hcurrent : s.current = some c) (hid : c.id = id) :
    Executing (s.recorded c id stage) id w (gone ++ [.transition stage desired]) body := by
  refine ⟨h.work, by rw [h.body, List.append_assoc]; rfl, fun e hmem => ?_, ?_, fun op hop => ?_,
    fun ⟨y, hy, stage', hystage, hterm⟩ => ?_⟩
  · exact (List.mem_append.1 hmem).elim (h.passed e) fun hmem => (nomatch List.mem_singleton.1 hmem)
  · rw [List.filterMap_append, ← h.moves]
    exact (movesOf_append s id id stage).trans (if_pos rfl)
  · rw [List.filterMap_append] at hop
    exact h.succeeded op (by simpa [Statement.operation?] using hop)
  · rcases mem_concat.1 hy with hy | rfl
    · exact absurd hid (h.ended ⟨y, hy, stage', hystage, hterm⟩ c hcurrent)
    · obtain rfl : stage = stage' := Option.some.inj hystage
      intro c' hc'
      change c' ∈ (if stage.status.terminal then none else some { c with stage := stage } : Option Current) at hc'
      rw [if_pos hterm] at hc'
      cases hc'

/-- The transaction leaves its body for the fallback. -/
theorem Executing.falls (he : Executing s id w gone body) (h : Inv s) (hbusy : s.worker.busy = some id) (handler : Bool) :
    Inv { s with worker := .fallingBack id handler } :=
  h.worker (by rw [hbusy]; rfl) he.left

theorem Executing.transition {desired : Bool}
    (he : Executing s id w gone (.transition stage desired :: body)) (h : Inv s) (hbusy : s.worker.busy = some id)
    (hhandled : outcome ≠ .raises .sqliteError) (hs : s.statement id outcome (.transition stage desired :: body) = some s') :
    Inv s' := by
  simp only [State.statement] at hs
  cases htransition : s.transition id stage desired outcome with
  | none => rw [htransition] at hs; cases hs
  | some r =>
    obtain ⟨r, s₁⟩ := r
    rw [htransition] at hs
    rcases transition_cases htransition with ⟨c, rfl, hcurrent, hid, rfl⟩ | ⟨rfl, rfl, -⟩ | ⟨rfl, hr, -⟩
    · cases hs
      have he' := he.recorded hcurrent hid
      refine h.record (w := .executing id body) hcurrent hid hbusy rfl ?_ ⟨w, _, he'⟩ fun hstage => ?_
      · obtain ⟨n, hn, hp⟩ := body_path he'.body
        rw [← he'.moves] at hp
        refine ⟨n, hn, _, 0, [], hp, ?_, fun hk => absurd hk (Nat.lt_irrefl 0), .inl rfl⟩
        rw [List.replicate_zero, List.append_nil, List.append_nil, ← movesOf_recorded s c id stage s.worker]
        rfl
      · have hterm : stage.status.terminal = true := by rcases hstage with rfl | rfl <;> rfl
        obtain rfl := body_last w he.body hterm
        refine ⟨w, he.work, fun op hop => he.succeeded op ?_⟩
        rw [he.body, List.filterMap_append] at hop
        simpa [Statement.operation?] using hop
    · cases hs
      exact he.falls h hbusy false
    · rcases hr with ⟨rfl, -⟩ | ⟨-, hsqlite⟩
      · cases hs
        exact he.falls h hbusy true
      · exact absurd hsqlite hhandled

theorem Executing.operation {operation : Operation} (he : Executing s id w gone (.operation operation :: body))
    (h : Inv s) (hworker : s.worker = .executing id (.operation operation :: body))
    (hs : s.statement id outcome (.operation operation :: body) = some s') : Inv s' := by
  have hbusy : s.worker.busy = some id := by rw [hworker]; rfl
  cases outcome with
  | ok =>
    cases hs
    have he' : Executing { s with succeeded := s.succeeded ++ [(id, operation)] } id w gone (.operation operation :: body) :=
      { he with succeeded := fun op hop => List.mem_append_left _ (he.succeeded op hop) }
    have h₁ : Inv { s with succeeded := s.succeeded ++ [(id, operation)] } :=
      { h with
        position := by
          unfold Position
          rw [hworker]
          exact ⟨w, gone, he'⟩
        meant := fun id' stage hmem hstage => by
          obtain ⟨w', hlookup, hops⟩ := h.meant id' stage hmem hstage
          exact ⟨w', hlookup, fun op hop => List.mem_append_left _ (hops op hop)⟩ }
    refine h₁.worker (w := .executing id body) (by rw [hbusy]; rfl) ⟨w, _, he'.pass (fun _ heq => (nomatch heq)) rfl ?_⟩
    rintro op ⟨⟩
    exact List.mem_append_right _ (List.mem_singleton_self _)
  | raises error =>
    cases error with
    | networkError =>
      cases hs
      exact he.falls h hbusy false
    | _ => cases hs

theorem Executing.deadline (he : Executing s id w gone (.deadline :: body)) (h : Inv s)
    (hbusy : s.worker.busy = some id) (hs : s.statement id outcome (.deadline :: body) = some s') : Inv s' := by
  cases outcome with
  | ok =>
    cases hs
    exact h.worker (w := .executing id body) (by rw [hbusy]; rfl)
      ⟨w, _, he.pass (fun _ heq => (nomatch heq)) rfl fun _ hop => (nomatch hop)⟩
  | raises error =>
    cases error with
    | networkError =>
      cases hs
      exact he.falls h hbusy false
    | _ => cases hs

/-- No body raises an `sqlite3.Error` of its own. -/
theorem Executing.raising {error : Raised} (he : Executing s id w gone (.raising error :: body)) (h : Inv s)
    (hbusy : s.worker.busy = some id) (hs : s.statement id outcome (.raising error :: body) = some s') : Inv s' := by
  have hmem : Statement.raising error ∈ w.body := by rw [he.body]; exact List.mem_append_right _ List.mem_cons_self
  simp only [State.statement] at hs
  split at hs
  · cases hs
    cases error with
    | networkError => exact he.falls h hbusy false
    | networkStateError => exact he.falls h hbusy false
    | osError => exact he.falls h hbusy true
    | sqliteError =>
      refine absurd hmem ?_
      obtain ⟨kind, valid⟩ := w
      cases kind with
      | candidate mapping => cases mapping <;> cases valid <;> decide
      | _ => cases valid <;> decide
  · cases hs

theorem statement_inv (h : Inv s) (hworker : s.worker = .executing id body)
    (hhandled : outcome ≠ .raises .sqliteError) (hs : s.statement id outcome body = some s') : Inv s' := by
  have hbusy : s.worker.busy = some id := by rw [hworker]; rfl
  have hposition := h.position
  unfold Position at hposition
  rw [hworker] at hposition
  obtain ⟨w, gone, he⟩ := hposition
  cases body with
  | nil =>
    simp only [State.statement] at hs
    split at hs
    · cases hs
      have hbody : w.body = gone := he.body.trans (List.append_nil _)
      refine h.worker (by rw [hbusy]; rfl) ⟨rfl, he.ended ?_⟩
      rw [← hbody]
      exact body_ends w (by rw [hbody]; exact he.passed)
    · cases hs
  | cons x rest =>
    cases x with
    | transition stage desired => exact he.transition h hbusy hhandled hs
    | operation operation => exact he.operation h hworker hs
    | deadline => exact he.deadline h hbusy hs
    | raising error => exact he.raising h hbusy hs

end

/-- The worker takes the next item of the queue. -/
theorem take_inv {s s' : State} (h : Inv s) (hworker : s.worker = .idle) {item : Option String} {queue : List (Option String)}
    (hqueue : s.queue = item :: queue)
    (hs : s' = { s with queue := queue, worker := match item with | some id => .entering id | none => .returned }) : Inv s' := by
  have hqueued := h.queued
  rw [hworker, hqueue] at hqueued
  subst hs
  cases item with
  | none =>
    exact
      { h with
        queued := hqueued
        stopped := fun hnone => h.stopped (hqueue ▸ List.mem_cons_of_mem _ hnone)
        waiting := fun id hid => h.waiting id (hqueue ▸ List.mem_cons_of_mem _ hid)
        position := h.stopped (hqueue ▸ List.mem_cons_self) }
  | some id =>
    exact
      { h with
        queued := hqueued
        stopped := fun hnone => h.stopped (hqueue ▸ List.mem_cons_of_mem _ hnone)
        waiting := fun id hid => h.waiting id (hqueue ▸ List.mem_cons_of_mem _ hid)
        position := h.waiting id (hqueue ▸ List.mem_cons_self) }

/-- The `finally` of the worker. -/
theorem leave_inv {s : State} (h : Inv s) {id : String} (hworker : s.worker = .leaving id false) :
    Inv { s with queued := s.queued.erase id, pending := s.pending - 1, worker := .idle } := by
  have hposition := h.position
  unfold Position at hposition
  rw [hworker] at hposition
  have hqueued : s.queued = id :: s.queue.reduceOption := by
    have := h.queued
    rw [hworker] at this
    exact this
  have herase : s.queued.erase id = s.queue.reduceOption := by rw [hqueued, List.erase_cons_head]
  refine
    { h with
      queued := herase
      queuedPut := List.erase_sublist.trans h.queuedPut
      pending := ?_
      position := trivial
      ended := fun id' hid' hnot => ?_ }
  · rw [herase, h.pending, hqueued, List.length_cons, Nat.cast_add, Nat.cast_one, Int.add_sub_cancel]
  · by_cases heq : id' = id
    · rw [heq]
      exact hposition.2
    · refine h.ended id' hid' fun hmem => hnot ?_
      exact (List.mem_erase_of_ne heq).2 hmem

/-- The sections of `_fallback_transaction`. -/
theorem fallback_inv {s s' : State} (h : Inv s) (hhandled : Handled s (.worker outcome))
    (hworker : (∃ id handler, s.worker = .fallingBack id handler) ∨ ∃ id handler recovered, s.worker = .ending id handler recovered)
    (hs : s.advance outcome = some s') : Inv s' := by
  have hposition := h.position
  unfold Position at hposition
  rcases hworker with ⟨id, handler, hworker⟩ | ⟨id, handler, recovered, hworker⟩
  · have hbusy : s.worker.busy = some id := by rw [hworker]; rfl
    rw [hworker] at hposition
    simp only [State.advance, hworker] at hs
    cases htransition : s.transition id .fallingBack false outcome with
    | none => rw [htransition] at hs; cases hs
    | some r =>
      obtain ⟨r, s₁⟩ := r
      rw [htransition] at hs
      rcases transition_cases htransition with ⟨c, rfl, hcurrent, hid, rfl⟩ | ⟨rfl, rfl, hnot⟩ | ⟨rfl, hr, -⟩
      · cases hs
        obtain ⟨k, hleft⟩ := hposition.resolve_left fun hnot => hnot c hcurrent hid
        refine h.record (w := .rescuing id handler) hcurrent hid hbusy rfl hleft.back.path ?_ ?_
        · exact .inr ⟨k, by rw [movesOf_recorded]; exact hleft.back⟩
        · rintro (hstage | hstage) <;> cases hstage
      · cases hs
        exact h.worker (by rw [hbusy]; rfl) (.inl (hnot.resolve_right Bool.false_ne_true))
      · rcases hr with ⟨rfl, hos⟩ | ⟨-, hsqlite⟩
        · cases hs
          cases handler with
          | true => exact absurd hworker (hhandled.2 hos id false).1
          | false => exact h.worker (by rw [hbusy]; rfl) hposition
        · exact absurd hsqlite hhandled.1
  · have hbusy : s.worker.busy = some id := by rw [hworker]; rfl
    rw [hworker] at hposition
    simp only [State.advance, hworker] at hs
    cases htransition : s.transition id (if recovered then .rescued else .failed) false outcome with
    | none => rw [htransition] at hs; cases hs
    | some r =>
      obtain ⟨r, s₁⟩ := r
      rw [htransition] at hs
      rcases transition_cases htransition with ⟨c, rfl, hcurrent, hid, rfl⟩ | ⟨rfl, rfl, hnot⟩ | ⟨rfl, hr, hcurrent⟩
      · cases hs
        obtain ⟨k, hleft⟩ := hposition.resolve_left fun hnot => hnot c hcurrent hid
        refine h.record (w := .leaving id false) hcurrent hid hbusy rfl (hleft.ends (Nat.succ_pos k) recovered) ?_ ?_
        · refine ⟨rfl, fun c' hc' => ?_⟩
          cases recovered <;> cases hc'
        · cases recovered <;> rintro (hstage | hstage) <;> cases hstage
      · cases hs
        exact h.worker (by rw [hbusy]; rfl) ⟨rfl, hnot.resolve_right Bool.false_ne_true⟩
      · obtain ⟨k, hleft⟩ := hposition.resolve_left hcurrent
        rcases hr with ⟨rfl, hos⟩ | ⟨-, hsqlite⟩
        · cases hs
          cases handler with
          | true => exact absurd hworker (hhandled.2 hos id recovered).2
          | false => exact h.worker (by rw [hbusy]; rfl) (.inr ⟨k + 1, hleft⟩)
        · exact absurd hsqlite hhandled.1

theorem advance_inv {s s' : State} (h : Inv s) (hhandled : Handled s (.worker outcome))
    (hs : s.advance outcome = some s') : Inv s' := by
  have hposition := h.position
  unfold Position at hposition
  cases hworker : s.worker with
  | idle =>
    simp only [State.advance, hworker] at hs
    cases hqueue : s.queue with
    | nil => rw [hqueue] at hs; cases hs
    | cons item queue =>
      rw [hqueue] at hs
      cases item with
      | some _ | none =>
        dsimp only at hs
        split at hs
        · exact take_inv h hworker hqueue (Option.some.inj hs).symm
        · cases hs
  | entering id =>
    have hbusy : s.worker.busy = some id := by rw [hworker]; rfl
    rw [hworker] at hposition
    have hfalls : Inv { s with worker := .fallingBack id true } :=
      h.worker (by rw [hbusy]; rfl)
        (.inr ⟨0, by rw [show ({ s with worker := .fallingBack id true } : State).movesOf id = [] from hposition]; exact left_nil⟩)
    simp only [State.advance, hworker] at hs
    cases outcome with
    | ok =>
      obtain ⟨w, hlookup, rfl⟩ := Option.map_eq_some_iff.1 hs
      refine h.worker (w := .executing id w.body) (by rw [hbusy]; rfl) ?_
      exact
        ⟨w, [], hlookup, rfl, fun _ hmem => (nomatch hmem), hposition, fun _ hmem => (nomatch hmem),
          fun ⟨_, hmem, _⟩ => (nomatch hmem)⟩
    | raises error =>
      cases error with
      | networkError =>
        cases hs
        exact hfalls
      | networkStateError =>
        cases hs
        exact hfalls
      | osError => cases hs
      | sqliteError => cases hs
  | executing id body =>
    simp only [State.advance, hworker] at hs
    exact statement_inv h hworker hhandled.1 hs
  | fallingBack id handler => exact fallback_inv h hhandled (.inl ⟨id, handler, hworker⟩) hs
  | rescuing id handler =>
    have hbusy : s.worker.busy = some id := by rw [hworker]; rfl
    rw [hworker] at hposition
    simp only [State.advance, hworker] at hs
    cases outcome with
    | ok =>
      cases hs
      exact h.worker (by rw [hbusy]; rfl) hposition
    | raises error =>
      cases error with
      | networkError =>
        cases hs
        exact h.worker (by rw [hbusy]; rfl) hposition
      | _ => cases hs
  | ending id handler recovered => exact fallback_inv h hhandled (.inr ⟨id, handler, recovered, hworker⟩) hs
  | leaving id raised =>
    rw [hworker] at hposition
    obtain rfl := hposition.1
    simp only [State.advance, hworker] at hs
    split at hs
    · cases hs
      exact leave_inv h hworker
    · cases hs
  | returned => simp only [State.advance, hworker] at hs; cases hs
  | died => simp only [State.advance, hworker] at hs; cases hs

theorem step_inv {s s' : State} {a : Act} (h : Inv s) (hhandled : Handled s a) (hs : step s a = some s') : Inv s' := by
  cases a with
  | accept id work deferred => exact accept_inv h hs
  | schedule => exact schedule_inv h hs
  | releaseResponse id returns =>
    cases hs
    exact releaseResponse_inv h id returns
  | worker outcome => exact advance_inv h hhandled hs
  | close =>
    simp only [step] at hs
    split at hs
    · cases hs
    · cases hs
      refine { h with stopped := fun _ => rfl, position := ?_ }
      have hposition := h.position
      unfold Position at hposition ⊢
      cases hworker : s.worker with
      | returned => rfl
      | _ => rw [hworker] at hposition; exact hposition
  | stop =>
    simp only [step] at hs
    split at hs
    · rename_i hclosed
      cases hs
      exact
        { h with
          queued := by
            change s.queued = s.worker.busy.toList ++ (s.queue ++ [none]).reduceOption
            rw [h.queued, List.reduceOption_append]
            exact congrArg _ (List.append_nil _).symm
          stopped := fun _ => (Bool.and_eq_true_iff.1 hclosed).1
          waiting := fun id hid => h.waiting id ((List.mem_append.1 hid).resolve_right fun hmem => (nomatch List.mem_singleton.1 hmem)) }
    · cases hs

/-! ### What the controller promises -/

/-- Bounds the sections that the worker still needs for its transaction. -/
def Worker.measure : Worker → ℕ
  | .entering _ => 15
  | .executing _ body => body.length + 7
  | .fallingBack _ handler => if handler then 3 else 6
  | .rescuing _ handler => if handler then 2 else 5
  | .ending _ handler _ => if handler then 1 else 4
  | _ => 0

theorem body_length (w : Work) : w.body.length < 8 := by
  obtain ⟨kind, valid⟩ := w
  cases kind with
  | candidate mapping => cases mapping <;> cases valid <;> decide
  | _ => cases valid <;> decide

structure Promised (s : State) : Prop where
  alive : s.worker ≠ .died ∧ (∀ id, s.worker ≠ .leaving id true) ∧ (s.worker = .returned → s.closed = true)
  once : s.put.Nodup
  released : ∀ id ∈ s.put, id ∈ s.released
  queued : ∀ id, id ∈ s.queued ↔ some id ∈ s.queue ∨ s.worker.busy = some id
  pending : s.queued.Nodup ∧ s.pending = s.queued.length
  paths : ∀ id, Path (s.movesOf id)
  committed : s.Meant
  /-- A transaction that was executed is over. -/
  ended : ∀ id ∈ s.put, id ∉ s.queued → s.NotCurrent id
  /-- The worker goes on with its transaction, and gets to its end. -/
  proceeds : ∀ id, s.worker.busy = some id → ∃ outcome s', Handled s (.worker outcome) ∧ step s (.worker outcome) = some s'
  measured : ∀ id outcome s', s.worker.busy = some id → step s (.worker outcome) = some s' →
    s'.worker.busy = none ∨ s'.worker.busy = some id ∧ s'.worker.measure < s.worker.measure

theorem transition_enabled (s : State) (id : String) (stage : NetworkState.Stage) (desired : Bool) :
    ∃ outcome r, (outcome = .ok ∨ outcome = .raises .networkStateError) ∧ s.transition id stage desired outcome = some r := by
  unfold State.transition
  cases s.current.filter (·.id = id) with
  | none => exact ⟨.raises .networkStateError, _, .inr rfl, rfl⟩
  | some c => exact ⟨.ok, _, .inl rfl, rfl⟩

theorem proceeds (s : State) {id : String} (hbusy : s.worker.busy = some id) :
    ∃ outcome s', Handled s (.worker outcome) ∧ step s (.worker outcome) = some s' := by
  have hok : Handled s (.worker .ok) := ⟨fun h => (nomatch h), fun h => (nomatch h)⟩
  have hstate : Handled s (.worker (.raises .networkStateError)) := ⟨fun h => (nomatch h), fun h => (nomatch h)⟩
  have hhandled : ∀ outcome, outcome = .ok ∨ outcome = .raises .networkStateError → Handled s (.worker outcome) := by
    rintro outcome (rfl | rfl)
    · exact hok
    · exact hstate
  cases hworker : s.worker with
  | idle => rw [hworker] at hbusy; cases hbusy
  | returned => rw [hworker] at hbusy; cases hbusy
  | died => rw [hworker] at hbusy; cases hbusy
  | entering id => exact ⟨.raises .networkStateError, _, hstate, by simp only [step, State.advance, hworker]; rfl⟩
  | rescuing id handler => exact ⟨.ok, _, hok, by simp only [step, State.advance, hworker]; rfl⟩
  | leaving id raised => exact ⟨.ok, _, hok, by simp only [step, State.advance, hworker]; rfl⟩
  | fallingBack id handler =>
    obtain ⟨outcome, ⟨r, s₁⟩, houtcome, htransition⟩ := transition_enabled s id .fallingBack false
    refine ⟨outcome, ?_⟩
    simp only [step, State.advance, hworker, htransition]
    rcases r with (_ | _ | _ | _) | _ <;> exact ⟨_, hhandled outcome houtcome, rfl⟩
  | ending id handler recovered =>
    obtain ⟨outcome, ⟨r, s₁⟩, houtcome, htransition⟩ := transition_enabled s id (if recovered then .rescued else .failed) false
    refine ⟨outcome, ?_⟩
    simp only [step, State.advance, hworker, htransition]
    rcases r with (_ | _ | _ | _) | _ <;> exact ⟨_, hhandled outcome houtcome, rfl⟩
  | executing id body =>
    simp only [step, State.advance, hworker]
    cases body with
    | nil => exact ⟨.ok, _, hok, rfl⟩
    | cons x body =>
      cases x with
      | transition stage desired =>
        obtain ⟨outcome, ⟨r, s₁⟩, houtcome, htransition⟩ := transition_enabled s id stage desired
        refine ⟨outcome, ?_⟩
        simp only [State.statement, htransition]
        cases r with
        | ok => exact ⟨_, hhandled outcome houtcome, rfl⟩
        | error error => exact ⟨_, hhandled outcome houtcome, rfl⟩
      | operation operation => exact ⟨.ok, _, hok, rfl⟩
      | deadline => exact ⟨.ok, _, hok, rfl⟩
      | raising error => exact ⟨.ok, _, hok, rfl⟩

theorem raiseInBody_measure (s : State) (id : String) (e : Raised) :
    (s.raiseInBody id e).worker.busy = some id ∧ (s.raiseInBody id e).worker.measure ≤ 6 := by
  cases e <;> simp [State.raiseInBody, Worker.busy, Worker.measure]

theorem raiseInFallback_measure (s : State) (id : String) (handler : Bool) (e : Raised) :
    (s.raiseInFallback id handler e).worker.busy = some id ∧
      (s.raiseInFallback id handler e).worker.measure ≤ if handler then 0 else 3 := by
  cases handler <;> cases e <;> simp [State.raiseInFallback, Worker.busy, Worker.measure]

theorem statement_measure {s s' : State} {id : String} {body : List Statement}
    (hs : s.statement id outcome body = some s') :
    s'.worker.busy = some id ∧ s'.worker.measure < (Worker.executing id body).measure := by
  have hraises : ∀ (e : Raised) (s : State), (s.raiseInBody id e).worker.busy = some id ∧
      (s.raiseInBody id e).worker.measure < (Worker.executing id body).measure := fun e s => by
    obtain ⟨hbusy, hle⟩ := raiseInBody_measure s id e
    exact ⟨hbusy, lt_of_le_of_lt hle (by change 6 < body.length + 7; omega)⟩
  cases body with
  | nil =>
    simp only [State.statement] at hs
    split at hs
    · cases hs
      exact ⟨rfl, by change 0 < 0 + 7; omega⟩
    · cases hs
  | cons x rest =>
    have hrest : (Worker.executing id rest).measure < (Worker.executing id (x :: rest)).measure := by
      change rest.length + 7 < rest.length + 1 + 7
      omega
    cases x with
    | transition stage desired =>
      simp only [State.statement] at hs
      split at hs
      · cases hs
      · cases hs
        exact ⟨rfl, hrest⟩
      · cases hs
        exact hraises _ _
    | operation _ | deadline =>
      simp only [State.statement] at hs
      split at hs
      · cases hs
        exact ⟨rfl, hrest⟩
      · cases hs
        exact hraises _ _
      · cases hs
    | raising error =>
      simp only [State.statement] at hs
      split at hs
      · cases hs
        exact hraises _ _
      · cases hs

theorem advance_measure {s s' : State} {id : String} (hbusy : s.worker.busy = some id)
    (hs : s.advance outcome = some s') :
    s'.worker.busy = none ∨ s'.worker.busy = some id ∧ s'.worker.measure < s.worker.measure := by
  unfold State.advance at hs
  cases hworker : s.worker <;> rw [hworker] at hbusy <;> cases hbusy <;> simp only [hworker] at hs
  case entering =>
    split at hs
    · obtain ⟨w, -, rfl⟩ := Option.map_eq_some_iff.1 hs
      exact .inr ⟨rfl, by change w.body.length + 7 < 15; have := body_length w; omega⟩
    · cases hs
      exact .inr ⟨rfl, by simp [Worker.measure]⟩
    · cases hs
      exact .inr ⟨rfl, by simp [Worker.measure]⟩
    · cases hs
  case executing => exact .inr (statement_measure hs)
  case rescuing handler =>
    split at hs
    · cases hs
      exact .inr ⟨rfl, by cases handler <;> simp [Worker.measure]⟩
    · cases hs
      exact .inr ⟨rfl, by cases handler <;> simp [Worker.measure]⟩
    · cases hs
  case leaving raised =>
    split at hs
    · cases hs
      cases raised <;> exact .inl rfl
    · cases hs
  case fallingBack handler | ending handler _ =>
    split at hs
    · cases hs
    · cases hs
      exact .inr ⟨rfl, by cases handler <;> simp [Worker.measure]⟩
    · cases hs
      exact .inr ⟨rfl, by cases handler <;> simp [Worker.measure]⟩
    · cases hs
      obtain ⟨hb, hle⟩ := raiseInFallback_measure (‹State›) id handler ‹Raised›
      exact .inr ⟨hb, lt_of_le_of_lt hle (by cases handler <;> simp [Worker.measure])⟩

theorem Inv.promised {s : State} (h : Inv s) : Promised s := by
  have hposition := h.position
  unfold Position at hposition
  refine ⟨⟨fun hdied => ?_, fun id hleaving => ?_, fun hreturned => ?_⟩, h.put, h.putReleased, h.mem_queued,
    ⟨h.queuedNodup, h.pending⟩, h.paths, h.meant, h.ended, fun id hbusy => proceeds s hbusy,
    fun id outcome s' hbusy hs => advance_measure hbusy hs⟩
  · rw [hdied] at hposition
    exact hposition
  · rw [hleaving] at hposition
    exact absurd hposition.1 (by decide)
  · rw [hreturned] at hposition
    exact hposition

/-- Network transactions run once and end, in every run in which no exception gets past the worker's handlers. -/
theorem network_transactions_once {current : Option Current} {work : List (String × Work)} {acts : List Act} {s : State}
    (hrun : run step (State.start current work) acts = some s)
    (hhandled : Along step (fun s a _ => Handled s a) (State.start current work) acts) : Promised s := by
  have hkeeps : ∀ s a t, Inv s → step s a = some t → Handled s a → Inv t := fun _ _ _ hs hstep ha => step_inv hs ha hstep
  exact (run_invariant_of_along hkeeps (start_inv current work) hhandled hrun).promised

/-! ### A candidate that fails, and two writes that end the worker -/

/-- The worker is in no section of a fallback that the handler calls and that writes. -/
def Worker.spared : Worker → Bool
  | .fallingBack _ handler => !handler
  | .ending _ handler _ => !handler
  | _ => true

theorem Worker.spared_iff (w : Worker) :
    w.spared = true ↔ ∀ id recovered, w ≠ .fallingBack id true ∧ w ≠ .ending id true recovered := by
  cases w with
  | fallingBack id handler => cases handler <;> simp [spared]
  | ending id handler recovered => cases handler <;> simp [spared]
  | _ => simp [spared]

instance (s : State) : ∀ a, Decidable (Handled s a)
  | .worker outcome =>
    decidable_of_iff (outcome ≠ .raises .sqliteError ∧ (outcome = .raises .osError → s.worker.spared = true))
      (and_congr_right fun _ => imp_congr_right fun _ => s.worker.spared_iff)
  | .accept _ _ _ => .isTrue trivial
  | .schedule => .isTrue trivial
  | .releaseResponse _ _ => .isTrue trivial
  | .close => .isTrue trivial
  | .stop => .isTrue trivial

/-- The activation of a candidate raises, then the write of the fallback in the body does, and the rescue in the handler. -/
def sampleActs : List Act :=
  [.accept "t" ⟨.candidate true, true⟩ true, .schedule, .releaseResponse "t" true] ++ List.replicate 4 (.worker .ok) ++
    [.worker (.raises .networkError), .worker (.raises .osError), .worker .ok, .worker (.raises .networkError), .worker .ok, .worker .ok]

def sampleState : State := (run step (State.start none []) sampleActs).getD (State.start none [])

theorem network_transactions_once_sample :
    sampleState.movesOf "t" = [.prepared, .activating, .fallingBack, .failed] ∧ sampleState.put = ["t"] ∧
      sampleState.worker = .idle ∧ sampleState.current = none ∧ Promised sampleState :=
  ⟨by decide, by decide, by decide, by decide,
    network_transactions_once (show run step (State.start none []) sampleActs = some sampleState from rfl) (by decide)⟩

def sampleWork : Work := ⟨.rescue, true⟩

/-- The write of `prepared` raises an `sqlite3.Error`; or it raises an `OSError`, and so does the write of the fallback in
the handler. The transaction stays current. -/
theorem network_transactions_once_fails :
    (run step (State.start none []) ([.accept "t" sampleWork false, .schedule, .worker .ok, .worker .ok,
        .worker (.raises .sqliteError), .worker .ok] : List Act)).map (fun s => (s.worker, s.current, s.queued)) =
        some (.died, some ⟨"t", .accepted, true⟩, []) ∧
      (run step (State.start none []) ([.accept "t" sampleWork false, .schedule, .worker .ok, .worker .ok,
        .worker (.raises .osError), .worker (.raises .osError), .worker .ok] : List Act)).map
          (fun s => (s.worker, s.current, s.queued)) = some (.died, some ⟨"t", .accepted, true⟩, []) := by
  decide

end Conductor.NetworkControl
