import Conductor.Api.EventReplayLaw

/-! Restarts of the service. Every run has a buffer of its own, whose delivery ids begin at one again, and a
client comes back with the last id that it received in its life. A cursor of an earlier run is recognised where
the buffer has no event with its number, or no contiguous rest behind that one. -/

namespace Conductor.Api

open Runs

/-- The present run, what the clients received before it, and what the finished runs published. -/
structure World (Client Data : Type) where
  finished : List (List (BufferedEvent Data))
  past : Client → List (SseEvent Data)
  service : Service Client Data

inductive WorldAction (Client Data : Type) where
  | restart (capacity : ℕ) (h : 0 < capacity)
  | publish (e : SourceEvent Data)
  | replay (client : Client) (version : Version) (snapshot : SourceEvent Data)

namespace World

section Model

variable {Client Data : Type} [DecidableEq Client] (contract : Contract Data)

def received (w : World Client Data) (client : Client) : List (SseEvent Data) :=
  w.past client ++ w.service.received client

/-- `Last-Event-ID` of a client that comes back, and the cursor of its stream. -/
def cursor (w : World Client Data) (client : Client) : Option ℕ := (w.received client).getLast?.map (·.deliveryId)

def delivered (answer : EventReplayBuffer.Answer Data) : List (SseEvent Data) :=
  match answer.1 with
  | .ok (some events) => events
  | _ => []

def step (w : World Client Data) : WorldAction Client Data → Option (World Client Data)
  | .restart capacity h =>
    some ⟨w.finished ++ [w.service.published], w.received, .init capacity h⟩
  | .publish e => (w.service.step contract (.publish e)).map fun service => { w with service }
  | .replay client version snapshot =>
    let answer := w.service.buffer.replay contract (w.cursor client) version snapshot
    some { w with service := {
      buffer := answer.2
      published := w.service.published ++ newlyPublished w.service.buffer answer.2
      received := Function.update w.service.received client (w.service.received client ++ delivered answer) } }

def init (capacity : ℕ) (h : 0 < capacity) : World Client Data := ⟨[], fun _ => [], .init capacity h⟩

/-- The client has received nothing in the present run, and something before it. -/
def Stale (w : World Client Data) (client : Client) : Prop :=
  w.past client ≠ [] ∧ w.service.received client = []

end Model

end World

/-- The buffer cannot go on behind a cursor with this number. -/
def EventReplayBuffer.Recognises {Data : Type} (b : EventReplayBuffer Data) (n : ℕ) : Prop :=
  ∀ k < b.events.length, (b.events[k]?).map (·.deliveryId) = some n → sourceIsContiguous (b.events.drop k) = false

instance {Data : Type} (b : EventReplayBuffer Data) (n : ℕ) : Decidable (b.Recognises n) :=
  inferInstanceAs (Decidable (∀ k < b.events.length, _))

section Buffer

variable {Data : Type} {contract : Contract Data} {b : EventReplayBuffer Data} {published : List (BufferedEvent Data)}

/-- The cursors that the buffer recognises are the ones that it answers like a client without one. -/
theorem EventReplayBuffer.Holds.replay_recognised (h : b.Holds published) {n : ℕ} (hn : b.Recognises n)
    (version : Version) (snapshot : SourceEvent Data) :
    b.replay contract (some n) version snapshot = b.replay contract none version snapshot := by
  obtain hreplay | ⟨k, own, hdrop, hown, hid, hreplay⟩ := h.replay_some contract n version snapshot
  · exact hreplay
  · have hgap := hn k (List.getElem?_eq_some_iff.1 hown).1 (by rw [hown, Option.map_some, hid])
    rw [hreplay, hgap]
    split
    · next hempty =>
      -- the last event alone is contiguous
      rw [hdrop, List.isEmpty_iff.1 hempty] at hgap
      simp [sourceIsContiguous] at hgap
    · simp [replay]

/-- For a cursor that the buffer does not recognise no snapshot is published. -/
theorem EventReplayBuffer.Holds.replay_unrecognised (h : b.Holds published) {n : ℕ} (hn : ¬ b.Recognises n)
    (version : Version) (snapshot : SourceEvent Data) :
    (b.replay contract (some n) version snapshot).2 = b := by
  simp only [Recognises, not_forall, Bool.not_eq_false] at hn
  obtain ⟨k, hlt, hmap, hcontiguous⟩ := hn
  obtain ⟨own, hown, hid⟩ := Option.map_eq_some_iff.1 hmap
  have hkey := h.window k own hown
  simp only [replay, eventsAfterLocked]
  split
  · next first last hfirst hlast =>
    rw [List.head?_eq_getElem?] at hfirst
    rw [List.getLast?_eq_getElem?] at hlast
    have hzero := h.window 0 first hfirst
    have hend := h.window _ last hlast
    have hk : n - first.deliveryId = k := by omega
    rw [if_neg (by omega), hk, hown, Option.map_some, hid, if_neg (by simp), hcontiguous]
    split <;> simp
  · next hnone =>
    have hpos : b.events ≠ [] := List.ne_nil_of_length_pos (by omega)
    exact absurd (List.getLast?_eq_some_getLast hpos) (hnone _ _ (List.head?_eq_some_head hpos))

/-- A client that is not behind a cursor gets the snapshot that is published for it, or an error. -/
theorem EventReplayBuffer.Holds.resynchronise_delivered (h : b.Holds published) (contract : Contract Data)
    (version : Version) (snapshot : SourceEvent Data) :
    World.delivered (b.resynchronise contract version snapshot) = [] ∨
      (World.delivered (b.resynchronise contract version snapshot) =
          [sse contract version ⟨b.nextDeliveryId, snapshot, true⟩] ∧
        newlyPublished b (b.resynchronise contract version snapshot).2 = [⟨b.nextDeliveryId, snapshot, true⟩]) := by
  rw [resynchronise]
  rcases publishLocked_cases contract b snapshot true with ⟨error, hpublish⟩ | ⟨-, htype, hpublish⟩
  · rw [hpublish]
    exact .inl rfl
  · rw [hpublish]
    cases hversion : forVersion contract version ⟨b.nextDeliveryId, snapshot, true⟩ with
    | error error => exact .inl (by simp [World.delivered, hversion, Except.map])
    | ok x =>
      obtain rfl := forVersion_eq hversion
      exact .inr ⟨by simp [World.delivered, hversion, Except.map], (h.push htype).1⟩

/-- With a valid snapshot, the recognised cursors are exactly those that are answered with it. -/
theorem EventReplayBuffer.Holds.answered_iff (h : b.Holds published) (n : ℕ) (version : Version)
    {snapshot : SourceEvent Data} (hvalid : validateSourceEvent contract snapshot = .ok ())
    (htype : snapshot.type = .snapshot) :
    World.delivered (b.replay contract (some n) version snapshot) =
      [sse contract version ⟨b.nextDeliveryId, snapshot, true⟩] ↔ b.Recognises n := by
  constructor
  · intro hdelivered
    by_contra hn
    have hsame : (b.replay contract (some n) version snapshot).2 = b := h.replay_unrecognised hn version snapshot
    have hturn := h.replay_turn contract (some n) version snapshot
    generalize b.replay contract (some n) version snapshot = answer at hdelivered hsame hturn
    cases hturn with
    | nothing hnone =>
      rename_i answer
      unfold World.delivered at hdelivered
      split at hdelivered
      · next events heq => exact hnone events heq
      · simp at hdelivered
    | events _ _ hdrop _ =>
      rename_i own rest k
      obtain ⟨e, rfl, he⟩ := List.map_eq_singleton_iff.1 hdelivered
      have hmem : e ∈ b.events := List.mem_of_mem_drop (by rw [hdrop]; simp)
      rw [h.events] at hmem
      have hle := id_le h.numbered (List.mem_of_mem_drop hmem)
      have hid : e.deliveryId = b.nextDeliveryId := congrArg SseEvent.deliveryId he
      have hnext := h.next
      omega
    | resync hpublish _ =>
      rcases publishLocked_cases contract b snapshot true with ⟨error, herror⟩ | ⟨-, -, hok⟩
      · rw [herror] at hpublish
        cases hpublish
      · rw [hok] at hpublish
        cases hpublish
        have hnext := congrArg nextDeliveryId hsame
        simp at hnext
  · intro hn
    rw [h.replay_recognised hn, replay, resynchronise_ok hvalid htype]
    rfl

end Buffer

/-! ### What a client gets over its life -/

namespace World

variable {Client Data : Type} {contract : Contract Data}

/-- In one run the later event continues the earlier one; in a later run it is a snapshot for resynchronisation. -/
def Follows (p q : ℕ × Version × BufferedEvent Data) : Prop :=
  (p.1 = q.1 ∧ Continues p.2.2 q.2.2) ∨ (p.1 < q.1 ∧ q.2.2.resync)

/-- The events are published ones, each with the number of its run, and each follows the one before. -/
def Unbroken (contract : Contract Data) (runs : List (List (BufferedEvent Data))) (received : List (SseEvent Data)) :
    Prop :=
  ∃ source : List (ℕ × Version × BufferedEvent Data), received = source.map (fun p => sse contract p.2.1 p.2.2) ∧
    (∀ p ∈ source, ∃ published, runs[p.1]? = some published ∧ p.2.2 ∈ published) ∧ source.IsChain Follows

/-- The first event that a client received in a run. -/
def Begins (s : Service Client Data) : Prop :=
  ∀ client x, (s.received client).head? = some x → ∃ e ∈ s.published, e.resync ∧ e.deliveryId = x.deliveryId

variable {s : Service Client Data} {w t : World Client Data}

/-- A run adds to the life of a client what it brings, from a snapshot on. -/
theorem Unbroken.append {finished : List (List (BufferedEvent Data))} {past : List (SseEvent Data)}
    (h : Unbroken contract finished past) (hs : s.Sound contract) (hbegins : Begins s)
    (client : Client) : Unbroken contract (finished ++ [s.published]) (past ++ s.received client) := by
  obtain ⟨source, rfl, hmem, hchain⟩ := h
  obtain ⟨now, hnow, hpublished, hcontinues⟩ := hs.chained client
  have hnumber : (finished ++ [s.published])[finished.length]? = some s.published := by simp
  refine ⟨source ++ now.map fun p => (finished.length, p), ?_, ?_, ?_⟩
  · simp [hnow, Function.comp_def]
  · intro p hp
    rcases List.mem_append.1 hp with hp | hp
    · obtain ⟨published, hget, he⟩ := hmem p hp
      have hlt := (List.getElem?_eq_some_iff.1 hget).1
      exact ⟨published, by rw [List.getElem?_append_left hlt, hget], he⟩
    · obtain ⟨q, hq, rfl⟩ := List.mem_map.1 hp
      exact ⟨s.published, hnumber, hpublished q hq⟩
  · apply List.isChain_append.2
    refine ⟨hchain, (List.isChain_map _).2 (hcontinues.imp fun p q hpq => .inl ⟨rfl, hpq⟩), ?_⟩
    intro p hp q hq
    obtain ⟨published, hget, -⟩ := hmem p (List.mem_of_getLast? hp)
    have hlt := (List.getElem?_eq_some_iff.1 hget).1
    rw [List.head?_map] at hq
    obtain ⟨e, he, rfl⟩ := Option.map_eq_some_iff.1 hq
    have hfirst : (s.received client).head? = some (sse contract e.1 e.2) := by rw [hnow, List.head?_map, he]; rfl
    obtain ⟨d, hd, hresync, hid⟩ := hbegins client _ hfirst
    have hde := unique_id hs.holds.numbered hd (hpublished e (List.mem_of_head? he)) hid
    exact .inr ⟨hlt, hde ▸ hresync⟩

/-! ### Runs -/

variable [DecidableEq Client]

theorem begins_publish {t : Service Client Data} {e : SourceEvent Data} (h : Begins s)
    (hstep : s.step contract (.publish e) = some t) : Begins t := by
  cases hstep
  intro client x hx
  obtain ⟨d, hd, hrest⟩ := h client x hx
  exact ⟨d, List.mem_append_left _ hd, hrest⟩

variable {client : Client} {snapshot : SourceEvent Data} {a : WorldAction Client Data}

theorem begins_replay {t : Service Client Data} {version : Version}
    (h : Begins s) (hs : s.Sound contract) (hstep : s.step contract (.replay client version snapshot) = some t) :
    Begins t := by
  have hpublished : s.published ⊆ t.published := by
    rcases hs.replay_appends hstep with hsame | happend
    · simp [hsame]
    · simp [happend]
  cases hstep
  intro other x hx
  cases hold : (s.received other).head? with
  | some y =>
    have hsame : y = x := by
      simp only [Function.update_apply] at hx
      split at hx
      · next heq =>
        subst heq
        rw [List.head?_append, hold] at hx
        exact Option.some.inj hx
      · exact Option.some.inj (hold.symm.trans hx)
    obtain ⟨d, hd, hrest⟩ := h other y hold
    exact ⟨d, hpublished hd, hsame ▸ hrest⟩
  | none =>
    -- the first event that this client receives in the run
    have hnil := List.head?_eq_none_iff.1 hold
    have hother : other = client := by
      by_contra hne
      simp [Function.update_of_ne hne, hold] at hx
    subst hother
    have hcursor : s.cursor other = none := by simp [Service.cursor, hnil]
    simp only [hcursor, Function.update_self, hnil, List.nil_append] at hx ⊢
    change (delivered (s.buffer.resynchronise contract version snapshot)).head? = some x at hx
    rcases hs.holds.resynchronise_delivered contract version snapshot with hnone | ⟨hdelivered, hnew⟩
    · simp [hnone] at hx
    · rw [hdelivered] at hx
      cases hx
      refine ⟨⟨s.buffer.nextDeliveryId, snapshot, true⟩, List.mem_append_right _ ?_, rfl, rfl⟩
      exact hnew ▸ List.mem_singleton_self _

/-- A stale client comes back with a number that the buffer recognises. -/
def Recognised (w : World Client Data) : WorldAction Client Data → Prop
  | .replay client _ _ => w.Stale client → ∀ n ∈ w.cursor client, w.service.buffer.Recognises n
  | _ => True

instance (w : World Client Data) (client : Client) : Decidable (w.Stale client) := instDecidableAnd

instance (w : World Client Data) : ∀ a : WorldAction Client Data, Decidable (w.Recognised a)
  | .replay client _ _ => inferInstanceAs (Decidable (w.Stale client → ∀ n ∈ w.cursor client, _))
  | .restart _ _ => isTrue trivial
  | .publish _ => isTrue trivial

/-- A stale client that gets anything gets the snapshot that was published for it, and nothing else. -/
def Resumes (contract : Contract Data) (w : World Client Data) : WorldAction Client Data → World Client Data → Prop
  | .replay client version snapshot, t => w.Stale client → t.service.received client = [] ∨
      t.service.received client = [sse contract version ⟨w.service.buffer.nextDeliveryId, snapshot, true⟩]
  | _, _ => True

omit [DecidableEq Client] in
theorem replay_eq (hs : w.service.Sound contract)
    (hrecognised : w.Stale client → ∀ n ∈ w.cursor client, w.service.buffer.Recognises n) (version : Version)
    (snapshot : SourceEvent Data) : w.service.buffer.replay contract (w.cursor client) version snapshot =
      w.service.buffer.replay contract (w.service.cursor client) version snapshot := by
  by_cases hnow : w.service.received client = []
  · have hservice : w.service.cursor client = none := by simp [Service.cursor, hnow]
    rw [hservice]
    cases hcursor : w.cursor client with
    | none => rfl
    | some n =>
      have hstale : w.Stale client := by
        refine ⟨fun hpast => ?_, hnow⟩
        simp [cursor, received, hpast, hnow] at hcursor
      exact hs.holds.replay_recognised (hrecognised hstale n hcursor) version snapshot
  · have hsame : w.cursor client = w.service.cursor client := by
      rw [cursor, Service.cursor, received, List.getLast?_append_of_ne_nil _ hnow]
    rw [hsame]

/-- A recognised step is a step of the present run. -/
theorem step_replay (hs : w.service.Sound contract) {version : Version}
    (hrecognised : w.Recognised (.replay client version snapshot))
    (hstep : w.step contract (.replay client version snapshot) = some t) :
    w.service.step contract (.replay client version snapshot) = some t.service ∧ t.past = w.past ∧
      t.finished = w.finished := by
  cases hstep
  rw [replay_eq hs hrecognised]
  exact ⟨rfl, rfl, rfl⟩

theorem step_resumes (hs : w.service.Sound contract)
    (hrecognised : w.Recognised a) (hstep : w.step contract a = some t) : Resumes contract w a t := by
  cases a with
  | restart capacity h => trivial
  | publish e => trivial
  | replay client version snapshot =>
    intro hstale
    cases hstep
    have hservice : w.service.cursor client = none := by simp [Service.cursor, hstale.2]
    rw [replay_eq hs hrecognised, hservice]
    simp only [Function.update_self, hstale.2, List.nil_append]
    exact (hs.holds.resynchronise_delivered contract version snapshot).imp_right And.left

/-- The invariant of the histories. -/
structure Inv (contract : Contract Data) (w : World Client Data) : Prop where
  sound : w.service.Sound contract
  begins : Begins w.service
  past : ∀ client, Unbroken contract w.finished (w.past client)

omit [DecidableEq Client] in
theorem begins_init (capacity : ℕ) (h : 0 < capacity) : Begins (.init capacity h : Service Client Data) := by
  intro client x hx
  simp [Service.init] at hx

omit [DecidableEq Client] in
theorem init_inv (capacity : ℕ) (h : 0 < capacity) : Inv contract (init capacity h : World Client Data) :=
  ⟨Service.init_sound capacity h, begins_init capacity h, fun _ => ⟨[], rfl, by simp, .nil⟩⟩

theorem step_inv (hw : Inv contract w)
    (hrecognised : w.Recognised a) (hstep : w.step contract a = some t) : Inv contract t := by
  cases a with
  | restart capacity h =>
    cases hstep
    exact ⟨Service.init_sound capacity h, begins_init capacity h, fun client => (hw.past client).append hw.sound hw.begins client⟩
  | publish e =>
    rw [step, Option.map_eq_some_iff] at hstep
    obtain ⟨service, hservice, rfl⟩ := hstep
    exact ⟨hw.sound.publish hservice, begins_publish hw.begins hservice, hw.past⟩
  | replay client version snapshot =>
    obtain ⟨hservice, hpast, hfinished⟩ := step_replay hw.sound hrecognised hstep
    refine ⟨hw.sound.replay hservice, begins_replay hw.begins hw.sound hservice, ?_⟩
    rw [hpast, hfinished]
    exact hw.past

/-- In every history in which the buffers recognise the stale cursors, a client that comes back in a later run first
gets a snapshot that is published for it, and over its life each event continues the one before in its run or is a
snapshot for resynchronisation. A cursor that the buffer does not recognise is never answered with a snapshot. -/
theorem cursors_stay_in_run (contract : Contract Data) {capacity : ℕ} (h : 0 < capacity)
    {actions : List (WorldAction Client Data)} {w : World Client Data}
    (hrun : run (fun w a => step contract w a) (init capacity h) actions = some w)
    (hrecognised : Along (fun w a => step contract w a) (fun w a _ => Recognised w a) (init capacity h) actions) :
    (∀ client, Unbroken contract (w.finished ++ [w.service.published]) (w.received client)) ∧
      Along (fun w a => step contract w a) (Resumes contract) (init capacity h) actions ∧
      ∀ n version snapshot, validateSourceEvent contract snapshot = .ok () → snapshot.type = .snapshot →
        (delivered (w.service.buffer.replay contract (some n) version snapshot) =
          [sse contract version ⟨w.service.buffer.nextDeliveryId, snapshot, true⟩] ↔
            w.service.buffer.Recognises n) := by
  have hstep : ∀ (w : World Client Data) (a : WorldAction Client Data) (t : World Client Data), Inv contract w →
      step contract w a = some t → Recognised w a → Inv contract t ∧ Resumes contract w a t :=
    fun w a t hw ht ha => ⟨step_inv hw ha ht, step_resumes hw.sound ha ht⟩
  have hinv : Inv contract w :=
    run_invariant_of_along (fun w a t hw ht ha => (hstep w a t hw ht ha).1) (init_inv capacity h) hrecognised hrun
  exact ⟨fun client => (hinv.past client).append hinv.sound hinv.begins client,
    along_of_guard hstep (init_inv capacity h) hrecognised,
    fun n version snapshot hvalid htype => hinv.sound.holds.answered_iff n version hvalid htype⟩

/-- The service has published less than the client had when it comes back. -/
theorem cursors_stay_in_run_sample :
    let actions : List (WorldAction Bool Unit) :=
      [.replay true .v4 (Service.sourceAt .snapshot 1), .publish (Service.sourceAt .state 2),
        .replay true .v4 (Service.sourceAt .snapshot 2), .restart 4 (by decide),
        .publish (Service.sourceAt .state 8), .replay true .v4 (Service.sourceAt .snapshot 8)]
    ∃ w, run (fun w a => step Service.openContract w a) (init 8 (by decide)) actions = some w ∧
      ∀ client, Unbroken Service.openContract (w.finished ++ [w.service.published]) (w.received client) := by
  intro actions
  have hrun : ∃ w, run (fun w a => step Service.openContract w a) (init 8 (by decide)) actions = some w := ⟨_, rfl⟩
  obtain ⟨w, hw⟩ := hrun
  exact ⟨w, hw, (cursors_stay_in_run Service.openContract (by decide) hw (by decide)).1⟩

/-- A client has three events of the first run. -/
def firstRun : List (WorldAction Bool Unit) :=
  [.replay true .v4 (Service.sourceAt .snapshot 1), .publish (Service.sourceAt .state 2),
    .publish (Service.sourceAt .state 3), .replay true .v4 (Service.sourceAt .snapshot 3)]

/-- The second run has published five events. -/
def secondRun : List (WorldAction Bool Unit) :=
  [.restart 8 (by decide), .publish (Service.sourceAt .state 11), .publish (Service.sourceAt .state 12),
    .publish (Service.sourceAt .state 13), .publish (Service.sourceAt .state 14), .publish (Service.sourceAt .state 15)]

/-- The client comes back, and gets the last two of them without a snapshot. -/
theorem late_return_resumed :
    ¬ Along (fun w a => step Service.openContract w a) (Resumes Service.openContract) (init 8 (by decide))
      (firstRun ++ secondRun ++ [.replay true .v4 (Service.sourceAt .snapshot 15)]) := by
  intro halong
  have hreached : ∃ w t, run (fun w a => step Service.openContract w a) (init 8 (by decide)) (firstRun ++ secondRun) =
      some w ∧ step Service.openContract w (.replay true .v4 (Service.sourceAt .snapshot 15)) = some t ∧
      (w.past true).map (·.deliveryId) = [1, 2, 3] ∧ w.service.received true = [] ∧
      (t.service.received true).map (·.deliveryId) = [4, 5] := ⟨_, _, rfl, rfl, rfl, rfl, rfl⟩
  obtain ⟨w, t, hrun, hstep, hpast, hnow, hids⟩ := hreached
  have hstale : w.Stale true := ⟨fun hnil => by simp [hnil] at hpast, hnow⟩
  rcases (halong.append hrun).2 t hstep |>.1 hstale with hnone | hone
  · simp [hnone] at hids
  · simp [hone] at hids

end World

end Conductor.Api
