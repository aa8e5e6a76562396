import Conductor.Lib.Concat
import Conductor.Api.EventReplay
import Conductor.Lib.Checked
import Conductor.Lib.Runs
import Mathlib.Data.List.Chain

/-! The replay is free of gaps. The buffer is the last part of all that was published, whose delivery
ids count from one; what a client receives is a chain of published events in which each event is a
later snapshot for resynchronisation or continues the one before. -/

namespace Conductor.Api

open Recent Checked Runs

variable {Data : Type}

/-- The later event is a snapshot for resynchronisation, or the next one, and it continues the
earlier one in the same epoch. -/
def Continues (p q : BufferedEvent Data) : Prop :=
  (q.resync ∧ p.deliveryId < q.deliveryId) ∨
    (q.deliveryId = p.deliveryId + 1 ∧ q.sourceEvent.authorityEpoch = p.sourceEvent.authorityEpoch ∧
      (q.sourceEvent.type = .progress ∧ q.sourceEvent.sourceRevision = p.sourceEvent.sourceRevision ∧
          q.sourceEvent.sessionId = p.sourceEvent.sessionId ∨
        q.sourceEvent.sourceRevision = p.sourceEvent.sourceRevision + 1))

variable {p q e : BufferedEvent Data}

theorem Continues.lt (h : Continues p q) : p.deliveryId < q.deliveryId := by
  rcases h with ⟨-, h⟩ | ⟨h, -⟩
  · exact h
  · omega

theorem continues_of_follows (hid : q.deliveryId = p.deliveryId + 1) (h : follows p q) : Continues p q := by
  rw [follows, Bool.or_eq_true] at h
  rcases h with h | h
  · exact .inl ⟨h, by omega⟩
  · simp only [Bool.and_eq_true, Bool.or_eq_true, decide_eq_true_eq] at h
    obtain ⟨hepoch, h⟩ := h
    exact .inr ⟨hid, hepoch, h.imp_left fun h => ⟨h.1.1, h.1.2, h.2⟩⟩

/-- The events have the delivery ids from `n` on. -/
def Numbered (n : ℕ) (events : List (BufferedEvent Data)) : Prop :=
  ∀ (i : ℕ) (e : BufferedEvent Data), events[i]? = some e → e.deliveryId = n + i

variable {events : List (BufferedEvent Data)}

theorem Numbered.drop {n : ℕ} (h : Numbered n events) (k : ℕ) : Numbered (n + k) (events.drop k) := by
  intro i e he
  rw [List.getElem?_drop] at he
  have hid := h _ e he
  omega

theorem Numbered.concat {n : ℕ} (h : Numbered n events)
    (he : e.deliveryId = n + events.length) : Numbered n (events ++ [e]) := by
  intro i d hd
  rw [List.getElem?_append] at hd
  split at hd
  · exact h i d hd
  · rw [List.getElem?_singleton] at hd
    split at hd
    · cases hd
      omega
    · cases hd

theorem chain_of_contiguous {n : ℕ} (hn : Numbered n events)
    (h : sourceIsContiguous events) : events.IsChain Continues := by
  induction events generalizing n with
  | nil => exact .nil
  | cons p events ih =>
    cases events with
    | nil => exact .singleton p
    | cons q rest =>
      simp only [sourceIsContiguous, List.tail_cons, List.zip_cons_cons, List.all_cons, Bool.and_eq_true] at h
      have hp := hn 0 p rfl
      have hq := hn 1 q rfl
      exact List.isChain_cons_cons.2 ⟨continues_of_follows (by omega) h.1, ih (hn.drop 1) h.2⟩

/-- The form in which a client receives an event. -/
def sse (contract : Contract Data) (version : Version) (e : BufferedEvent Data) : SseEvent Data :=
  ⟨e.deliveryId, version, projectSourceEvent contract version e.sourceEvent⟩

theorem forVersion_eq {contract : Contract Data} {version : Version} {x : SseEvent Data}
    (h : forVersion contract version e = .ok x) : x = sse contract version e := by
  rw [forVersion] at h
  split at h
  · cases h
  · exact (Except.ok.inj h).symm

/-! ### The buffer -/

namespace EventReplayBuffer

variable {contract : Contract Data} {b : EventReplayBuffer Data} {published : List (BufferedEvent Data)}

/-- The buffer has the last part of what was published. -/
structure Holds (b : EventReplayBuffer Data) (published : List (BufferedEvent Data)) : Prop where
  events : b.events = recent b.capacity published
  next : b.nextDeliveryId = published.length + 1
  numbered : Numbered 1 published
  snapshots : ∀ e ∈ published, e.resync → e.sourceEvent.type = .snapshot

theorem holds_init (capacity : ℕ) (h : 0 < capacity) : (init capacity h : EventReplayBuffer Data).Holds [] := by
  refine ⟨(recent_nil capacity).symm, rfl, ?_, ?_⟩
  · rintro i e ⟨⟩
  · rintro e ⟨⟩

/-- The delivery ids in the buffer are consecutive. -/
theorem Holds.window (h : b.Holds published) : Numbered (1 + (published.length - b.capacity)) b.events := by
  rw [h.events, recent]
  exact h.numbered.drop _

/-- A publication: what failed changes nothing. -/
theorem publishLocked_cases (contract : Contract Data) (b : EventReplayBuffer Data) (e : SourceEvent Data)
    (resync : Bool) :
    (∃ error, b.publishLocked contract e resync = .error error) ∨
    (validateSourceEvent contract e = .ok () ∧ (resync → e.type = .snapshot) ∧
      b.publishLocked contract e resync = .ok (⟨b.nextDeliveryId, e, resync⟩,
        { b with
          events := pushBounded b.capacity b.events ⟨b.nextDeliveryId, e, resync⟩
          nextDeliveryId := b.nextDeliveryId + 1 })) := by
  rw [publishLocked]
  cases hvalid : validateSourceEvent contract e with
  | error error => exact .inl ⟨error, rfl⟩
  | ok u =>
    by_cases htype : resync = true ∧ e.type ≠ .snapshot
    · exact .inl ⟨_, by rw [if_pos htype]; rfl⟩
    · refine .inr ⟨rfl, fun hr => ?_, by rw [if_neg htype]; rfl⟩
      by_contra hne
      exact htype ⟨hr, hne⟩

theorem Holds.push (h : b.Holds published) {e : SourceEvent Data} {resync : Bool}
    (htype : resync → e.type = .snapshot) :
    let event : BufferedEvent Data := ⟨b.nextDeliveryId, e, resync⟩
    let t : EventReplayBuffer Data := { b with
      events := pushBounded b.capacity b.events event
      nextDeliveryId := b.nextDeliveryId + 1 }
    newlyPublished b t = [event] ∧ t.Holds (published ++ [event]) := by
  intro event t
  have hevents : t.events = recent b.capacity (published ++ [event]) := by
    change pushBounded b.capacity b.events event = _
    rw [h.events, recent_push]
  have hlast : t.events.getLast? = some event := by
    have hpos := b.capacity_pos
    have hlength := length_recent b.capacity (published ++ [event])
    rw [List.length_append, List.length_singleton] at hlength
    rw [List.getLast?_eq_getElem?, hevents, getElem?_recent, hlength, List.length_append, List.length_singleton,
      List.getElem?_append_right (by omega)]
    have hzero : published.length + 1 - b.capacity + (min b.capacity (published.length + 1) - 1) - published.length = 0 := by
      omega
    rw [hzero]
    rfl
  refine ⟨?_, hevents, ?_, ?_, ?_⟩
  · have hlt : b.nextDeliveryId < t.nextDeliveryId := Nat.lt_succ_self _
    rw [newlyPublished, if_pos hlt, hlast]
    rfl
  · change b.nextDeliveryId + 1 = _
    rw [h.next, List.length_append, List.length_singleton]
  · refine h.numbered.concat ?_
    change b.nextDeliveryId = _
    rw [h.next]
    omega
  · exact forall_mem_concat h.snapshots htype

theorem newlyPublished_self (b : EventReplayBuffer Data) : newlyPublished b b = [] := by
  rw [newlyPublished, if_neg (Nat.lt_irrefl _)]

/-- The index that is computed from a cursor in the buffer is the one of its event. -/
theorem Holds.addressed (h : b.Holds published) {first last : BufferedEvent Data} {cursor : ℕ}
    (hfirst : b.events.head? = some first) (hlast : b.events.getLast? = some last)
    (hge : first.deliveryId ≤ cursor) (hle : cursor ≤ last.deliveryId) :
    ∃ e, b.events[cursor - first.deliveryId]? = some e ∧ e.deliveryId = cursor := by
  rw [List.head?_eq_getElem?] at hfirst
  rw [List.getLast?_eq_getElem?] at hlast
  have hf := h.window 0 first hfirst
  have hl := h.window _ last hlast
  have hlt : cursor - first.deliveryId < b.events.length := by
    have hpos := (List.getElem?_eq_some_iff.1 hfirst).1
    omega
  refine ⟨_, List.getElem?_eq_getElem hlt, ?_⟩
  have hid := h.window _ _ (List.getElem?_eq_getElem hlt)
  omega

/-- A cursor is answered with a snapshot, or with what is in the buffer behind its own event. -/
theorem Holds.replay_some (h : b.Holds published) (contract : Contract Data) (n : ℕ) (version : Version)
    (snapshot : SourceEvent Data) :
    b.replay contract (some n) version snapshot = b.resynchronise contract version snapshot ∨
    ∃ k own, b.events.drop k = own :: b.events.drop (k + 1) ∧ b.events[k]? = some own ∧ own.deliveryId = n ∧
      b.replay contract (some n) version snapshot =
        if (b.events.drop (k + 1)).isEmpty then (.ok none, b)
        else if !sourceIsContiguous (b.events.drop k) then b.resynchronise contract version snapshot
        else (((b.events.drop (k + 1)).mapM (forVersion contract version)).map some, b) := by
  simp only [replay, eventsAfterLocked]
  split
  · next first last hfirst hlast =>
    split
    · exact .inl rfl
    · next hrange =>
      rw [not_or, Nat.not_lt, Nat.not_lt] at hrange
      obtain ⟨own, hown, hid⟩ := h.addressed hfirst hlast hrange.1 hrange.2
      refine .inr ⟨n - first.deliveryId, own, ?_, hown, hid, ?_⟩
      · obtain ⟨hlt, rfl⟩ := List.getElem?_eq_some_iff.1 hown
        exact List.drop_eq_getElem_cons hlt
      · rw [hown, Option.map_some, hid, if_neg (by simp)]
  · exact .inl rfl

/-- What a turn does: it publishes a snapshot for the client, or it leaves the buffer as it is and
delivers, if anything, what follows the cursor's own event. -/
inductive Turn (contract : Contract Data) (b : EventReplayBuffer Data) (cursor : Option ℕ) (version : Version)
    (snapshot : SourceEvent Data) : Answer Data → Prop
  | resync {answer : Except EventError (Option (List (SseEvent Data)))} {t : EventReplayBuffer Data}
      (publish : b.publishLocked contract snapshot true = .ok (⟨b.nextDeliveryId, snapshot, true⟩, t))
      (delivered : ∀ events, answer = .ok (some events) → events = [sse contract version ⟨b.nextDeliveryId, snapshot, true⟩]) :
      Turn contract b cursor version snapshot (answer, t)
  | nothing {answer : Except EventError (Option (List (SseEvent Data)))}
      (none : ∀ events, answer ≠ .ok (some events)) : Turn contract b cursor version snapshot (answer, b)
  | events {n : ℕ} {own : BufferedEvent Data} {rest : List (BufferedEvent Data)} {k : ℕ} (hcursor : cursor = some n)
      (hown : own.deliveryId = n) (hdrop : b.events.drop k = own :: rest) (chain : (own :: rest).IsChain Continues) :
      Turn contract b cursor version snapshot (.ok (some (rest.map (sse contract version))), b)

theorem resynchronise_turn (cursor : Option ℕ) (version : Version) (snapshot : SourceEvent Data) :
    Turn contract b cursor version snapshot (b.resynchronise contract version snapshot) := by
  rw [resynchronise]
  rcases publishLocked_cases contract b snapshot true with ⟨error, h⟩ | ⟨-, -, h⟩
  · rw [h]
    exact .nothing (by rintro events ⟨⟩)
  · rw [h]
    refine .resync h fun events hevents => ?_
    cases hversion : forVersion contract version ⟨b.nextDeliveryId, snapshot, true⟩ with
    | error error =>
      rw [hversion] at hevents
      cases hevents
    | ok x =>
      rw [hversion] at hevents
      obtain rfl := forVersion_eq hversion
      exact (Option.some.inj (Except.ok.inj hevents)).symm

theorem Holds.replay_turn (h : b.Holds published) (contract : Contract Data) (cursor : Option ℕ) (version : Version)
    (snapshot : SourceEvent Data) :
    Turn contract b cursor version snapshot (b.replay contract cursor version snapshot) := by
  cases cursor with
  | none => exact resynchronise_turn none version snapshot
  | some n =>
    obtain hreplay | ⟨k, own, hdrop, -, hid, hreplay⟩ := h.replay_some contract n version snapshot
    · rw [hreplay]
      exact resynchronise_turn _ version snapshot
    · rw [hreplay]
      split
      · exact .nothing (by rintro events ⟨⟩)
      split
      · exact resynchronise_turn _ version snapshot
      · next hcontiguous =>
        rw [Bool.not_eq_true, Bool.not_eq_false'] at hcontiguous
        have hchain := chain_of_contiguous (h.window.drop k) hcontiguous
        cases hmap : (b.events.drop (k + 1)).mapM (forVersion contract version) with
        | error error => exact .nothing (by rintro events ⟨⟩)
        | ok events =>
          obtain ⟨rfl, -⟩ := mapM_ok_eq_map (fun _ _ => forVersion_eq) hmap
          exact .events rfl hid hdrop (hdrop ▸ hchain)

variable {version : Version} {snapshot : SourceEvent Data}

theorem forVersion_ok {e : BufferedEvent Data} (h : e.sourceEvent.type ≠ .safeSwap) :
    forVersion contract version e = .ok (sse contract version e) := by
  rw [forVersion, if_neg fun hswap => h hswap.2]
  rfl

theorem resynchronise_ok (hvalid : validateSourceEvent contract snapshot = .ok ()) (htype : snapshot.type = .snapshot) :
    b.resynchronise contract version snapshot = (.ok (some [sse contract version ⟨b.nextDeliveryId, snapshot, true⟩]),
      { b with
        events := pushBounded b.capacity b.events ⟨b.nextDeliveryId, snapshot, true⟩
        nextDeliveryId := b.nextDeliveryId + 1 }) := by
  rw [resynchronise]
  rcases publishLocked_cases contract b snapshot true with ⟨error, h⟩ | ⟨-, -, h⟩
  · rw [publishLocked, hvalid] at h
    simp [bind, Except.bind, pure, Except.pure, htype] at h
  · have hswap : (⟨b.nextDeliveryId, snapshot, true⟩ : BufferedEvent Data).sourceEvent.type ≠ .safeSwap := by
      simp [htype]
    rw [h]
    simp [forVersion_ok hswap, Except.map]

/-- A call with a cursor, or a first one, brings the client to the newest event. -/
structure Current (cursor : Option ℕ) (answer : Answer Data) (delivered : List (SseEvent Data)) : Prop where
  returned : answer.1 = .ok none ∧ delivered = [] ∨ answer.1 = .ok (some delivered)
  newest : ∃ e, answer.2.events.getLast? = some e ∧ (delivered.getLast?.map (·.deliveryId)).or cursor = some e.deliveryId

theorem Holds.resynchronise_current (h : b.Holds published)
    (hvalid : validateSourceEvent contract snapshot = .ok ()) (htype : snapshot.type = .snapshot) (cursor : Option ℕ) :
    ∃ delivered, Current cursor (b.resynchronise contract version snapshot) delivered := by
  rw [resynchronise_ok hvalid htype]
  refine ⟨_, .inr rfl, ?_⟩
  obtain ⟨hnew, -⟩ := h.push (e := snapshot) fun (_ : true = true) => htype
  rw [newlyPublished, if_pos (Nat.lt_succ_self _)] at hnew
  have hlast := congrArg List.head? hnew
  rw [Option.head?_toList] at hlast
  exact ⟨_, hlast, rfl⟩

theorem Holds.replay_current (h : b.Holds published) (hswap : ∀ e ∈ published, e.sourceEvent.type ≠ .safeSwap)
    {cursor : Option ℕ}
    (hvalid : validateSourceEvent contract snapshot = .ok ()) (htype : snapshot.type = .snapshot) :
    ∃ delivered, Current cursor (b.replay contract cursor version snapshot) delivered := by
  cases cursor with
  | none => exact h.resynchronise_current hvalid htype none
  | some n =>
    have hresync : ∃ delivered, Current (some n) (b.resynchronise contract version snapshot) delivered :=
      h.resynchronise_current hvalid htype (some n)
    obtain hreplay | ⟨k, own, hdrop, -, hid, hreplay⟩ := h.replay_some contract n version snapshot
    · rw [hreplay]
      exact hresync
    · rw [hreplay]
      split
      · next hempty =>
        -- the cursor is the newest event
        rw [List.isEmpty_iff] at hempty
        have hnewest : b.events.getLast? = some own := by
          rw [← List.take_append_drop k b.events, hdrop, hempty, List.getLast?_concat]
        exact ⟨[], .inl ⟨rfl, rfl⟩, own, hnewest, congrArg some hid.symm⟩
      · next hmore =>
        split
        · exact hresync
        · have hmap : (b.events.drop (k + 1)).mapM (forVersion contract version) =
              .ok ((b.events.drop (k + 1)).map (sse contract version)) := by
            refine mapM_eq fun e he => forVersion_ok (hswap e ?_)
            have hmem := List.mem_of_mem_drop he
            rw [h.events] at hmem
            exact List.mem_of_mem_drop hmem
          rw [List.isEmpty_iff] at hmore
          have hlast := List.getLast?_eq_some_getLast hmore
          have hrest : b.events.getLast? = (b.events.drop (k + 1)).getLast? := by
            rw [← List.take_append_drop (k + 1) b.events, List.getLast?_append_of_ne_nil _ hmore, List.take_append_drop]
          rw [hmap]
          refine ⟨_, .inr rfl, _, hrest.trans hlast, ?_⟩
          rw [List.getLast?_map, hlast]
          rfl

end EventReplayBuffer

/-! ### Runs -/

section Service

variable {Client : Type} {contract : Contract Data}

/-- What a client has received is, version by version, a chain of published events. -/
def Chained (contract : Contract Data) (published : List (BufferedEvent Data)) (received : List (SseEvent Data)) :
    Prop :=
  ∃ source : List (Version × BufferedEvent Data), received = source.map (fun p => sse contract p.1 p.2) ∧
    (∀ p ∈ source, p.2 ∈ published) ∧ source.IsChain fun p q => Continues p.2 q.2

variable {received : List (SseEvent Data)} {published : List (BufferedEvent Data)}

theorem Chained.mono {more : List (BufferedEvent Data)}
    (h : Chained contract published received) : Chained contract (published ++ more) received := by
  obtain ⟨source, heq, hmem, hchain⟩ := h
  exact ⟨source, heq, fun p hp => List.mem_append_left _ (hmem p hp), hchain⟩

theorem Chained.increasing
    (h : Chained contract published received) : received.Pairwise fun x y => x.deliveryId < y.deliveryId := by
  obtain ⟨source, rfl, -, hchain⟩ := h
  rw [List.pairwise_map]
  have hlt : source.IsChain fun p q => p.2.deliveryId < q.2.deliveryId := hchain.imp fun _ _ hpq => hpq.lt
  exact (List.isChain_iff_pairwise (R := fun p q : Version × BufferedEvent Data => p.2.deliveryId < q.2.deliveryId)).1 hlt

/-- The last event of a client is the published one with its delivery id. -/
theorem Chained.last {source : List (Version × BufferedEvent Data)} (heq : received = source.map fun p => sse contract p.1 p.2)
    {p : Version × BufferedEvent Data} (hp : source.getLast? = some p) :
    received.getLast?.map (·.deliveryId) = some p.2.deliveryId := by
  rw [heq, List.getLast?_map, hp]
  rfl

variable {p : BufferedEvent Data}

theorem unique_id (h : Numbered 1 published) {q : BufferedEvent Data}
    (hp : p ∈ published) (hq : q ∈ published) (hid : p.deliveryId = q.deliveryId) : p = q := by
  obtain ⟨i, hi⟩ := List.mem_iff_getElem?.1 hp
  obtain ⟨j, hj⟩ := List.mem_iff_getElem?.1 hq
  have hpi := h i p hi
  have hqj := h j q hj
  obtain rfl : i = j := by omega
  exact Option.some.inj (hi.symm.trans hj)

theorem id_le (h : Numbered 1 published) (hp : p ∈ published) : p.deliveryId ≤ published.length := by
  obtain ⟨i, hi⟩ := List.mem_iff_getElem?.1 hp
  have hid := h i p hi
  have hlt := (List.getElem?_eq_some_iff.1 hi).1
  omega

/-- A client goes on with events that continue its last one. -/
theorem Chained.append (h : Chained contract published received) (version : Version) {rest : List (BufferedEvent Data)}
    (hrest : ∀ e ∈ rest, e ∈ published) (hchain : rest.IsChain Continues)
    (hlink : ∀ p ∈ published, received.getLast?.map (·.deliveryId) = some p.deliveryId →
      ∀ q ∈ rest.head?, Continues p q) :
    Chained contract published (received ++ rest.map (sse contract version)) := by
  obtain ⟨source, heq, hmem, hsource⟩ := h
  refine ⟨source ++ rest.map fun e => (version, e), ?_, fun p hp => ?_, ?_⟩
  · rw [heq, List.map_append, List.map_map]
    rfl
  · rcases List.mem_append.1 hp with hp | hp
    · exact hmem p hp
    · obtain ⟨e, he, rfl⟩ := List.mem_map.1 hp
      exact hrest e he
  · refine List.isChain_append.2 ⟨hsource, (List.isChain_map _).2 hchain, fun p hp q hq => ?_⟩
    rw [List.head?_map] at hq
    obtain ⟨e, he, rfl⟩ := Option.map_eq_some_iff.1 (Option.mem_def.1 hq)
    have hp' := Option.mem_def.1 hp
    exact hlink p.2 (hmem p (List.mem_of_getLast? hp')) (Chained.last heq hp') e he

namespace Service

/-- The invariant of the runs. -/
structure Sound (contract : Contract Data) (s : Service Client Data) : Prop where
  holds : s.buffer.Holds s.published
  chained : ∀ client, Chained contract s.published (s.received client)

variable [DecidableEq Client]

/-- What the clients are promised. -/
structure GapFree (contract : Contract Data) (s : Service Client Data) : Prop where
  /-- The delivery ids in the buffer are consecutive. -/
  consecutive : ∀ i e first, s.buffer.events[i]? = some e → s.buffer.events.head? = some first →
    e.deliveryId = first.deliveryId + i
  /-- The index of a cursor is the index of its own event. -/
  addressed : ∀ cursor first last, s.buffer.events.head? = some first → s.buffer.events.getLast? = some last →
    first.deliveryId ≤ cursor → cursor ≤ last.deliveryId →
    ∃ e, s.buffer.events[cursor - first.deliveryId]? = some e ∧ e.deliveryId = cursor
  increasing : ∀ client, (s.received client).Pairwise fun x y => x.deliveryId < y.deliveryId
  /-- No event is skipped but for a later snapshot. -/
  chained : ∀ client, Chained contract s.published (s.received client)
  snapshots : ∀ e ∈ s.published, e.resync → e.sourceEvent.type = .snapshot
  numbered : Numbered 1 s.published
  publish_unchanged : ∀ e error, validateSourceEvent contract e = .error error →
    s.step contract (.publish e) = some s
  /-- A snapshot that fails its check changes nothing where it would have been published. -/
  snapshot_unchanged : ∀ client version snapshot error, validateSourceEvent contract snapshot = .error error →
    ∀ t, s.step contract (.replay client version snapshot) = some t → t.buffer = s.buffer ∧ t.published = s.published ∧
      ((∀ events, (s.buffer.replay contract (s.cursor client) version snapshot).1 ≠ .ok (some events)) → t = s)

omit [DecidableEq Client] in
theorem init_sound (capacity : ℕ) (h : 0 < capacity) : Sound contract (init capacity h : Service Client Data) :=
  ⟨EventReplayBuffer.holds_init capacity h, fun _ => ⟨[], rfl, by rintro p ⟨⟩, .nil⟩⟩

variable {s t : Service Client Data} {e : SourceEvent Data}

theorem Sound.publish (h : Sound contract s) (hstep : s.step contract (.publish e) = some t) : Sound contract t := by
  cases hstep
  simp only [EventReplayBuffer.publish]
  rcases EventReplayBuffer.publishLocked_cases contract s.buffer e false with
    ⟨error, hpublish⟩ | ⟨-, htype, hpublish⟩
  · rw [hpublish]
    simp only [EventReplayBuffer.newlyPublished_self, List.append_nil]
    exact h
  · rw [hpublish]
    obtain ⟨hnew, hholds⟩ := h.holds.push htype
    simp only [hnew]
    exact ⟨hholds, fun client => (h.chained client).mono⟩

variable {client : Client} {snapshot : SourceEvent Data} {version : Version}

theorem Sound.replay (h : Sound contract s) (hstep : s.step contract (.replay client version snapshot) = some t) :
    Sound contract t := by
  have hturn := h.holds.replay_turn contract (s.cursor client) version snapshot
  simp only [Service.step] at hstep
  revert hstep
  generalize s.buffer.replay contract (s.cursor client) version snapshot = answer at hturn
  intro hstep
  -- the other clients have what they had
  have hclients : ∀ (published : List (BufferedEvent Data)) (received : List (SseEvent Data)),
      (∀ other, Chained contract published (s.received other)) → Chained contract published received →
      ∀ other, Chained contract published (Function.update s.received client received other) := by
    intro published received hold hnew other
    by_cases hother : other = client
    · subst hother
      rwa [Function.update_self]
    · rw [Function.update_of_ne hother]
      exact hold other
  cases hturn with
  | resync hpublish hdelivered =>
    rename_i answer u
    rcases EventReplayBuffer.publishLocked_cases contract s.buffer snapshot true with
      ⟨error, herror⟩ | ⟨-, htype, hok⟩
    · rw [herror] at hpublish
      cases hpublish
    rw [hok] at hpublish
    cases hpublish
    obtain ⟨hnew, hholds⟩ := h.holds.push htype
    simp only [hnew, Option.some.injEq] at hstep
    subst hstep
    refine ⟨hholds, hclients _ _ (fun other => (h.chained other).mono) ?_⟩
    set current : BufferedEvent Data := ⟨s.buffer.nextDeliveryId, snapshot, true⟩
    split
    · next events =>
      rw [hdelivered events rfl]
      refine (h.chained client).mono.append version (fun e he => ?_) (.singleton current)
        fun p hp hid q hq => ?_
      · rw [List.mem_singleton.1 he]
        exact List.mem_append_right _ (List.mem_singleton.2 rfl)
      · cases hq
        refine .inl ⟨rfl, ?_⟩
        obtain ⟨source, heq, hmem, -⟩ := h.chained client
        rw [heq, List.getLast?_map, Option.map_map] at hid
        obtain ⟨x, hx, hxid⟩ := Option.map_eq_some_iff.1 hid
        have hle := id_le h.holds.numbered (hmem x (List.mem_of_getLast? hx))
        have hcurrent : current.deliveryId = s.published.length + 1 := h.holds.next
        have hxp : x.2.deliveryId = p.deliveryId := hxid
        omega
    · rw [List.append_nil]
      exact (h.chained client).mono
  | nothing hnone =>
    simp only [EventReplayBuffer.newlyPublished_self, List.append_nil, Option.some.injEq] at hstep
    subst hstep
    exact ⟨h.holds, hclients _ _ h.chained (h.chained client)⟩
  | events hcursor hown hdrop hchain =>
    rename_i n own rest k
    simp only [EventReplayBuffer.newlyPublished_self, List.append_nil, Option.some.injEq] at hstep
    subst hstep
    have hpublished : ∀ e ∈ own :: rest, e ∈ s.published := by
      intro e he
      rw [← hdrop, h.holds.events] at he
      exact List.mem_of_mem_drop (List.mem_of_mem_drop he)
    refine ⟨h.holds, hclients _ _ h.chained ((h.chained client).append version
      (fun e he => hpublished e (List.mem_cons_of_mem own he)) hchain.tail fun p hp hid q hq => ?_)⟩
    have hcur : some n = some p.deliveryId := hcursor.symm.trans hid
    obtain rfl : own = p := unique_id h.holds.numbered (hpublished own List.mem_cons_self) hp
      (hown.trans (Option.some.inj hcur))
    cases rest with
    | nil => cases hq
    | cons q' rest =>
      cases hq
      exact (List.isChain_cons_cons.1 hchain).1

theorem Sound.publish_appends (h : Sound contract s)
    (hvalid : validateSourceEvent contract e = .ok ()) (hstep : s.step contract (.publish e) = some t) :
    t.published = s.published ++ [⟨s.buffer.nextDeliveryId, e, false⟩] := by
  cases hstep
  simp only [EventReplayBuffer.publish]
  rcases EventReplayBuffer.publishLocked_cases contract s.buffer e false with ⟨error, hpublish⟩ | ⟨-, htype, hpublish⟩
  · simp [EventReplayBuffer.publishLocked, hvalid, bind, Except.bind, pure, Except.pure] at hpublish
  · rw [hpublish]
    simp only [(h.holds.push htype).1]

theorem Sound.replay_appends (h : Sound contract s)
    (hstep : s.step contract (.replay client version snapshot) = some t) :
    t.published = s.published ∨ t.published = s.published ++ [⟨s.buffer.nextDeliveryId, snapshot, true⟩] := by
  have hturn := h.holds.replay_turn contract (s.cursor client) version snapshot
  simp only [Service.step] at hstep
  generalize s.buffer.replay contract (s.cursor client) version snapshot = answer at hturn hstep
  cases hstep
  cases hturn with
  | resync hpublish _ =>
    rcases EventReplayBuffer.publishLocked_cases contract s.buffer snapshot true with ⟨error, herror⟩ | ⟨-, htype, hok⟩
    · rw [herror] at hpublish
      cases hpublish
    · rw [hok] at hpublish
      cases hpublish
      exact .inr (congrArg (s.published ++ ·) (h.holds.push htype).1)
  | nothing _ => exact .inl (by simp only [EventReplayBuffer.newlyPublished_self, List.append_nil])
  | events _ _ _ _ => exact .inl (by simp only [EventReplayBuffer.newlyPublished_self, List.append_nil])

/-- After a call the last event of the client is the newest one. -/
theorem Sound.replay_newest (h : Sound contract s) (hswap : ∀ e ∈ s.published, e.sourceEvent.type ≠ .safeSwap)
    (hvalid : validateSourceEvent contract snapshot = .ok ()) (htype : snapshot.type = .snapshot)
    (hstep : s.step contract (.replay client version snapshot) = some t) :
    ∃ e, t.published.getLast? = some e ∧ t.cursor client = some e.deliveryId := by
  have hsound := h.replay hstep
  have hnewest : t.published.getLast? = t.buffer.events.getLast? := by
    rw [hsound.holds.events, recent, List.getLast?_drop]
    have hpos := t.buffer.capacity_pos
    split
    · rw [List.getLast?_eq_none_iff, ← List.length_eq_zero_iff]
      omega
    · rfl
  rw [hnewest]
  have hreplay : ∃ delivered, EventReplayBuffer.Current (s.cursor client)
      (s.buffer.replay contract (s.cursor client) version snapshot) delivered :=
    h.holds.replay_current hswap hvalid htype
  obtain ⟨delivered, hreturned, e, he, hcurrent⟩ := hreplay
  simp only [Service.step] at hstep
  generalize s.buffer.replay contract (s.cursor client) version snapshot = answer at hstep hreturned he
  obtain ⟨result, buffer⟩ := answer
  have hreceived : t.received client = s.received client ++ delivered := by
    cases hstep
    rcases hreturned with ⟨rfl, rfl⟩ | rfl <;> exact Function.update_self ..
  have hbuffer : t.buffer = buffer := by
    cases hstep
    rfl
  refine ⟨e, hbuffer ▸ he, ?_⟩
  rw [Service.cursor, hreceived, ← hcurrent, List.getLast?_append, Service.cursor]
  cases delivered.getLast? <;> rfl

theorem Sound.gapFree (h : Sound contract s) : GapFree contract s where
  consecutive i e first he hfirst := by
    rw [List.head?_eq_getElem?] at hfirst
    have hi := h.holds.window i e he
    have h0 := h.holds.window 0 first hfirst
    omega
  addressed _ _ _ hfirst hlast hge hle := h.holds.addressed hfirst hlast hge hle
  increasing client := (h.chained client).increasing
  chained := h.chained
  snapshots := h.holds.snapshots
  numbered := h.holds.numbered
  publish_unchanged e error herror := by
    have hpublish : s.buffer.publishLocked contract e false = .error error := by
      rw [EventReplayBuffer.publishLocked, herror]
      rfl
    simp only [Service.step, EventReplayBuffer.publish, hpublish, EventReplayBuffer.newlyPublished_self, List.append_nil]
  snapshot_unchanged client version snapshot error herror t ht := by
    have hturn := h.holds.replay_turn contract (s.cursor client) version snapshot
    simp only [Service.step] at ht
    generalize s.buffer.replay contract (s.cursor client) version snapshot = answer at hturn ht ⊢
    cases hturn with
    | resync hpublish _ =>
      rw [EventReplayBuffer.publishLocked, herror] at hpublish
      cases hpublish
    | nothing hnone =>
      simp only [EventReplayBuffer.newlyPublished_self, List.append_nil, Option.some.injEq] at ht
      subst ht
      exact ⟨rfl, rfl, fun _ => by rw [Function.update_eq_self]⟩
    | events hcursor hown hdrop hchain =>
      simp only [EventReplayBuffer.newlyPublished_self, List.append_nil, Option.some.injEq] at ht
      subst ht
      exact ⟨rfl, rfl, fun hnone => absurd rfl (hnone _)⟩

/-- The replay is free of gaps in every run. -/
theorem replay_gap_free (contract : Contract Data) {capacity : ℕ} (h : 0 < capacity)
    {actions : List (ServiceAction Client Data)} {s : Service Client Data}
    (hrun : run (fun s a => s.step contract a) (init capacity h) actions = some s) : GapFree contract s := by
  refine Sound.gapFree (run_invariant (fun s a t hs hstep => ?_) (init_sound capacity h) hrun)
  cases a with
  | publish e => exact hs.publish hstep
  | replay client version snapshot => exact hs.replay hstep

/-- A contract under which all data is valid and stays as it is. -/
def openContract : Contract Unit where
  finite _ := true
  conforms _ := true
  snapshotData _ _ _ _ := .ok ()
  stateData _ := .ok ()
  progressData _ := .ok ()
  diagnosticData _ := .ok ()
  safeSwapReceipt _ := .ok ()
  receiptSessionId _ := ""
  projectSnapshotData _ _ := ()

/-- The source at a revision. -/
def sourceAt (type : EventType) (revision : ℤ) : SourceEvent Unit where
  authorityEpoch := "0a1b2c3d-0000-4000-8000-00000000000f"
  sourceRevision := revision
  type := type
  occurredAt := "2026-01-02T03:04:05Z"
  sessionId := some "0a1b2c3d-0000-7000-8000-00000000000f"
  data := ()

/-- Two clients, of which the second makes the first one continue after its snapshot; the state
event of revision 5 is skipped, and the first client gets a snapshot in its place. -/
def sampleCalls : List (ServiceAction Bool Unit) :=
  [.replay true .v4 (sourceAt .snapshot 1), .publish (sourceAt .state 2), .replay true .v4 (sourceAt .snapshot 2),
    .replay false .v2 (sourceAt .snapshot 2), .publish (sourceAt .state 3), .replay true .v4 (sourceAt .snapshot 3),
    .publish (sourceAt .state 5), .replay true .v4 (sourceAt .snapshot 6)]

theorem replay_gap_free_sample : ∃ s, run (fun s a => s.step openContract a) (init 3 (by decide)) sampleCalls = some s ∧
    (s.received true).map (·.deliveryId) = [1, 2, 3, 4, 6] ∧ GapFree openContract s := by
  have hrun : ∃ s, run (fun s a => s.step openContract a) (init 3 (by decide)) sampleCalls = some s ∧
      (s.received true).map (·.deliveryId) = [1, 2, 3, 4, 6] := ⟨_, rfl, rfl⟩
  obtain ⟨s, hs, hids⟩ := hrun
  exact ⟨s, hs, hids, replay_gap_free openContract (by decide) hs⟩

end Service

end Service

end Conductor.Api
