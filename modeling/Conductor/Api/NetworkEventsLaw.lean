import Conductor.Lib.Concat
import Conductor.Api.NetworkEvents
import Mathlib.Algebra.Order.Group.Nat
import Mathlib.Data.List.Pairwise

/-! What the clients of the network events receive. The buffer is the last part of all that was
published, whose ids increase and whose revisions do not go back within an epoch. An epoch that another
one has followed is stale for ever, so that the buffer shows the current status of the controller
unless the fallback projection has followed the controller's epoch. -/

namespace Conductor.NetworkEvents

open Recent Runs

variable {ι : Type}

/-! ### Statuses and events -/

@[simp] theorem Status.sourceEvent_epoch (s : Status ι) (f : Bool) :
    (s.sourceEvent f).authorityEpoch = s.authorityEpoch := by
  unfold sourceEvent
  split <;> rfl

@[simp] theorem Status.sourceEvent_revision (s : Status ι) (f : Bool) :
    (s.sourceEvent f).sourceRevision = s.sourceRevision := by
  unfold sourceEvent
  split <;> rfl

/-- The later event has a greater id, and no smaller revision if it is of the same epoch. -/
def Later (a b : SseEvent ι) : Prop :=
  a.deliveryId < b.deliveryId ∧
    (b.sourceEvent.authorityEpoch = a.sourceEvent.authorityEpoch →
      a.sourceEvent.sourceRevision ≤ b.sourceEvent.sourceRevision)

theorem pairwise_of_ids {R : SseEvent ι → SseEvent ι → Prop} {l : List (SseEvent ι)} (hl : l.Pairwise Later)
    (hr : l.Pairwise R) {a b : SseEvent ι} (ha : a ∈ l) (hb : b ∈ l) (h : a.deliveryId < b.deliveryId) : R a b := by
  obtain ⟨i, hi, rfl⟩ := List.mem_iff_getElem.1 ha
  obtain ⟨j, hj, rfl⟩ := List.mem_iff_getElem.1 hb
  rcases lt_trichotomy i j with hij | rfl | hij
  · exact List.pairwise_iff_getElem.1 hr i j hi hj hij
  · exact absurd h (lt_irrefl _)
  · exact absurd (List.pairwise_iff_getElem.1 hl j i hj hi hij).1 (not_lt.2 h.le)

/-! ### The buffer -/

/-- The buffer has the last part of what was published. -/
structure Holds (b : Buffer ι) (published : List (SseEvent ι)) : Prop where
  events : b.events = recent b.capacity published
  later : published.Pairwise Later
  next : ∀ e ∈ published, e.deliveryId < b.nextDeliveryId
  newest : ∀ s ∈ b.lastStatus, ∃ e f, published.getLast? = some e ∧ e.sourceEvent = s.sourceEvent f
  fresh : b.lastStatus = none → published = [] ∧ b.retiredAuthorityEpochs = []
  current : ∀ s ∈ b.lastStatus, s.authorityEpoch ∉ b.retiredAuthorityEpochs
  epochs : ∀ e ∈ published, ∀ s ∈ b.lastStatus,
    e.sourceEvent.authorityEpoch = s.authorityEpoch ∧ e.sourceEvent.sourceRevision ≤ s.sourceRevision ∨
      e.sourceEvent.authorityEpoch ∈ b.retiredAuthorityEpochs

theorem holds_init (capacity : ℕ) (h : 0 < capacity) (n : ℕ) : Holds (Buffer.init capacity h n : Buffer ι) [] := by
  refine ⟨(recent_nil capacity).symm, .nil, ?_, ?_, fun _ => ⟨rfl, rfl⟩, ?_, ?_⟩
  · rintro e ⟨⟩
  · rintro e ⟨⟩
  · rintro s ⟨⟩
  · rintro e ⟨⟩

/-- A status that may follow: of the last epoch and not older, or of an epoch that is not retired. -/
def Fresh (b : Buffer ι) (status : Status ι) : Prop :=
  ∀ last ∈ b.lastStatus,
    if status.authorityEpoch = last.authorityEpoch then last.sourceRevision ≤ status.sourceRevision
    else status.authorityEpoch ∉ b.retiredAuthorityEpochs

/-- The event with the id `n`. -/
def Status.event (s : Status ι) (n : ℕ) (f : Bool) : SseEvent ι := ⟨n, s.sourceEvent f⟩

/-- The buffer that published a status as the event with the id `n`. -/
def Buffer.publishAt (b : Buffer ι) (n : ℕ) (status : Status ι) (f : Bool) : Buffer ι :=
  ({ b with nextDeliveryId := n }.publish status f).2

theorem retired_publishAt (b : Buffer ι) (n : ℕ) (status : Status ι) (f : Bool) (epoch : String) :
    epoch ∈ (b.publishAt n status f).retiredAuthorityEpochs ↔
      epoch ∈ b.retiredAuthorityEpochs ∨
        ∃ last ∈ b.lastStatus, last.authorityEpoch ≠ status.authorityEpoch ∧ epoch = last.authorityEpoch := by
  simp only [Buffer.publishAt, Buffer.publish]
  cases b.lastStatus with
  | none => simp
  | some last =>
    simp only [Option.mem_some_iff, exists_eq_left']
    by_cases h : last.authorityEpoch ≠ status.authorityEpoch
    · rw [if_pos h, List.mem_cons]
      tauto
    · rw [if_neg h]
      tauto

variable {published : List (SseEvent ι)}

theorem Holds.publishAt {b : Buffer ι} (h : Holds b published) {status : Status ι}
    (hfresh : Fresh b status) {n : ℕ} (hn : b.nextDeliveryId ≤ n) (f : Bool) :
    Holds (b.publishAt n status f) (published ++ [status.event n f]) := by
  have hids : ∀ e ∈ published, e.deliveryId < n := fun e he => (h.next e he).trans_le hn
  have hlast : (b.publishAt n status f).lastStatus = some status := rfl
  constructor
  · change pushBounded b.capacity b.events (status.event n f) = _
    rw [h.events, recent_push]
    rfl
  · refine List.pairwise_append.2 ⟨h.later, List.pairwise_singleton _ _, fun e he e' he' => ?_⟩
    rw [List.mem_singleton.1 he']
    refine ⟨hids e he, fun hepoch => ?_⟩
    rw [Status.event, Status.sourceEvent_epoch] at hepoch
    rw [Status.event, Status.sourceEvent_revision]
    cases hl : b.lastStatus with
    | none => rw [(h.fresh hl).1] at he; simp at he
    | some last =>
      have hf := hfresh last hl
      rcases h.epochs e he last hl with ⟨hsame, hle⟩ | hretired
      · rw [if_pos (hepoch.trans hsame)] at hf
        exact hle.trans hf
      · split at hf
        · rename_i heq
          rw [← hepoch, heq] at hretired
          exact absurd hretired (h.current last hl)
        · rw [← hepoch] at hretired
          exact absurd hretired hf
  · intro e he
    change e.deliveryId < n + 1
    rcases mem_concat.1 he with he | rfl
    · exact (hids e he).trans (Nat.lt_succ_self n)
    · exact Nat.lt_succ_self n
  · intro s hs
    rw [hlast, Option.mem_some_iff] at hs
    subst hs
    exact ⟨status.event n f, f, by rw [List.getLast?_append, List.getLast?_singleton, Option.some_or], rfl⟩
  · intro hnone
    rw [hlast] at hnone
    cases hnone
  · intro s hs
    rw [hlast, Option.mem_some_iff] at hs
    subst hs
    rw [retired_publishAt]
    rintro (hretired | ⟨last, hl, hne, heq⟩)
    · cases hl : b.lastStatus with
      | none => rw [(h.fresh hl).2] at hretired; simp at hretired
      | some last =>
        have hf := hfresh last hl
        split at hf
        · rename_i heq
          rw [heq] at hretired
          exact h.current last hl hretired
        · exact hf hretired
    · exact hne heq.symm
  · intro e he s hs
    rw [hlast, Option.mem_some_iff] at hs
    subst hs
    rw [retired_publishAt]
    rcases mem_concat.1 he with he | rfl
    · cases hl : b.lastStatus with
      | none => rw [(h.fresh hl).1] at he; simp at he
      | some last =>
        rcases h.epochs e he last hl with ⟨hsame, hle⟩ | hretired
        · by_cases heq : last.authorityEpoch = status.authorityEpoch
          · have hf := hfresh last hl
            rw [if_pos heq.symm] at hf
            exact .inl ⟨hsame.trans heq, hle.trans hf⟩
          · exact .inr (.inr ⟨last, rfl, heq, hsame⟩)
        · exact .inr (.inl hretired)
    · exact .inl ⟨Status.sourceEvent_epoch status f, (Status.sourceEvent_revision status f).le⟩

/-! ### What is done with a status -/

section Offer

variable [DecidableEq ι]

/-- A status that the buffer does not publish. -/
def Settled (b : Buffer ι) (status : Status ι) : Prop := b.statusRelation status = .same ∨ b.statusRelation status = .stale

/-- The buffer leaves a status, or it publishes it; for a snapshot it publishes its last one again. -/
inductive Offered (b : Buffer ι) (status : Status ι) : Buffer ι → List (SseEvent ι) → Prop
  | kept (last : Status ι) (hlast : b.lastStatus = some last) (hsettled : Settled b status) : Offered b status b []
  | again (last : Status ι) (hlast : b.lastStatus = some last) (hsettled : Settled b status) (n : ℕ)
      (hn : b.nextDeliveryId ≤ n) : Offered b status (b.publishAt n last true) [last.event n true]
  | published (hnew : ¬Settled b status) (n : ℕ) (hn : b.nextDeliveryId ≤ n) (f : Bool) :
      Offered b status (b.publishAt n status f) [status.event n f]

variable {b : Buffer ι} {status : Status ι}

theorem settled_last (h : Settled b status) : ∃ last, b.lastStatus = some last := by
  unfold Settled Buffer.statusRelation at h
  cases hl : b.lastStatus with
  | none =>
    rw [hl] at h
    simp at h
  | some last => exact ⟨last, rfl⟩

theorem fresh_of_not_settled (h : ¬Settled b status) : Fresh b status := by
  intro last hl
  rw [Option.mem_def] at hl
  unfold Settled Buffer.statusRelation at h
  rw [hl] at h
  dsimp only at h
  split at h
  · rename_i heq
    rw [if_pos heq]
    by_contra hlt
    rw [if_pos (not_le.1 hlt)] at h
    exact h (.inr rfl)
  · rename_i hne
    rw [if_neg hne]
    intro hretired
    rw [if_pos hretired] at h
    exact h (.inr rfl)

omit [DecidableEq ι] in
theorem fresh_last {last : Status ι} (h : b.lastStatus = some last) : Fresh b last := by
  intro l hl
  rw [h, Option.mem_some_iff] at hl
  subst hl
  rw [if_pos rfl]

theorem publishSnapshot_offered (b : Buffer ι) (status : Status ι) (afterCursor : Option ℕ) :
    ∃ event, (b.publishSnapshot status afterCursor).1 = event ∧
      Offered b status (b.publishSnapshot status afterCursor).2 [event] ∧
      (∃ s : Status ι, event.sourceEvent = s.snapshotEvent) ∧ ∀ k ∈ afterCursor, k < event.deliveryId := by
  set n := if afterCursor.any (b.nextDeliveryId ≤ ·) then afterCursor.getD 0 + 1 else b.nextDeliveryId with hn
  have hnext : b.nextDeliveryId ≤ n := by
    rw [hn]
    cases afterCursor with
    | none => simp
    | some k =>
      simp only [Option.any_some, Option.getD_some]
      split
      · rename_i hle
        exact (of_decide_eq_true hle).trans (Nat.le_succ k)
      · exact le_rfl
  have hk : ∀ k ∈ afterCursor, k < n := by
    intro k hk
    rw [Option.mem_def] at hk
    rw [hn, hk]
    simp only [Option.any_some, Option.getD_some]
    split
    · exact Nat.lt_succ_self k
    · rename_i hle
      exact not_le.1 fun h => hle (decide_eq_true h)
  by_cases hsettled : Settled b status
  · obtain ⟨last, hl⟩ := settled_last hsettled
    have heq : b.publishSnapshot status afterCursor = (last.event n true, b.publishAt n last true) := by
      have hselected : b.selectedStatus status = last := by
        unfold Buffer.selectedStatus
        rcases hsettled with h | h
        · rw [h, hl]
        · rw [h, hl]
      unfold Buffer.publishSnapshot
      rw [hselected]
      rfl
    rw [heq]
    exact ⟨_, rfl, .again last hl hsettled n hnext, ⟨last, rfl⟩, hk⟩
  · have heq : b.publishSnapshot status afterCursor = (status.event n true, b.publishAt n status true) := by
      have hselected : b.selectedStatus status = status := by
        unfold Settled at hsettled
        unfold Buffer.selectedStatus
        cases hrelation : b.statusRelation status with
        | same => exact absurd (.inl hrelation) hsettled
        | stale => exact absurd (.inr hrelation) hsettled
        | new => rfl
        | projection => rfl
        | newAuthority => rfl
      unfold Buffer.publishSnapshot
      rw [hselected]
      rfl
    rw [heq]
    exact ⟨_, rfl, .published hsettled n hnext true, ⟨status, rfl⟩, hk⟩

theorem observe_offered (b : Buffer ι) (status : Status ι) :
    ∃ more, Offered b status (b.observe status) more ∧
      ((b.observe status).events = b.events ∧ more = [] ∨
        ∃ event, more = [event] ∧ (b.observe status).events = pushBounded b.capacity b.events event) := by
  by_cases hsettled : Settled b status
  · obtain ⟨last, hl⟩ := settled_last hsettled
    have heq : b.observe status = b := by
      unfold Buffer.observe
      rcases hsettled with h | h
      · rw [h]
      · rw [h]
    rw [heq]
    exact ⟨[], .kept last hl hsettled, .inl ⟨rfl, rfl⟩⟩
  · obtain ⟨f, heq⟩ : ∃ f, b.observe status = b.publishAt b.nextDeliveryId status f := by
      unfold Settled at hsettled
      unfold Buffer.observe
      cases hrelation : b.statusRelation status with
      | same => exact absurd (.inl hrelation) hsettled
      | stale => exact absurd (.inr hrelation) hsettled
      | new => exact ⟨false, rfl⟩
      | projection => exact ⟨true, rfl⟩
      | newAuthority => exact ⟨true, rfl⟩
    rw [heq]
    exact ⟨_, .published hsettled _ le_rfl f, .inr ⟨_, rfl, rfl⟩⟩

theorem Holds.offered {b' : Buffer ι} {more : List (SseEvent ι)} (h : Holds b published)
    (ho : Offered b status b' more) : Holds b' (published ++ more) := by
  cases ho with
  | kept last hlast hsettled =>
    rw [List.append_nil]
    exact h
  | again last hlast hsettled n hn => exact h.publishAt (fresh_last hlast) hn true
  | published hnew n hn f => exact h.publishAt (fresh_of_not_settled hnew) hn f

end Offer

/-! ### The clients -/

/-- What a client has is published, and it goes on behind it. -/
structure Follows (published : List (SseEvent ι)) (c : Client ι) : Prop where
  received : ∀ e ∈ c.received, e ∈ published
  ordered : c.received.Pairwise Later
  cursor : ∀ e ∈ c.received, ∃ k ∈ c.cursor, e.deliveryId ≤ k
  first : ∀ f ∈ c.first, ∃ k ∈ c.cursor, f ≤ k
  behind : ∀ f ∈ c.first, ∀ e ∈ c.received, f < e.deliveryId

theorem Follows.mono {more : List (SseEvent ι)} {c : Client ι} (h : Follows published c) :
    Follows (published ++ more) c :=
  { h with received := fun e he => List.mem_append_left _ (h.received e he) }

theorem Follows.receive {c : Client ι} (h : Follows published c)
    (hp : published.Pairwise Later) {delivered : List (SseEvent ι)} (hd : delivered.Sublist published)
    (hk : ∀ k ∈ c.cursor, ∀ e ∈ delivered, k < e.deliveryId) : Follows published (c.receive delivered) := by
  have hordered : delivered.Pairwise Later := hp.sublist hd
  have hlast : ∀ e ∈ delivered, ∃ l, delivered.getLast? = some l ∧ e.deliveryId ≤ l.deliveryId := by
    intro e he
    obtain ⟨l, hl⟩ : ∃ l, delivered.getLast? = some l := by
      cases hd : delivered.getLast? with
      | none => rw [List.getLast?_eq_none_iff.1 hd] at he; simp at he
      | some l => exact ⟨l, rfl⟩
    refine ⟨l, hl, ?_⟩
    obtain ⟨init, rfl⟩ := List.getLast?_eq_some_iff.1 hl
    rcases mem_concat.1 he with he | he
    · exact ((List.pairwise_append.1 hordered).2.2 e he l (List.mem_singleton_self l)).1.le
    · rw [he]
  -- the cursor does not go back
  have hcursor : ∀ k ∈ c.cursor, ∃ k' ∈ (c.receive delivered).cursor, k ≤ k' := by
    intro k hkc
    cases hdl : delivered.getLast? with
    | none => exact ⟨k, by rw [Client.receive, hdl]; exact hkc, le_rfl⟩
    | some l =>
      refine ⟨l.deliveryId, by rw [Client.receive, hdl]; rfl, ?_⟩
      exact (hk k hkc l (List.mem_of_getLast? hdl)).le
  constructor
  · intro e he
    rcases List.mem_append.1 he with he | he
    · exact h.received e he
    · exact hd.subset he
  · refine List.pairwise_append.2 ⟨h.ordered, hordered, fun e he e' he' => ?_⟩
    obtain ⟨k, hkc, hle⟩ := h.cursor e he
    exact pairwise_of_ids hp hp (h.received e he) (hd.subset he') (hle.trans_lt (hk k hkc e' he'))
  · intro e he
    rcases List.mem_append.1 he with he | he
    · obtain ⟨k, hkc, hle⟩ := h.cursor e he
      obtain ⟨k', hk', hle'⟩ := hcursor k hkc
      exact ⟨k', hk', hle.trans hle'⟩
    · obtain ⟨l, hl, hle⟩ := hlast e he
      exact ⟨l.deliveryId, by rw [Client.receive, hl]; rfl, hle⟩
  · intro f hf
    obtain ⟨k, hkc, hle⟩ := h.first f hf
    obtain ⟨k', hk', hle'⟩ := hcursor k hkc
    exact ⟨k', hk', hle.trans hle'⟩
  · intro f hf e he
    rcases List.mem_append.1 he with he | he
    · exact h.behind f hf e he
    · obtain ⟨k, hkc, hle⟩ := h.first f hf
      exact hle.trans_lt (hk k hkc e he)

/-- What a call delivers to a client with a cursor: all that the buffer has behind the cursor's own event,
or a snapshot. -/
def Delivers (b b' : Buffer ι) (cursor : Option ℕ) (delivered : List (SseEvent ι)) : Prop :=
  match cursor with
  | none => ∃ e, delivered = [e] ∧ ∃ s : Status ι, e.sourceEvent = s.snapshotEvent
  | some k =>
    if b.containsCursor k then delivered = b'.eventsAfterLocked k ∧ b.eventsAfterLocked k <+: delivered
    else ∃ e, delivered = [e] ∧ (∃ s : Status ι, e.sourceEvent = s.snapshotEvent) ∧ k < e.deliveryId

/-- The cursor of a client that is served is the newest event. -/
def CaughtUp (b : Buffer ι) (cursor : Option ℕ) (delivered : List (SseEvent ι)) : Prop :=
  ∃ e, b.events.getLast? = some e ∧ (delivered.getLast?.map (·.deliveryId)).or cursor = some e.deliveryId

section Serve

variable {b : Buffer ι} {published : List (SseEvent ι)}

theorem Holds.newest_event (h : Holds b published) : b.events.getLast? = published.getLast? := by
  rw [h.events, recent]
  cases hp : published with
  | nil => rw [List.drop_nil]
  | cons e rest =>
    rw [List.getLast?_drop, if_neg]
    have := b.capacity_pos
    simp only [List.length_cons]
    omega

theorem Holds.sublist (h : Holds b published) : b.events.Sublist published := by
  rw [h.events]
  exact List.drop_sublist _ _

/-- What the buffer has behind an event that it still has is not lost with the next event. -/
theorem Holds.prefix_push (h : Holds b published) {k : ℕ} (hk : b.containsCursor k = true) (event : SseEvent ι) :
    b.eventsAfterLocked k <+: (pushBounded b.capacity b.events event).filter (k < ·.deliveryId) := by
  have hpairwise := h.later.sublist h.sublist
  have hlength : b.events.length ≤ b.capacity := by
    rw [h.events, length_recent]
    exact min_le_left _ _
  unfold Buffer.eventsAfterLocked pushBounded
  obtain ⟨own, hown, rfl⟩ : ∃ own ∈ b.events, own.deliveryId = k := by
    simpa [Buffer.containsCursor] using hk
  cases hevents : b.events with
  | nil => rw [hevents] at hown; simp at hown
  | cons oldest rest =>
    rw [hevents] at hown hlength hpairwise
    obtain hd | hd : (oldest :: rest).length + 1 - b.capacity = 0 ∨ (oldest :: rest).length + 1 - b.capacity = 1 := by
      omega
    · rw [hd, List.drop_zero, List.filter_append]
      exact List.prefix_append _ _
    · -- the oldest event is not behind the cursor's own one
      have hold : ¬own.deliveryId < oldest.deliveryId := by
        rcases List.mem_cons.1 hown with rfl | hown
        · exact lt_irrefl _
        · exact not_lt.2 ((List.pairwise_cons.1 hpairwise).1 own hown).1.le
      rw [hd, List.cons_append, List.drop_one, List.tail_cons, List.filter_append,
        List.filter_cons_of_neg (by simpa using hold)]
      exact List.prefix_append _ _

/-- The newest event is delivered, or it is the cursor's own one. -/
theorem Holds.caughtUp {b' : Buffer ι} {more : List (SseEvent ι)} (h : Holds b published)
    (h' : Holds b' (published ++ more)) {k : ℕ} (hk : b.containsCursor k = true) :
    CaughtUp b' (some k) (b'.eventsAfterLocked k) := by
  obtain ⟨own, hown, rfl⟩ : ∃ own ∈ b.events, own.deliveryId = k := by
    simpa [Buffer.containsCursor] using hk
  have hmem : own ∈ published ++ more := List.mem_append_left _ (h.sublist.subset hown)
  obtain ⟨x, hx⟩ : ∃ x, b'.events.getLast? = some x := by
    rw [h'.newest_event]
    cases hl : (published ++ more).getLast? with
    | none => rw [List.getLast?_eq_none_iff.1 hl] at hmem; simp at hmem
    | some x => exact ⟨x, rfl⟩
  refine ⟨x, hx, ?_⟩
  obtain ⟨init, hinit⟩ := List.getLast?_eq_some_iff.1 hx
  have hx' := hx
  rw [h'.newest_event] at hx'
  obtain ⟨all, hall⟩ := List.getLast?_eq_some_iff.1 hx'
  have hle : own.deliveryId ≤ x.deliveryId := by
    have hpairwise := h'.later
    rw [hall] at hmem hpairwise
    rcases mem_concat.1 hmem with hmem | hmem
    · exact ((List.pairwise_append.1 hpairwise).2.2 own hmem x (List.mem_singleton_self x)).1.le
    · rw [hmem]
  unfold Buffer.eventsAfterLocked
  rcases hle.lt_or_eq with hlt | heq
  · rw [hinit, List.filter_append, List.filter_cons_of_pos (by simpa using hlt), List.filter_nil, List.getLast?_append,
      List.getLast?_singleton]
    rfl
  · have hnone : b'.events.filter (own.deliveryId < ·.deliveryId) = [] := by
      rw [List.filter_eq_nil_iff]
      intro e he
      have hpairwise := h'.later.sublist h'.sublist
      rw [hinit] at he hpairwise
      rcases mem_concat.1 he with he | rfl
      · have := ((List.pairwise_append.1 hpairwise).2.2 e he x (List.mem_singleton_self x)).1
        simp only [decide_eq_true_eq, not_lt]
        omega
      · simp only [decide_eq_true_eq, not_lt]
        omega
    rw [hnone, heq]
    rfl

variable [DecidableEq ι]

/-- What a turn of a client does. -/
structure Served (b : Buffer ι) (published : List (SseEvent ι)) (cursor : Option ℕ) (status : Status ι)
    (delivered : List (SseEvent ι)) (b' : Buffer ι) (more : List (SseEvent ι)) : Prop where
  offered : Offered b status b' more
  delivers : Delivers b b' cursor delivered
  sublist : delivered.Sublist (published ++ more)
  behind : ∀ k ∈ cursor, ∀ e ∈ delivered, k < e.deliveryId
  caughtUp : CaughtUp b' cursor delivered

omit [DecidableEq ι] in
theorem Holds.snapshot_caughtUp {b' : Buffer ι} {event : SseEvent ι}
    (h' : Holds b' (published ++ [event])) (cursor : Option ℕ) : CaughtUp b' cursor [event] := by
  refine ⟨event, ?_, rfl⟩
  rw [h'.newest_event, List.getLast?_append, List.getLast?_singleton, Option.some_or]

theorem Holds.eventsAfter (h : Holds b published) (k : ℕ) (status : Status ι) :
    ∃ more, Served b published (some k) status (b.eventsAfter k status).1 (b.eventsAfter k status).2 more := by
  by_cases hk : b.containsCursor k = true
  · obtain ⟨more, ho, hevents⟩ := observe_offered b status
    have h' := h.offered ho
    have heq : b.eventsAfter k status = ((b.observe status).eventsAfterLocked k, b.observe status) := by
      unfold Buffer.eventsAfter
      rw [hk]
      rfl
    rw [heq]
    have hsub : ((b.observe status).eventsAfterLocked k).Sublist (published ++ more) :=
      List.filter_sublist.trans h'.sublist
    refine ⟨more, ho, ?_, hsub, ?_, h.caughtUp h' hk⟩
    · unfold Delivers
      dsimp only
      rw [if_pos hk]
      refine ⟨rfl, ?_⟩
      rcases hevents with ⟨hsame, -⟩ | ⟨event, -, hpush⟩
      · have heq : (b.observe status).eventsAfterLocked k = b.eventsAfterLocked k := by
          unfold Buffer.eventsAfterLocked
          rw [hsame]
        exact ⟨[], by rw [List.append_nil, heq]⟩
      · rw [show (b.observe status).eventsAfterLocked k =
          (pushBounded b.capacity b.events event).filter (k < ·.deliveryId) by
          unfold Buffer.eventsAfterLocked; rw [hpush]]
        exact h.prefix_push hk event
    · intro k' hk' e he
      rw [Option.mem_some_iff] at hk'
      subst hk'
      exact of_decide_eq_true (List.mem_filter.1 he).2
  · obtain ⟨event, hevent, ho, hsnapshot, hlt⟩ := publishSnapshot_offered b status (some k)
    have h' := h.offered ho
    have heq : b.eventsAfter k status = ([event], (b.publishSnapshot status (some k)).2) := by
      unfold Buffer.eventsAfter
      rw [if_pos (by simpa using hk), ← hevent]
    rw [heq]
    refine ⟨[event], ho, ?_, List.sublist_append_right _ _, ?_, h'.snapshot_caughtUp _⟩
    · unfold Delivers
      dsimp only
      rw [if_neg hk]
      exact ⟨event, rfl, hsnapshot, hlt k rfl⟩
    · intro k' hk' e he
      rw [List.mem_singleton.1 he]
      exact hlt k' hk'

theorem Holds.replay (h : Holds b published) (cursor : Option ℕ) (status : Status ι) :
    ∃ more, Served b published cursor status (b.replay cursor status).1 (b.replay cursor status).2 more := by
  cases cursor with
  | some k => exact h.eventsAfter k status
  | none =>
    obtain ⟨event, hevent, ho, hsnapshot, -⟩ := publishSnapshot_offered b status none
    have h' := h.offered ho
    have heq : b.replay none status = ([event], (b.publishSnapshot status none).2) := by
      unfold Buffer.replay
      rw [← hevent]
    rw [heq]
    exact ⟨[event], ho, ⟨event, rfl, hsnapshot⟩, List.sublist_append_right _ _, fun k hk => (nomatch hk),
      h'.snapshot_caughtUp _⟩

end Serve

/-! ### The system -/

section System

variable [DecidableEq ι]

/-- The status that a call is made with. -/
def Act.poll? : Act ι → Option (Poll ι)
  | .publish _ => none
  | .connect _ => none
  | .observe poll => some poll
  | .replay _ poll => some poll
  | .eventsAfter _ poll => some poll

structure Inv (s : System ι) (published : List (SseEvent ι)) : Prop where
  holds : Holds s.buffer published
  clients : ∀ c ∈ s.clients, Follows published c
  authority : ∀ p ∈ s.published, p.authorityEpoch ≠ s.fallbackEpoch
  ascending : s.published.Pairwise fun p q => q.authorityEpoch = p.authorityEpoch ∧ p.sourceRevision ≤ q.sourceRevision
  sources : ∀ l ∈ s.buffer.lastStatus, l ∈ s.published ∨ l.authorityEpoch = s.fallbackEpoch

omit [DecidableEq ι] in
theorem init_inv (fallbackEpoch : String) (capacity : ℕ) (h : 0 < capacity) (n : ℕ) :
    Inv (System.init fallbackEpoch capacity h n : System ι) [] := by
  refine ⟨holds_init capacity h n, ?_, ?_, .nil, ?_⟩
  · rintro c ⟨⟩
  · rintro p ⟨⟩
  · rintro l ⟨⟩

/-- A client that is served, and the others as they were. -/
structure Turn (s s' : System ι) (i : ℕ) (c : Client ι) (published : List (SseEvent ι)) (status : Status ι)
    (more : List (SseEvent ι)) : Prop where
  client : s.clients[i]? = some c
  served : ∃ delivered, Served s.buffer published c.cursor status delivered s'.buffer more ∧
    s'.clients = s.clients.set i (c.receive delivered)

/-- A call with a status offers it to the buffer, and serves a client or none. -/
structure Called (s s' : System ι) (a : Act ι) (published : List (SseEvent ι)) (status : Status ι)
    (more : List (SseEvent ι)) : Prop where
  polled : ∃ poll, a.poll? = some poll ∧ s.poll poll = some status
  offered : Offered s.buffer status s'.buffer more
  controller : s'.published = s.published ∧ s'.fallbackEpoch = s.fallbackEpoch
  clients : s'.clients = s.clients ∨ ∃ i c, Turn s s' i c published status more
  turn : ∀ i, (∃ poll, a = .replay i poll ∨ a = .eventsAfter i poll) → ∃ c, Turn s s' i c published status more

variable {a : Act ι} {poll : Poll ι} {published : List (SseEvent ι)} {s s' : System ι} {status : Status ι}

theorem call_called {i : ℕ}
    {f : Buffer ι → Option ℕ → Status ι → Option (List (SseEvent ι) × Buffer ι)} (hcall : s.call i poll f = some s')
    (hf : ∀ cursor status r, f s.buffer cursor status = some r →
      ∃ more, Served s.buffer published cursor status r.1 r.2 more)
    (ha : a.poll? = some poll) (hi : ∀ j, (∃ poll, a = .replay j poll ∨ a = .eventsAfter j poll) → j = i) :
    ∃ status more, Called s s' a published status more := by
  obtain ⟨c, hc, hcall⟩ := Option.bind_eq_some_iff.1 hcall
  obtain ⟨status, hstatus, hcall⟩ := Option.bind_eq_some_iff.1 hcall
  obtain ⟨⟨delivered, b'⟩, hr, hcall⟩ := Option.bind_eq_some_iff.1 hcall
  cases hcall
  obtain ⟨more, hserved⟩ := hf _ _ _ hr
  have hturn : Turn s { s with buffer := b', clients := s.clients.set i (c.receive delivered) } i c published status more :=
    ⟨hc, delivered, hserved, rfl⟩
  refine ⟨status, more, ⟨poll, ha, hstatus⟩, hserved.offered, ⟨rfl, rfl⟩, .inr ⟨i, c, hturn⟩, fun j hj => ?_⟩
  obtain rfl := hi j hj
  exact ⟨c, hturn⟩

theorem step_called (h : Inv s published) (hstep : step s a = some s') (hpoll : a.poll? = some poll) :
    ∃ status more, Called s s' a published status more := by
  cases a with
  | publish status => cases hpoll
  | connect cursor => cases hpoll
  | observe poll =>
    obtain ⟨status, hstatus, rfl⟩ := Option.map_eq_some_iff.1 hstep
    obtain ⟨more, ho, -⟩ := observe_offered s.buffer status
    exact ⟨status, more, ⟨poll, rfl, hstatus⟩, ho, ⟨rfl, rfl⟩, .inl rfl, fun i hi => by simp at hi⟩
  | replay i poll =>
    have hcall : s.call i poll (fun b cursor status => some (b.replay cursor status)) = some s' := hstep
    refine call_called hcall (fun cursor status r hr => ?_) rfl fun j hj => ?_
    · cases hr
      exact h.holds.replay cursor status
    · obtain ⟨_, hj | hj⟩ := hj
      · exact (Act.replay.inj hj).1.symm
      · cases hj
  | eventsAfter i poll =>
    have hcall : s.call i poll (fun b cursor status => cursor.map (b.eventsAfter · status)) = some s' := hstep
    refine call_called hcall (fun cursor status r hr => ?_) rfl fun j hj => ?_
    · obtain ⟨k, rfl, rfl⟩ := Option.map_eq_some_iff.1 hr
      exact h.holds.eventsAfter k status
    · obtain ⟨_, hj | hj⟩ := hj
      · cases hj
      · exact (Act.eventsAfter.inj hj).1.symm

omit [DecidableEq ι] in
theorem polled_source (h : s.poll poll = some status) :
    status ∈ s.published ∨ status.authorityEpoch = s.fallbackEpoch := by
  cases poll with
  | published index => exact .inl (List.mem_of_getElem? h)
  | fallback other =>
    unfold System.poll at h
    dsimp only at h
    split at h
    · rename_i hf
      cases h
      exact .inr hf.1
    · cases h

/-- The last status of the buffer is the one that was offered, or as it was. -/
theorem Offered.last {b b' : Buffer ι} {more : List (SseEvent ι)} (h : Offered b status b' more) :
    b'.lastStatus = some status ∨ b'.lastStatus = b.lastStatus := by
  cases h with
  | kept last hlast hsettled => exact .inr rfl
  | again last hlast hsettled n hn => exact .inr hlast.symm
  | published hnew n hn f => exact .inl rfl

theorem Inv.called {more : List (SseEvent ι)}
    (h : Inv s published) (hc : Called s s' a published status more) : Inv s' (published ++ more) := by
  have h' := h.holds.offered hc.offered
  obtain ⟨hpublished, hfallback⟩ := hc.controller
  refine ⟨h', fun c hmem => ?_, ?_, ?_, fun l hl => ?_⟩
  · rcases hc.clients with hsame | ⟨i, c', ht⟩
    · rw [hsame] at hmem
      exact (h.clients c hmem).mono
    · obtain ⟨delivered, hserved, hset⟩ := ht.served
      rw [hset] at hmem
      rcases List.mem_or_eq_of_mem_set hmem with hmem | rfl
      · exact (h.clients c hmem).mono
      · exact ((h.clients c' (List.mem_of_getElem? ht.client)).mono).receive h'.later hserved.sublist hserved.behind
  · rw [hpublished, hfallback]
    exact h.authority
  · rw [hpublished]
    exact h.ascending
  · rw [hpublished, hfallback]
    rcases hc.offered.last with hlast | hlast
    · rw [hlast, Option.mem_some_iff] at hl
      obtain ⟨poll, -, hpoll⟩ := hc.polled
      exact hl ▸ polled_source hpoll
    · rw [hlast] at hl
      exact h.sources l hl

/-- A step without a status leaves the buffer alone. -/
theorem Inv.uncalled (h : Inv s published)
    (hstep : step s a = some s') (hpoll : a.poll? = none) : Inv s' published ∧ s'.buffer = s.buffer ∧
      s'.fallbackEpoch = s.fallbackEpoch := by
  cases a with
  | observe poll => cases hpoll
  | replay i poll => cases hpoll
  | eventsAfter i poll => cases hpoll
  | connect cursor =>
    cases hstep
    refine ⟨{ h with clients := fun c hc => ?_ }, rfl, rfl⟩
    rcases mem_concat.1 hc with hc | rfl
    · exact h.clients c hc
    · refine ⟨?_, .nil, ?_, fun f hf => ⟨f, hf, le_rfl⟩, ?_⟩
      · rintro e ⟨⟩
      · rintro e ⟨⟩
      · rintro f - e ⟨⟩
  | publish status =>
    unfold step at hstep
    dsimp only at hstep
    split at hstep
    · rename_i hguard
      obtain ⟨hne, hlast⟩ := hguard
      cases hstep
      refine ⟨⟨h.holds, h.clients, fun p hp => ?_, ?_, fun l hl => ?_⟩, rfl, rfl⟩
      · rcases mem_concat.1 hp with hp | rfl
        · exact h.authority p hp
        · exact hne
      · refine List.pairwise_append.2 ⟨h.ascending, List.pairwise_singleton _ _, fun p hp q hq => ?_⟩
        rw [List.mem_singleton.1 hq]
        cases hl : s.published.getLast? with
        | none => rw [List.getLast?_eq_none_iff.1 hl] at hp; simp at hp
        | some last =>
          rw [hl] at hlast
          simp only [Option.all_some, Bool.and_eq_true, decide_eq_true_eq] at hlast
          obtain ⟨init, hinit⟩ := List.getLast?_eq_some_iff.1 hl
          have hasc := h.ascending
          rw [hinit] at hp hasc
          rcases mem_concat.1 hp with hp | rfl
          · have hpl := (List.pairwise_append.1 hasc).2.2 p hp last (List.mem_singleton_self last)
            exact ⟨hlast.1.trans hpl.1, hpl.2.trans hlast.2⟩
          · exact hlast
      · exact (h.sources l hl).imp_left (List.mem_append_left _)
    · cases hstep

theorem step_inv (h : ∃ published, Inv s published) (hstep : step s a = some s') : ∃ published, Inv s' published := by
  obtain ⟨published, h⟩ := h
  cases hpoll : a.poll? with
  | none => exact ⟨published, (h.uncalled hstep hpoll).1⟩
  | some poll =>
    obtain ⟨status, more, hc⟩ := step_called h hstep hpoll
    exact ⟨_, h.called hc⟩

end System

/-! ### Converging to the controller -/

section Converge

variable [DecidableEq ι]

/-- The fallback projection is not handed to a buffer that shows the controller's epoch and has not retired
the fallback's one. -/
def Meets (s : System ι) (a : Act ι) : Prop :=
  ∀ poll status, a.poll? = some poll → s.poll poll = some status → status.authorityEpoch = s.fallbackEpoch →
    ∀ l ∈ s.buffer.lastStatus, l.authorityEpoch ≠ s.fallbackEpoch → s.fallbackEpoch ∈ s.buffer.retiredAuthorityEpochs

/-- Only the fallback is retired. -/
def Steady (s : System ι) : Prop := ∀ epoch ∈ s.buffer.retiredAuthorityEpochs, epoch = s.fallbackEpoch

variable {published : List (SseEvent ι)} {s : System ι} {a : Act ι} {status : Status ι}

omit [DecidableEq ι] in
theorem Inv.same_epoch (h : Inv s published) {p q : Status ι}
    (hp : p ∈ s.published) (hq : q ∈ s.published) : p.authorityEpoch = q.authorityEpoch := by
  obtain ⟨i, hi, rfl⟩ := List.mem_iff_getElem.1 hp
  obtain ⟨j, hj, rfl⟩ := List.mem_iff_getElem.1 hq
  rcases lt_trichotomy i j with hij | rfl | hij
  · exact (List.pairwise_iff_getElem.1 h.ascending i j hi hj hij).1.symm
  · rfl
  · exact (List.pairwise_iff_getElem.1 h.ascending j i hj hi hij).1

variable {l : Status ι} {s' : System ι} {more : List (SseEvent ι)}

omit [DecidableEq ι] in
theorem Inv.same_epoch_of_ne (h : Inv s published) {p : Status ι}
    (hl : l ∈ s.buffer.lastStatus) (hne : l.authorityEpoch ≠ s.fallbackEpoch) (hp : p ∈ s.published) :
    l.authorityEpoch = p.authorityEpoch :=
  h.same_epoch ((h.sources l hl).resolve_right hne) hp

/-- A status that follows one of the controller is of its epoch and not older. -/
theorem published_after (h : Inv s published)
    (hm : Meets s a) {poll : Poll ι} (hpoll : a.poll? = some poll) (hstatus : s.poll poll = some status)
    (hnew : ¬Settled s.buffer status) (hl : l ∈ s.buffer.lastStatus)
    (hne : l.authorityEpoch ≠ s.fallbackEpoch) :
    status.authorityEpoch = l.authorityEpoch ∧ l.sourceRevision ≤ status.sourceRevision := by
  have hfresh := fresh_of_not_settled hnew l hl
  have hepoch : status.authorityEpoch = l.authorityEpoch := by
    rcases polled_source hstatus with hp | hfallback
    · exact (h.same_epoch_of_ne hl hne hp).symm
    · have hretired := hm poll status hpoll hstatus hfallback l hl hne
      have hdiffer : status.authorityEpoch ≠ l.authorityEpoch := by
        rw [hfallback]
        exact hne.symm
      rw [if_neg hdiffer, hfallback] at hfresh
      exact absurd hretired hfresh
  rw [if_pos hepoch] at hfresh
  exact ⟨hepoch, hfresh⟩

theorem Steady.called
    (hs : Steady s) (h : Inv s published) (hm : Meets s a) (hc : Called s s' a published status more) : Steady s' := by
  obtain ⟨poll, hpoll, hstatus⟩ := hc.polled
  intro epoch hepoch
  rw [hc.controller.2]
  -- what is retired with a status that is published is the fallback
  have hretire : ∀ n t f, (t = status ∧ ¬Settled s.buffer status ∨ s.buffer.lastStatus = some t) →
      epoch ∈ (s.buffer.publishAt n t f).retiredAuthorityEpochs → epoch = s.fallbackEpoch := by
    intro n t f ht hmem
    rcases (retired_publishAt s.buffer n t f epoch).1 hmem with hold | ⟨l, hl, hne, rfl⟩
    · exact hs epoch hold
    · rcases ht with ⟨rfl, hnew⟩ | hlast
      · by_contra hcontroller
        exact hne (published_after h hm hpoll hstatus hnew hl hcontroller).1.symm
      · rw [Option.mem_def, hlast] at hl
        exact absurd (congrArg Status.authorityEpoch (Option.some.inj hl)).symm hne
  have ho := hc.offered
  generalize s'.buffer = b' at ho hepoch
  cases ho with
  | kept last hlast hsettled => exact hs epoch hepoch
  | again last hlast hsettled n hn => exact hretire n last true (.inr hlast) hepoch
  | published hnew n hn f => exact hretire n status f (.inl ⟨rfl, hnew⟩) hepoch

theorem step_steady (hstep : step s a = some s') (hm : Meets s a)
    (h : (∃ published, Inv s published) ∧ Steady s) : (∃ published, Inv s' published) ∧ Steady s' := by
  obtain ⟨⟨published, h⟩, hs⟩ := h
  refine ⟨step_inv ⟨published, h⟩ hstep, ?_⟩
  cases hpoll : a.poll? with
  | none =>
    obtain ⟨-, hbuffer, hfallback⟩ := h.uncalled hstep hpoll
    unfold Steady
    rw [hbuffer, hfallback]
    exact hs
  | some poll =>
    obtain ⟨status, more, hc⟩ := step_called h hstep hpoll
    exact hs.called h hm hc

/-- What a client has received: the ids increase, from its first cursor on, and no revision goes back
within an epoch. -/
def Ordered (s : System ι) : Prop :=
  ∀ c ∈ s.clients, c.received.Pairwise Later ∧ ∀ f ∈ c.first, ∀ e ∈ c.received, f < e.deliveryId

/-- What a call of a client gives it. -/
def Answered (s : System ι) (a : Act ι) (s' : System ι) : Prop :=
  ∀ i poll, a = .replay i poll ∨ a = .eventsAfter i poll →
    ∃ c delivered, s.clients[i]? = some c ∧ s'.clients = s.clients.set i (c.receive delivered) ∧
      Delivers s.buffer s'.buffer c.cursor delivered ∧ CaughtUp s'.buffer c.cursor delivered

/-- The buffer shows a status, and nothing that is newer. -/
def Shows (s : System ι) (status : Status ι) : Prop :=
  ∃ l, s.buffer.lastStatus = some l ∧ l.authorityEpoch = status.authorityEpoch ∧
    l.sourceRevision = status.sourceRevision ∧ status.sameProjection l = true ∧
    (∃ e f, s.buffer.events.getLast? = some e ∧ e.sourceEvent = l.sourceEvent f) ∧
    ∀ e ∈ s.buffer.events, e.sourceEvent.authorityEpoch ≠ s.fallbackEpoch →
      e.sourceEvent.authorityEpoch = status.authorityEpoch ∧ e.sourceEvent.sourceRevision ≤ status.sourceRevision

/-- A call with the controller's current status has it shown, and a buffer that shows the controller does
not go back. -/
structure Converges (s : System ι) (a : Act ι) (s' : System ι) : Prop where
  shows : ∀ poll status, a.poll? = some poll → s.poll poll = some status → s.published.getLast? = some status →
    Shows s' status
  stays : ∀ l ∈ s.buffer.lastStatus, l.authorityEpoch ≠ s.fallbackEpoch →
    ∃ l' ∈ s'.buffer.lastStatus, l'.authorityEpoch = l.authorityEpoch ∧ l.sourceRevision ≤ l'.sourceRevision

theorem Inv.shows (h : Inv s published) (hs : Steady s) (hs' : Steady s') (hc : Called s s' a published status more)
    (hcurrent : s.published.getLast? = some status) : Shows s' status := by
  have hmem : status ∈ s.published := List.mem_of_getLast? hcurrent
  have h' := (h.called hc).holds
  -- the last status agrees with the controller's
  obtain ⟨l, hl, hepoch, hrevision, hsame⟩ : ∃ l, s'.buffer.lastStatus = some l ∧
      l.authorityEpoch = status.authorityEpoch ∧ l.sourceRevision = status.sourceRevision ∧
      status.sameProjection l = true := by
    have hself : status.sameProjection status = true := by simp [Status.sameProjection]
    -- a status that is left agrees, since it is not stale
    have hleft : ∀ last, s.buffer.lastStatus = some last → Settled s.buffer status →
        last.authorityEpoch = status.authorityEpoch ∧ last.sourceRevision = status.sourceRevision ∧
          status.sameProjection last = true := by
      intro last hlast hsettled
      unfold Settled Buffer.statusRelation at hsettled
      rw [hlast] at hsettled
      dsimp only at hsettled
      by_cases hepoch : status.authorityEpoch = last.authorityEpoch
      · have hlastMem : last ∈ s.published := (h.sources last hlast).resolve_right (hepoch ▸ h.authority status hmem)
        have hle : last.sourceRevision ≤ status.sourceRevision := by
          obtain ⟨init, hinit⟩ := List.getLast?_eq_some_iff.1 hcurrent
          have hasc := h.ascending
          rw [hinit] at hlastMem hasc
          rcases mem_concat.1 hlastMem with hm | hm
          · exact ((List.pairwise_append.1 hasc).2.2 last hm status (List.mem_singleton_self status)).2
          · rw [hm]
        rw [if_pos hepoch, if_neg (not_lt.2 hle)] at hsettled
        by_cases hlt : last.sourceRevision < status.sourceRevision
        · rw [if_pos hlt] at hsettled
          simp at hsettled
        · rw [if_neg hlt] at hsettled
          refine ⟨hepoch.symm, le_antisymm hle (not_lt.1 hlt), ?_⟩
          by_contra hdiffer
          rw [if_pos (by simpa using hdiffer)] at hsettled
          simp at hsettled
      · have hretired : status.authorityEpoch ∉ s.buffer.retiredAuthorityEpochs :=
          fun hr => h.authority status hmem (hs _ hr)
        rw [if_neg hepoch, if_neg hretired] at hsettled
        simp at hsettled
    have ho := hc.offered
    generalize s'.buffer = b' at ho
    cases ho with
    | kept last hlast hsettled => exact ⟨last, hlast, hleft last hlast hsettled⟩
    | again last hlast hsettled n hn => exact ⟨last, rfl, hleft last hlast hsettled⟩
    | published hnew n hn f => exact ⟨status, rfl, rfl, rfl, hself⟩
  obtain ⟨e, f, he, hsource⟩ := h'.newest l hl
  refine ⟨l, hl, hepoch, hrevision, hsame, ⟨e, f, h'.newest_event.trans he, hsource⟩, fun e he hne => ?_⟩
  rcases h'.epochs e (h'.sublist.subset he) l hl with ⟨hsameEpoch, hle⟩ | hretired
  · exact ⟨hsameEpoch.trans hepoch, hle.trans hrevision.le⟩
  · exact absurd (hs' _ hretired) hne

theorem Inv.stays (h : Inv s published) (hm : Meets s a) (hc : Called s s' a published status more)
    (hl : l ∈ s.buffer.lastStatus) (hne : l.authorityEpoch ≠ s.fallbackEpoch) :
    ∃ l' ∈ s'.buffer.lastStatus, l'.authorityEpoch = l.authorityEpoch ∧ l.sourceRevision ≤ l'.sourceRevision := by
  obtain ⟨poll, hpoll, hstatus⟩ := hc.polled
  have ho := hc.offered
  generalize s'.buffer = b' at ho
  cases ho with
  | kept last hlast hsettled => exact ⟨l, hl, rfl, le_rfl⟩
  | again last hlast hsettled n hn =>
    obtain rfl : last = l := Option.some.inj (hlast.symm.trans hl)
    exact ⟨last, rfl, rfl, le_rfl⟩
  | published hnew n hn f => exact ⟨status, rfl, published_after h hm hpoll hstatus hnew hl hne⟩

theorem converges (hstep : step s a = some s') (hm : Meets s a)
    (h : (∃ published, Inv s published) ∧ Steady s) : Converges s a s' := by
  have hs' := (step_steady hstep hm h).2
  obtain ⟨⟨published, h⟩, hs⟩ := h
  constructor
  · intro poll status hpoll hstatus hcurrent
    obtain ⟨status', more, hc⟩ := step_called h hstep hpoll
    obtain ⟨poll', hpoll', hstatus'⟩ := hc.polled
    obtain rfl : poll = poll' := Option.some.inj (hpoll.symm.trans hpoll')
    obtain rfl : status = status' := Option.some.inj (hstatus.symm.trans hstatus')
    exact h.shows hs hs' hc hcurrent
  · intro l hl hne
    cases hpoll : a.poll? with
    | none =>
      obtain ⟨-, hbuffer, -⟩ := h.uncalled hstep hpoll
      rw [hbuffer]
      exact ⟨l, hl, rfl, le_rfl⟩
    | some poll =>
      obtain ⟨status, more, hc⟩ := step_called h hstep hpoll
      exact h.stays hm hc hl hne

theorem answered (hstep : step s a = some s') (h : ∃ published, Inv s published) : Answered s a s' := by
  obtain ⟨published, h⟩ := h
  intro i poll ha
  have hpoll : a.poll? = some poll := by rcases ha with rfl | rfl <;> rfl
  obtain ⟨status, more, hc⟩ := step_called h hstep hpoll
  obtain ⟨c, ht⟩ := hc.turn i ⟨poll, ha⟩
  obtain ⟨delivered, hserved, hset⟩ := ht.served
  exact ⟨c, delivered, ht.client, hset, hserved.delivers, hserved.caughtUp⟩

omit [DecidableEq ι] in
theorem ordered (h : ∃ published, Inv s published) : Ordered s := by
  obtain ⟨published, h⟩ := h
  intro c hc
  exact ⟨(h.clients c hc).ordered, (h.clients c hc).behind⟩

/-- The clients get what was published in its order and without a gap that is still buffered; the stream
shows the controller as long as the fallback projection does not follow the controller's epoch. -/
theorem network_events_converge (fallbackEpoch : String) (capacity : ℕ) (h : 0 < capacity) (initialDeliveryId : ℕ)
    (acts : List (Act ι)) (a : Act ι) (s s' : System ι)
    (hrun : run step (System.init fallbackEpoch capacity h initialDeliveryId) acts = some s)
    (hstep : step s a = some s') :
    Ordered s' ∧ Answered s a s' ∧
      (Along step (fun s a _ => Meets s a) (System.init fallbackEpoch capacity h initialDeliveryId) acts →
        Meets s a → Converges s a s') := by
  have hinit : ∃ published, Inv (System.init fallbackEpoch capacity h initialDeliveryId : System ι) published :=
    ⟨[], init_inv fallbackEpoch capacity h initialDeliveryId⟩
  have hinv : ∃ published, Inv s published := run_invariant (fun _ _ _ hs hstep => step_inv hs hstep) hinit hrun
  refine ⟨ordered (step_inv hinv hstep), answered hstep hinv, fun halong hm => ?_⟩
  have hsteady : Steady (System.init fallbackEpoch capacity h initialDeliveryId : System ι) := by
    rintro epoch ⟨⟩
  refine converges hstep hm (run_invariant_of_along (G := fun s a _ => Meets s a)
    (fun _ _ _ hs hstep hm => step_steady hstep hm hs) ⟨hinit, hsteady⟩ halong hrun)

end Converge

/-- A controller at revision 5, and the fallback projection. -/
def sampleController : Status Unit := ⟨"controller", 5, "t0", true, true, (), (), none, none, (), ()⟩

def sampleFallback : Status Unit := ⟨"fallback", 0, "t1", false, false, (), (), none, none, (), ()⟩

def sampleInit : System Unit := .init "fallback" 2 Nat.two_pos 1

/-- A client that finds the fallback first is then shown the controller. -/
theorem network_events_converge_sample :
    ∃ s s', run step sampleInit [.publish sampleController, .connect none, .replay 0 (.fallback sampleFallback)] = some s ∧
      step s (.eventsAfter 0 (.published 0)) = some s' ∧ Converges s (.eventsAfter 0 (.published 0)) s' := by
  refine ⟨_, _, rfl, rfl, (network_events_converge "fallback" 2 (by decide) 1
    [.publish sampleController, .connect none, .replay 0 (.fallback sampleFallback)] (.eventsAfter 0 (.published 0))
    _ _ rfl rfl).2.2 ?_ ?_⟩
  · rintro _ ⟨⟩
    refine ⟨fun _ _ h => (nomatch h), ?_⟩
    rintro _ ⟨⟩
    refine ⟨fun _ _ h => (nomatch h), ?_⟩
    rintro t -
    exact ⟨fun _ _ _ _ _ l hl => (nomatch hl), trivial⟩
  · rintro poll status - - - l hl hne
    obtain rfl : l = sampleFallback := (Option.some.inj hl).symm
    exact absurd rfl hne

/-- A client that was shown the controller and then the fallback is not shown the controller again. -/
theorem network_events_converge_fails :
    ∃ s s', run step sampleInit [.publish sampleController, .connect none, .replay 0 (.published 0),
        .eventsAfter 0 (.fallback sampleFallback)] = some s ∧
      step s (.eventsAfter 0 (.published 0)) = some s' ∧ s.published.getLast? = some sampleController ∧
      s'.buffer.lastStatus = some sampleFallback ∧ ¬Shows s' sampleController := by
  refine ⟨_, _, rfl, rfl, rfl, rfl, ?_⟩
  rintro ⟨l, hl, hepoch, -⟩
  obtain rfl : l = sampleFallback := (Option.some.inj hl).symm
  exact absurd hepoch (by decide)

end Conductor.NetworkEvents
