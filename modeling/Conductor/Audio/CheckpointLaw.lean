import Conductor.Audio.Checkpoint
import Conductor.Audio.JournalLaw

/-! Every header that the commit worker publishes is accepted by a fresh reader and by one
that follows the headers, with the records of the commit, in every run whose raw clock has not
reached its last stamp when an observation is repeated. -/

namespace Conductor.Audio.Checkpoint

open Word64 ByteLines Journal Runs Checked

variable {k : Codec} {s t : State}

/-! ### Documents are read back -/

def point (a : Anchor) : Point := ⟨a.position.toNat, a.raw.toNat, a.mono.toNat, a.before.toNat, a.after.toNat⟩

theorem integer_natValue {n : ℕ} {name : String} {positive : Bool} (hlow : positive.toNat ≤ n) (hhigh : n < size) :
    integer (natValue n) name positive = .ok n := by
  have hrange : ¬ ((n : ℤ) < positive.toInt ∨ (2 : ℤ) ^ 64 - 1 < n) := by
    unfold size at hhigh
    cases positive <;> simp at hlow ⊢ <;> omega
  simp only [integer, natValue, if_neg hrange, Int.toNat_natCast]

theorem integer_wordValue (w : UInt64) (name : String) : integer (wordValue w) name = .ok w.toNat :=
  integer_natValue (Nat.zero_le _) w.toNat_lt

theorem anchor_anchorValue (a : Anchor) : anchor (anchorValue a) = .ok (point a) := by
  simp only [anchor, anchorValue, List.map_cons, List.map_nil, integer_wordValue]
  rfl

/-- The numbers of the segment are words. -/
def Bounded (s : AudioSegment) : Prop := s.index < size ∧ s.startSample < size ∧ s.endSample < size

theorem isSegment_segmentValue {s : AudioSegment} (h : Bounded s) : IsSegment (segmentValue s) s :=
  ⟨_, rfl, rfl, integer_natValue (Nat.zero_le _) h.1, integer_natValue (Nat.zero_le _) h.2.1,
    integer_natValue (Nat.zero_le _) h.2.2, decide_eq_true rfl⟩

theorem isRow_value {d : CheckpointDelta} (hsequence : d.sequence < size) (hsegments : ∀ s ∈ d.segments, Bounded s) :
    IsRow d.value d.sequence (d.anchors.map point) d.segments := by
  refine ⟨_, _, _, rfl, rfl, integer_natValue (Nat.zero_le _) hsequence, rfl, rfl, ?_, ?_⟩
  · simp [Function.comp_def, anchor_anchorValue]
  · rw [List.forall₂_map_left_iff, List.forall₂_same]
    exact fun s hs => isSegment_segmentValue (hsegments s hs)

/-- The numbers of the header are words, and its hash is one. -/
structure CheckpointHeader.Readable (h : CheckpointHeader) : Prop where
  journalBytes : 0 < h.journalBytes ∧ h.journalBytes ≤ maxJournalBytes
  journalRecords : h.journalRecords < size
  journalSha256 : isDigest h.journalSha256 = true
  anchorCount : h.anchorCount < size
  segmentCount : h.segmentCount < size
  sampleCount : h.sampleCount < size
  queueCapacityFrames : h.queueCapacityFrames < size

variable {h : CheckpointHeader} {queuePeakFrames maxWriteNs : UInt64}

theorem checkHead_items (hread : h.Readable) : checkHead 0 h.items = .ok (h.journalBytes, h.journalSha256) := by
  have hbytes : h.journalBytes < size := hread.journalBytes.2.trans_lt (by decide)
  have hschema : (PyValue.str schema).eqStr schema = true := by simp [PyValue.eqStr]
  refine checkHead_eq_ok.2 ⟨hschema, integer_natValue hread.journalBytes.1 hbytes,
    ⟨Nat.zero_le _, hread.journalBytes.2⟩, rfl, hread.journalSha256, ?_⟩
  have hword : ∀ (w : UInt64) (name : String), discard (integer (wordValue w) name) = .ok () := fun w name => by
    rw [integer_wordValue]
    rfl
  have hnat : ∀ (n : ℕ) (name : String), n < size → discard (integer (natValue n) name) = .ok () := fun n name hn => by
    rw [integer_natValue (Nat.zero_le _) hn]
    rfl
  have hrecords := hnat h.journalRecords "journal_records" hread.journalRecords
  have hanchors := hnat h.anchorCount "anchor_count" hread.anchorCount
  have hsegments := hnat h.segmentCount "segment_count" hread.segmentCount
  have hsamples := hnat h.sampleCount "sample_count" hread.sampleCount
  have hcapacity := hnat h.queueCapacityFrames "queue_capacity_frames" hread.queueCapacityFrames
  have hall : ∀ key ∈ headKeys, discard (integer (Journal.get h.items key) key) = .ok () := by
    simp only [headKeys, List.forall_mem_cons]
    exact ⟨hrecords, hanchors, hsegments, hsamples, hword _ _, hword _ _, hword _ _, hcapacity, hword _ _, hword _ _,
      by simp⟩
  exact forM_eq_ok hall

/-! ### One publication -/

/-- The points are in order, and none is after the last observation. -/
structure Ordered (anchors : List Anchor) (last : Option Anchor) : Prop where
  pairwise : (anchors.map point).Pairwise Point.Before
  positive : ∀ a ∈ anchors, a.position ≠ 0
  last : ∀ q ∈ anchors.getLast?, ∃ l ∈ last, l = q ∨ (point q).Before (point l)

theorem length_le_position {points : List Point} (h : points.Pairwise Point.Before) (hpos : ∀ p ∈ points, 0 < p.position) :
    ∀ p ∈ points.getLast?, points.length ≤ p.position := by
  induction points using List.reverseRecOn with
  | nil => simp
  | append_singleton points q ih =>
    obtain ⟨hpoints, -, hlast⟩ := List.pairwise_append.1 h
    intro p hp
    obtain rfl : q = p := by simpa using hp
    rw [List.length_append, List.length_singleton]
    cases hq : points.getLast? with
    | none =>
      rw [List.getLast?_eq_none_iff.1 hq]
      exact hpos q (by simp)
    | some r =>
      have hlen := ih hpoints (fun p hp => hpos p (List.mem_append_left _ hp)) r hq
      have hbefore := (hlast r (List.mem_of_getLast? hq) q (List.mem_singleton_self q)).1
      omega

theorem Ordered.length_lt {anchors : List Anchor} {last : Option Anchor} (h : Ordered anchors last) :
    anchors.length < size := by
  have hpos : ∀ p ∈ anchors.map point, 0 < p.position := by
    intro p hp
    obtain ⟨a, ha, rfl⟩ := List.mem_map.1 hp
    exact Nat.pos_of_ne_zero fun h0 => h.positive a ha (UInt64.toNat_inj.1 h0)
  cases hq : anchors.getLast? with
  | none => simp [List.getLast?_eq_none_iff.1 hq, size]
  | some q =>
    have hlen := length_le_position h.pairwise hpos (point q) (by rw [List.getLast?_map, hq]; rfl)
    rw [List.length_map] at hlen
    exact hlen.trans_lt q.position.toNat_lt

/-- The header of a publication is a dictionary that names its journal: its rows give the records. -/
def Sound (k : Codec) (p : Publication) : Prop :=
  ∃ items c points final, k.loads p.head = some (.dict items) ∧
    checkHead 0 items = .ok (p.journal.length, k.hexdigest p.journal) ∧
    Committed k.loads {} p.journal (c, points, p.records) ∧
    countsAgree k.hexdigest items (k.hexdigest p.journal) c = true ∧ lastAnchor items c.previous = .ok final

theorem lastAnchor_items {anchors : List Anchor} (hordered : Ordered anchors h.lastAnchor) :
    ∃ final, lastAnchor h.items (anchors.map point).getLast? = .ok final := by
  have hget : Journal.get h.items "last_anchor" = (h.lastAnchor.map anchorValue).getD .none := rfl
  cases hlast : h.lastAnchor with
  | none =>
    refine ⟨[], ?_⟩
    rw [lastAnchor, hget, hlast]
    rfl
  | some l =>
    have hvalue : anchor (Journal.get h.items "last_anchor") = .ok (point l) := by
      rw [hget, hlast]
      exact anchor_anchorValue l
    cases hq : anchors.getLast? with
    | none =>
      refine ⟨[point l], ?_⟩
      rw [List.getLast?_map, hq, lastAnchor, hget, hlast]
      exact bind_eq_ok.2 ⟨point l, anchor_anchorValue l, rfl⟩
    | some q =>
      obtain ⟨l', hl', hle⟩ := hordered.last q hq
      obtain rfl : l = l' := by simpa [hlast] using hl'
      refine ⟨if point l = point q then [] else [point l], ?_⟩
      rw [List.getLast?_map, hq, lastAnchor, hget, hlast]
      refine bind_eq_ok.2 ⟨point l, anchor_anchorValue l, ?_⟩
      rcases hle with rfl | hbefore
      · simp only [Option.map_some, if_true]
        rfl
      · have hne : point l ≠ point q := fun heq => absurd (heq ▸ hbefore.1) (lt_irrefl _)
        have hpair : ¬ ((point l).position = (point q).position ∧ (point l).raw = (point q).raw) := fun h =>
          absurd h.1 hbefore.1.ne'
        have hregress : regresses (some (point q)) (point l) = false :=
          regresses_eq_false.2 (by simpa using hbefore)
        simp only [Option.map_some, if_neg hne, if_neg hpair, hregress, Bool.false_eq_true, if_false]
        rfl

/-- The anchors of the clock checkpoint. -/
def State.anchors (s : State) : List Anchor := (s.clock.map (·.anchors)).getD []

/-- Its last observation. -/
def State.last (s : State) : Option Anchor := s.clock.bind (·.lastAnchor)

/-- The journal holds the rows that its counters count. -/
structure Recorded (k : Codec) (s : State) : Prop where
  digest : s.journal.digest = s.content
  bytes : s.journal.bytes = s.content.length
  records : s.journal.records ≤ s.content.length
  anchors : s.journal.anchors ≤ s.anchors.length
  segments : s.journal.segments ≤ s.durable.length
  committed : ∃ c, c.sequence = s.journal.records ∧
    Committed k.loads {} s.content
      (c, (s.anchors.take s.journal.anchors).map point, s.durable.take s.journal.segments)

/-- The records follow one another from the first sample on. -/
structure Contiguous (s : State) : Prop where
  tiles : Tiles 0 0 (s.durable ++ s.pending) s.nextIndex s.written
  words : s.written < size

/-- What a commit has copied: the anchors of the clock were `anchors`. -/
structure Prepared (s : State) (head : CheckpointHeader) (delta : CheckpointDelta) (anchors : List Anchor) : Prop where
  stays : anchors <+: s.anchors
  ordered : Ordered anchors head.lastAnchor
  count : s.journal.anchors ≤ anchors.length
  delta : delta = ⟨s.journal.records, anchors.drop s.journal.anchors, s.durable.drop s.journal.segments⟩
  anchorCount : head.anchorCount = anchors.length
  segmentCount : head.segmentCount = s.durable.length
  sampleCount : head.sampleCount = (s.durable.getLast?.map (·.endSample)).getD 0
  journalRecords : head.journalRecords = s.journal.records + 1
  queueCapacityFrames : head.queueCapacityFrames = queueCapacityFrames

variable {head : CheckpointHeader} {delta : CheckpointDelta} {anchors : List Anchor} {encoded encodedHead : List UInt8}

theorem Contiguous.durable (h : Contiguous s) :
    ∃ stop, Tiles 0 0 s.durable s.durable.length stop ∧ stop < size ∧ s.durable.length < size ∧
      ∀ x ∈ s.durable, Bounded x := by
  obtain ⟨j, stop, htiles, hrest⟩ := h.tiles.split
  have hcount := htiles.count
  have hstop := hrest.count.2
  have hwords := h.words
  obtain rfl : j = s.durable.length := by omega
  refine ⟨stop, htiles, by omega, by omega, fun x hx => ?_⟩
  obtain ⟨hindex, hlt, hend⟩ := htiles.bound x hx
  exact ⟨by omega, by omega, by omega⟩

/-- The row of a commit continues the journal. -/
theorem committed_row (hk : k.Faithful) (hrecorded : Recorded k s) (hcontiguous : Contiguous s)
    (hprepared : Prepared s head delta anchors) (hencode : k.encodeDelta delta = some encoded)
    (hrow : (encoded ++ [newline]).length ≤ maxRowBytes) (hbytes : s.content.length ≤ maxJournalBytes) :
    ∃ c, c.sequence = s.journal.records + 1 ∧
      Committed k.loads {} (s.content ++ (encoded ++ [newline])) (c, anchors.map point, s.durable) := by
  obtain ⟨c, hsequence, hcommitted⟩ := hrecorded.committed
  obtain ⟨rows, hcontinues⟩ := hcommitted.continues
  obtain ⟨stop, htiles, -, -, hbounded⟩ := hcontiguous.durable
  -- The anchors before the row are those that the journal counts.
  have hbegins : s.anchors.take s.journal.anchors = anchors.take s.journal.anchors := by
    obtain ⟨rest, hrest⟩ := hprepared.stays
    rw [← hrest, List.take_append_of_le_length hprepared.count]
  rw [hbegins] at hcommitted hcontinues
  have hcut : Tiles 0 0 (s.durable.take s.journal.segments ++ s.durable.drop s.journal.segments) s.durable.length stop := by
    rw [List.take_append_drop]
    exact htiles
  obtain ⟨index, start, hbefore, hafter⟩ := hcut.split
  obtain ⟨hindex, hstart⟩ := hcontinues.segments.unique hbefore
  have hpoints : (c.previous.toList ++ (anchors.drop s.journal.anchors).map point).Pairwise Point.Before := by
    have hprevious : c.previous = ((anchors.take s.journal.anchors).map point).getLast? := by
      rw [hcontinues.previous]
      simp
    have hsub : (c.previous.toList ++ (anchors.drop s.journal.anchors).map point).Sublist (anchors.map point) := by
      conv_rhs => rw [← List.take_append_drop s.journal.anchors anchors, List.map_append]
      rw [hprevious]
      refine List.Sublist.append ?_ (List.Sublist.refl _)
      cases hlast : ((anchors.take s.journal.anchors).map point).getLast? with
      | none => exact List.nil_sublist _
      | some p => exact List.singleton_sublist.2 (List.mem_of_getLast? hlast)
    exact hprepared.ordered.pairwise.sublist hsub
  have hrecords : s.journal.records < size := (hrecorded.records.trans hbytes).trans_lt (by decide)
  let next : Counters := ⟨c.digest ++ (encoded ++ [newline]), c.sequence + 1,
    c.anchorCount + ((anchors.drop s.journal.anchors).map point).length, s.durable.length, stop,
    ((anchors.drop s.journal.anchors).map point).getLast?.or c.previous⟩
  have hscan : scanRow k.loads c (encoded ++ [newline]) =
      .ok (next, (anchors.drop s.journal.anchors).map point, s.durable.drop s.journal.segments) := by
    refine scanRow_eq_ok.2 ⟨⟨delta.value, hk.delta delta encoded hencode, ?_⟩, hpoints, ?_, rfl, rfl, rfl, rfl⟩
    · rw [hsequence, hprepared.delta]
      exact isRow_value hrecords fun x hx => hbounded x (List.mem_of_mem_drop hx)
    · rw [hindex, hstart]
      exact hafter
  have hline : Committed k.loads c (encoded ++ [newline] ++ []) _ :=
    .row ⟨encoded, hk.line delta encoded hencode, rfl⟩ hrow hscan (.nil next)
  rw [List.append_nil] at hline
  refine ⟨next, by rw [← hsequence], ?_⟩
  have hall := hcommitted.append hline
  simp only [List.append_nil] at hall
  rwa [← List.map_append, List.take_append_drop, List.take_append_drop] at hall

/-- The header that a commit encodes is sound. -/
theorem sound_header (hk : k.Faithful) (hrecorded : Recorded k s) (hcontiguous : Contiguous s)
    (hprepared : Prepared s head delta anchors) (hencode : k.encodeDelta delta = some encoded)
    (hrow : (encoded ++ [newline]).length ≤ maxRowBytes)
    (hbytes : (s.content ++ (encoded ++ [newline])).length ≤ maxJournalBytes)
    (hheader : k.encodeHeader { head with
      journalBytes := s.journal.bytes + (encoded ++ [newline]).length
      journalSha256 := k.hexdigest (s.journal.digest ++ (encoded ++ [newline])) } = some encodedHead) :
    Sound k ⟨encodedHead, s.content ++ (encoded ++ [newline]), s.durable⟩ := by
  rw [List.length_append] at hbytes
  obtain ⟨c, hsequence, hcommitted⟩ := committed_row hk hrecorded hcontiguous hprepared hencode hrow (by omega)
  obtain ⟨rows, hcontinues⟩ := hcommitted.continues
  obtain ⟨stop, htiles, hstop, hlength, -⟩ := hcontiguous.durable
  obtain ⟨hsegments, hsamples⟩ := hcontinues.segments.unique htiles
  have hsample : head.sampleCount = stop := hprepared.sampleCount.trans htiles.last
  have hanchors : c.anchorCount = anchors.length := by
    rw [hcontinues.anchorCount]
    simp
  have hdigest : c.digest = s.content ++ (encoded ++ [newline]) := by
    rw [hcontinues.digest]
    simp
  have hprevious : c.previous = (anchors.map point).getLast? := by
    rw [hcontinues.previous]
    simp
  have hsize : maxJournalBytes < size := by decide
  rw [hrecorded.bytes, hrecorded.digest] at hheader
  obtain ⟨final, hfinal⟩ := lastAnchor_items hprepared.ordered
  have hreadable : CheckpointHeader.Readable { head with
      journalBytes := s.content.length + (encoded ++ [newline]).length
      journalSha256 := k.hexdigest (s.content ++ (encoded ++ [newline])) } := by
    refine ⟨⟨by simp, hbytes⟩, ?_, hk.digest _, ?_, ?_, ?_, ?_⟩
    · have hrecords := hrecorded.records
      have hnext := hprepared.journalRecords
      simp only [List.length_append, List.length_singleton] at hbytes
      show head.journalRecords < size
      omega
    · exact hprepared.anchorCount.trans_lt hprepared.ordered.length_lt
    · exact hprepared.segmentCount.trans_lt hlength
    · exact hsample.trans_lt hstop
    · exact hprepared.queueCapacityFrames.trans_lt (by decide)
  refine ⟨_, c, anchors.map point, final, hk.header _ _ hheader, ?_, hcommitted, ?_, ?_⟩
  · exact (checkHead_items hreadable).trans (by simp)
  · have heq : ∀ n m : ℕ, n = m → (natValue n).eqInt m = true := fun n m h => decide_eq_true (congrArg Nat.cast h)
    refine decide_eq_true ⟨by rw [hdigest], heq _ _ ?_, heq _ _ ?_, heq _ _ ?_, heq _ _ ?_⟩
    · exact hprepared.journalRecords.trans hsequence.symm
    · exact hprepared.anchorCount.trans hanchors.symm
    · exact hprepared.segmentCount.trans hsegments.symm
    · exact hsample.trans hsamples.symm
  · rw [hprevious]
    exact hfinal

/-! ### The observations -/

/-- What holds of every step: an observation repeats the sample and the raw time of the last one or is after it
in both, and the journal stays within the limits of the reader. -/
def Assumed (s : State) (a : Action) (t : State) : Prop :=
  match a with
  | .observe row => ∀ first ∈ s.capture.lastAnchor,
      (first.position = row.position ∧ first.raw = row.raw) ∨ (point first).Before (point row)
  | .commit _ => t.content.length ≤ maxJournalBytes ∧ t.content.length ≤ s.content.length + maxRowBytes
  | _ => True

/-- The raw clock is not at its last stamp, 584 years after the boot, when an observation is repeated. -/
def NotRepeatedAtEnd (s : State) (a : Action) (_ : State) : Prop :=
  match a with
  | .observe row => row.raw.toNat = size - 1 →
      ∀ first ∈ s.capture.lastAnchor, ¬ (first.position = row.position ∧ first.raw = row.raw)
  | _ => True

instance (s : State) (a : Action) (t : State) : Decidable (Assumed s a t) :=
  match a with
  | .observe row => inferInstanceAs (Decidable (∀ first ∈ s.capture.lastAnchor,
      (first.position = row.position ∧ first.raw = row.raw) ∨ (point first).Before (point row)))
  | .commit _ => inferInstanceAs (Decidable (_ ∧ _))
  | .start .. | .setLast | .push | .stop | .finalPush | .finishActive _ | .sync .. | .snapshot .. => isTrue trivial

instance (s : State) (a : Action) (t : State) : Decidable (NotRepeatedAtEnd s a t) :=
  match a with
  | .observe row => inferInstanceAs (Decidable (row.raw.toNat = size - 1 →
      ∀ first ∈ s.capture.lastAnchor, ¬ (first.position = row.position ∧ first.raw = row.raw)))
  | .start .. | .setLast | .push | .stop | .finalPush | .finishActive _ | .sync .. | .snapshot .. | .commit _ =>
    isTrue trivial

/-- The loop knows the last observation, and when the next one is pushed. -/
def Following (s : State) : Prop :=
  s.last = s.capture.lastAnchor ∧
    ∀ q ∈ s.anchors.getLast?, s.capture.nextObservationNs = saturatingAdd q.raw.toNat 100000000

def PhaseInv (s : State) : Prop :=
  match s.capture.phase with
  | .starting => s.clock = none ∧ s.capture.lastAnchor = none
  | .looping => s.clock.isSome ∧ Following s
  | .observed a => s.clock.isSome ∧ Following s ∧ a.position ≠ 0 ∧
      ((s.capture.lastAnchor = some a ∧ a.raw.toNat ≠ size - 1) ∨
        ∀ l ∈ s.capture.lastAnchor, (point l).Before (point a))
  | .pushing a => s.clock.isSome ∧ s.last = some a ∧
      s.capture.nextObservationNs = saturatingAdd a.raw.toNat 100000000 ∧
      ∀ q ∈ s.anchors.getLast?, (point q).Before (point a)
  | .stopped => s.last = s.capture.lastAnchor
  | .done => True

structure Observed (s : State) : Prop where
  ordered : Ordered s.anchors s.last
  positive : ∀ l ∈ s.last, l.position ≠ 0
  phase : PhaseInv s

variable {a : Anchor}

theorem mappedNs_position {mapped : ℕ} (h : mappedNs a = .ok mapped) : a.position ≠ 0 := by
  unfold mappedNs at h
  obtain ⟨⟨⟩, hcheck, -⟩ := bind_eq_ok.1 h
  intro h0
  simp [reject, h0] at hcheck

theorem Ordered.append {last : Option Anchor} (h : Ordered anchors last) (hpos : a.position ≠ 0)
    (hlast : ∀ q ∈ anchors.getLast?, (point q).Before (point a)) : Ordered (anchors ++ [a]) (some a) where
  pairwise := by
    rw [List.map_append]
    apply pairwise_append_of_last h.pairwise
    rw [List.getLast?_map, List.map_singleton]
    refine pairwise_before_cons.2 ⟨regresses_eq_false.2 ?_, by simp⟩
    intro p hp
    obtain ⟨q, hq, rfl⟩ := Option.map_eq_some_iff.1 hp
    exact hlast q hq
  positive b hb := by
    rcases mem_concat.1 hb with hb | hb
    · exact h.positive b hb
    · rwa [hb]
  last q hq := ⟨a, rfl, .inl (by simpa using hq)⟩

/-- The observations go on: `a` repeats the last one or is after it. -/
theorem Ordered.advance {l : Option Anchor} (h : Ordered anchors l)
    (hnext : l = some a ∨ ∀ b ∈ l, (point b).Before (point a)) : Ordered anchors (some a) where
  pairwise := h.pairwise
  positive := h.positive
  last q hq := by
    obtain ⟨b, hb, hle⟩ := h.last q hq
    refine ⟨a, rfl, ?_⟩
    rcases hnext with rfl | hbefore
    · obtain rfl : a = b := Option.some.inj hb
      exact hle
    · have hba := hbefore b hb
      rcases hle with rfl | hqb
      · exact .inr hba
      · exact .inr (hqb.trans hba)

theorem Capture.anchor_cases {c : Capture} {row : Anchor} (h : c.anchor row = some a)
    (hassumed : ∀ first ∈ c.lastAnchor, (first.position = row.position ∧ first.raw = row.raw) ∨
      (point first).Before (point row))
    (hlate : row.raw.toNat = size - 1 → ∀ first ∈ c.lastAnchor, ¬ (first.position = row.position ∧ first.raw = row.raw)) :
    a.position ≠ 0 ∧ ((c.lastAnchor = some a ∧ a.raw.toNat ≠ size - 1) ∨
      ∀ l ∈ c.lastAnchor, (point l).Before (point a)) := by
  simp only [Capture.anchor] at h
  split at h
  · cases h
  · split at h
    · cases h
    · next mapped hmapped =>
      cases h
      refine ⟨mappedNs_position hmapped, ?_⟩
      cases hlast : c.lastAnchor with
      | none => simp
      | some first =>
        rcases hassumed first hlast with hsame | hbefore
        · left
          simp only [retainSamePoint, if_pos hsame, true_and]
          rw [hsame.2]
          exact fun hend => hlate hend first hlast hsame
        · right
          have hne : ¬ (first.position = row.position ∧ first.raw = row.raw) := by
            rintro ⟨hposition, -⟩
            exact absurd hbefore.1 (by simp [point, hposition])
          simpa only [retainSamePoint, if_neg hne, Option.mem_some_iff, forall_eq'] using hbefore

/-- A commit in progress, the records and the journal are left alone, and the anchors only grow. -/
structure CaptureStep (s t : State) : Prop where
  anchors : s.anchors <+: t.anchors
  frame : ∃ capture clock, t = { s with capture, clock }

theorem saturatingAdd_gt {a b : ℕ} (hb : 0 < b) (ha : a < size - 1) : a < saturatingAdd a b := by
  unfold saturatingAdd
  omega

theorem Observed.start {started periodFrames bufferFrames : UInt64} (h : Observed s)
    (hstep : step k s (.start started periodFrames bufferFrames) = some t) : Observed t ∧ CaptureStep s t := by
  simp only [step] at hstep
  split at hstep
  · next hphase =>
    cases hstep
    obtain ⟨hclock, hlast⟩ : s.clock = none ∧ s.capture.lastAnchor = none := by
      have hinv := h.phase
      rwa [PhaseInv, hphase] at hinv
    have hanchors : s.anchors = [] := by simp [State.anchors, hclock]
    exact ⟨⟨⟨by simp [State.anchors], by simp [State.anchors], by simp [State.anchors]⟩, by simp [State.last],
      ⟨rfl, by simp [State.last, hlast], by simp [State.anchors]⟩⟩, by rw [hanchors]; exact List.nil_prefix, _, _, rfl⟩
  · cases hstep

theorem Observed.observe {row : Anchor} (h : Observed s) (hstep : step k s (.observe row) = some t)
    (hassumed : Assumed s (.observe row) t) (hlate : NotRepeatedAtEnd s (.observe row) t) :
    Observed t ∧ CaptureStep s t := by
  simp only [step] at hstep
  split at hstep
  · next hphase =>
    obtain ⟨hclock, hfollowing⟩ : s.clock.isSome = true ∧ Following s := by
      have hinv := h.phase
      rwa [PhaseInv, hphase] at hinv
    split at hstep
    · cases hstep
      exact ⟨⟨h.ordered, h.positive, hfollowing.1⟩, List.prefix_rfl, _, _, rfl⟩
    · next a ha =>
      cases hstep
      obtain ⟨hpos, hnext⟩ := Capture.anchor_cases ha hassumed hlate
      exact ⟨⟨h.ordered, h.positive, hclock, hfollowing, hpos, hnext⟩, List.prefix_rfl, _, _, rfl⟩
  · cases hstep

theorem Observed.setLast (h : Observed s) (hstep : step k s .setLast = some t) : Observed t ∧ CaptureStep s t := by
  simp only [step] at hstep
  split at hstep
  · next a hphase =>
    obtain ⟨hclock, hfollowing, hpos, hnext⟩ : s.clock.isSome = true ∧ Following s ∧ a.position ≠ 0 ∧
        ((s.capture.lastAnchor = some a ∧ a.raw.toNat ≠ size - 1) ∨
          ∀ l ∈ s.capture.lastAnchor, (point l).Before (point a)) := by
      have hinv := h.phase
      rwa [PhaseInv, hphase] at hinv
    obtain ⟨clock, hsome⟩ := Option.isSome_iff_exists.1 hclock
    have hanchors : s.anchors = clock.anchors := by simp [State.anchors, hsome]
    have hordered : Ordered s.anchors (some a) := by
      apply h.ordered.advance
      rw [hfollowing.1]
      exact hnext.imp_left And.left
    split at hstep
    · next hdue =>
      cases hstep
      refine ⟨⟨?_, ?_, ?_, ?_, ?_, ?_⟩, ?_, _, _, rfl⟩
      · simpa [State.anchors, State.last, hsome] using hordered
      · simpa [State.last, hsome] using hpos
      · simp [hsome]
      · simp [State.last, hsome]
      · rfl
      · intro q hq
        replace hq : q ∈ s.anchors.getLast? := by simpa [State.anchors, hsome] using hq
        obtain ⟨l, hl, hle⟩ := hordered.last q hq
        obtain rfl : a = l := Option.some.inj hl
        refine hle.resolve_left ?_
        rintro rfl
        -- The anchor is there already, so the next one is due later.
        rw [hfollowing.2 a hq] at hdue
        rcases hnext with ⟨-, hend⟩ | hbefore
        · have hraw : a.raw.toNat < size := a.raw.toNat_lt
          exact absurd (saturatingAdd_gt (by decide : 0 < 100000000) (by omega : a.raw.toNat < size - 1)) (by omega)
        · obtain ⟨b, hb, hle⟩ := h.ordered.last a hq
          rw [hfollowing.1] at hb
          have hba := hbefore b hb
          rcases hle with rfl | hab
          · exact absurd hba.1 (lt_irrefl _)
          · exact absurd (hab.trans hba).1 (lt_irrefl _)
      · simp [State.anchors, hsome]
    · cases hstep
      refine ⟨⟨?_, ?_, ?_, ?_, ?_⟩, ?_, _, _, rfl⟩
      · simpa [State.anchors, State.last, hsome] using hordered
      · simpa [State.last, hsome] using hpos
      · simp [hsome]
      · simp [State.last, hsome]
      · intro q hq
        exact hfollowing.2 q (by simpa [State.anchors, hsome] using hq)
      · simp [State.anchors, hsome]
  · cases hstep

theorem Observed.push (h : Observed s) (hstep : step k s .push = some t) : Observed t ∧ CaptureStep s t := by
  simp only [step] at hstep
  split at hstep
  · next a hphase =>
    obtain ⟨hclock, hlast, hnext, hbefore⟩ : s.clock.isSome = true ∧ s.last = some a ∧
        s.capture.nextObservationNs = saturatingAdd a.raw.toNat 100000000 ∧
        ∀ q ∈ s.anchors.getLast?, (point q).Before (point a) := by
      have hinv := h.phase
      rwa [PhaseInv, hphase] at hinv
    obtain ⟨clock, hsome⟩ := Option.isSome_iff_exists.1 hclock
    have hpos := h.positive a hlast
    have hordered := h.ordered.append hpos hbefore
    have hset : clock.lastAnchor = some a := by simpa [State.last, hsome] using hlast
    cases hstep
    refine ⟨⟨?_, ?_, ?_, ?_, ?_⟩, ?_, _, _, rfl⟩
    · simpa [State.anchors, State.last, hsome, hset] using hordered
    · simpa [State.last, hsome, hset] using hpos
    · simp [hsome]
    · simp [State.last, hsome, hset]
    · intro q hq
      obtain rfl : a = q := by simpa [State.anchors, hsome] using hq
      exact hnext
    · simp [State.anchors, hsome]
  · cases hstep

theorem Observed.stop (h : Observed s) (hstep : step k s .stop = some t) : Observed t ∧ CaptureStep s t := by
  simp only [step] at hstep
  split at hstep
  · next hphase =>
    obtain ⟨-, hfollowing⟩ : s.clock.isSome = true ∧ Following s := by
      have hinv := h.phase
      rwa [PhaseInv, hphase] at hinv
    cases hstep
    exact ⟨⟨h.ordered, h.positive, hfollowing.1⟩, List.prefix_rfl, _, _, rfl⟩
  · cases hstep

theorem Observed.finalPush (h : Observed s) (hstep : step k s .finalPush = some t) :
    Observed t ∧ CaptureStep s t := by
  simp only [step] at hstep
  split at hstep
  · next hphase =>
    have hlast : s.last = s.capture.lastAnchor := by
      have hinv := h.phase
      rwa [PhaseInv, hphase] at hinv
    cases hstep
    cases hset : s.capture.lastAnchor with
    | none => exact ⟨⟨h.ordered, h.positive, trivial⟩, List.prefix_rfl, _, _, rfl⟩
    | some a =>
      rw [hset] at hlast
      cases hsome : s.clock with
      | none => simp [State.last, hsome] at hlast
      | some clock =>
        have hclast : clock.lastAnchor = some a := by simpa [State.last, hsome] using hlast
        have hanchors : s.anchors = clock.anchors := by simp [State.anchors, hsome]
        by_cases hthere : clock.anchors.getLast? = some a
        · have hpush : clock.pushLast a = clock := if_pos hthere
          refine ⟨⟨?_, ?_, trivial⟩, ?_, _, _, rfl⟩
          · simpa [State.anchors, State.last, hsome, hpush] using h.ordered
          · simpa [State.last, hsome, hpush] using h.positive
          · simp [State.anchors, hsome, hpush]
        · have hpush : clock.pushLast a = { clock with anchors := clock.anchors ++ [a] } := if_neg hthere
          have hpos := h.positive a hlast
          have hordered : Ordered (s.anchors ++ [a]) (some a) := by
            refine h.ordered.append hpos fun q hq => ?_
            obtain ⟨l, hl, hle⟩ := h.ordered.last q hq
            obtain rfl : a = l := Option.some.inj (hlast.symm.trans hl)
            refine hle.resolve_left ?_
            rintro rfl
            exact hthere (hanchors ▸ hq)
          refine ⟨⟨?_, ?_, trivial⟩, ?_, _, _, rfl⟩
          · simpa [State.anchors, State.last, hsome, hpush, hclast] using hordered
          · simpa [State.last, hsome, hpush, hclast] using hpos
          · simp [State.anchors, hsome, hpush]
  · cases hstep

/-! ### The commits -/

structure Inv (k : Codec) (s : State) : Prop where
  observed : Observed s
  sound : ∀ p ∈ s.published, Sound k p
  grows : s.published.Pairwise fun p q => p.journal <+: q.journal
  within : ∀ p ∈ s.published, p.journal <+: s.content
  records : s.worker ≠ .ended → Contiguous s ∧ Recorded k s
  prepared : ∀ head delta, s.worker = .snapshotted head delta → ∃ anchors, Prepared s head delta anchors

theorem init_inv (k : Codec) : Inv k {} where
  observed := ⟨⟨by simp [State.anchors], by simp [State.anchors], by simp [State.anchors]⟩, by simp [State.last],
    rfl, rfl⟩
  sound := by simp
  grows := .nil
  within := by simp
  records _ := ⟨⟨⟨rfl, rfl⟩, by decide⟩, rfl, rfl, Nat.zero_le _, Nat.zero_le _, Nat.zero_le _, {}, rfl,
    by simpa using Committed.nil {}⟩
  prepared := by simp

theorem Inv.captureStep (h : Inv k s) (hobserved : Observed t) (hcapture : CaptureStep s t) : Inv k t := by
  obtain ⟨hanchors, capture, clock, rfl⟩ := hcapture
  refine ⟨hobserved, h.sound, h.grows, h.within, fun hworker => ?_, fun head delta hworker => ?_⟩
  · obtain ⟨hcontiguous, hrecorded⟩ := h.records hworker
    obtain ⟨c, hsequence, hcommitted⟩ := hrecorded.committed
    obtain ⟨rest, hrest⟩ := hanchors
    refine ⟨⟨hcontiguous.tiles, hcontiguous.words⟩, hrecorded.digest, hrecorded.bytes, hrecorded.records, ?_,
      hrecorded.segments, c, hsequence, ?_⟩
    · rw [← hrest, List.length_append]
      exact hrecorded.anchors.trans (Nat.le_add_right _ _)
    · rwa [← hrest, List.take_append_of_le_length hrecorded.anchors]
  · obtain ⟨anchors, hprepared⟩ := h.prepared head delta hworker
    exact ⟨anchors, { hprepared with stays := hprepared.stays.trans hanchors }⟩

theorem Inv.finishActive {frames : ℕ} (h : Inv k s) (hstep : step k s (.finishActive frames) = some t) : Inv k t := by
  simp only [step] at hstep
  split at hstep
  · next hframes =>
    cases hstep
    refine ⟨⟨h.observed.ordered, h.observed.positive, h.observed.phase⟩, h.sound, h.grows, h.within, fun hworker => ?_,
      fun head delta hworker => ?_⟩
    · obtain ⟨hcontiguous, hrecorded⟩ := h.records hworker
      refine ⟨⟨?_, hframes.2⟩, { hrecorded with }⟩
      rw [← List.append_assoc]
      exact hcontiguous.tiles.append ⟨rfl, by simp only; omega, rfl, rfl⟩
    · obtain ⟨anchors, hprepared⟩ := h.prepared head delta hworker
      exact ⟨anchors, { hprepared with }⟩
  · cases hstep

theorem Inv.sync {count synced : ℕ} (h : Inv k s) (hstep : step k s (.sync count synced) = some t) : Inv k t := by
  simp only [step] at hstep
  split at hstep
  · next hbatch =>
    cases hstep
    obtain ⟨hidle, -, -, hcount, -⟩ := hbatch
    refine ⟨⟨h.observed.ordered, h.observed.positive, h.observed.phase⟩, h.sound, h.grows, h.within, fun hworker => ?_,
      fun head delta hworker => ?_⟩
    · obtain rfl : synced = count := by
        by_contra hne
        exact hworker (if_neg hne)
      obtain ⟨hcontiguous, hrecorded⟩ := h.records (by simp [hidle])
      obtain ⟨c, hsequence, hcommitted⟩ := hrecorded.committed
      refine ⟨⟨?_, hcontiguous.words⟩, hrecorded.digest, hrecorded.bytes, hrecorded.records, hrecorded.anchors, ?_, c,
        hsequence, ?_⟩
      · rw [List.append_assoc, List.take_append_drop]
        exact hcontiguous.tiles
      · rw [List.length_append]
        exact hrecorded.segments.trans (Nat.le_add_right _ _)
      · rwa [List.take_append_of_le_length hrecorded.segments]
    · simp only at hworker
      split at hworker <;> cases hworker
  · cases hstep

theorem commitSnapshot_eq_ok {clock : Option ClockCheckpoint}
    {records : List AudioSegment} {journal : CheckpointJournal}
    (h : commitSnapshot clock queuePeakFrames maxWriteNs records journal = .ok (some (head, delta))) :
    ∃ c, clock = some c ∧ journal.anchors ≤ c.anchors.length ∧
      delta = ⟨journal.records, c.anchors.drop journal.anchors, records.drop journal.segments⟩ ∧
      head.lastAnchor = c.lastAnchor ∧ head.anchorCount = c.anchors.length ∧ head.segmentCount = records.length ∧
      head.sampleCount = (records.getLast?.map (·.endSample)).getD 0 ∧ head.journalRecords = journal.records + 1 ∧
      head.queueCapacityFrames = queueCapacityFrames := by
  simp only [commitSnapshot, throw, throwThe, MonadExceptOf.throw, unless_eq_ok] at h
  obtain ⟨-, h⟩ := h
  split at h
  · cases h
  · next c =>
    simp only [unless_eq_ok, pure_eq_ok, not_lt] at h
    obtain ⟨hanchors, -, heq⟩ := h
    cases heq
    exact ⟨c, rfl, hanchors, rfl, rfl, rfl, rfl, rfl, rfl, rfl⟩

theorem Inv.snapshot (h : Inv k s) (hstep : step k s (.snapshot queuePeakFrames maxWriteNs) = some t) : Inv k t := by
  have hworker : ∀ w, s.worker = .ready → (∀ head delta, w ≠ .snapshotted head delta) → Inv k { s with worker := w } := by
    intro w hready hw
    obtain ⟨hcontiguous, hrecorded⟩ := h.records (by simp [hready])
    exact ⟨⟨h.observed.ordered, h.observed.positive, h.observed.phase⟩, h.sound, h.grows, h.within,
      fun _ => ⟨⟨hcontiguous.tiles, hcontiguous.words⟩, { hrecorded with }⟩, fun head delta heq => absurd heq (hw head delta)⟩
  simp only [step] at hstep
  split at hstep
  · next hready =>
    split at hstep
    · cases hstep
      exact hworker .ended hready (by simp)
    · cases hstep
      exact hworker .idle hready (by simp)
    · next head delta hsnapshot =>
      cases hstep
      obtain ⟨hcontiguous, hrecorded⟩ := h.records (by simp [hready])
      obtain ⟨c, hclock, hcount, hdelta, hlast, hanchors, hsegments, hsamples, hrecords, hqueue⟩ :=
        commitSnapshot_eq_ok hsnapshot
      have hall : s.anchors = c.anchors := by simp [State.anchors, hclock]
      have hseen : s.last = c.lastAnchor := by simp [State.last, hclock]
      refine ⟨⟨h.observed.ordered, h.observed.positive, h.observed.phase⟩, h.sound, h.grows, h.within,
        fun _ => ⟨⟨hcontiguous.tiles, hcontiguous.words⟩, { hrecorded with }⟩, fun head' delta' heq => ?_⟩
      obtain ⟨rfl, rfl⟩ : head = head' ∧ delta = delta' := by simpa using heq
      refine ⟨c.anchors, ?_, ?_, hcount, hdelta, hanchors, hsegments, hsamples, hrecords, hqueue⟩
      · exact hall ▸ List.prefix_rfl
      · rw [hlast, ← hall, ← hseen]
        exact h.observed.ordered
  · cases hstep

/-- A commit fails and publishes nothing, or the row is written whole and its header takes its name. -/
theorem commitPublish_cases (k : Codec) (head : CheckpointHeader) (delta : CheckpointDelta) (outcome : Outcome)
    (journal : CheckpointJournal) (content : List UInt8) :
    ((commitPublish k head delta outcome journal content).published = none ∧
        content <+: (commitPublish k head delta outcome journal content).content ∧
        ∃ e, (commitPublish k head delta outcome journal content).result = .error e) ∨
      ∃ encoded encodedHead, k.encodeDelta delta = some encoded ∧
        k.encodeHeader { head with
          journalBytes := journal.bytes + (encoded ++ [newline]).length
          journalSha256 := k.hexdigest (journal.digest ++ (encoded ++ [newline])) } = some encodedHead ∧
        (commitPublish k head delta outcome journal content).content = content ++ (encoded ++ [newline]) ∧
        (commitPublish k head delta outcome journal content).published = some encodedHead ∧
        ((∃ e, (commitPublish k head delta outcome journal content).result = .error e) ∨
          (commitPublish k head delta outcome journal content).journal =
            ⟨true, journal.digest ++ (encoded ++ [newline]), journal.bytes + (encoded ++ [newline]).length,
              head.journalRecords, head.anchorCount, head.segmentCount, false⟩) := by
  cases hdelta : k.encodeDelta delta with
  | none =>
    left
    simp only [commitPublish, hdelta]
    simp
  | some encoded =>
    cases hhead : k.encodeHeader { head with
        journalBytes := journal.bytes + (encoded ++ [newline]).length
        journalSha256 := k.hexdigest (journal.digest ++ (encoded ++ [newline])) } with
    | none =>
      left
      cases outcome <;> simp only [commitPublish, hdelta, hhead] <;> simp
    | some encodedHead =>
      cases outcome with
      | create | append _ | temporary | rename =>
        left
        simp only [commitPublish, hdelta, hhead]
        simp
      | directory | done =>
        right
        refine ⟨encoded, encodedHead, rfl, hhead, ?_⟩
        simp only [commitPublish, hdelta, hhead]
        simp

theorem Inv.commit {outcome : Outcome} (hk : k.Faithful) (h : Inv k s) (hstep : step k s (.commit outcome) = some t)
    (hassumed : Assumed s (.commit outcome) t) : Inv k t := by
  simp only [step] at hstep
  split at hstep
  · next head delta hworker =>
    split at hstep
    · cases hstep
    · cases hstep
      obtain ⟨hcontiguous, hrecorded⟩ := h.records (by simp [hworker])
      obtain ⟨anchors, hprepared⟩ := h.prepared head delta hworker
      obtain ⟨htotal, hrow⟩ := hassumed
      have hobserved := h.observed
      rcases commitPublish_cases k head delta outcome s.journal s.content with
        ⟨hpublished, hcontent, e, hresult⟩ |
        ⟨encoded, encodedHead, hencode, hheader, hcontent, hpublished, hresult⟩
      · refine ⟨⟨hobserved.ordered, hobserved.positive, hobserved.phase⟩, ?_, ?_, ?_, ?_, ?_⟩
        · simpa only [hpublished, Option.map_none, Option.toList_none, List.append_nil] using h.sound
        · simpa only [hpublished, Option.map_none, Option.toList_none, List.append_nil] using h.grows
        · simp only [hpublished, Option.map_none, Option.toList_none, List.append_nil]
          exact fun p hp => (h.within p hp).trans hcontent
        · simp [hresult]
        · simp [hresult]
      · simp only [hcontent] at htotal hrow
        have hrow' : (encoded ++ [newline]).length ≤ maxRowBytes := by
          rw [List.length_append] at hrow
          omega
        have hbytes : s.content.length ≤ maxJournalBytes := by
          rw [List.length_append] at htotal
          omega
        have hsound := sound_header hk hrecorded hcontiguous hprepared hencode hrow' htotal hheader
        obtain ⟨c, hsequence, hcommitted⟩ := committed_row hk hrecorded hcontiguous hprepared hencode hrow' hbytes
        have hwithin : ∀ p ∈ s.published, p.journal <+: s.content ++ (encoded ++ [newline]) := fun p hp =>
          (h.within p hp).trans (List.prefix_append _ _)
        refine ⟨⟨hobserved.ordered, hobserved.positive, hobserved.phase⟩, ?_, ?_, ?_, ?_, ?_⟩
        · intro p hp
          simp only [hpublished, hcontent, Option.map_some, Option.toList_some, List.mem_append, List.mem_singleton] at hp
          rcases hp with hp | rfl
          · exact h.sound p hp
          · exact hsound
        · simp only [hpublished, hcontent, Option.map_some, Option.toList_some]
          exact List.pairwise_append.2 ⟨h.grows, List.pairwise_singleton _ _, by simpa using hwithin⟩
        · intro p hp
          simp only [hpublished, hcontent, Option.map_some, Option.toList_some, List.mem_append, List.mem_singleton] at hp ⊢
          rcases hp with hp | rfl
          · exact hwithin p hp
          · exact List.prefix_rfl
        · intro hended
          rcases hresult with ⟨e, hresult⟩ | hjournal
          · simp [hresult] at hended
          · have hcount : anchors.length ≤ s.anchors.length := hprepared.stays.length_le
            have hall : s.anchors.take anchors.length = anchors := (List.prefix_iff_eq_take.1 hprepared.stays).symm
            refine ⟨⟨hcontiguous.tiles, hcontiguous.words⟩, ⟨?_, ?_, ?_, ?_, ?_, c, ?_, ?_⟩⟩
            · simp only [hjournal, hcontent, hrecorded.digest]
            · simp only [hjournal, hcontent, hrecorded.bytes, List.length_append]
            · have hrecords := hrecorded.records
              simp only [hjournal, hcontent, hprepared.journalRecords, List.length_append, List.length_singleton]
              omega
            · simp only [hjournal, hprepared.anchorCount]
              exact hcount
            · simp only [hjournal, hprepared.segmentCount, le_refl]
            · simp only [hjournal, hprepared.journalRecords, hsequence]
            · simp only [hjournal, hcontent, hprepared.anchorCount, hprepared.segmentCount, List.take_length]
              rw [← hall] at hcommitted
              exact hcommitted
        · intro head' delta' heq
          simp only at heq
          split at heq <;> cases heq
  · cases hstep

theorem step_inv {a : Action} (hk : k.Faithful) (h : Inv k s) (hstep : step k s a = some t) (hassumed : Assumed s a t)
    (hlate : NotRepeatedAtEnd s a t) : Inv k t := by
  cases a with
  | start =>
    obtain ⟨hobserved, hcapture⟩ := h.observed.start hstep
    exact h.captureStep hobserved hcapture
  | observe row =>
    obtain ⟨hobserved, hcapture⟩ := h.observed.observe hstep hassumed hlate
    exact h.captureStep hobserved hcapture
  | setLast =>
    obtain ⟨hobserved, hcapture⟩ := h.observed.setLast hstep
    exact h.captureStep hobserved hcapture
  | push =>
    obtain ⟨hobserved, hcapture⟩ := h.observed.push hstep
    exact h.captureStep hobserved hcapture
  | stop =>
    obtain ⟨hobserved, hcapture⟩ := h.observed.stop hstep
    exact h.captureStep hobserved hcapture
  | finalPush =>
    obtain ⟨hobserved, hcapture⟩ := h.observed.finalPush hstep
    exact h.captureStep hobserved hcapture
  | finishActive frames => exact h.finishActive hstep
  | sync count synced => exact h.sync hstep
  | snapshot queuePeakFrames maxWriteNs => exact h.snapshot hstep
  | commit outcome => exact h.commit hk hstep hassumed

/-! ### The reader -/

variable {file : ℕ × ℕ} {o : Observation}

/-- A read of the published header, when the journal still begins with the rows that it names. -/
structure Poll (k : Codec) (file : ℕ × ℕ) (e : Event) (p : Publication) : Prop where
  head : k.loads p.head = some (.dict e.1)
  content : p.journal <+: e.2.content
  steady : e.2.Steady file p.journal.length

/-- The reader and the writer agree: a fresh reader and one that follows the headers accept each of them, and
after a failed commit none is published. -/
structure Agrees (k : Codec) (s : State) : Prop where
  journal : ∀ p ∈ s.published, p.journal <+: s.content
  fresh : ∀ p ∈ s.published, ∃ items, k.loads p.head = some (.dict items) ∧
    ∀ file o, p.journal <+: o.content → o.Steady file p.journal.length →
      ∃ whole next, ({} : Reader).read k.loads k.hexdigest items o = (.ok whole, next) ∧ whole.segments = p.records
  following : ∀ file (polls : List (Event × Publication)), (polls.map (·.2)).Sublist s.published →
    (∀ q ∈ polls, Poll k file q.1 q.2) → AppendOnly file (polls.map (·.1)) →
      (follow k.loads k.hexdigest (polls.map (·.1))).2.map (·.1) = polls.map (·.1.1) ∧
        segmentsOf (follow k.loads k.hexdigest (polls.map (·.1))).2 = (polls.getLast?.map (·.2.records)).getD []
  ended : s.worker = .ended → ∀ actions t, run (step k) s actions = some t → t.published = s.published

theorem Sound.read {p : Publication} (h : Sound k p) :
    ∃ items, k.loads p.head = some (.dict items) ∧ ∀ file o, p.journal <+: o.content →
      o.Steady file p.journal.length → ∃ whole next,
        ({} : Reader).tryRead k.loads k.hexdigest items o = .ok (whole, next) ∧ whole.segments = p.records ∧
        next.offset = p.journal.length := by
  obtain ⟨items, c, points, final, hloads, hcheck, hcommitted, hcounts, hfinal⟩ := h
  refine ⟨items, hloads, fun file o hcontent hsteady => ?_⟩
  refine ⟨⟨points ++ final, p.records⟩, ⟨p.journal.length, c, some file⟩, ?_, rfl, rfl⟩
  refine fresh_tryRead_eq_ok.2 ⟨k.hexdigest p.journal, file, points, final, hcheck, hsteady, hcontent.length_le, ?_,
    hcounts, hfinal, rfl, rfl⟩
  rw [← List.prefix_iff_eq_take.1 hcontent]
  exact hcommitted

/-- A reader that follows the headers accepts each of them and has the records of the last one. -/
theorem follow_polls (polls : List (Event × Publication)) (hsound : ∀ q ∈ polls, Sound k q.2)
    (hgrows : (polls.map (·.2)).Pairwise fun p q => p.journal <+: q.journal)
    (hpolls : ∀ q ∈ polls, Poll k file q.1 q.2) (hjournal : AppendOnly file (polls.map (·.1))) :
    (follow k.loads k.hexdigest (polls.map (·.1))).2.map (·.1) = polls.map (·.1.1) ∧
      segmentsOf (follow k.loads k.hexdigest (polls.map (·.1))).2 = (polls.getLast?.map (·.2.records)).getD [] ∧
      (follow k.loads k.hexdigest (polls.map (·.1))).1.offset = (polls.getLast?.map (·.2.journal.length)).getD 0 := by
  induction polls using List.reverseRecOn with
  | nil => exact ⟨rfl, rfl, rfl⟩
  | append_singleton polls q ih =>
    obtain ⟨⟨head, o⟩, p⟩ := q
    rw [List.map_append, List.map_singleton] at hgrows hjournal ⊢
    obtain ⟨hbefore, -, hlast⟩ := List.pairwise_append.1 hgrows
    obtain ⟨hevents, hcontents, hfile⟩ := hjournal.init
    obtain ⟨hheads, hsegments, hoffset⟩ := ih (fun q hq => hsound q (List.mem_append_left _ hq)) hbefore
      (fun q hq => hpolls q (List.mem_append_left _ hq)) hevents
    obtain ⟨hhead, hcontent, hsteady⟩ := hpolls ((head, o), p) (by simp)
    obtain ⟨items, hloads, hread⟩ := (hsound ((head, o), p) (by simp)).read
    obtain rfl : head = items := by simpa [hhead] using hloads
    obtain ⟨whole, next, hwhole, hrecords, hnext⟩ := hread file o hcontent hsteady
    obtain ⟨window, hfollowed⟩ : ∃ window, Followed k.loads k.hexdigest file _ window _ := followed (polls.map (·.1)) hevents
    have hwindow := hfollowed.stays o.content hcontents
    have hlow : (follow k.loads k.hexdigest (polls.map (·.1))).1.offset ≤ next.offset := by
      rw [hoffset, hnext]
      cases hq : polls.getLast? with
      | none => exact Nat.zero_le _
      | some q => exact (hlast q.2 (List.mem_map_of_mem (List.mem_of_getLast? hq)) p (by simp)).length_le
    obtain ⟨reading, hreading⟩ := hfollowed.stands.incremental hwindow hfile hlow hwhole
    obtain ⟨whole', hwhole', hall⟩ := hfollowed.stands.fresh hwindow hreading
    obtain rfl : whole = whole' := by simpa [hwhole] using hwhole'
    have hstep : follow k.loads k.hexdigest (polls.map (·.1) ++ [(head, o)]) =
        (next, (follow k.loads k.hexdigest (polls.map (·.1))).2 ++ [(head, reading)]) := by
      rw [follow, List.foldl_append, ← follow, List.foldl_cons, List.foldl_nil, followStep, read_eq_ok.2 hreading]
    rw [hstep]
    refine ⟨by simp [hheads], ?_, by simp [hnext]⟩
    rw [segmentsOf, List.flatMap_append, List.flatMap_singleton, ← segmentsOf, ← hall, hrecords]
    simp

theorem ended_step {a : Action} (hended : s.worker = .ended) (hstep : step k s a = some t) :
    t.worker = .ended ∧ t.published = s.published := by
  cases a with
  | start | observe | setLast | push | stop | finalPush | finishActive =>
    simp only [step] at hstep
    split at hstep <;> (try split at hstep) <;> cases hstep <;> exact ⟨hended, rfl⟩
  | sync | snapshot | commit => simp [step, hended] at hstep

theorem agrees_of_inv (h : Inv k s) : Agrees k s where
  journal := h.within
  fresh p hp := by
    obtain ⟨items, hloads, hread⟩ := (h.sound p hp).read
    refine ⟨items, hloads, fun file o hcontent hsteady => ?_⟩
    obtain ⟨whole, next, hwhole, hrecords, -⟩ := hread file o hcontent hsteady
    exact ⟨whole, next, read_eq_ok.2 hwhole, hrecords⟩
  following file polls hsub hpolls hjournal := by
    have hsound : ∀ q ∈ polls, Sound k q.2 := fun q hq => h.sound q.2 (hsub.subset (List.mem_map_of_mem hq))
    obtain ⟨hheads, hsegments, -⟩ := follow_polls polls hsound (h.grows.sublist hsub) hpolls hjournal
    exact ⟨hheads, hsegments⟩
  ended hended actions t hrun :=
    (run_invariant (I := fun u => u.worker = .ended ∧ u.published = s.published)
      (fun u a v hu hv => (ended_step hu.1 hv).imp_right fun heq => heq.trans hu.2) ⟨hended, rfl⟩ hrun).2

/-- The checkpoints of a run agree with the reader. -/
theorem checkpoints_agree (k : Codec) (hk : k.Faithful) (actions : List Action) (s : State)
    (hrun : run (step k) {} actions = some s) (hassumed : Along (step k) Assumed {} actions)
    (hlate : Along (step k) NotRepeatedAtEnd {} actions) : Agrees k s := by
  have hboth : Along (step k) (fun s a t => Assumed s a t ∧ NotRepeatedAtEnd s a t) {} actions :=
    hassumed.and hlate
  exact agrees_of_inv (run_invariant_of_along (fun s a t h ht hg => step_inv hk h ht hg.1 hg.2) (init_inv k) hboth hrun)

/-! ### A run -/

/-- A codec on one row and its header. -/
def sampleCodec (delta : CheckpointDelta) (header : CheckpointHeader) (row head : String) (digest : String) : Codec where
  encodeDelta d := if d = delta then some row.toUTF8.data.toList else none
  encodeHeader h := if h = header then some head.toUTF8.data.toList else none
  loads b :=
    if b = row.toUTF8.data.toList ++ [newline] then some delta.value
    else if b = head.toUTF8.data.toList then some (.dict header.items)
    else none
  hexdigest b :=
    if b = row.toUTF8.data.toList ++ [newline] then digest
    else "e3b0c44298fc1c149afbf4c8996fb92427ae41e4649b934ca495991b7852b855"

theorem sampleCodec_faithful {header : CheckpointHeader} {row head digest : String}
    (hline : newline ∉ row.toUTF8.data.toList) (hne : head.toUTF8.data.toList ≠ row.toUTF8.data.toList ++ [newline])
    (hdigest : isDigest digest = true) : (sampleCodec delta header row head digest).Faithful where
  line d b h := by
    simp only [sampleCodec, Option.ite_none_right_eq_some, Option.some.injEq] at h
    rwa [← h.2]
  delta d b h := by
    simp only [sampleCodec, Option.ite_none_right_eq_some, Option.some.injEq] at h
    rw [← h.2, h.1]
    simp [sampleCodec]
  header h b heq := by
    simp only [sampleCodec, Option.ite_none_right_eq_some, Option.some.injEq] at heq
    rw [← heq.2, heq.1]
    simp only [sampleCodec, if_neg hne, if_true]
  digest bytes := by
    simp only [sampleCodec]
    split
    · exact hdigest
    · decide +kernel

def sampleHeader (journalBytes : ℕ) (digest : String) (anchorCount : ℕ) (last : Anchor) (samples : ℕ) :
    CheckpointHeader :=
  ⟨journalBytes, 1, digest, anchorCount, 1, some last, samples, 1, 1024, 8192, queueCapacityFrames, 0, 0⟩

def sampleAnchor : Anchor := ⟨480, 1000, 5000, 1010, 1020⟩

def sampleDelta : CheckpointDelta := ⟨0, [sampleAnchor], [⟨0, "audio/audio_00000.wav", 0, 480⟩]⟩

def sampleDigest : String := "b647deee46b7f31cca8f910beb0f52ca244b616ee43ace3e37ac8e2f5f545e34"

def sampleRow : String :=
  "\x7b\"sequence\":0,\"anchors\":[[480,1000,5000,1010,1020]],\"segments\":[\x7b\"end_sample" ++
    "\":480,\"index\":0,\"path\":\"audio/audio_00000.wav\",\"start_sample\":0\x7d]\x7d"

def sampleHead : String :=
  "\x7b\"schema\":\"openaria.audio-checkpoint.v3\",\"journal_bytes\":143,\"journal_records\":" ++
    "1,\"journal_sha256\":\"b647deee46b7f31cca8f910beb0f52ca244b616ee43ace3e37ac8e2f5f545e34\"," ++
    "\"anchor_count\":1,\"segment_count\":1,\"last_anchor\":[480,1000,5000,1010,1020],\"sample_" ++
    "count\":480,\"thread_started_monotonic_ns\":1,\"period_frames\":1024,\"buffer_frames\":819" ++
    "2,\"queue_capacity_frames\":786432,\"queue_peak_frames\":0,\"max_write_ns\":0\x7d"

def sample : Codec :=
  sampleCodec sampleDelta (sampleHeader 143 sampleDigest 1 sampleAnchor 480) sampleRow sampleHead sampleDigest

def sampleRun : List Action :=
  [.start 1 1024 8192, .observe sampleAnchor, .setLast, .push, .finishActive 480, .sync 1 1, .snapshot 0 0,
    .commit .done]

theorem checkpoints_agree_sample :
    ∃ s, run (step sample) {} sampleRun = some s ∧ s.published.map (·.records) = [sampleDelta.segments] ∧
      Agrees sample s := by
  have hfaithful : sample.Faithful := sampleCodec_faithful (by decide +kernel) (by decide +kernel) (by decide +kernel)
  have hrun : (run (step sample) {} sampleRun).map (fun s => s.published.map (·.records)) =
      some [sampleDelta.segments] := by
    decide +kernel
  obtain ⟨s, hs, hrecords⟩ := Option.map_eq_some_iff.1 hrun
  exact ⟨s, hs, hrecords, checkpoints_agree sample hfaithful sampleRun s hs (by decide +kernel) (by decide +kernel)⟩

end Conductor.Audio.Checkpoint
