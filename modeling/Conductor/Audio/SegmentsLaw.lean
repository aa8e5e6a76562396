import Conductor.Lib.Concat
import Conductor.Audio.Segments
import Mathlib.Tactic.Ring

/-! The segments of a run tile its frames and hold its bytes, and they become durable in the order of
their indices with at most eight of them pending. -/

namespace Conductor.Audio.Segments

/-- The segment of a number, of the first `total` frames. -/
def piece (c : Config) (index total : ℕ) : AudioSegment :=
  { index
    relativePath := segmentPath index
    startSample := index * c.segmentFrames
    endSample := min ((index + 1) * c.segmentFrames) total }

theorem Config.bytesPerFrame_pos (c : Config) : 0 < c.bytesPerFrame :=
  Nat.mul_pos c.channels_pos (by decide)

/-- More frames do not change a segment that is full. -/
theorem piece_of_le (c : Config) {index total total' : ℕ} (h : (index + 1) * c.segmentFrames ≤ total)
    (hle : total ≤ total') : piece c index total' = piece c index total := by
  rw [piece, piece, Nat.min_eq_left h, Nat.min_eq_left (h.trans hle)]

namespace System

/-! ### Where the segments are -/

def WorkerPc.batch : WorkerPc → List PendingSegment
  | .coalescing batch => batch
  | .committing batch _ => batch
  | _ => []

/-- What the worker still has to subtract. -/
def WorkerPc.inFlight : WorkerPc → ℕ
  | .coalescing batch => batch.length
  | .committing _ count => count
  | .releasing count => count
  | _ => 0

def WriterPc.sent : WriterPc → List PendingSegment
  | .sending segment _ => [segment]
  | _ => []

/-- The bytes of the current call that are in no file yet. -/
def WriterPc.unread (c : Config) : WriterPc → List UInt8
  | .writing rest => rest.data.drop (rest.frameOffset * c.bytesPerFrame)
  | .sealing (some rest) => rest.data.drop (rest.frameOffset * c.bytesPerFrame)
  | .sending _ (some rest) => rest.data.drop (rest.frameOffset * c.bytesPerFrame)
  | _ => []

/-- The segments that were sealed, from the first one on. -/
def sealed (s : System) : List PendingSegment :=
  s.durableRecords ++ WorkerPc.batch s.worker ++ s.queue ++ WriterPc.sent s.pc

/-- Their records. -/
def submitted (s : System) : List AudioSegment := s.writer.records ++ (WriterPc.sent s.pc).map (·.record)

def activePayload (s : System) : List UInt8 := (s.writer.active.map (·.file.payload)).getD []

/-! ### What holds of the writer -/

/-- The rest of a call is whole frames. -/
def Whole (c : Config) (rest : Rest) : Prop :=
  rest.data.length = (rest.frameOffset + rest.remaining) * c.bytesPerFrame

/-- The open segment has the number `count` and `held` frames. -/
structure Holds (c : Config) (count held : ℕ) (active : ActiveSegment) : Prop where
  index : active.index = count
  path : active.relativePath = segmentPath count
  start : active.startSample = count * c.segmentFrames
  bytes : active.dataBytes = held * c.bytesPerFrame
  payload : active.file.payload.length = held * c.bytesPerFrame

/-- `count` full segments and `held` frames in an open one. -/
def Holding (c : Config) (s : System) (held : ℕ) : Prop :=
  s.totalWritten = s.submitted.length * c.segmentFrames + held ∧
    match s.writer.active with
    | none => held = 0 ∧ s.writer.nextIndex = s.submitted.length
    | some active =>
      0 < held ∧ Holds c s.submitted.length held active ∧ s.writer.nextIndex = s.submitted.length + 1

/-- Every frame is in a segment that is sealed. -/
def Ended (c : Config) (s : System) : Prop :=
  s.writer.active = none ∧ s.totalWritten ≤ s.submitted.length * c.segmentFrames ∧
    s.submitted.length * c.segmentFrames < s.totalWritten + c.segmentFrames

/-- What holds at each place of the writer. -/
def Place (c : Config) (s : System) : Prop :=
  match s.pc with
  | .idle => ∃ held < c.segmentFrames, Holding c s held
  | .writing rest => Whole c rest ∧ ∃ held < c.segmentFrames, Holding c s held
  | .sealing (some rest) => Whole c rest ∧ s.writer.active ≠ none ∧ Holding c s c.segmentFrames
  | .sealing none => s.writer.active ≠ none ∧ ∃ held < c.segmentFrames, Holding c s held
  | .sending segment (some rest) => Whole c rest ∧ segment.record.endSample = s.totalWritten ∧
      s.writer.active = none ∧ Holding c s 0
  | .sending segment none => segment.record.endSample = s.totalWritten ∧ Ended c s
  | .joining => Ended c s
  | .failed _ => True
  | .panicked => False

structure Writes (c : Config) (s : System) : Prop where
  tiles : ∀ i r, s.submitted[i]? = some r → r = piece c i s.totalWritten
  place : Place c s
  completed : s.writer.completedSnapshot.sampleCount =
    min (s.writer.records.length * c.segmentFrames) s.totalWritten
  published : ∀ p ∈ s.published, p.sampleCount ≤ s.totalWritten
  sorted : (s.published.map (·.sampleCount)).Pairwise (· ≤ ·)

/-- A published snapshot counts the frames that are written. -/
theorem Writes.publish {c : Config} {s : System} (h : Writes c s)
    (heq : (s.writer.snapshot c).sampleCount = s.totalWritten) : Writes c (s.publishSnapshot c) where
  tiles := h.tiles
  place := h.place
  completed := h.completed
  published := by
    exact forall_mem_concat h.published heq.le
  sorted := by
    show ((s.published ++ [s.writer.snapshot c]).map (·.sampleCount)).Pairwise (· ≤ ·)
    rw [List.map_append]
    refine List.pairwise_append.2 ⟨h.sorted, List.pairwise_singleton _ _, fun n hn m hm => ?_⟩
    obtain ⟨p, hp, rfl⟩ := List.mem_map.1 hn
    rw [List.map_singleton, List.mem_singleton] at hm
    rw [hm, heq]
    exact h.published p hp

/-- The writer goes to another place with what it has. -/
theorem Writes.goto {c : Config} {s s' : System} (h : Writes c s) (hsubmitted : s'.submitted = s.submitted)
    (hwriter : s'.writer = s.writer) (htotal : s'.totalWritten = s.totalWritten)
    (hpublished : s'.published = s.published) (hplace : Place c s') : Writes c s' where
  tiles := by
    rw [hsubmitted, htotal]
    exact h.tiles
  place := hplace
  completed := by
    rw [hwriter, htotal]
    exact h.completed
  published := by
    rw [hpublished, htotal]
    exact h.published
  sorted := by
    rw [hpublished]
    exact h.sorted

theorem Holding.of_eq {c : Config} {s s' : System} {held : ℕ} (h : Holding c s held)
    (hsubmitted : s'.submitted = s.submitted) (hwriter : s'.writer = s.writer)
    (htotal : s'.totalWritten = s.totalWritten) : Holding c s' held := by
  unfold Holding at *
  rwa [hsubmitted, hwriter, htotal]

/-- A step of the worker leaves the writer alone. -/
theorem Writes.of_eq {c : Config} {s s' : System} (h : Writes c s) (hpc : s'.pc = s.pc)
    (hwriter : s'.writer = s.writer) (htotal : s'.totalWritten = s.totalWritten)
    (hpublished : s'.published = s.published) : Writes c s' := by
  have hsubmitted : s'.submitted = s.submitted := by rw [submitted, submitted, hpc, hwriter]
  have hplace := h.place
  refine h.goto hsubmitted hwriter htotal hpublished ?_
  unfold Place Holding Ended at *
  rwa [hsubmitted, htotal, hpc, hwriter]

/-! ### The writer goes on -/

section Writer

variable {c : Config} {s : System} {held : ℕ}

theorem Holds.div {count : ℕ} {active : ActiveSegment} (h : Holds c count held active) :
    active.dataBytes / c.bytesPerFrame = held := by
  rw [h.bytes]
  exact Nat.mul_div_cancel _ c.bytesPerFrame_pos

theorem Holds.bytes_pos {count : ℕ} {active : ActiveSegment} (h : Holds c count held active) (hpos : 0 < held) :
    0 < active.dataBytes := by
  rw [h.bytes]
  exact Nat.mul_pos hpos c.bytesPerFrame_pos

/-- The segment that a pass writes to. -/
theorem Holding.opened (h : Holding c s held) :
    ∃ active, (if s.writer.active.isNone then s.writer.openSegment s.totalWritten else s.writer) =
        { s.writer with active := some active, nextIndex := s.submitted.length + 1 } ∧
      Holds c s.submitted.length held active ∧ active.file.payload = s.activePayload := by
  obtain ⟨htotal, h⟩ := h
  unfold activePayload
  cases hactive : s.writer.active with
  | none =>
    rw [hactive] at h
    obtain ⟨rfl, hindex⟩ := h
    refine ⟨⟨s.writer.nextIndex, segmentPath s.writer.nextIndex, {}, s.totalWritten, 0⟩, ?_,
      ⟨hindex, by rw [hindex], by simpa using htotal, ?_, ?_⟩, rfl⟩
    · simp [SegmentWriter.openSegment, hindex]
    · exact (Nat.zero_mul _).symm
    · exact (Nat.zero_mul _).symm
  | some active =>
    rw [hactive] at h
    obtain ⟨-, hholds, hindex⟩ := h
    refine ⟨active, ?_, hholds, rfl⟩
    rw [if_neg (by simp), ← hactive, ← hindex]

/-- A pass takes frames into the open segment, or fails to open one. -/
theorem pass_cases {rest : Rest} (hpos : 0 < rest.remaining) (hwhole : Whole c rest)
    (hheld : held < c.segmentFrames) (h : Holding c s held) :
    (∃ error, s.pass c rest = { s with pc := .failed error }) ∨
    ∃ selected active, 0 < selected ∧ selected ≤ rest.remaining ∧ held + selected ≤ c.segmentFrames ∧
      Holds c s.submitted.length (held + selected) active ∧
      active.file.payload = s.activePayload ++
        (rest.data.drop (rest.frameOffset * c.bytesPerFrame)).take (selected * c.bytesPerFrame) ∧
      s.pass c rest = { s with
        writer := { s.writer with active := some active, nextIndex := s.submitted.length + 1 }
        totalWritten := s.totalWritten + selected
        pc := if held + selected = c.segmentFrames then
            .sealing (some ⟨rest.data, rest.remaining - selected, rest.frameOffset + selected⟩)
          else .writing ⟨rest.data, rest.remaining - selected, rest.frameOffset + selected⟩ } := by
  obtain ⟨active, hopened, hholds, hpayload⟩ := h.opened
  unfold pass
  rw [hopened]
  simp only [hholds.div]
  split
  · exact .inl ⟨_, rfl⟩
  · have hroom : rest.frameOffset * c.bytesPerFrame +
        min rest.remaining (c.segmentFrames - held) * c.bytesPerFrame ≤ rest.data.length := by
      rw [hwhole, ← Nat.add_mul]
      exact Nat.mul_le_mul_right _ (by omega)
    have hbytes : active.dataBytes + min rest.remaining (c.segmentFrames - held) * c.bytesPerFrame =
        (held + min rest.remaining (c.segmentFrames - held)) * c.bytesPerFrame := by
      rw [hholds.bytes, Nat.add_mul]
    have hdiv : (active.dataBytes + min rest.remaining (c.segmentFrames - held) * c.bytesPerFrame) /
        c.bytesPerFrame = held + min rest.remaining (c.segmentFrames - held) := by
      rw [hbytes]
      exact Nat.mul_div_cancel _ c.bytesPerFrame_pos
    rw [if_neg (by omega), if_neg (by omega)]
    refine .inr ⟨min rest.remaining (c.segmentFrames - held), { active with
      file := { active.file with
        payload := active.file.payload ++ (rest.data.drop (rest.frameOffset * c.bytesPerFrame)).take
          (min rest.remaining (c.segmentFrames - held) * c.bytesPerFrame) }
      dataBytes := active.dataBytes + min rest.remaining (c.segmentFrames - held) * c.bytesPerFrame },
      by omega, by omega, by omega, ⟨hholds.index, hholds.path, hholds.start, hbytes, ?_⟩, ?_, ?_⟩
    · rw [List.length_append, hholds.payload, List.length_take, List.length_drop, Nat.add_mul]
      omega
    · rw [← hpayload]
    · simp only [hdiv]

theorem submitted_eq (h : WriterPc.sent s.pc = []) : s.submitted = s.writer.records := by
  rw [submitted, h]
  exact List.append_nil _

theorem submitted_same {s' : System} (h : WriterPc.sent s.pc = []) (h' : WriterPc.sent s'.pc = [])
    (hrecords : s'.writer.records = s.writer.records) : s'.submitted = s.submitted := by
  rw [submitted_eq h, submitted_eq h', hrecords]

/-- An error keeps what is accepted. -/
theorem Writes.fail {s' : System} (h : Writes c s) {error : AudioError} (hpc : s'.pc = .failed error)
    (hrecords : s'.writer.records = s.writer.records)
    (hcompleted : s'.writer.completedSnapshot = s.writer.completedSnapshot)
    (htotal : s'.totalWritten = s.totalWritten) (hpublished : s'.published = s.published) :
    Writes c s' where
  tiles := by
    intro i r hr
    rw [submitted_eq (by rw [hpc]; rfl), hrecords] at hr
    rw [htotal]
    apply h.tiles
    rw [submitted, List.getElem?_append_left (List.getElem?_eq_some_iff.1 hr).1]
    exact hr
  place := by
    unfold Place
    rw [hpc]
    exact trivial
  completed := by
    rw [hcompleted, hrecords, htotal]
    exact h.completed
  published := by
    rw [hpublished, htotal]
    exact h.published
  sorted := by
    rw [hpublished]
    exact h.sorted

theorem Writes.writing {rest : Rest} (h : Writes c s) (hpc : s.pc = .writing rest) :
    Whole c rest ∧ ∃ held < c.segmentFrames, Holding c s held := by
  have hplace := h.place
  rwa [Place, hpc] at hplace

theorem Writes.waiting (h : Writes c s) (hpc : s.pc = .idle) : ∃ held < c.segmentFrames, Holding c s held := by
  have hplace := h.place
  rwa [Place, hpc] at hplace

theorem pass_writes {rest : Rest} (h : Writes c s) (hpc : s.pc = .writing rest) (hpos : 0 < rest.remaining) :
    Writes c (s.pass c rest) := by
  obtain ⟨hwhole, held, hheld, hholding⟩ := h.writing hpc
  have hsubmitted : s.submitted = s.writer.records := submitted_eq (by rw [hpc]; rfl)
  obtain ⟨error, hpass⟩ | ⟨selected, active, hselected, hremaining, hroom, hholds, hpayload, hpass⟩ :=
    pass_cases hpos hwhole hheld hholding
  · rw [hpass]
    exact h.fail rfl rfl rfl rfl rfl
  · have hsubmitted' : (s.pass c rest).submitted = s.submitted := by
      rw [hsubmitted, hpass, submitted_eq]
      show WriterPc.sent (if _ then _ else _) = []
      split <;> rfl
    have htotal : (s.pass c rest).totalWritten = s.totalWritten + selected := by rw [hpass]
    have hfull := hholding.1
    have hwhole' : Whole c ⟨rest.data, rest.remaining - selected, rest.frameOffset + selected⟩ := by
      show rest.data.length = _
      rw [hwhole]
      show _ = (rest.frameOffset + selected + (rest.remaining - selected)) * _
      congr 1
      omega
    have hholding' : Holding c (s.pass c rest) (held + selected) := by
      unfold Holding
      rw [hsubmitted', htotal, hfull, hpass]
      exact ⟨Nat.add_assoc _ _ _, by omega, hholds, rfl⟩
    constructor
    · intro i r hr
      rw [hsubmitted'] at hr
      have hlt : i + 1 ≤ s.submitted.length := (List.getElem?_eq_some_iff.1 hr).1
      have hle := Nat.mul_le_mul_right c.segmentFrames hlt
      rw [htotal, piece_of_le c (by omega : _ ≤ s.totalWritten) (by omega)]
      exact h.tiles i r hr
    · unfold Place
      have hactive : (s.pass c rest).writer.active ≠ none := by
        rw [hpass]
        exact Option.some_ne_none _
      by_cases hlast : held + selected = c.segmentFrames
      · have hpc' : (s.pass c rest).pc =
            .sealing (some ⟨rest.data, rest.remaining - selected, rest.frameOffset + selected⟩) := by
          rw [hpass]
          exact if_pos hlast
        rw [hpc']
        rw [hlast] at hholding'
        exact ⟨hwhole', hactive, hholding'⟩
      · have hpc' : (s.pass c rest).pc =
            .writing ⟨rest.data, rest.remaining - selected, rest.frameOffset + selected⟩ := by
          rw [hpass]
          exact if_neg hlast
        rw [hpc']
        exact ⟨hwhole', held + selected, by omega, hholding'⟩
    · have hcompleted := h.completed
      rw [hsubmitted] at hfull
      rw [htotal, hpass]
      show s.writer.completedSnapshot.sampleCount = min (s.writer.records.length * c.segmentFrames) _
      omega
    · rw [htotal, hpass]
      exact fun p hp => (h.published p hp).trans (Nat.le_add_right _ _)
    · rw [hpass]
      exact h.sorted

/-- The last snapshot of a call. -/
theorem idle_writes {rest : Rest} (h : Writes c s) (hpc : s.pc = .writing rest) :
    Writes c (publishSnapshot c { s with pc := .idle }) ∧
      (s.writer.snapshot c).sampleCount = s.totalWritten := by
  obtain ⟨-, held, hheld, hholding⟩ := h.writing hpc
  have hsubmitted : s.submitted = s.writer.records := submitted_eq (by rw [hpc]; rfl)
  have hsubmitted' : ({ s with pc := .idle } : System).submitted = s.submitted :=
    submitted_same (by rw [hpc]; rfl) rfl rfl
  have hcount : (s.writer.snapshot c).sampleCount = s.totalWritten := by
    obtain ⟨htotal, hactive⟩ := hholding
    have hcompleted := h.completed
    rw [hsubmitted] at htotal
    unfold SegmentWriter.snapshot
    cases hopen : s.writer.active with
    | none =>
      rw [hopen] at hactive
      show s.writer.completedSnapshot.sampleCount = _
      omega
    | some active =>
      rw [hopen] at hactive
      obtain ⟨hpos, hholds, -⟩ := hactive
      simp only [if_pos (hholds.bytes_pos hpos), hholds.div, hholds.start, hsubmitted]
      omega
  have hidle : Writes c { s with pc := .idle } :=
    h.goto hsubmitted' rfl rfl rfl ⟨held, hheld, hholding.of_eq hsubmitted' rfl rfl⟩
  exact ⟨hidle.publish hcount, hcount⟩

variable {rest : Option Rest}

/-- The segment that is to be sealed. -/
theorem Writes.sealing (h : Writes c s) (hpc : s.pc = .sealing rest) :
    ∃ held segment, 0 < segment.dataBytes ∧ held ≤ c.segmentFrames ∧ s.writer.active = some segment ∧
      s.totalWritten = s.writer.records.length * c.segmentFrames + held ∧
      Holds c s.writer.records.length held segment ∧ s.writer.nextIndex = s.writer.records.length + 1 ∧
      ∀ r ∈ rest, held = c.segmentFrames ∧ Whole c r := by
  have hsubmitted : s.submitted = s.writer.records := submitted_eq (by rw [hpc]; rfl)
  have hplace := h.place
  unfold Place at hplace
  rw [hpc] at hplace
  cases rest with
  | some rest =>
    obtain ⟨hwhole, hactive, htotal, hholds⟩ := hplace
    obtain ⟨segment, hsegment⟩ := Option.ne_none_iff_exists'.1 hactive
    rw [hsegment, hsubmitted] at hholds
    rw [hsubmitted] at htotal
    exact ⟨_, segment, hholds.2.1.bytes_pos hholds.1, le_refl _, hsegment, htotal, hholds.2.1, hholds.2.2,
      fun r hr => ⟨rfl, by rwa [← Option.some.inj hr]⟩⟩
  | none =>
    obtain ⟨hactive, held, hheld, htotal, hholds⟩ := hplace
    obtain ⟨segment, hsegment⟩ := Option.ne_none_iff_exists'.1 hactive
    rw [hsegment, hsubmitted] at hholds
    rw [hsubmitted] at htotal
    exact ⟨held, segment, hholds.2.1.bytes_pos hholds.1, hheld.le, hsegment, htotal, hholds.2.1, hholds.2.2, by simp⟩

/-- What `finish_active` hands over. -/
def sealedSegment (c : Config) (segment : ActiveSegment) : PendingSegment :=
  { file := { declared := segment.dataBytes, payload := segment.file.payload.take segment.dataBytes }
    record := SegmentWriter.record c segment }

/-- The segment is reserved a place, or there is an error. -/
theorem seal_cases {segment : ActiveSegment} (hactive : s.writer.active = some segment) (hpos : 0 < segment.dataBytes) :
    (∃ error, s.sealActive c rest =
      { s with writer := { s.writer with active := none }, pc := .failed error }) ∨
    s.commitError = false ∧ s.pendingCommits < maxPendingCommits ∧ s.sealActive c rest = { s with
      writer := { s.writer with active := none }
      pendingCommits := s.pendingCommits + 1
      peakPendingCommits := max s.peakPendingCommits (s.pendingCommits + 1)
      pc := .sending (sealedSegment c segment) rest } := by
  unfold sealActive
  rw [hactive]
  simp only [if_neg hpos.ne']
  split
  · exact .inl ⟨_, rfl⟩
  · split
    · exact .inl ⟨_, rfl⟩
    · next hcommit =>
      split
      · next hpending => exact .inr ⟨by simpa using hcommit, hpending, rfl⟩
      · exact .inl ⟨_, rfl⟩

theorem Holds.record_eq {count : ℕ} {segment : ActiveSegment} (h : Holds c count held segment)
    (hle : held ≤ c.segmentFrames) :
    SegmentWriter.record c segment = piece c count (count * c.segmentFrames + held) := by
  have hend : count * c.segmentFrames + held ≤ (count + 1) * c.segmentFrames := by
    rw [Nat.add_mul, Nat.one_mul]
    omega
  rw [SegmentWriter.record, piece, h.div, h.index, h.path, h.start, Nat.min_eq_right hend]

theorem seal_writes (h : Writes c s) (hpc : s.pc = .sealing rest) : Writes c (s.sealActive c rest) := by
  obtain ⟨held, segment, hbytes, hle, hactive, htotal, hholds, hindex, hrest⟩ := h.sealing hpc
  have hpos : 0 < held := Nat.pos_of_ne_zero fun hzero => by simp [hholds.bytes, hzero] at hbytes
  have hsubmitted : s.submitted = s.writer.records := submitted_eq (by rw [hpc]; rfl)
  obtain ⟨error, hseal⟩ | ⟨-, -, hseal⟩ := seal_cases hactive hbytes
  · rw [hseal]
    exact h.fail rfl rfl rfl rfl rfl
  · rw [hseal]
    have hrecord : (sealedSegment c segment).record = piece c s.writer.records.length s.totalWritten := by
      rw [htotal]
      exact hholds.record_eq hle
    have hstep : (s.writer.records.length + 1) * c.segmentFrames =
        s.writer.records.length * c.segmentFrames + c.segmentFrames := by
      rw [Nat.add_mul, Nat.one_mul]
    have hend : (sealedSegment c segment).record.endSample = s.totalWritten := by
      rw [hrecord]
      show min _ _ = _
      omega
    constructor
    · intro i r hr
      show r = piece c i s.totalWritten
      change (s.writer.records ++ [(sealedSegment c segment).record])[i]? = some r at hr
      rcases Nat.lt_trichotomy i s.writer.records.length with hi | rfl | hi
      · rw [List.getElem?_append_left hi, ← hsubmitted] at hr
        exact h.tiles i r hr
      · rw [List.getElem?_append_right le_rfl, Nat.sub_self] at hr
        rw [← Option.some.inj hr, hrecord]
      · rw [List.getElem?_eq_none (by rw [List.length_append]; exact hi)] at hr
        exact absurd hr (by simp)
    · have hlength : ∀ pending peak, ({ s with
          writer := { s.writer with active := none }
          pendingCommits := pending
          peakPendingCommits := peak
          pc := .sending (sealedSegment c segment) rest } : System).submitted.length =
            s.writer.records.length + 1 := fun _ _ => by simp [submitted, WriterPc.sent]
      unfold Place
      cases rest with
      | some rest =>
        obtain ⟨rfl, hwhole⟩ := hrest rest rfl
        refine ⟨hwhole, hend, rfl, ?_, rfl, ?_⟩
        · rw [hlength]
          show s.totalWritten = _
          omega
        · rw [hlength]
          exact hindex
      | none =>
        refine ⟨hend, rfl, ?_, ?_⟩
        · rw [hlength]
          show s.totalWritten ≤ _
          omega
        · rw [hlength]
          show _ < s.totalWritten + _
          omega
    · exact h.completed
    · exact h.published
    · exact h.sorted

/-- What `try_send` leaves, with its last snapshot. -/
theorem send_writes {segment : PendingSegment} (h : Writes c s) (hpc : s.pc = .sending segment rest) :
    Writes c (s.send c segment rest) ∧ ((s.send c segment rest).published = s.published ∨
      (s.send c segment rest).published = s.published ++ [(s.writer.accepted segment).snapshot c] ∧
        ((s.writer.accepted segment).snapshot c).sampleCount = s.totalWritten) := by
  unfold send
  split
  · have hsubmitted : s.submitted = s.writer.records ++ [segment.record] := by
      rw [submitted, hpc]
      rfl
    have hplace := h.place
    unfold Place at hplace
    rw [hpc] at hplace
    have hcompleted := h.completed
    have hactive : segment.record.endSample = s.totalWritten ∧ s.writer.active = none := by
      cases rest with
      | some rest => exact ⟨hplace.2.1, hplace.2.2.1⟩
      | none => exact ⟨hplace.1, hplace.2.1⟩
    have hcount : ((s.writer.accepted segment).snapshot c).sampleCount = s.totalWritten := by
      unfold SegmentWriter.snapshot SegmentWriter.accepted
      rw [hactive.2]
      show max _ _ = _
      rw [hactive.1]
      omega
    refine ⟨Writes.publish ?_ hcount, .inr ⟨rfl, hcount⟩⟩
    have hsubmitted' : ({ s with
        queue := s.queue ++ [segment]
        writer := s.writer.accepted segment
        pc := resume rest } : System).submitted = s.submitted := by
      rw [hsubmitted]
      cases rest <;> exact List.append_nil _
    constructor
    · rw [hsubmitted']
      exact h.tiles
    · unfold Place
      cases rest with
      | some rest =>
        obtain ⟨hwhole, -, -, hholding⟩ := hplace
        refine ⟨hwhole, 0, c.segmentFrames_pos, ?_⟩
        unfold Holding at *
        rw [hsubmitted']
        exact hholding
      | none =>
        obtain ⟨-, hended⟩ := hplace
        unfold Ended at *
        rw [hsubmitted']
        exact hended
    · show max _ segment.record.endSample = min ((s.writer.records ++ [segment.record]).length * _) _
      have hlast : s.totalWritten ≤ s.submitted.length * c.segmentFrames := by
        cases rest with
        | some rest => exact hplace.2.2.2.1.le
        | none => exact hplace.2.2.1
      rw [← hsubmitted, Nat.min_eq_right hlast, hactive.1]
      omega
    · exact h.published
    · exact h.sorted
  · exact ⟨h.fail rfl rfl rfl rfl rfl, .inl rfl⟩

end Writer

/-! ### The worker goes on -/

section Worker

variable {c : Config} {s s' : System}

/-- The steps of the worker. -/
inductive Works (s : System) : System → Prop
  | receive {first queue} (hworker : s.worker = .receiving) (hqueue : s.queue = first :: queue) :
    Works s { s with worker := .coalescing [first], queue }
  | done (hworker : s.worker = .receiving) (hqueue : s.queue = []) (hpc : s.pc = .joining) :
    Works s { s with worker := .finished }
  | coalesce {batch next queue} (hworker : s.worker = .coalescing batch) (hqueue : s.queue = next :: queue)
      (hlt : batch.length < maxPendingCommits) :
    Works s { s with worker := .coalescing (batch ++ [next]), queue }
  | batched {batch} (hworker : s.worker = .coalescing batch) :
    Works s { s with worker := .committing batch batch.length }
  | sync {pending batch count} (hworker : s.worker = .committing (pending :: batch) count) :
    Works s { s with worker := .committing batch count, durableRecords := s.durableRecords ++ [pending] }
  | store {count} (hworker : s.worker = .committing [] count) :
    Works s { s with
      worker := .releasing count
      durableSamples := (s.durableRecords.getLast?.map (·.record.endSample)).getD 0 }
  | release {count} (hworker : s.worker = .releasing count) :
    Works s { s with worker := .receiving, pendingCommits := s.pendingCommits - count }
  | error {batch count} (hworker : s.worker = .committing batch count) :
    Works s { s with worker := .failing, commitError := true }
  | fail (hworker : s.worker = .failing) : Works s { s with worker := .failed }

theorem works_of_work (h : s.work = some s') : Works s s' := by
  unfold work at h
  cases hworker : s.worker with
  | receiving =>
    cases hqueue : s.queue with
    | nil =>
      simp only [hworker, hqueue, Option.ite_none_right_eq_some, Option.some.injEq] at h
      obtain ⟨hpc, rfl⟩ := h
      exact hqueue ▸ .done hworker hqueue hpc
    | cons first queue =>
      simp only [hworker, hqueue, Option.some.injEq] at h
      exact h ▸ .receive hworker hqueue
  | coalescing batch =>
    cases hqueue : s.queue with
    | nil => simp [hworker, hqueue] at h
    | cons next queue =>
      simp only [hworker, hqueue, Option.ite_none_right_eq_some, Option.some.injEq] at h
      obtain ⟨hlt, rfl⟩ := h
      exact .coalesce hworker hqueue hlt
  | committing batch count =>
    cases batch with
    | nil =>
      simp only [hworker, Option.some.injEq] at h
      exact h ▸ .store hworker
    | cons pending batch =>
      simp only [hworker, Option.some.injEq] at h
      exact h ▸ .sync hworker
  | releasing count =>
    simp only [hworker, Option.some.injEq] at h
    exact h ▸ .release hworker
  | finished => simp [hworker] at h
  | failing =>
    simp only [hworker, Option.some.injEq] at h
    exact h ▸ .fail hworker
  | failed => simp [hworker] at h

theorem works_of_batched (h : s.step c .batched = some s') : Works s s' := by
  rw [step] at h
  cases hworker : s.worker with
  | coalescing batch =>
    simp only [hworker, Option.ite_none_right_eq_some, Option.some.injEq] at h
    exact h.2 ▸ .batched hworker
  | _ => simp [hworker] at h

theorem works_of_commitError (h : s.step c .commitError = some s') : Works s s' := by
  rw [step] at h
  cases hworker : s.worker with
  | committing batch count =>
    simp only [hworker, Option.some.injEq] at h
    exact h ▸ .error hworker
  | _ => simp [hworker] at h

/-- The worker changes nothing that the writer owns. -/
theorem Works.writes (h : Works s s') (hwrites : Writes c s) :
    Writes c s' ∧ s'.published = s.published := by
  cases h <;> exact ⟨hwrites.of_eq rfl rfl rfl rfl, rfl⟩

end Worker

/-! ### Every step -/

/-- What was accepted, durable or not. -/
def handed (s : System) : List PendingSegment := s.durableRecords ++ WorkerPc.batch s.worker ++ s.queue

/-- The queue and the worker agree with the counter and with the records. -/
structure Commits (s : System) : Prop where
  pending : s.pendingCommits ≤ maxPendingCommits
  peak : s.peakPendingCommits ≤ maxPendingCommits
  error : s.commitError = true ↔ s.worker = .failing ∨ s.worker = .failed
  count : s.commitError = false →
    s.pendingCommits = s.queue.length + WorkerPc.inFlight s.worker + (WriterPc.sent s.pc).length
  records : s.commitError = false → s.handed.map (·.record) = s.writer.records
  durable : s.durableRecords.map (·.record) <+: s.writer.records
  finished : s.worker = .finished → s.pc = .joining ∧ s.queue = []

section Step

variable {c : Config} {s s' : System}

theorem Works.commits (h : Works s s') (hcommits : Commits s) : Commits s' := by
  obtain ⟨pending, peak, error, count, records, durable, finished⟩ := hcommits
  unfold handed at records
  cases h with
  | receive hworker hqueue =>
    refine ⟨pending, peak, ?_, fun hok => ?_, fun hok => ?_, durable, by simp⟩
    · simpa [hworker] using error
    · have := count hok
      simp only [hworker, hqueue, WorkerPc.inFlight, List.length_cons, List.length_nil] at this ⊢
      omega
    · have := records hok
      simpa [handed, hworker, hqueue, WorkerPc.batch] using this
  | done hworker hqueue hpc =>
    refine ⟨pending, peak, ?_, fun hok => ?_, fun hok => ?_, durable, fun _ => ⟨hpc, hqueue⟩⟩
    · simpa [hworker] using error
    · simpa [hworker, WorkerPc.inFlight] using count hok
    · simpa [handed, hworker, WorkerPc.batch] using records hok
  | coalesce hworker hqueue hlt =>
    refine ⟨pending, peak, ?_, fun hok => ?_, fun hok => ?_, durable, by simp⟩
    · simpa [hworker] using error
    · have := count hok
      simp only [hworker, hqueue, WorkerPc.inFlight, List.length_cons, List.length_append,
        List.length_nil] at this ⊢
      omega
    · have := records hok
      simpa [handed, hworker, hqueue, WorkerPc.batch] using this
  | batched hworker | store hworker =>
    refine ⟨pending, peak, ?_, fun hok => ?_, fun hok => ?_, durable, by simp⟩
    · simpa [hworker] using error
    · simpa [hworker, WorkerPc.inFlight] using count hok
    · simpa [handed, hworker, WorkerPc.batch] using records hok
  | @sync segment batch n hworker =>
    have hok : s.commitError = false := by simpa [hworker] using error
    have hrecords := records hok
    rw [hworker] at hrecords
    refine ⟨pending, peak, ?_, fun hok => ?_, fun hok => ?_, ?_, by simp⟩
    · simpa [hworker] using error
    · simpa [hworker, WorkerPc.inFlight] using count hok
    · simpa [handed, WorkerPc.batch] using hrecords
    · refine ⟨(batch ++ s.queue).map (·.record), ?_⟩
      rw [← hrecords]
      simp [WorkerPc.batch]
  | release hworker =>
    refine ⟨(Nat.sub_le _ _).trans pending, peak, ?_, fun hok => ?_, fun hok => ?_, durable, by simp⟩
    · simpa [hworker] using error
    · have := count hok
      simp only [hworker, WorkerPc.inFlight] at this ⊢
      omega
    · simpa [handed, hworker, WorkerPc.batch] using records hok
  | error hworker =>
    exact ⟨pending, peak, by simp, by simp, by simp, durable, by simp⟩
  | fail hworker =>
    have hfailed : s.commitError = true := error.2 (.inl hworker)
    exact ⟨pending, peak, by simpa using hfailed, by simp [hfailed], by simp [hfailed], durable, by simp⟩

/-- The steps of the writer within a call. -/
inductive Moves (c : Config) (s : System) : System → Prop
  | pass {rest} (hpc : s.pc = .writing rest) (hpos : 0 < rest.remaining) : Moves c s (s.pass c rest)
  | idle {rest} (hpc : s.pc = .writing rest) (hzero : rest.remaining = 0) :
    Moves c s (publishSnapshot c { s with pc := .idle })
  | sealing {rest} (hpc : s.pc = .sealing rest) : Moves c s (s.sealActive c rest)
  | send {segment rest} (hpc : s.pc = .sending segment rest) : Moves c s (s.send c segment rest)
  | finish (hpc : s.pc = .idle) :
    Moves c s { s with pc := if s.writer.active.isSome then .sealing none else .joining }
  | writeError (hpc : (∃ rest, s.pc = .writing rest) ∨ ∃ rest, s.pc = .sealing rest) :
    Moves c s { s with pc := .failed .io }

theorem sent_of_file (h : (∃ rest, s.pc = .writing rest) ∨ ∃ rest, s.pc = .sealing rest) :
    WriterPc.sent s.pc = [] := by
  obtain ⟨rest, h⟩ | ⟨rest, h⟩ := h <;> rw [h] <;> rfl

theorem step_cases {action : Action c} (h : s.step c action = some s') :
    Works s s' ∨ Moves c s s' ∨
      ∃ block, action = .write block ∧ s.pc = .idle ∧ s' = s.writeFrames c block := by
  cases action with
  | write block =>
    obtain ⟨hpc, rfl⟩ : s.pc = .idle ∧ s.writeFrames c block = s' := by simpa [step] using h
    exact .inr (.inr ⟨block, rfl, hpc, rfl⟩)
  | advance =>
    change s.advance c = some s' at h
    unfold advance at h
    cases hpc : s.pc with
    | writing rest =>
      simp only [hpc] at h
      split at h
      · next hpos => exact Option.some.inj h ▸ .inr (.inl (.pass hpc hpos))
      · next hpos => exact Option.some.inj h ▸ .inr (.inl (.idle hpc (by omega)))
    | sealing rest =>
      simp only [hpc] at h
      exact Option.some.inj h ▸ .inr (.inl (.sealing hpc))
    | sending segment rest =>
      simp only [hpc] at h
      exact Option.some.inj h ▸ .inr (.inl (.send hpc))
    | _ => simp [hpc] at h
  | finish =>
    simp only [step, Option.ite_none_right_eq_some, Option.some.injEq] at h
    exact h.2 ▸ .inr (.inl (.finish h.1))
  | writeError =>
    simp only [step] at h
    cases hpc : s.pc with
    | writing rest =>
      simp only [hpc, Option.some.injEq] at h
      exact h ▸ .inr (.inl (.writeError (.inl ⟨rest, hpc⟩)))
    | sealing rest =>
      simp only [hpc, Option.some.injEq] at h
      exact h ▸ .inr (.inl (.writeError (.inr ⟨rest, hpc⟩)))
    | _ => simp [hpc] at h
  | work => exact .inl (works_of_work h)
  | batched => exact .inl (works_of_batched h)
  | commitError => exact .inl (works_of_commitError h)

theorem call_writes (h : Writes c s) (hpc : s.pc = .idle) (block : Block c) :
    Writes c (s.writeFrames c block) := by
  have hsent : WriterPc.sent s.pc = [] := by rw [hpc]; rfl
  obtain ⟨held, hheld, hholding⟩ := h.waiting hpc
  unfold writeFrames
  split
  · exact h.fail rfl rfl rfl rfl rfl
  · refine h.goto (submitted_same hsent rfl rfl) rfl rfl rfl
      ⟨?_, held, hheld, hholding.of_eq (submitted_same hsent rfl rfl) rfl rfl⟩
    show block.data.length = (0 + block.frames) * c.bytesPerFrame
    rw [block.length_data, Nat.zero_add]

theorem finish_writes (h : Writes c s) (hpc : s.pc = .idle) :
    Writes c { s with pc := if s.writer.active.isSome then .sealing none else .joining } := by
  have hsent : WriterPc.sent s.pc = [] := by rw [hpc]; rfl
  obtain ⟨held, hheld, hholding⟩ := h.waiting hpc
  by_cases hactive : s.writer.active = none
  · have hsubmitted' : ({ s with pc := .joining } : System).submitted = s.submitted := submitted_same hsent rfl rfl
    obtain ⟨htotal, hnone⟩ := hholding
    rw [hactive] at hnone
    have hpos := c.segmentFrames_pos
    rw [if_neg (by simp [hactive])]
    refine h.goto hsubmitted' rfl rfl rfl ?_
    show Ended c _
    unfold Ended
    rw [hsubmitted']
    exact ⟨hactive, by show s.totalWritten ≤ _; omega, by show _ < s.totalWritten + _; omega⟩
  · rw [if_pos (by rwa [Option.isSome_iff_ne_none])]
    exact h.goto (submitted_same hsent rfl rfl) rfl rfl rfl
      ⟨hactive, held, hheld, hholding.of_eq (submitted_same hsent rfl rfl) rfl rfl⟩

/-- A step either publishes nothing, or a snapshot that counts every frame that is written. -/
def Publishes (s s' : System) : Prop :=
  s'.published = s.published ∨
    ∃ snapshot, s'.published = s.published ++ [snapshot] ∧ snapshot.sampleCount = s'.totalWritten

theorem Moves.writes (h : Moves c s s') (hwrites : Writes c s) : Writes c s' ∧ Publishes s s' := by
  cases h with
  | @pass rest hpc hpos =>
    refine ⟨pass_writes hwrites hpc hpos, .inl ?_⟩
    obtain ⟨hwhole, held, hheld, hholding⟩ := hwrites.writing hpc
    obtain ⟨error, hpass⟩ | ⟨_, _, _, _, _, _, _, hpass⟩ := pass_cases hpos hwhole hheld hholding
    · rw [hpass]
    · rw [hpass]
  | idle hpc hzero =>
    obtain ⟨hidle, hcount⟩ := idle_writes hwrites hpc
    exact ⟨hidle, .inr ⟨_, rfl, hcount⟩⟩
  | sealing hpc =>
    refine ⟨seal_writes hwrites hpc, .inl ?_⟩
    obtain ⟨held, segment, hbytes, -, hactive, -, hholds, -⟩ := hwrites.sealing hpc
    obtain ⟨error, hseal⟩ | ⟨-, -, hseal⟩ := seal_cases hactive hbytes
    · rw [hseal]
    · rw [hseal]
  | @send segment rest hpc =>
    obtain ⟨hsend, hpublished | ⟨hpublished, hcount⟩⟩ := send_writes hwrites hpc
    · exact ⟨hsend, .inl hpublished⟩
    · refine ⟨hsend, .inr ⟨_, hpublished, ?_⟩⟩
      rw [hcount]
      unfold System.send
      split <;> rfl
  | finish hpc => exact ⟨finish_writes hwrites hpc, .inl rfl⟩
  | writeError hpc => exact ⟨hwrites.fail rfl rfl rfl rfl rfl, .inl rfl⟩

/-- A move that hands nothing over. -/
theorem Commits.of_eq (h : Commits s) (hpc : s.pc ≠ .joining) (hsent : WriterPc.sent s.pc = []) (hsent' : WriterPc.sent s'.pc = [])
    (hrecords : s'.writer.records = s.writer.records) (hqueue : s'.queue = s.queue)
    (hworker : s'.worker = s.worker) (hpending : s'.pendingCommits = s.pendingCommits)
    (hpeak : s'.peakPendingCommits = s.peakPendingCommits) (herror : s'.commitError = s.commitError)
    (hdurable : s'.durableRecords = s.durableRecords) : Commits s' := by
  obtain ⟨pending, peak, error, count, records, durable, finished⟩ := h
  unfold handed at records
  constructor
  · rwa [hpending]
  · rwa [hpeak]
  · rwa [herror, hworker]
  · rw [herror, hpending, hqueue, hworker, hsent', ← hsent]
    exact count
  · unfold handed
    rwa [herror, hdurable, hworker, hqueue, hrecords]
  · rwa [hdurable, hrecords]
  · rw [hworker]
    exact fun hfinished => absurd (finished hfinished).1 hpc

variable {rest : Option Rest} {segment : PendingSegment}

theorem sealing_commits (h : Commits s) (hwrites : Writes c s)
    (hpc : s.pc = .sealing rest) : Commits (s.sealActive c rest) := by
  obtain ⟨held, segment, hbytes, -, hactive, -, hholds, -⟩ := hwrites.sealing hpc
  have hsent : WriterPc.sent s.pc = [] := by rw [hpc]; rfl
  obtain ⟨error, hseal⟩ | ⟨hok, hlt, hseal⟩ := seal_cases hactive hbytes
  · rw [hseal]
    exact h.of_eq (by simp [hpc]) hsent rfl rfl rfl rfl rfl rfl rfl rfl
  · rw [hseal]
    have hpeak := h.peak
    have hcount := h.count hok
    rw [hsent, List.length_nil, Nat.add_zero] at hcount
    refine ⟨hlt, Nat.max_le.2 ⟨hpeak, hlt⟩, h.error, fun _ => ?_, h.records, h.durable,
      fun hfinished => by simpa [hpc] using (h.finished hfinished).1⟩
    show s.pendingCommits + 1 = s.queue.length + WorkerPc.inFlight s.worker + 1
    rw [hcount]

/-- The channel has room for what was reserved a place. -/
theorem send_commits (h : Commits s) (hpc : s.pc = .sending segment rest) : Commits (s.send c segment rest) ∧
      (s.commitError = false → s.queue.length < maxPendingCommits ∧ s.worker ≠ .failed) := by
  obtain ⟨pending, peak, error, count, records, durable, finished⟩ := h
  have hunfinished : s.worker ≠ .finished := fun hfinished => by simpa [hpc] using (finished hfinished).1
  have hroom : s.commitError = false → s.queue.length < maxPendingCommits ∧ s.worker ≠ .failed := by
    intro hok
    have := count hok
    rw [hpc] at this
    change s.pendingCommits = _ + 1 at this
    exact ⟨by omega, fun hfailed => by simp [error.2 (.inr hfailed)] at hok⟩
  refine ⟨?_, hroom⟩
  unfold send
  split
  · have hresume : WriterPc.sent (resume rest) = [] := by cases rest <;> rfl
    unfold handed at records
    constructor
    · exact pending
    · exact peak
    · exact error
    · intro hok
      have := count hok
      rw [hpc] at this
      change s.pendingCommits = s.queue.length + WorkerPc.inFlight s.worker + 1 at this
      show s.pendingCommits = (s.queue ++ [segment]).length + WorkerPc.inFlight s.worker +
        (WriterPc.sent (resume rest)).length
      rw [hresume, this, List.length_append]
      show _ = s.queue.length + 1 + _ + 0
      omega
    · intro hok
      show (s.durableRecords ++ WorkerPc.batch s.worker ++ (s.queue ++ [segment])).map (·.record) =
        s.writer.records ++ [segment.record]
      rw [← records hok, ← List.append_assoc, List.map_append]
      rfl
    · exact durable.trans (List.prefix_append _ _)
    · exact fun hfinished => absurd hfinished hunfinished
  · next hfull =>
    have hfailed : s.commitError = true := by
      by_contra hok
      exact hfull (hroom (by simpa using hok))
    exact ⟨(Nat.sub_le _ _).trans pending, peak, error, by simp [hfailed], by simp [hfailed], durable,
      fun hfinished => absurd hfinished hunfinished⟩

theorem call_commits (h : Commits s) (hpc : s.pc = .idle) (block : Block c) :
    Commits (s.writeFrames c block) := by
  unfold writeFrames
  split <;> exact h.of_eq (by simp [hpc]) (by rw [hpc]; rfl) rfl rfl rfl rfl rfl rfl rfl rfl

theorem Moves.commits (h : Moves c s s') (hwrites : Writes c s) (hcommits : Commits s) : Commits s' := by
  cases h with
  | @pass rest hpc hpos =>
    obtain ⟨hwhole, held, hheld, hholding⟩ := hwrites.writing hpc
    have hsent : WriterPc.sent s.pc = [] := by rw [hpc]; rfl
    obtain ⟨error, hpass⟩ | ⟨_, _, _, _, _, _, _, hpass⟩ := pass_cases hpos hwhole hheld hholding
    · rw [hpass]
      exact hcommits.of_eq (by simp [hpc]) hsent rfl rfl rfl rfl rfl rfl rfl rfl
    · rw [hpass]
      refine hcommits.of_eq (by simp [hpc]) hsent ?_ rfl rfl rfl rfl rfl rfl rfl
      show WriterPc.sent (if _ then _ else _) = []
      split <;> rfl
  | idle hpc hzero => exact hcommits.of_eq (by simp [hpc]) (by rw [hpc]; rfl) rfl rfl rfl rfl rfl rfl rfl rfl
  | sealing hpc => exact sealing_commits hcommits hwrites hpc
  | send hpc => exact (send_commits hcommits hpc).1
  | finish hpc =>
    refine hcommits.of_eq (by simp [hpc]) (by rw [hpc]; rfl) ?_ rfl rfl rfl rfl rfl rfl rfl
    show WriterPc.sent (if _ then _ else _) = []
    split <;> rfl
  | writeError hpc =>
    have hfile : s.pc ≠ .joining := by
      obtain ⟨rest, hpc⟩ | ⟨rest, hpc⟩ := hpc <;> simp [hpc]
    exact hcommits.of_eq hfile (sent_of_file hpc) rfl rfl rfl rfl rfl rfl rfl rfl

/-- No byte is lost, and every file has the length that its record says. -/
structure Conserves (c : Config) (s : System) : Prop where
  files : ∀ p ∈ s.sealed, p.file.declared = p.file.payload.length ∧
    p.file.payload.length = (p.record.endSample - p.record.startSample) * c.bytesPerFrame
  bytes : s.commitError = false → (∀ error, s.pc ≠ .failed error) →
    s.sealed.flatMap (·.file.payload) ++ s.activePayload ++ WriterPc.unread c s.pc = s.input
  frames : (∀ error, s.pc ≠ .failed error) →
    s.input.length = s.totalWritten * c.bytesPerFrame + (WriterPc.unread c s.pc).length

theorem sealed_eq (h : WriterPc.sent s.pc = []) : s.sealed = s.handed := by
  rw [sealed, h]
  exact List.append_nil _

theorem Works.handed (h : Works s s') : s'.handed = s.handed ∧ s'.commitError = s.commitError ∨
    s'.commitError = true ∧ ∀ p ∈ s'.handed, p ∈ s.handed := by
  unfold System.handed
  cases h with
  | receive hworker hqueue => simp [hworker, hqueue, WorkerPc.batch]
  | coalesce hworker hqueue _ => simp [hworker, hqueue, WorkerPc.batch]
  | error hworker =>
    refine .inr ⟨rfl, fun p hp => ?_⟩
    simp only [WorkerPc.batch, List.append_nil, List.mem_append] at hp ⊢
    rcases hp with hp | hp
    · exact .inl (.inl hp)
    · exact .inr hp
  | done hworker | batched hworker | sync hworker | store hworker | release hworker | fail hworker =>
    simp [hworker, WorkerPc.batch]

theorem Works.conserves (h : Works s s') (hconserves : Conserves c s) : Conserves c s' := by
  have hsame : s'.pc = s.pc ∧ s'.writer = s.writer ∧ s'.input = s.input ∧ s'.totalWritten = s.totalWritten := by
    cases h <;> exact ⟨rfl, rfl, rfl, rfl⟩
  obtain ⟨hpc, hwriter, hinput, htotal⟩ := hsame
  obtain ⟨files, bytes, frames⟩ := hconserves
  obtain ⟨hhanded, herror⟩ | ⟨herror, hmem⟩ := h.handed
  · have hsealed : s'.sealed = s.sealed := by
      show s'.handed ++ _ = s.handed ++ _
      rw [hhanded, hpc]
    constructor
    · rwa [hsealed]
    · unfold activePayload at *
      rwa [hsealed, herror, hpc, hwriter, hinput]
    · rwa [hpc, hinput, htotal]
  · constructor
    · intro p hp
      apply files
      rcases List.mem_append.1 hp with hp | hp
      · exact List.mem_append_left _ (hmem p hp)
      · rw [hpc] at hp
        exact List.mem_append_right _ hp
    · simp [herror]
    · rwa [hpc, hinput, htotal]

/-- A move that seals nothing. -/
theorem Conserves.extend (h : Conserves c s) (hsealed : s'.sealed = s.sealed)
    (herror : s'.commitError = s.commitError) (hok : ∀ error, s.pc ≠ .failed error) (more : List UInt8)
    (hbytes : s'.activePayload ++ WriterPc.unread c s'.pc =
      s.activePayload ++ (WriterPc.unread c s.pc ++ more))
    (hinput : s'.input = s.input ++ more)
    (hframes : s'.totalWritten * c.bytesPerFrame + (WriterPc.unread c s'.pc).length =
      s.totalWritten * c.bytesPerFrame + (WriterPc.unread c s.pc).length + more.length) :
    Conserves c s' := by
  refine ⟨by rw [hsealed]; exact h.files, fun hcommit _ => ?_, fun _ => ?_⟩
  · rw [hsealed, hinput, ← h.bytes (herror ▸ hcommit) hok]
    simp only [List.append_assoc, hbytes]
  · rw [hinput, List.length_append, h.frames hok, hframes]

theorem Conserves.fail (h : Conserves c s) {error : AudioError} (hpc : s'.pc = .failed error)
    (hsealed : ∀ p ∈ s'.sealed, p ∈ s.sealed) : Conserves c s' :=
  ⟨fun p hp => h.files p (hsealed p hp), fun _ hok => absurd hpc (hok error), fun hok => absurd hpc (hok error)⟩

theorem pass_conserves {rest : Rest} (h : Conserves c s) (hwrites : Writes c s) (hpc : s.pc = .writing rest)
    (hpos : 0 < rest.remaining) : Conserves c (s.pass c rest) := by
  obtain ⟨hwhole, held, hheld, hholding⟩ := hwrites.writing hpc
  have hsealed : s.sealed = s.handed := sealed_eq (by rw [hpc]; rfl)
  obtain ⟨error, hpass⟩ | ⟨selected, active, _, hle, _, hholds, hpayload, hpass⟩ :=
    pass_cases hpos hwhole hheld hholding
  · rw [hpass]
    refine h.fail rfl fun p hp => ?_
    rw [hsealed]
    rwa [sealed_eq rfl] at hp
  · have hunread : WriterPc.unread c (s.pass c rest).pc =
        rest.data.drop ((rest.frameOffset + selected) * c.bytesPerFrame) := by
      rw [hpass]
      show WriterPc.unread c (if _ then _ else _) = _
      split <;> rfl
    refine h.extend ?_ ?_ (by rw [hpc]; simp) [] ?_ ?_ ?_
    · rw [hsealed, hpass]
      apply sealed_eq
      show WriterPc.sent (if _ then _ else _) = []
      split <;> rfl
    · rw [hpass]
    · rw [hunread, hpc, hpass, List.append_nil]
      show active.file.payload ++ _ = _
      rw [hpayload, List.append_assoc, Nat.add_mul, ← List.drop_drop]
      congr 1
      exact List.take_append_drop _ _
    · rw [hpass, List.append_nil]
    · have htotal : (s.pass c rest).totalWritten = s.totalWritten + selected := by rw [hpass]
      have hle' : (rest.frameOffset + selected) * c.bytesPerFrame ≤ rest.data.length := by
        rw [hwhole]
        exact Nat.mul_le_mul_right _ (by omega)
      rw [hunread, htotal, hpc]
      show _ = _ + (rest.data.drop _).length + 0
      rw [List.length_drop, List.length_drop]
      rw [Nat.add_mul] at hle' ⊢
      rw [Nat.add_mul]
      omega

theorem sealing_conserves (h : Conserves c s) (hwrites : Writes c s)
    (hpc : s.pc = .sealing rest) : Conserves c (s.sealActive c rest) := by
  obtain ⟨held, segment, hbytes, hle, hactive, -, hholds, -⟩ := hwrites.sealing hpc
  have hsealed : s.sealed = s.handed := sealed_eq (by rw [hpc]; rfl)
  have hpayload : segment.file.payload.take segment.dataBytes = segment.file.payload :=
    List.take_of_length_le (by rw [hholds.payload, hholds.bytes])
  obtain ⟨error, hseal⟩ | ⟨-, -, hseal⟩ := seal_cases hactive hbytes
  · rw [hseal]
    refine h.fail rfl fun p hp => ?_
    rw [hsealed]
    rwa [sealed_eq rfl] at hp
  · rw [hseal]
    constructor
    · intro p hp
      rcases mem_concat.1 hp with hp | rfl
      · exact h.files p (List.mem_append_left _ hp)
      · show segment.dataBytes = (segment.file.payload.take _).length ∧ (segment.file.payload.take _).length =
          (segment.startSample + segment.dataBytes / c.bytesPerFrame - segment.startSample) * c.bytesPerFrame
        rw [hpayload, hholds.payload, hholds.div, hholds.bytes, Nat.add_sub_cancel_left]
        exact ⟨rfl, rfl⟩
    · intro hcommit _
      have hinput := h.bytes hcommit (by rw [hpc]; simp)
      have hunread : WriterPc.unread c s.pc = WriterPc.unread c (.sending (sealedSegment c segment) rest) := by
        rw [hpc]
        cases rest <;> rfl
      rw [hsealed, hunread] at hinput
      rw [← hinput]
      show (s.handed ++ [sealedSegment c segment]).flatMap _ ++ [] ++ _ = _ ++ s.activePayload ++ _
      unfold activePayload
      rw [List.flatMap_append, List.flatMap_singleton, hactive, List.append_nil]
      show _ ++ segment.file.payload.take segment.dataBytes ++ _ = _ ++ segment.file.payload ++ _
      rw [hpayload]
    · intro _
      have hframes := h.frames (by rw [hpc]; simp)
      rw [hpc] at hframes
      show s.input.length = s.totalWritten * c.bytesPerFrame + _
      rw [hframes]
      cases rest <;> rfl

theorem send_conserves (h : Conserves c s)
    (hwrites : Writes c s) (hpc : s.pc = .sending segment rest) : Conserves c (s.send c segment rest) := by
  have hactive : s.writer.active = none := by
    have hplace := hwrites.place
    unfold Place at hplace
    rw [hpc] at hplace
    cases rest with
    | some rest => exact hplace.2.2.1
    | none => exact hplace.2.1
  have hsealed : s.sealed = s.handed ++ [segment] := by
    show s.handed ++ _ = _
    rw [hpc]
    rfl
  unfold send
  split
  · refine h.extend ?_ rfl (by rw [hpc]; simp) [] ?_ (List.append_nil _).symm ?_
    · rw [hsealed, sealed_eq (by cases rest <;> rfl)]
      exact (List.append_assoc _ _ _).symm
    · rw [hpc, List.append_nil]
      cases rest <;> rfl
    · rw [hpc]
      cases rest <;> rfl
  · refine h.fail rfl fun p hp => ?_
    rw [sealed_eq rfl] at hp
    rw [hsealed]
    exact List.mem_append_left _ hp

theorem call_conserves (h : Conserves c s) (hpc : s.pc = .idle) (block : Block c) :
    Conserves c (s.writeFrames c block) := by
  have hsealed : s.sealed = s.handed := sealed_eq (by rw [hpc]; rfl)
  unfold writeFrames
  split
  · refine h.fail rfl fun p hp => ?_
    rw [hsealed]
    rwa [sealed_eq rfl] at hp
  · refine h.extend ?_ rfl (by rw [hpc]; simp) block.data ?_ rfl ?_
    · rw [hsealed]
      exact sealed_eq rfl
    · rw [hpc]
      show _ ++ block.data.drop (0 * c.bytesPerFrame) = _ ++ ([] ++ block.data)
      rw [Nat.zero_mul]
      rfl
    · rw [hpc]
      show _ + (block.data.drop (0 * c.bytesPerFrame)).length = _ + 0 + block.data.length
      rw [Nat.zero_mul]
      rfl

theorem Moves.conserves (h : Moves c s s') (hwrites : Writes c s) (hconserves : Conserves c s) :
    Conserves c s' := by
  cases h with
  | pass hpc hpos => exact pass_conserves hconserves hwrites hpc hpos
  | @idle rest hpc hzero =>
    have hwhole := hwrites.place
    unfold Place at hwhole
    rw [hpc] at hwhole
    have hread : rest.data.drop (rest.frameOffset * c.bytesPerFrame) = [] := by
      apply List.drop_eq_nil_of_le
      rw [hwhole.1, hzero, Nat.add_zero]
    refine hconserves.extend ?_ rfl (by rw [hpc]; simp) [] ?_ (List.append_nil _).symm ?_
    · have hsealed : s.sealed = s.handed := sealed_eq (by rw [hpc]; rfl)
      rw [hsealed]
      exact sealed_eq rfl
    · rw [hpc]
      show s.activePayload ++ [] = s.activePayload ++ (rest.data.drop _ ++ [])
      rw [hread]
      rfl
    · rw [hpc]
      show _ + 0 = _ + (rest.data.drop _).length + 0
      rw [hread]
      rfl
  | sealing hpc => exact sealing_conserves hconserves hwrites hpc
  | send hpc => exact send_conserves hconserves hwrites hpc
  | finish hpc =>
    refine hconserves.extend ?_ rfl (by rw [hpc]; simp) [] ?_ (List.append_nil _).symm ?_
    · have hsealed : s.sealed = s.handed := sealed_eq (by rw [hpc]; rfl)
      rw [hsealed]
      apply sealed_eq
      show WriterPc.sent (if _ then _ else _) = []
      split <;> rfl
    · rw [hpc]
      show s.activePayload ++ WriterPc.unread c (if _ then _ else _) = _
      split <;> rfl
    · rw [hpc]
      show _ + (WriterPc.unread c (if _ then _ else _)).length = _ + 0 + 0
      split <;> rfl
  | writeError hpc =>
    refine hconserves.fail rfl fun p hp => ?_
    rw [sealed_eq (sent_of_file hpc)]
    rwa [sealed_eq rfl] at hp

structure Inv (c : Config) (s : System) : Prop where
  writes : Writes c s
  commits : Commits s
  conserves : Conserves c s

theorem inv_start : Inv c {} := by
  refine ⟨⟨by simp [submitted, WriterPc.sent], ⟨0, c.segmentFrames_pos, ?_⟩, ?_, by simp, .nil⟩,
    ⟨Nat.zero_le _, Nat.zero_le _, by simp, fun _ => rfl, fun _ => rfl, List.prefix_rfl, by simp⟩,
    ⟨by simp [sealed, WorkerPc.batch, WriterPc.sent], fun _ _ => rfl, fun _ => ?_⟩⟩
  · exact ⟨(Nat.zero_mul _).symm, rfl, rfl⟩
  · exact (Nat.min_zero _).symm
  · exact (Nat.zero_mul _).symm

theorem step_inv {action : Action c} (h : Inv c s) (hstep : s.step c action = some s') :
    Inv c s' ∧ Publishes s s' := by
  obtain hworks | hmoves | ⟨block, -, hpc, rfl⟩ := step_cases hstep
  · obtain ⟨hwrites, hpublished⟩ := hworks.writes h.writes
    exact ⟨⟨hwrites, hworks.commits h.commits, hworks.conserves h.conserves⟩, .inl hpublished⟩
  · obtain ⟨hwrites, hpublished⟩ := hmoves.writes h.writes
    exact ⟨⟨hwrites, hmoves.commits h.writes h.commits, hmoves.conserves h.writes h.conserves⟩, hpublished⟩
  · refine ⟨⟨call_writes h.writes hpc block, call_commits h.commits hpc block,
      call_conserves h.conserves hpc block⟩, .inl ?_⟩
    unfold writeFrames
    split <;> rfl

theorem reachable_inv (h : Reachable c s) : Inv c s := by
  induction h with
  | start => exact inv_start
  | step action _ hstep ih => exact (step_inv ih hstep).1

end Step

/-! ### Every run ends -/

section Ends

variable {c : Config} {s s' : System}

/-- The steps left to the writer, at most. -/
def WriterPc.left : WriterPc → ℕ
  | .idle => 4
  | .writing rest => 4 * rest.remaining + 5
  | .sealing none => 3
  | .sealing (some rest) => 4 * rest.remaining + 7
  | .sending _ none => 2
  | .sending _ (some rest) => 4 * rest.remaining + 6
  | .joining => 1
  | .failed _ => 0
  | .panicked => 0

/-- The steps left to the worker, at most, for what it has. -/
def WorkerPc.left : WorkerPc → ℕ
  | .receiving => 1
  | .coalescing batch => 4 + 2 * batch.length
  | .committing batch _ => 3 + 2 * batch.length
  | .releasing _ => 2
  | .finished => 0
  | .failing => 1
  | .failed => 0

def left (s : System) : ℕ := 11 * WriterPc.left s.pc + 10 * s.queue.length + WorkerPc.left s.worker

theorem Works.left_lt (h : Works s s') : s'.left < s.left := by
  unfold left
  cases h with
  | receive hworker hqueue =>
    simp only [hworker, hqueue, WorkerPc.left, List.length_cons, List.length_nil]
    omega
  | coalesce hworker hqueue _ =>
    simp only [hworker, hqueue, WorkerPc.left, List.length_cons, List.length_append, List.length_nil]
    omega
  | sync hworker =>
    simp only [hworker, WorkerPc.left, List.length_cons]
    omega
  | done hworker | batched hworker | store hworker | release hworker | error hworker | fail hworker =>
    simp only [hworker, WorkerPc.left]
    omega

theorem left_lt (hpc : WriterPc.left s'.pc < WriterPc.left s.pc) (hqueue : s'.queue.length ≤ s.queue.length + 1)
    (hworker : s'.worker = s.worker) : s'.left < s.left := by
  unfold left
  rw [hworker]
  omega

theorem left_resume_lt (segment : PendingSegment) (rest : Option Rest) :
    WriterPc.left (resume rest) < WriterPc.left (.sending segment rest) := by
  cases rest with
  | some rest => exact Nat.lt_succ_self _
  | none => exact Nat.lt_succ_self _

theorem left_file_pos (h : (∃ rest, s.pc = .writing rest) ∨ ∃ rest, s.pc = .sealing rest) :
    0 < WriterPc.left s.pc := by
  obtain ⟨rest, h⟩ | ⟨rest, h⟩ := h
  · rw [h]
    exact Nat.succ_pos _
  · rw [h]
    cases rest <;> exact Nat.succ_pos _

theorem Moves.left_lt (h : Moves c s s') (hwrites : Writes c s) : s'.left < s.left := by
  cases h with
  | @pass rest hpc hpos =>
    obtain ⟨hwhole, held, hheld, hholding⟩ := hwrites.writing hpc
    obtain ⟨error, hpass⟩ | ⟨selected, _, hselected, hle, _, _, _, hpass⟩ :=
      pass_cases hpos hwhole hheld hholding
    · rw [hpass]
      refine System.left_lt ?_ (Nat.le_succ _) rfl
      rw [hpc]
      exact Nat.succ_pos _
    · rw [hpass]
      refine System.left_lt ?_ (Nat.le_succ _) rfl
      rw [hpc]
      show WriterPc.left (if _ then _ else _) < 4 * rest.remaining + 5
      -- A pass takes a frame at least.
      split <;> simp only [WriterPc.left] <;> omega
  | @idle rest hpc hzero =>
    refine System.left_lt ?_ (Nat.le_succ _) rfl
    rw [hpc]
    show 4 < 4 * rest.remaining + 5
    omega
  | @sealing rest hpc =>
    obtain ⟨held, segment, hbytes, -, hactive, -, hholds, -⟩ := hwrites.sealing hpc
    obtain ⟨error, hseal⟩ | ⟨-, -, hseal⟩ := seal_cases hactive hbytes
    · rw [hseal]
      refine System.left_lt ?_ (Nat.le_succ _) rfl
      rw [hpc]
      cases rest <;> exact Nat.succ_pos _
    · rw [hseal]
      refine System.left_lt ?_ (Nat.le_succ _) rfl
      rw [hpc]
      cases rest <;> exact Nat.lt_succ_self _
  | @send segment rest hpc =>
    have hresume := left_resume_lt segment rest
    unfold System.send
    split
    · refine System.left_lt ?_ (List.length_append.trans rfl).le rfl
      rw [hpc]
      exact hresume
    · refine System.left_lt ?_ (Nat.le_succ _) rfl
      rw [hpc]
      exact Nat.zero_lt_of_lt hresume
  | finish hpc =>
    refine System.left_lt ?_ (Nat.le_succ _) rfl
    rw [hpc]
    show WriterPc.left (if _ then _ else _) < 4
    split <;> decide
  | writeError hpc => exact System.left_lt (left_file_pos hpc) (Nat.le_succ _) rfl

/-- Only a call starts something new. -/
theorem step_left_lt {action : Action c} (h : Writes c s) (hstep : s.step c action = some s') :
    s'.left < s.left ∨ ∃ block, action = .write block := by
  obtain hworks | hmoves | ⟨block, rfl, -⟩ := step_cases hstep
  · exact .inl hworks.left_lt
  · exact .inl (hmoves.left_lt h)
  · exact .inr ⟨block, rfl⟩

/-- `finish` has returned the records. -/
def Finished (s : System) : Prop := s.pc = .joining ∧ s.worker = .finished

/-- Without an error something is left to do until `finish` has returned. -/
theorem exists_step (h : Inv c s) (hok : s.commitError = false) (hpc : ∀ error, s.pc ≠ .failed error)
    (hunfinished : ¬ Finished s) : ∃ action s', s.step c action = some s' := by
  have hgo : ∀ action : Action c, (s.step c action).isSome → ∃ action s', s.step c action = some s' :=
    fun action h => ⟨action, Option.isSome_iff_exists.1 h⟩
  have hplace := h.writes.place
  cases hat : s.pc with
  | idle => exact ⟨.finish, _, if_pos hat⟩
  | writing rest =>
    refine hgo .advance ?_
    by_cases hpos : 0 < rest.remaining <;> simp [step, advance, hat, hpos]
  | sealing rest => exact hgo .advance (by simp [step, advance, hat])
  | sending segment rest => exact hgo .advance (by simp [step, advance, hat])
  | failed error => exact absurd hat (hpc error)
  | panicked =>
    unfold Place at hplace
    rw [hat] at hplace
    exact hplace.elim
  | joining =>
    cases hworker : s.worker with
    | receiving =>
      cases hqueue : s.queue with
      | nil => exact hgo .work (by simp [step, work, hworker, hqueue, hat])
      | cons first queue => exact hgo .work (by simp [step, work, hworker, hqueue])
    | coalescing batch =>
      by_cases hbatch : batch.length = maxPendingCommits ∨ s.queue = []
      · exact hgo .batched (by simp [step, hworker, hbatch])
      · obtain ⟨hlength, hqueue⟩ := not_or.1 hbatch
        obtain ⟨next, queue, hnext⟩ := List.exists_cons_of_ne_nil hqueue
        have hcount := h.commits.count hok
        have hpending := h.commits.pending
        rw [hworker] at hcount
        change _ = s.queue.length + batch.length + _ at hcount
        have hlt : batch.length < maxPendingCommits := by omega
        exact hgo .work (by simp [step, work, hworker, hnext, hlt])
    | committing batch count =>
      refine hgo .work ?_
      cases batch <;> simp [step, work, hworker]
    | releasing count => exact hgo .work (by simp [step, work, hworker])
    | finished => exact absurd ⟨hat, hworker⟩ hunfinished
    | failing => exact hgo .work (by simp [step, work, hworker])
    | failed => simp [h.commits.error.2 (.inr hworker)] at hok

end Ends

/-! ### The segments of a run -/

/-- The segments with their files cut the frames that the calls were given. -/
structure Segmented (c : Config) (s : System) : Prop where
  records : s.durableRecords.map (·.record) = s.writer.records
  frames : s.input.length = s.totalWritten * c.bytesPerFrame
  index : ∀ i (r : AudioSegment), s.writer.records[i]? = some r → r.index = i
  first : ∀ r ∈ s.writer.records.head?, r.startSample = 0
  contiguous : ∀ i (r r' : AudioSegment), s.writer.records[i]? = some r → s.writer.records[i + 1]? = some r' →
    r'.startSample = r.endSample ∧ r.endSample = r.startSample + c.segmentFrames
  last : ∀ r ∈ s.writer.records.getLast?, r.endSample = s.totalWritten ∧
    r.startSample + 1 ≤ r.endSample ∧ r.endSample ≤ r.startSample + c.segmentFrames
  empty : s.writer.records = [] → s.totalWritten = 0
  files : ∀ p ∈ s.durableRecords, p.file.declared = p.file.payload.length ∧
    p.file.payload.length = (p.record.endSample - p.record.startSample) * c.bytesPerFrame
  payload : s.durableRecords.flatMap (·.file.payload) = s.input

theorem segmented {c : Config} {s : System} (h : Inv c s) (hfinished : Finished s) : Segmented c s := by
  obtain ⟨hpc, hworker⟩ := hfinished
  have hok : s.commitError = false := by
    rw [Bool.eq_false_iff]
    exact fun hfailed => by simpa [hworker] using h.commits.error.1 hfailed
  have hplace := h.writes.place
  unfold Place at hplace
  rw [hpc] at hplace
  obtain ⟨hactive, hle, hlt⟩ := hplace
  have hsubmitted : s.submitted = s.writer.records := submitted_eq (by rw [hpc]; rfl)
  have hsealed : s.sealed = s.durableRecords := by
    rw [sealed_eq (by rw [hpc]; rfl), System.handed, hworker, (h.commits.finished hworker).2]
    exact (List.append_nil _).trans (List.append_nil _)
  have hrecords : s.durableRecords.map (·.record) = s.writer.records := by
    rw [← hsealed, sealed_eq (by rw [hpc]; rfl)]
    exact h.commits.records hok
  have htiles := h.writes.tiles
  rw [hsubmitted] at hle hlt htiles
  have hframes := h.conserves.frames (by simp [hpc])
  rw [hpc] at hframes
  have hbytes := h.conserves.bytes hok (by simp [hpc])
  rw [hsealed, hpc, activePayload, hactive] at hbytes
  have hnext (i : ℕ) : (i + 1) * c.segmentFrames = i * c.segmentFrames + c.segmentFrames := Nat.succ_mul _ _
  constructor
  · exact hrecords
  · exact hframes
  · intro i r hr
    rw [htiles i r hr]
    rfl
  · intro r hr
    rw [List.head?_eq_getElem?] at hr
    rw [htiles 0 r hr]
    exact Nat.zero_mul _
  · intro i r r' hr hr'
    have hfull : (i + 2) * c.segmentFrames ≤ s.writer.records.length * c.segmentFrames :=
      Nat.mul_le_mul_right _ (List.getElem?_eq_some_iff.1 hr').1
    have hend : (i + 1) * c.segmentFrames ≤ s.totalWritten := by
      rw [hnext] at hfull
      omega
    rw [htiles i r hr, htiles (i + 1) r' hr', piece, piece, Nat.min_eq_left hend]
    exact ⟨rfl, hnext i⟩
  · intro r hr
    rw [List.getLast?_eq_getElem?] at hr
    have hlength := (List.getElem?_eq_some_iff.1 hr).1
    have hone : s.writer.records.length = s.writer.records.length - 1 + 1 := by omega
    have hnext' := hnext (s.writer.records.length - 1)
    rw [← hone] at hnext'
    rw [htiles _ r hr, piece, ← hone]
    show min _ _ = _ ∧ (s.writer.records.length - 1) * c.segmentFrames + 1 ≤ min _ _ ∧
      min _ _ ≤ (s.writer.records.length - 1) * c.segmentFrames + _
    omega
  · intro hempty
    rw [hempty] at hle
    change s.totalWritten ≤ 0 * _ at hle
    rw [Nat.zero_mul] at hle
    exact Nat.le_zero.1 hle
  · rw [← hsealed]
    exact h.conserves.files
  · rw [← hbytes]
    exact (List.append_nil _).symm.trans (List.append_nil _).symm

end System

open Segments.System

/-- The state after some actions. -/
def runFrom (c : Config) (s : System) : List (Action c) → Option System
  | [] => some s
  | action :: actions => (s.step c action).bind fun s => runFrom c s actions

theorem reachable_runFrom {c : Config} {s s' : System} (h : Reachable c s) :
    ∀ actions, runFrom c s actions = some s' → Reachable c s' := by
  intro actions
  induction actions generalizing s with
  | nil =>
    intro heq
    rwa [← Option.some.inj heq]
  | cons action actions ih =>
    intro heq
    obtain ⟨next, hstep, hrun⟩ := Option.bind_eq_some_iff.1 heq
    exact ih (.step action h hstep) hrun

/-- In every run the writer never leaves the bounds of a segment or of its buffer, at most eight
segments are pending, they become durable in the order of their indices, and the snapshots count the
frames. When `finish` has returned, the segments cut the frames of all calls; and without an error
it returns. -/
theorem segmentation_conserves (c : Config) :
    (∀ s, Reachable c s → s.pc ≠ .panicked ∧ s.pendingCommits ≤ maxPendingCommits ∧
      s.peakPendingCommits ≤ maxPendingCommits ∧
      (s.durableRecords.map (·.record) <+: s.writer.records ∧
        ∀ i (r : AudioSegment), s.writer.records[i]? = some r → r.index = i) ∧
      (s.published.map (·.sampleCount)).Pairwise (· ≤ ·) ∧ ∀ p ∈ s.published, p.sampleCount ≤ s.totalWritten) ∧
    (∀ s action s', Reachable c s → s.step c action = some s' → Publishes s s' ∧
      (s'.left < s.left ∨ ∃ block, action = .write block)) ∧
    (∀ s, Reachable c s → Finished s → Segmented c s) ∧
    ∀ s, Reachable c s → s.commitError = false → (∀ error, s.pc ≠ .failed error) → ¬ Finished s →
      ∃ action s', s.step c action = some s' := by
  refine ⟨fun s h => ?_, fun s action s' h hstep => ?_, fun s h => segmented (reachable_inv h),
    fun s h => exists_step (reachable_inv h)⟩
  · obtain ⟨hwrites, hcommits, -⟩ := reachable_inv h
    refine ⟨fun hpc => ?_, hcommits.pending, hcommits.peak, ⟨hcommits.durable, fun i r hr => ?_⟩,
      hwrites.sorted, hwrites.published⟩
    · have hplace := hwrites.place
      unfold Place at hplace
      rwa [hpc] at hplace
    · rw [hwrites.tiles i r (by
        rw [submitted, List.getElem?_append_left (List.getElem?_eq_some_iff.1 hr).1]
        exact hr)]
      rfl
  · have hinv := reachable_inv h
    exact ⟨(step_inv hinv hstep).2, step_left_lt hinv.writes hstep⟩

def sampleConfig : Config := ⟨48000, 1, 3, by decide, by decide⟩

/-- Seven frames in two calls: the first segment ends inside the second call. -/
def sampleActions : List (Action sampleConfig) :=
  [.write ⟨2, [1, 2, 3, 4], rfl⟩, .advance, .advance,
    .write ⟨5, [5, 6, 7, 8, 9, 10, 11, 12, 13, 14], rfl⟩, .advance, .advance, .advance, .work,
    .advance, .advance, .batched, .advance, .work, .advance, .work, .advance,
    .finish, .work, .work, .advance, .advance, .work, .batched, .work, .work, .work, .work, .work]

theorem segmentation_conserves_sample : ∃ s, runFrom sampleConfig {} sampleActions = some s ∧
    s.durableRecords.map (fun p => (p.record.startSample, p.record.endSample)) = [(0, 3), (3, 6), (6, 7)] ∧
    Segmented sampleConfig s := by
  have hsample : (runFrom sampleConfig {} sampleActions).any (fun s => decide
      ((s.pc = .joining ∧ s.worker = .finished) ∧ s.durableRecords.map (fun p =>
        (p.record.startSample, p.record.endSample)) = [(0, 3), (3, 6), (6, 7)])) = true := by
    decide +kernel
  obtain ⟨s, hrun, hs⟩ := (Option.any_eq_true _ _).1 hsample
  obtain ⟨hfinished, hrecords⟩ := of_decide_eq_true hs
  exact ⟨s, hrun, hrecords,
    (segmentation_conserves sampleConfig).2.2.1 s (reachable_runFrom .start _ hrun) hfinished⟩

end Conductor.Audio.Segments
