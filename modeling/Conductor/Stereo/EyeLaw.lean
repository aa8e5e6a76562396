import Conductor.Stereo.Pipeline

/-! One eye: its packets in their order, the frames that were written of them, and the segments. -/

namespace Conductor.Stereo

open Work (opened popped)

/-- The packet that is taken out and not written yet. -/
def Writer.unwritten : Writer → List Packet
  | .holding p => [p]
  | _ => []

/-- No packet was skipped before. -/
def Writer.fresh : Writer → Bool
  | .reserving _ _ _ | .opening _ _ _ => true
  | _ => false

/-- The segment that is being opened. -/
def Writer.target : Writer → Option (ℕ × ℕ)
  | .reserving index start _ | .opening index start _ => some (index, start)
  | _ => none

/-- A segment with all its frames. -/
def full (k : Config) (side : Side) (i : ℕ) : Segment := ⟨side, i, i * k.segmentFrames, (i + 1) * k.segmentFrames⟩

/-- `m` segments are full, and the next one is open, to be opened, or closed as the last. -/
structure Shape (k : Config) (side : Side) (writer : Writer) (writable : Bool) (current : Option Segment) (ordinal : ℕ)
    (segments : List Segment) (m : ℕ) : Prop where
  closed : segments = (List.range m).map (full k side) ∨
    writer = .ended ∧ segments = (List.range m).map (full k side) ++ [⟨side, m, m * k.segmentFrames, ordinal⟩]
  low : m * k.segmentFrames ≤ ordinal
  high : 0 < k.segmentFrames → ordinal ≤ (m + 1) * k.segmentFrames ∧
    (ordinal = (m + 1) * k.segmentFrames → ∃ p, writer = .rolling p)
  single : k.segmentFrames = 0 → m = 0
  opens : ∀ segment, current = some segment → segment.side = side ∧ segment.index = m ∧
    segment.startFrame = m * k.segmentFrames
  target : ∀ index start, writer.target = some (index, start) →
    index = m ∧ start = ordinal ∧ ordinal = m * k.segmentFrames ∧ current = none
  ready : writable = true → writer.target = none → writer ≠ .ended → current.isSome
  rolling : ∀ p, writer = .rolling p → writable = true ∧ 0 < k.segmentFrames ∧ ordinal = (m + 1) * k.segmentFrames
  ended : writer = .ended → current = none

structure Eye.Inv (k : Config) (side : Side) (e : Eye) : Prop where
  accounts : e.packets.Accounts e.writer.held.toList
  limits : e.packets.maxBytes = muxQueueBytes ∧ e.packets.maxFrames = k.fps * muxQueueSeconds
  order : ∃ skipped, e.pushed = e.written ++ skipped ++ e.packets.packets
  exact : e.writable = true ∨ e.writer.fresh = true → e.pushed = e.written ++ e.writer.unwritten ++ e.packets.packets
  encoded : e.encoded = e.pushed.length
  ordinal : e.ordinal = e.written.length
  bytes : e.bytes = Packet.sizes e.written
  shape : ∃ m, Shape k side e.writer e.writable e.current e.ordinal e.segments m

variable {k : Config} {side : Side} {e : Eye} {q : PacketQueue} {p : Packet} {held : Option Packet}
  {index first m ordinal : ℕ}
  {writer next : Writer} {writable writable' : Bool} {current : Option Segment} {segments : List Segment}

@[simp] theorem opened_held : (opened held).held = held := by
  cases held <;> rfl

@[simp] theorem opened_target : (opened held).target = none := by
  cases held <;> rfl

@[simp] theorem opened_unwritten : (opened held).unwritten = [] := by
  cases held <;> rfl

@[simp] theorem opened_fresh : (opened held).fresh = false := by
  cases held <;> rfl

/-- The phases in which the segment does not change. -/
def Writer.plain : Writer → Bool
  | .rolling _ | .ended => false
  | _ => true

@[simp] theorem opened_plain : (opened held).plain = true := by
  cases held <;> rfl

/-- The segment is not at its end, so the next phase need not roll. -/
theorem Shape.below (h : Shape k side writer writable current ordinal segments m) (hwriter : writer.plain = true)
    (hpos : 0 < k.segmentFrames) :
    ordinal ≤ (m + 1) * k.segmentFrames ∧ (ordinal = (m + 1) * k.segmentFrames → ∃ p, next = .rolling p) := by
  refine ⟨(h.high hpos).1, fun heq => ?_⟩
  obtain ⟨p, rfl⟩ := (h.high hpos).2 heq
  cases hwriter

/-- From one phase to another with the same segment. -/
theorem Shape.move (h : Shape k side writer writable current ordinal segments m) (hwriter : writer.plain = true)
    (hnext : next.plain = true) (htarget : ∀ pair, next.target = some pair → writer.target = some pair)
    (hready : writable' = true → next.target = none → current.isSome) :
    Shape k side next writable' current ordinal segments m := by
  refine ⟨.inl (h.closed.resolve_right ?_), h.low, h.below hwriter, h.single, h.opens,
    fun index start hpair => h.target index start (htarget _ hpair), fun hw htarget _ => hready hw htarget, ?_, ?_⟩
  · rintro ⟨rfl, -⟩
    cases hwriter
  · rintro p rfl
    cases hnext
  · rintro rfl
    cases hnext

/-- The frame that fills a segment. -/
theorem mod_eq_zero_iff {n frames : ℕ} (hlow : m * frames ≤ n) (hroom : n < (m + 1) * frames) :
    (n + 1) % frames = 0 ↔ n + 1 = (m + 1) * frames := by
  constructor
  · intro hmod
    obtain ⟨c, hc⟩ := Nat.dvd_of_mod_eq_zero hmod
    rw [Nat.mul_comm] at hc
    have hlt : m < c := by
      by_contra hle
      have := Nat.mul_le_mul_right frames (not_lt.1 hle)
      omega
    have hge := Nat.mul_le_mul_right frames (Nat.succ_le_of_lt hlt)
    simp only [Nat.succ_eq_add_one] at hge
    omega
  · intro heq
    rw [heq, Nat.mul_mod_left]

theorem limits_lt (k : Config) : muxQueueBytes < 2 ^ 64 ∧ k.fps * muxQueueSeconds < 2 ^ 64 := by
  have := k.fps_le
  unfold muxQueueBytes muxQueueSeconds
  omega

/-- The segments that are full, and the last. -/
theorem Shape.place (h : Shape k side writer writable current ordinal segments m) {i : ℕ} {g : Segment}
    (hg : segments[i]? = some g) :
    i < m ∧ g = full k side i ∨ i = m ∧ segments.length = m + 1 ∧ g = ⟨side, m, m * k.segmentFrames, ordinal⟩ := by
  rcases h.closed with hclosed | ⟨-, hclosed⟩
  · obtain ⟨hlt, rfl⟩ := List.getElem?_eq_some_iff.1 hg
    simp only [hclosed, List.length_map, List.length_range] at hlt
    exact .inl ⟨hlt, by simp [hclosed]⟩
  · have hlength : segments.length = m + 1 := by simp [hclosed]
    obtain ⟨hlt, rfl⟩ := List.getElem?_eq_some_iff.1 hg
    rcases Nat.lt_succ_iff_lt_or_eq.1 (hlength ▸ hlt) with hi | rfl
    · exact .inl ⟨hi, by simp [hclosed, List.getElem_append_left, hi]⟩
    · exact .inr ⟨rfl, hlength, by simp [hclosed]⟩

/-- A segment has its place for its number, and only the last can be without frames. -/
theorem Shape.nth (h : Shape k side writer writable current ordinal segments m) {i : ℕ} {g : Segment}
    (hg : segments[i]? = some g) :
    g.side = side ∧ g.index = i ∧ g.startFrame = i * k.segmentFrames ∧
      (i + 1 < segments.length → g.endFrame = (i + 1) * k.segmentFrames ∧ g.startFrame < g.endFrame) ∧
      g.endFrame ≤ ordinal ∧ g.startFrame ≤ g.endFrame := by
  rcases h.place hg with ⟨hi, rfl⟩ | ⟨rfl, hlength, rfl⟩
  · have hpos : 0 < k.segmentFrames := Nat.pos_of_ne_zero fun hzero => by
      have := h.single hzero
      omega
    have hle := Nat.mul_le_mul_right k.segmentFrames (Nat.succ_le_of_lt hi)
    have hlt : i * k.segmentFrames < (i + 1) * k.segmentFrames := Nat.mul_lt_mul_of_pos_right (Nat.lt_succ_self i) hpos
    exact ⟨rfl, rfl, rfl, fun _ => ⟨rfl, hlt⟩, hle.trans h.low, hlt.le⟩
  · exact ⟨rfl, rfl, rfl, fun hlt => absurd hlt (by rw [hlength]; exact Nat.lt_irrefl _), Nat.le_refl _, h.low⟩

theorem Eye.init_inv (k : Config) (side : Side) :
    Eye.Inv k side { packets := { maxBytes := muxQueueBytes, maxFrames := k.fps * muxQueueSeconds } } := by
  refine ⟨.init (limits_lt k).1 (limits_lt k).2, ⟨rfl, rfl⟩, ⟨[], rfl⟩, fun _ => rfl, rfl, rfl, rfl, 0, ?_⟩
  constructor
  case high =>
    intro hpos
    refine ⟨Nat.zero_le _, fun heq => ?_⟩
    simp only [Nat.zero_add, Nat.one_mul] at heq
    omega
  all_goals simp [Writer.target]

namespace Eye.Inv

/-! ### The output thread -/

/-- A packet that the queue has taken. -/
theorem push (h : e.Inv k side) {allocated : Bool} (hpush : e.packets.push p allocated = (true, q)) :
    Eye.Inv k side { e with idlePolls := 0, packets := q, encoded := e.encoded + 1, pushed := e.pushed ++ [p] } := by
  rcases PacketQueue.push_cases h.accounts hpush with ⟨-, hpackets, haccounts⟩ | ⟨hno, -⟩
  · obtain ⟨skipped, horder⟩ := h.order
    obtain ⟨hbytes, hframes, -⟩ := PacketQueue.push_kept hpush
    refine ⟨haccounts, ?_, ⟨skipped, by simp [horder, hpackets]⟩, fun hexact => ?_, by simp [h.encoded],
      h.ordinal, h.bytes, h.shape⟩
    · rw [hbytes, hframes]
      exact h.limits
    · simp [h.exact hexact, hpackets]
  · cases hno

/-- A packet that it has not taken. -/
theorem reject (h : e.Inv k side) {allocated : Bool} (hpush : e.packets.push p allocated = (false, q)) :
    Eye.Inv k side { e with idlePolls := 0, packets := q, output := .leaving } := by
  rcases PacketQueue.push_cases h.accounts hpush with ⟨hyes, -⟩ | ⟨-, rfl⟩
  · cases hyes
  · exact ⟨h.accounts.reject, h.limits, h.order, h.exact, h.encoded, h.ordinal, h.bytes, h.shape⟩

theorem poll (h : e.Inv k side) {output : Output} {idlePolls given fed : ℕ} :
    Eye.Inv k side { e with output := output, idlePolls := idlePolls, given := given, fed := fed } :=
  ⟨h.accounts, h.limits, h.order, h.exact, h.encoded, h.ordinal, h.bytes, h.shape⟩

theorem close (h : e.Inv k side) {output : Output} :
    Eye.Inv k side { e with packets := e.packets.close, output := output } :=
  ⟨h.accounts.close, h.limits, h.order, h.exact, h.encoded, h.ordinal, h.bytes, h.shape⟩

/-! ### The writer thread -/

/-- What holds in a phase. -/
theorem phase (h : e.Inv k side) (hwriter : e.writer = writer) : e.packets.Accounts writer.held.toList ∧
    (e.writable = true ∨ writer.fresh = true → e.pushed = e.written ++ writer.unwritten ++ e.packets.packets) ∧
    ∃ m, Shape k side writer e.writable e.current e.ordinal e.segments m := by
  subst hwriter
  exact ⟨h.accounts, h.exact, h.shape⟩

/-- One of the pending segments is taken. -/
theorem reserve (h : e.Inv k side) (hwriter : e.writer = .reserving index first held) :
    Eye.Inv k side { e with writer := .opening index first held } := by
  obtain ⟨haccounts, hexact, m, hshape⟩ := h.phase hwriter
  refine ⟨haccounts, h.limits, h.order, fun hfresh => hexact (hfresh.imp_right fun hfresh => ?_), h.encoded,
    h.ordinal, h.bytes, m, hshape.move rfl rfl (fun pair hpair => hpair) (by simp [Writer.target])⟩
  rfl

/-- No segment could be opened. -/
theorem unopened (h : e.Inv k side)
    (hwriter : e.writer = .reserving index first held ∨ e.writer = .opening index first held) :
    Eye.Inv k side { e with writable := false, writer := opened held } := by
  have haccounts := h.accounts
  obtain ⟨m, hshape⟩ := h.shape
  have hheld : e.writer.held = held := by
    rcases hwriter with hwriter | hwriter <;> rw [hwriter] <;> rfl
  have hplain : e.writer.plain = true := by
    rcases hwriter with hwriter | hwriter <;> rw [hwriter] <;> rfl
  rw [hheld] at haccounts
  refine ⟨by simpa using haccounts, h.limits, h.order, fun hfresh => ?_, h.encoded, h.ordinal, h.bytes, m,
    hshape.move hplain opened_plain (by simp) (by simp)⟩
  simp at hfresh

/-- The next segment is open. -/
theorem open_ (h : e.Inv k side) (hwriter : e.writer = .opening index first held) :
    Eye.Inv k side { e with current := some ⟨side, index, first, 0⟩, writable := true, writer := opened held } := by
  obtain ⟨haccounts, hexact, m, hshape⟩ := h.phase hwriter
  obtain ⟨rfl, rfl, hordinal, hnone⟩ := hshape.target index first rfl
  have hclosed := hshape.closed.resolve_right (by simp)
  refine ⟨?_, h.limits, h.order, fun _ => ?_, h.encoded, h.ordinal, h.bytes, index, ?_⟩
  · rw [opened_held]
    exact haccounts
  · rw [opened_unwritten]
    exact hexact (.inr rfl)
  refine ⟨.inl hclosed, hshape.low, hshape.below rfl, hshape.single, ?_, by simp, by simp, ?_, ?_⟩
  · rintro segment ⟨⟩
    exact ⟨rfl, rfl, hordinal⟩
  · intro p hrolling
    cases held <;> cases hrolling
  · intro hended
    cases held <;> cases hended

theorem pop (h : e.Inv k side) {answer : Option Packet} (hwriter : e.writer = .popping)
    (hpop : e.packets.pop = some (answer, q)) :
    Eye.Inv k side { e with packets := q, writer := popped answer } := by
  obtain ⟨haccounts, hexact, m, hshape⟩ := h.phase hwriter
  obtain ⟨skipped, horder⟩ := h.order
  obtain ⟨hkept, hpackets, hbytes, hframes, -⟩ := PacketQueue.Accounts.pop haccounts hpop
  have hlimits : q.maxBytes = muxQueueBytes ∧ q.maxFrames = k.fps * muxQueueSeconds := by
    rw [hbytes, hframes]
    exact h.limits
  have hready := fun hw => hshape.ready hw rfl (by simp)
  cases answer with
  | none =>
    refine ⟨hkept, hlimits, ⟨skipped, by simp [horder, hpackets]⟩, fun hfresh => ?_, h.encoded, h.ordinal, h.bytes, m,
      hshape.move rfl rfl (fun _ hpair => by cases hpair) fun hw _ => hready hw⟩
    simpa [hpackets, Writer.unwritten, popped] using hexact (.inl (by simpa [Writer.fresh, popped] using hfresh))
  | some p =>
    refine ⟨hkept, hlimits, ⟨skipped ++ [p], by simp [horder, hpackets]⟩, fun hfresh => ?_, h.encoded,
      h.ordinal, h.bytes, m, hshape.move rfl rfl (fun _ hpair => by cases hpair) fun hw _ => hready hw⟩
    simpa [hpackets, Writer.unwritten, popped] using hexact (.inl (by simpa [Writer.fresh, popped] using hfresh))

/-- A packet that was not written, now or before. -/
theorem skip (h : e.Inv k side) (hwriter : e.writer = .holding p) :
    Eye.Inv k side { e with writable := false, writer := .releasing p } := by
  obtain ⟨haccounts, -, m, hshape⟩ := h.phase hwriter
  refine ⟨haccounts, h.limits, h.order, fun hfresh => ?_, h.encoded, h.ordinal, h.bytes, m,
    hshape.move rfl rfl (fun _ hpair => by cases hpair) (by simp)⟩
  simp [Writer.fresh] at hfresh

/-- A packet that was written. -/
theorem write (h : e.Inv k side) (hwriter : e.writer = .holding p) (hwritable : e.writable = true) :
    Eye.Inv k side { e with
      bytes := e.bytes + p.size
      ordinal := e.ordinal + 1
      written := e.written ++ [p]
      writer := if 0 < k.segmentFrames ∧ (e.ordinal + 1) % k.segmentFrames = 0 then .rolling p else .releasing p } := by
  obtain ⟨haccounts, hexact, m, hshape⟩ := h.phase hwriter
  replace hexact := hexact (.inl hwritable)
  have hready := hshape.ready hwritable rfl (by simp)
  have hclosed := hshape.closed.resolve_right (by simp)
  have hroom (hpos : 0 < k.segmentFrames) : e.ordinal < (m + 1) * k.segmentFrames :=
    lt_of_le_of_ne (hshape.high hpos).1 fun heq => by simpa using (hshape.high hpos).2 heq
  have hlow := hshape.low
  refine ⟨?_, h.limits, ⟨[], ?_⟩, fun _ => ?_, h.encoded, ?_, ?_, m, ?_⟩
  · split <;> exact haccounts
  · simpa [Writer.unwritten] using hexact
  · split <;> simpa [Writer.unwritten] using hexact
  · simp [h.ordinal]
  · simp [h.bytes]
  · split
    · rename_i hlast
      have heq := (mod_eq_zero_iff hlow (hroom hlast.1)).1 hlast.2
      refine ⟨.inl hclosed, hlow.trans (Nat.le_succ _), fun _ => ⟨heq.le, fun _ => ⟨p, rfl⟩⟩, hshape.single,
        hshape.opens, by simp [Writer.target],
        fun _ _ _ => hready, fun _ _ => ⟨hwritable, hlast.1, heq⟩, by simp⟩
    · rename_i hlast
      refine ⟨.inl hclosed, hlow.trans (Nat.le_succ _), fun hpos => ⟨hroom hpos, fun heq => ?_⟩,
        hshape.single, hshape.opens, by simp [Writer.target], fun _ _ _ => hready, by simp, by simp⟩
      exact absurd ⟨hpos, (mod_eq_zero_iff hlow (hroom hpos)).2 heq⟩ hlast

/-- A segment that has all its frames is closed. -/
theorem roll (h : e.Inv k side) {segment : Segment} (hwriter : e.writer = .rolling p)
    (hcurrent : e.current = some segment) :
    Eye.Inv k side { e with
      current := none
      segments := e.segments ++ [{ segment with endFrame := e.ordinal }]
      writer := .reserving (e.ordinal / k.segmentFrames) e.ordinal (some p) } := by
  obtain ⟨haccounts, hexact, m, hshape⟩ := h.phase hwriter
  obtain ⟨hwritable, hpos, hordinal⟩ := hshape.rolling p rfl
  obtain ⟨hside, hindex, hstart⟩ := hshape.opens segment hcurrent
  have hclosed := hshape.closed.resolve_right (by simp)
  have hdiv : e.ordinal / k.segmentFrames = m + 1 := by rw [hordinal, Nat.mul_div_cancel _ hpos]
  have hlast : ({ segment with endFrame := e.ordinal } : Segment) = full k side m := by
    rw [full, ← hside, ← hindex, hordinal, hindex, ← hstart]
  refine ⟨haccounts, h.limits, h.order, fun _ => hexact (.inl hwritable), h.encoded, h.ordinal, h.bytes, m + 1, ?_⟩
  rw [hlast, hdiv, hclosed]
  refine ⟨.inl (by rw [List.range_succ, List.map_append]; rfl), hordinal.ge, fun _ => ⟨?_, fun heq => ?_⟩,
    fun hzero => by omega, by simp, ?_, by simp [Writer.target], by simp, by simp⟩
  · rw [hordinal]
    exact Nat.mul_le_mul_right _ (by omega)
  · rw [hordinal] at heq
    have := Nat.eq_of_mul_eq_mul_right hpos heq
    omega
  · rintro index first heq
    cases heq
    exact ⟨rfl, rfl, hordinal, rfl⟩

theorem release (h : e.Inv k side) (hwriter : e.writer = .releasing p) :
    Eye.Inv k side { e with packets := e.packets.done p, writer := .popping } := by
  obtain ⟨haccounts, hexact, m, hshape⟩ := h.phase hwriter
  refine ⟨haccounts.done, h.limits, h.order,
    fun hfresh => hexact (.inl (by simpa [Writer.fresh] using hfresh)), h.encoded, h.ordinal,
    h.bytes, m, hshape.move rfl rfl (fun _ hpair => by cases hpair) fun hw _ => hshape.ready hw rfl (by simp)⟩

/-- The last segment is closed. -/
theorem finish (h : e.Inv k side) {segment : Segment} (hwriter : e.writer = .closing)
    (hcurrent : e.current = some segment) :
    Eye.Inv k side { e with
      current := none
      segments := e.segments ++ [{ segment with endFrame := e.ordinal }]
      writer := .ended } := by
  obtain ⟨haccounts, hexact, m, hshape⟩ := h.phase hwriter
  obtain ⟨hside, hindex, hstart⟩ := hshape.opens segment hcurrent
  have hclosed := hshape.closed.resolve_right (by simp)
  refine ⟨haccounts, h.limits, h.order, fun hfresh => hexact (.inl (by simpa [Writer.fresh] using hfresh)),
    h.encoded, h.ordinal, h.bytes, m, ?_⟩
  refine ⟨.inr ⟨rfl, ?_⟩, hshape.low, hshape.below rfl, hshape.single, by simp, by simp [Writer.target], by simp,
    by simp, by simp⟩
  rw [hclosed, ← hside, ← hstart, ← hindex]

/-- After a failure there is nothing to close. -/
theorem leave (h : e.Inv k side) (hwriter : e.writer = .closing) (hwritable : e.writable = false) :
    Eye.Inv k side { e with current := none, writer := .ended } := by
  obtain ⟨haccounts, -, m, hshape⟩ := h.phase hwriter
  have hclosed := hshape.closed.resolve_right (by simp)
  refine ⟨haccounts, h.limits, h.order, fun hfresh => ?_, h.encoded, h.ordinal, h.bytes, m, ?_⟩
  · rw [hwritable] at hfresh
    simp [Writer.fresh] at hfresh
  · exact ⟨.inl hclosed, hshape.low, hshape.below rfl, hshape.single, by simp, by simp [Writer.target], by simp,
      by simp, by simp⟩

end Eye.Inv

end Conductor.Stereo
