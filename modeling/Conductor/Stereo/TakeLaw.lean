import Conductor.Stereo.CompleteLaw

/-! What a take leaves: packets in their order and within their limits, segments that are all
accounted for, and reports that tile the frames of both eyes. -/

namespace Conductor.Stereo.Pipeline

open Runs Tiling

variable {k : Config} {s t : Pipeline} {side : Side} {actions : List Action} {i n : ℕ}

/-! ### The segments that came -/

/-- A segment that came, or one before it. -/
theorem Inv.span_spec (h : Inv k s) (hi : i < s.came side) :
    (s.span side i).1 = i * k.segmentFrames ∧ (s.span side i).1 < (s.span side i).2 ∧
      (s.span side i).2 ≤ (s.eyes side).written.length ∧
      (i + 1 < s.came side → (s.span side i).2 = (i + 1) * k.segmentFrames) := by
  obtain ⟨m, hshape⟩ := (h.eye side).shape
  have hlen := h.came_le side
  obtain ⟨g, hg⟩ : ∃ g, (s.eyes side).segments[i]? = some g := ⟨_, List.getElem?_eq_getElem (hi.trans_le hlen)⟩
  obtain ⟨-, -, hstart, hnext, hstop, hle⟩ := hshape.nth hg
  have hfilled : g.startFrame < g.endFrame := by
    by_cases hlast : i + 1 < (s.eyes side).segments.length
    · exact (hnext hlast).2
    · have hall : ((s.eyes side).segments.filter Segment.filled).length = (s.eyes side).segments.length := by
        have := h.came_filled side
        have := List.length_filter_le Segment.filled (s.eyes side).segments
        omega
      rw [List.length_filter_eq_length_iff] at hall
      exact of_decide_eq_true (hall g (List.mem_of_getElem? hg))
  rw [span, hg]
  exact ⟨hstart, hfilled, hstop.trans (h.eye side).ordinal.le, fun hi => (hnext (hi.trans_le hlen)).1⟩

/-- The segments that came tile the frames from the first. -/
theorem Inv.tiles (h : Inv k s) {r : ℕ} (hr : r ≤ s.came side) :
    Tiles 0 ((List.range r).map (s.span side)) (if r = 0 then 0 else (s.span side (r - 1)).2) := by
  induction r with
  | zero => rfl
  | succ r ih =>
    obtain ⟨hstart, hfilled, -⟩ := h.span_spec (Nat.lt_of_succ_le hr)
    rw [List.range_succ, List.map_append, if_neg (Nat.succ_ne_zero r), Nat.add_sub_cancel]
    refine (ih (Nat.le_of_succ_le hr)).append ⟨?_, hfilled, rfl⟩
    rw [hstart]
    split
    · simp_all
    · obtain ⟨-, -, -, hnext⟩ := h.span_spec (show r - 1 < s.came side by omega)
      rw [hnext (by omega), Nat.sub_add_cancel (by omega)]

/-- What the ledger has reported. -/
theorem Inv.reported (h : Inv k s) : s.ledger.reports.length = s.ledger.reportedPairs ∧
    s.ledger.reports.map (fun r => (r.start, r.stop)) = (List.range s.ledger.reportedPairs).map (s.span .left) := by
  have hreports := h.ledger.reports
  constructor
  · simpa using congrArg List.length hreports
  · have hsnd := congrArg (List.map Prod.snd) hreports
    rw [List.map_map, List.map_map] at hsnd
    exact hsnd

/-! ### A take of three frames -/

def sampleConfig : Config := ⟨8, 2, 1, 2, false, "take/", Nat.one_pos, by decide⟩

/-- Three packets of an eye, from the encoder to the closer. -/
def sampleWriter (side : Side) : List Action :=
  [.writerReserve, .writerOpen true, .writerPop, .writerWrite true, .writerRelease, .writerPop,
    .writerWrite true, .writerRoll,
      .writerReserve, .writerOpen true, .writerRelease, .writerPop, .writerWrite true, .writerRelease, .writerPop,
      .writerFinish].map (.eye side) ++
    [.closerTake, .closerSeal (.done 10 true), .closerRelease, .closerTake, .closerSeal (.done 5 true), .closerRelease]

/-- One frame from the decoder to the queues of both eyes. -/
def sampleFrame (data : List UInt8) : List Action :=
  [.submit .queued, .splitPoll (.geometry 8 2), .advance, .splitFeed .queued,
    .eye .left (.outputPoll (.packet data true)),
    .splitAdvance, .splitFeed .queued, .splitAdvance, .splitAdvance, .eye .right (.outputPoll (.packet data true))]

def sampleRun : List Action :=
  List.replicate 6 (.startThread true) ++ sampleFrame [0, 0, 1, 0x65] ++ sampleFrame [0, 0, 1, 0x41] ++
    sampleFrame [0, 0, 1, 0x65] ++ [.advance, .splitPoll .none, .splitAdvance, .advance] ++
    [Side.left, .right].flatMap (fun side => [.eye side (.outputPoll .none), .eye side .outputLeave]) ++
    sampleWriter .right ++ sampleWriter .left ++
      [.advance, .advance, .advance, .advance, .advance, .closerTake, .advance]

/-- It is finished, and reported in two pieces; all three packets of the left eye have waited at once. -/
theorem sample_run : ∃ t, run (fun s a => step sampleConfig s a) (init sampleConfig) sampleRun = some t ∧
    t.caller = .finished true ∧ t.ledger.reports.map (fun r => (r.start, r.stop)) = [(0, 2), (2, 3)] ∧
    t.settled.length = 4 ∧ (t.eyes .left).packets.peakFrames = 3 ∧ (t.eyes .left).bytes = 12 := by
  have h : (run (fun s a => step sampleConfig s a) (init sampleConfig) sampleRun).map (fun t =>
      (t.caller, t.ledger.reports.map (fun r => (r.start, r.stop)), t.settled.length,
        (t.eyes .left).packets.peakFrames, (t.eyes .left).bytes)) =
    some (.finished true, [(0, 2), (2, 3)], 4, 3, 12) := by
    decide +kernel
  simpa [Option.map_eq_some_iff] using h

/-! ### Every run -/

/-- The counters of a queue are those of the packets in it and of the one that the writer has, within
the limits, and nothing is written out of order or twice. -/
theorem packets_bounded (ht : run (fun s a => step k s a) (init k) actions = some t) (side : Side) :
    (t.eyes side).packets.bytes = Packet.sizes ((t.eyes side).writer.held.toList ++ (t.eyes side).packets.packets) ∧
      (t.eyes side).packets.frames = ((t.eyes side).writer.held.toList ++ (t.eyes side).packets.packets).length ∧
      (t.eyes side).packets.peakBytes ≤ muxQueueBytes ∧ (t.eyes side).packets.peakFrames ≤ k.fps * muxQueueSeconds ∧
      (∃ skipped, (t.eyes side).pushed = (t.eyes side).written ++ skipped ++ (t.eyes side).packets.packets) ∧
      (t.eyes side).bytes = Packet.sizes (t.eyes side).written := by
  have h := (run_inv ht).eye side
  obtain ⟨hbytes, hframes⟩ := h.limits
  refine ⟨h.accounts.bytes, h.accounts.frames, ?_, ?_, h.order, h.bytes⟩
  · rw [← hbytes]
    exact h.accounts.peakBytes.2
  · rw [← hframes]
    exact h.accounts.peakFrames.2

theorem packets_bounded_sample : ∃ t, run (fun s a => step sampleConfig s a) (init sampleConfig) sampleRun = some t ∧
    (t.eyes .left).packets.peakBytes ≤ muxQueueBytes ∧ (t.eyes .left).packets.peakFrames = 3 ∧
    Packet.sizes (t.eyes .left).written = 12 := by
  obtain ⟨t, ht, -, -, -, hframes, hwritten⟩ := sample_run
  obtain ⟨-, -, hpeak, -, -, hbytes⟩ := packets_bounded ht .left
  exact ⟨t, ht, hpeak, hframes, hbytes.symm.trans hwritten⟩

/-- The count of pending segments is the one of those that are open, on their way or at the closer, no
more than 32; each segment reaches the closer once and in its order, and no null pointer is followed. -/
theorem segments_accounted (ht : run (fun s a => step k s a) (init k) actions = some t) :
    t.pendingSegments = (t.eyes .left).pending + (t.eyes .right).pending + t.closerQueue.length +
      t.closer.segments.length ∧ t.pendingSegments ≤ maxPendingSegments ∧
      (∀ side, (t.settled ++ t.closer.segments ++ t.closerQueue).filter (fun g => g.side = side) =
        (t.eyes side).segments) ∧
      t.faulted = false := by
  have h := run_inv ht
  exact ⟨h.pending, h.bounded, h.closer, h.faulted⟩

theorem segments_accounted_sample : ∃ t, run (fun s a => step sampleConfig s a) (init sampleConfig) sampleRun = some t ∧
    t.pendingSegments ≤ maxPendingSegments ∧ t.settled.length = 4 ∧ t.faulted = false := by
  obtain ⟨t, ht, -, -, hsettled, -⟩ := sample_run
  obtain ⟨-, hbounded, -, hfaulted⟩ := segments_accounted ht
  exact ⟨t, ht, hbounded, hsettled, hfaulted⟩

/-- Whatever fails, the reports are the first segments of both eyes, without a gap. -/
theorem reports_tile (ht : run (fun s a => step k s a) (init k) actions = some t) :
    t.ledger.reports.map (fun r => (r.index, r.start)) =
        (List.range t.ledger.reports.length).map (fun i => (i, i * k.segmentFrames)) ∧
      ∃ n, Tiles 0 (t.ledger.reports.map fun r => (r.start, r.stop)) n ∧ ∀ side, n ≤ (t.eyes side).written.length := by
  have h := run_inv ht
  obtain ⟨hlength, hspans⟩ := h.reported
  have hreached := h.ledger.reached
  constructor
  · have hfirst := congrArg (List.map fun r : ℕ × ℕ × ℕ => (r.1, r.2.1)) h.ledger.reports
    rw [List.map_map, List.map_map] at hfirst
    rw [hlength]
    refine hfirst.trans (List.map_congr_left fun i hi => ?_)
    obtain ⟨hstart, -⟩ := h.span_spec ((List.mem_range.1 hi).trans_le (hreached .left))
    exact congrArg (Prod.mk i) hstart
  · rw [hspans]
    refine ⟨_, h.tiles (hreached .left), fun side => ?_⟩
    split
    · exact Nat.zero_le _
    · rename_i hpos
      have hlt : t.ledger.reportedPairs - 1 < t.ledger.reportedPairs := by omega
      have hagreed : t.span .left (t.ledger.reportedPairs - 1) = t.span side (t.ledger.reportedPairs - 1) := by
        cases side with
        | left => rfl
        | right => exact h.ledger.agreed _ hlt
      rw [hagreed]
      obtain ⟨-, -, hle, -⟩ := h.span_spec (hlt.trans_le (hreached side))
      exact hle

theorem reports_tile_sample : ∃ t, run (fun s a => step sampleConfig s a) (init sampleConfig) sampleRun = some t ∧
    t.ledger.reports.map (fun r => (r.start, r.stop)) = [(0, 2), (2, 3)] ∧
    ∃ n, Tiles 0 (t.ledger.reports.map fun r => (r.start, r.stop)) n ∧ ∀ side, n ≤ (t.eyes side).written.length := by
  obtain ⟨t, ht, -, hreports, -⟩ := sample_run
  exact ⟨t, ht, hreports, (reports_tile ht).2⟩

/-! ### A take that is finished -/

/-- Every frame that was submitted is written for both eyes. -/
theorem Sound.written (h : Sound k t) (hcaller : t.caller = .finished true) (side : Side) :
    (t.eyes side).written = (t.eyes side).pushed ∧ (t.eyes side).written.length = t.submitted ∧
      (t.eyes side).segments = cut k side t.submitted := by
  have hinv := h.inv
  have hhealthy := h.healthy (h.finished hcaller)
  have harrived := hhealthy.arrived
  rw [Arrived, hcaller] at harrived
  obtain ⟨haccepted, hwriter, -⟩ := harrived
  have heye := hhealthy.eyes side
  obtain ⟨hclosed, hempty⟩ := heye.empty (.inr (hwriter side))
  obtain ⟨hdone, hfed⟩ := heye.drained (by rw [heye.closed hclosed]; simp)
  have hsplit := hhealthy.splitDone hdone
  obtain ⟨-, hdecoded⟩ := hhealthy.drained (.inr hsplit)
  have hexact := (hinv.eye side).exact (.inl (heye.writable (by rw [hwriter]; rfl)))
  rw [hwriter, hempty] at hexact
  have hwritten : (t.eyes side).pushed = (t.eyes side).written := by simpa [Writer.unwritten] using hexact
  obtain ⟨hgiven, hcounted⟩ := hhealthy.fed side
  rw [hsplit] at hgiven hcounted
  have hcount : (t.eyes side).ordinal = t.submitted := by
    have hhonest := hhealthy.honest
    have hle := heye.honest
    have hencoded := (hinv.eye side).encoded
    have hordinal := (hinv.eye side).ordinal
    rw [hwritten] at hencoded
    simp only [Split.given, Split.fed] at hgiven hcounted
    omega
  refine ⟨hwritten.symm, ?_, ?_⟩
  · rw [← hcount]
    exact (hinv.eye side).ordinal.symm
  · rw [← hcount]
    exact heye.last (hwriter side)

/-- The segments with frames: the full ones, and the last where it is not empty. -/
theorem cut_filled (k : Config) (side : Side) (n : ℕ) : (cut k side n).filter Segment.filled =
    (List.range (n / k.segmentFrames)).map (full k side) ++
      if n / k.segmentFrames * k.segmentFrames < n then
        [⟨side, n / k.segmentFrames, n / k.segmentFrames * k.segmentFrames, n⟩]
      else [] := by
  have hfull : ((List.range (n / k.segmentFrames)).map (full k side)).filter Segment.filled =
      (List.range (n / k.segmentFrames)).map (full k side) := by
    refine List.filter_eq_self.2 fun g hg => ?_
    obtain ⟨i, hi, rfl⟩ := List.mem_map.1 hg
    have hpos : 0 < k.segmentFrames := Nat.pos_of_ne_zero fun hzero => by simp [hzero] at hi
    exact decide_eq_true (Nat.mul_lt_mul_of_pos_right (Nat.lt_succ_self i) hpos)
  rw [cut, List.filter_append, hfull]
  simp [Segment.filled, List.filter_cons]

theorem cut_length (k : Config) (side : Side) (n : ℕ) : ((cut k side n).filter Segment.filled).length =
    n / k.segmentFrames + if n / k.segmentFrames * k.segmentFrames < n then 1 else 0 := by
  rw [cut_filled]
  split <;> simp

theorem cut_begins (k : Config) (side : Side) (n : ℕ) : (cut k side n).filter Segment.filled <+: cut k side n := by
  rw [cut_filled, cut, List.prefix_append_right_inj]
  split
  · exact List.prefix_rfl
  · exact List.nil_prefix

/-- They tile the frames. -/
theorem cut_tiles (k : Config) (side : Side) (n : ℕ) :
    Tiles 0 (((cut k side n).filter Segment.filled).map fun g => (g.startFrame, g.endFrame)) n := by
  have hle : n / k.segmentFrames * k.segmentFrames ≤ n := Nat.div_mul_le_self n k.segmentFrames
  have hwhole := tiles_range (fun i => i * k.segmentFrames) (n / k.segmentFrames) fun i hi => by
    have hpos : 0 < k.segmentFrames := Nat.pos_of_ne_zero fun hzero => by simp [hzero] at hi
    exact Nat.mul_lt_mul_of_pos_right (Nat.lt_succ_self i) hpos
  rw [Nat.zero_mul] at hwhole
  rw [cut_filled, List.map_append, List.map_map]
  refine hwhole.append ?_
  split
  · rename_i hlt
    exact ⟨rfl, hlt, rfl⟩
  · rename_i hge
    exact le_antisymm hle (not_lt.1 hge)

/-- Where the caller is told that all is well, both eyes have every frame that was submitted, and the
reports are the segments of the take, which tile it. -/
theorem finished_complete (ht : run (fun s a => step k s a) (init k) actions = some t)
    (hhonest : Along (fun s a => step k s a) (fun s a _ => Honest s a) (init k) actions)
    (hcaller : t.caller = .finished true) :
    (∀ side, (t.eyes side).written = (t.eyes side).pushed ∧ (t.eyes side).written.length = t.submitted) ∧
      t.ledger.reports.map (fun r => (r.index, r.start, r.stop)) =
        ((cut k .left t.submitted).filter Segment.filled).map (fun g => (g.index, g.startFrame, g.endFrame)) ∧
      Tiles 0 (t.ledger.reports.map fun r => (r.start, r.stop)) t.submitted := by
  have h := run_sound ht hhonest
  have hinv := h.inv
  have hhealthy := h.healthy (h.finished hcaller)
  have harrived := hhealthy.arrived
  rw [Arrived, hcaller] at harrived
  obtain ⟨-, -, hcloser, -⟩ := harrived
  have hcame : ∀ side, t.came side = ((cut k .left t.submitted).filter Segment.filled).length := by
    intro side
    have hsegments := hinv.closer side
    rw [hcloser, (hhealthy.ended hcloser).2, (h.written hcaller side).2.2] at hsegments
    rw [came, hcloser, cut_length, ← cut_length k side, ← hsegments, List.filter_filter]
    simp [Closer.through, Closer.segments, Bool.and_comm]
  have hcount := hinv.ledger.complete hinv.flushed hhealthy.whole hcame
  have hreports : t.ledger.reports.map (fun r => (r.index, r.start, r.stop)) =
      ((cut k .left t.submitted).filter Segment.filled).map fun g => (g.index, g.startFrame, g.endFrame) := by
    rw [hinv.ledger.reports, hcount]
    refine List.ext_getElem (by simp) fun i _ hi => ?_
    rw [List.length_map] at hi
    have hg : (t.eyes .left).segments[i]? = some ((cut k .left t.submitted).filter Segment.filled)[i] := by
      rw [(h.written hcaller .left).2.2]
      exact List.prefix_iff_getElem?.1 (cut_begins k .left t.submitted) i hi
    obtain ⟨m, hshape⟩ := (hinv.eye .left).shape
    obtain ⟨-, hindex, -⟩ := hshape.nth hg
    simp [span, hg, hindex]
  refine ⟨fun side => ⟨(h.written hcaller side).1, (h.written hcaller side).2.1⟩, hreports, ?_⟩
  have hspans := congrArg (List.map Prod.snd) hreports
  rw [List.map_map, List.map_map] at hspans
  have htiles := cut_tiles k .left t.submitted
  rw [show (fun g : Segment => (g.startFrame, g.endFrame)) =
    Prod.snd ∘ fun g => (g.index, g.startFrame, g.endFrame) from rfl, ← hspans] at htiles
  exact htiles

theorem finished_complete_sample : ∃ t, run (fun s a => step sampleConfig s a) (init sampleConfig) sampleRun = some t ∧
    (∀ side, (t.eyes side).written.length = t.submitted) ∧
      Tiles 0 (t.ledger.reports.map fun r => (r.start, r.stop)) t.submitted := by
  obtain ⟨t, ht, hcaller, -⟩ := sample_run
  obtain ⟨hwritten, -, htiles⟩ := finished_complete ht (by decide +kernel) hcaller
  exact ⟨t, ht, fun side => (hwritten side).2, htiles⟩

end Conductor.Stereo.Pipeline
