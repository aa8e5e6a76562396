import Conductor.Stereo.EyeLaw

/-! One step of the threads of an eye: what it leaves of the eye, of the count of the pending
segments, and of what holds as long as nothing has failed. -/

namespace Conductor.Stereo

open Wrap
open Work (opened popped)

/-- The segments that an eye holds of those that may be pending. -/
def Eye.pending (e : Eye) : ℕ :=
  e.current.toList.length + match e.writer with | .opening _ _ _ => 1 | _ => 0

theorem Eye.pending_eq {e : Eye} (h : ∀ index first held, e.writer ≠ .opening index first held) :
    e.pending = e.current.toList.length := by
  rw [Eye.pending]
  split
  · exact absurd ‹_› (h _ _ _)
  · rfl

/-- The segments of `n` frames; the last may be without one. -/
def cut (k : Config) (side : Side) (n : ℕ) : List Segment :=
  let m := n / k.segmentFrames
  (List.range m).map (full k side) ++ [⟨side, m, m * k.segmentFrames, n⟩]

/-- How many segments are full where the packets end. -/
theorem Shape.count {k : Config} {side : Side} {m ordinal : ℕ} {writable : Bool} {current : Option Segment}
    {segments : List Segment}
    (h : Shape k side .closing writable current ordinal segments m) : m = ordinal / k.segmentFrames := by
  rcases Nat.eq_zero_or_pos k.segmentFrames with hzero | hpos
  · rw [h.single hzero, hzero, Nat.div_zero]
  · obtain ⟨hle, hrolling⟩ := h.high hpos
    refine (Nat.div_eq_of_lt_le h.low (lt_of_le_of_ne hle fun heq => ?_)).symm
    obtain ⟨p, hphase⟩ := hrolling heq
    cases hphase

/-- What holds of an eye as long as nothing has failed. -/
structure Eye.Healthy (k : Config) (side : Side) (splitDone : Bool) (e : Eye) : Prop where
  writable : e.writer.fresh = false → e.writable = true
  last : e.writer = .ended → e.segments = cut k side e.ordinal
  drained : e.output ≠ .polling → splitDone = true ∧ e.fed ≤ e.encoded
  honest : e.encoded ≤ e.given
  closed : e.packets.closed = true → e.output = .ended
  empty : e.writer = .closing ∨ e.writer = .ended → e.packets.closed = true ∧ e.packets.packets = []

namespace Work

/-- The encoder answers no more packets than it was given pictures. -/
def Honest (w : Work) : Action → Prop
  | .outputPoll (.packet _ _) => w.eye.encoded < w.eye.given
  | _ => True

instance (w : Work) : DecidablePred w.Honest
  | .outputPoll encoded => match encoded with
    | .packet _ _ => inferInstanceAs (Decidable (w.eye.encoded < w.eye.given))
    | .none => isTrue trivial
  | .outputLeave | .writerReserve | .writerOpen _ | .writerPop | .writerWrite _ | .writerRoll |
    .writerRelease | .writerFinish =>
    isTrue trivial

/-- What a thread of an eye can rely on. -/
structure Ready (k : Config) (side : Side) (w : Work) : Prop where
  inv : w.eye.Inv k side
  bounded : w.pendingSegments ≤ maxPendingSegments
  enough : w.eye.pending ≤ w.pendingSegments
  fresh : w.closed = [] ∧ w.faulted = false

/-- What its step leaves. -/
structure Kept (k : Config) (side : Side) (honest : Prop) (w r : Work) : Prop where
  inv : r.eye.Inv k side
  segments : r.eye.segments = w.eye.segments ++ r.closed
  sides : ∀ g ∈ r.closed, g.side = side
  pending : r.pendingSegments + w.eye.pending = w.pendingSegments + r.eye.pending + r.closed.length
  bounded : r.pendingSegments ≤ maxPendingSegments
  faulted : r.faulted = false
  given : r.eye.given = w.eye.given ∧ r.eye.fed = w.eye.fed
  ended : w.eye.writer = .ended → r.eye.writer = .ended ∧ r.closed = []
  healthy : honest → r.failure = none → w.eye.Healthy k side w.splitDone → r.eye.Healthy k side w.splitDone

variable {k : Config} {side : Side} {w r : Work} {e : Eye} {g : Segment} {honest : Prop}

/-- A step that takes and gives up no segment. -/
theorem Kept.plain {failure : Option Failure} (h : w.Ready k side) (hinv : e.Inv k side)
    (hpending : e.pending = w.eye.pending)
    (hsegments : e.segments = w.eye.segments) (hgiven : e.given = w.eye.given ∧ e.fed = w.eye.fed)
    (hended : w.eye.writer = .ended → e.writer = .ended)
    (hhealthy : honest → failure = none → w.eye.Healthy k side w.splitDone → e.Healthy k side w.splitDone) :
    Kept k side honest w { w with eye := e, failure := failure } where
  inv := hinv
  segments := by simp [hsegments, h.fresh.1]
  sides := by simp [h.fresh.1]
  pending := by simp [hpending, h.fresh.1]
  bounded := h.bounded
  faulted := h.fresh.2
  given := hgiven
  ended hwriter := ⟨hended hwriter, h.fresh.1⟩
  healthy := hhealthy

/-- The same, of a writer with the same segment. -/
theorem Kept.phase {writer : Writer} {writable : Bool} {bytes ordinal : ℕ} {written : List Packet}
    {failure : Option Failure} (h : w.Ready k side)
    (hinv : Eye.Inv k side { w.eye with
      writer := writer, writable := writable, ordinal := ordinal, bytes := bytes, written := written })
    (hbefore : w.eye.pending = w.eye.current.toList.length)
    (hopening : ∀ index first held, writer ≠ .opening index first held)
    (hnext : writer ≠ .closing ∧ writer ≠ .ended) (hended : w.eye.writer ≠ .ended)
    (hwritable : failure = none → writable = true) :
    Kept k side honest w { w with
      eye := { w.eye with
        writer := writer, writable := writable, ordinal := ordinal, bytes := bytes, written := written }
      failure := failure } := by
  refine .plain h hinv ?_ rfl ⟨rfl, rfl⟩ (fun hend => absurd hend hended) fun _ hgood hw => ?_
  · rw [hbefore, Eye.pending_eq hopening]
  · exact { hw with
      writable := fun _ => hwritable hgood
      last := fun hend => absurd hend hnext.2
      empty := fun hend => absurd hend (not_or.2 hnext) }

/-! ### The output thread -/

theorem outputPoll_kept {encoded : Encoded} (h : w.Ready k side) (hr : w.outputPoll k side encoded = some r) :
    Kept k side (w.Honest (.outputPoll encoded)) w r := by
  unfold outputPoll at hr
  dsimp only at hr
  obtain ⟨houtput, hr⟩ := Option.ite_none_right_eq_some.1 hr
  have hopen : w.eye.Healthy k side w.splitDone → w.eye.packets.closed ≠ true := fun hw hclosed => by
    have hend := hw.closed hclosed
    rw [houtput] at hend
    cases hend
  cases encoded with
  | none =>
    dsimp only at hr
    split_ifs at hr with hdone hfed
    · cases hr
      exact .plain h h.inv rfl rfl ⟨rfl, rfl⟩ id fun _ _ hw => hw
    · cases hr
      refine .plain h h.inv.poll rfl rfl ⟨rfl, rfl⟩ id fun _ _ hw => ?_
      exact { hw with
        drained := fun _ => ⟨by simpa using hdone, hfed⟩
        closed := fun hclosed => absurd hclosed (hopen hw) }
    · cases hr
      exact .plain h h.inv.poll rfl rfl ⟨rfl, rfl⟩ id fun _ hgood _ => by cases hgood
    · cases hr
      exact .plain h h.inv.poll rfl rfl ⟨rfl, rfl⟩ id fun _ _ hw => { hw with }
  | packet data allocated =>
    obtain ⟨ok, q, hq⟩ : ∃ ok q, (if 0 < Packet.size ⟨data, if k.hevc then h265HasIdr data else h264HasIdr data⟩ then
        w.eye.packets.push ⟨data, if k.hevc then h265HasIdr data else h264HasIdr data⟩ allocated
      else (false, w.eye.packets)) = (ok, q) := ⟨_, _, rfl⟩
    dsimp only at hr
    rw [hq] at hr
    rcases ite_eq_iff.1 hq with ⟨-, hpush⟩ | ⟨-, hpush⟩
    · obtain ⟨-, -, hlatched⟩ := PacketQueue.push_kept hpush
      cases ok with
      | true =>
        cases hr
        refine .plain h (h.inv.push hpush) rfl rfl ⟨rfl, rfl⟩ id fun hhonest _ hw => ?_
        exact { hw with
          drained := fun hne => absurd houtput hne
          honest := hhonest
          closed := fun hclosed => absurd (hlatched.symm.trans hclosed) (hopen hw)
          empty := fun hwriter => absurd (hw.empty hwriter).1 (hopen hw) }
      | false =>
        cases hr
        exact .plain h (h.inv.reject hpush) rfl rfl ⟨rfl, rfl⟩ id fun _ hgood _ => by cases hgood
    · cases hpush
      cases hr
      exact .plain h h.inv.poll rfl rfl ⟨rfl, rfl⟩ id fun _ hgood _ => by cases hgood

theorem outputLeave_kept (h : w.Ready k side) (hr : w.outputLeave = some r) : Kept k side honest w r := by
  unfold outputLeave at hr
  obtain ⟨houtput, hr⟩ := Option.ite_none_right_eq_some.1 hr
  cases hr
  refine .plain h h.inv.close rfl rfl ⟨rfl, rfl⟩ id fun _ _ hw => ?_
  exact { hw with
    drained := fun _ => hw.drained (by rw [houtput]; simp)
    closed := fun _ => rfl
    empty := fun hwriter => ⟨rfl, (hw.empty hwriter).2⟩ }

/-! ### The writer thread -/

theorem opened_next (held : Option Packet) :
    (∀ index first before, opened held ≠ .opening index first before) ∧ opened held ≠ .closing ∧
      opened held ≠ .ended := by
  cases held <;> simp [opened]

/-- A segment that is given up leaves no count below zero. -/
theorem sub_pending {n : ℕ} (hpos : 0 < n) (hbounded : n ≤ maxPendingSegments) :
    sub 32 n 1 + 1 = n ∧ sub 32 n 1 ≤ maxPendingSegments := by
  have hword : n < 2 ^ 32 := by
    unfold maxPendingSegments at hbounded
    omega
  rw [sub_of_le hpos hword]
  omega

theorem writerReserve_kept (h : w.Ready k side) (hr : w.writerReserve = some r) : Kept k side honest w r := by
  unfold writerReserve at hr
  split at hr
  · rename_i index first held hwriter
    have hpending := Eye.pending_eq (e := w.eye) (by simp [hwriter])
    obtain ⟨hopening, hnext⟩ := opened_next held
    split_ifs at hr with hlimit
    · cases hr
      exact .phase h (h.inv.unopened (.inl hwriter)) hpending hopening hnext (by simp [hwriter])
        fun hgood => by cases hgood
    · cases hr
      have hadd : add 32 w.pendingSegments 1 = w.pendingSegments + 1 :=
        add_of_lt (by unfold maxPendingSegments at hlimit; omega)
      refine ⟨h.inv.reserve hwriter, by simp [h.fresh.1], by simp [h.fresh.1], ?_, ?_, h.fresh.2,
        ⟨rfl, rfl⟩, by simp [hwriter], fun _ _ hw => ?_⟩
      · rw [hadd, hpending, Eye.pending, h.fresh.1]
        exact Nat.add_right_comm _ _ _
      · rw [hadd]
        exact not_le.1 hlimit
      · exact { hw with
          writable := fun hfresh => by cases hfresh
          last := fun hend => by cases hend
          empty := fun hend => by simp at hend }
  · cases hr

theorem writerOpen_kept {ok : Bool} (h : w.Ready k side) (hr : w.writerOpen side ok = some r) :
    Kept k side honest w r := by
  unfold writerOpen at hr
  split at hr
  · rename_i index first held hwriter
    obtain ⟨m, hshape⟩ := h.inv.shape
    obtain ⟨-, -, -, hnone⟩ := hshape.target index first (by rw [hwriter]; rfl)
    obtain ⟨hopening, hnext⟩ := opened_next held
    have hpending : w.eye.pending = 1 := by
      rw [Eye.pending, hwriter, hnone]
      rfl
    split_ifs at hr
    · cases hr
      refine .plain h (h.inv.open_ hwriter) ?_ rfl ⟨rfl, rfl⟩ (by simp [hwriter]) fun _ _ hw => ?_
      · rw [hpending, Eye.pending_eq hopening]
        rfl
      · exact { hw with
          writable := fun _ => rfl
          last := fun hend => absurd hend hnext.2
          empty := fun hend => absurd hend (not_or.2 hnext) }
    · cases hr
      obtain ⟨hsub, hbounded⟩ := sub_pending ((hpending ▸ Nat.one_pos).trans_le h.enough) h.bounded
      refine ⟨h.inv.unopened (.inr hwriter), by simp [h.fresh.1], by simp [h.fresh.1], ?_, hbounded,
        h.fresh.2, ⟨rfl, rfl⟩, by simp [hwriter], fun _ hgood _ => by cases hgood⟩
      rw [hpending, hsub, Eye.pending_eq hopening, h.fresh.1, hnone]
      rfl
  · cases hr

theorem writerPop_kept (h : w.Ready k side) (hr : w.writerPop = some r) : Kept k side honest w r := by
  unfold writerPop at hr
  obtain ⟨hwriter, hr⟩ := Option.ite_none_right_eq_some.1 hr
  obtain ⟨⟨answer, q⟩, hpop, rfl⟩ := Option.map_eq_some_iff.1 hr
  obtain ⟨-, -, -, -, hclosed⟩ := PacketQueue.Accounts.pop (by simpa [hwriter, Writer.held] using h.inv.accounts) hpop
  refine .plain h (h.inv.pop hwriter hpop) ?_ rfl ⟨rfl, rfl⟩ (by simp [hwriter]) fun _ _ hw => ?_
  · rw [Eye.pending, Eye.pending, hwriter]
    cases answer <;> rfl
  · have hwritable := hw.writable (by rw [hwriter]; rfl)
    cases answer with
    | none =>
      obtain ⟨hend, hpackets⟩ := PacketQueue.pop_none hpop
      exact { hw with
        writable := fun _ => hwritable
        last := fun hend => by cases hend
        closed := fun _ => hw.closed (hclosed ▸ hend)
        empty := fun _ => ⟨hend, hpackets⟩ }
    | some p =>
      exact { hw with
        writable := fun _ => hwritable
        last := fun hend => by cases hend
        closed := fun hend => hw.closed (hclosed ▸ hend)
        empty := fun hend => by simp [popped] at hend }

theorem writerWrite_kept {ok : Bool} (h : w.Ready k side) (hr : w.writerWrite k side ok = some r) :
    Kept k side honest w r := by
  unfold writerWrite at hr
  dsimp only at hr
  split at hr
  · rename_i p hwriter
    have hpending := Eye.pending_eq (e := w.eye) (by simp [hwriter])
    have hended : w.eye.writer ≠ .ended := by simp [hwriter]
    rw [Option.some.injEq] at hr
    subst hr
    split
    · rename_i hwritable
      have hskip := h.inv.skip hwriter
      rw [← show w.eye.writable = false by simpa using hwritable] at hskip
      exact .plain h hskip (by rw [hpending]; rfl) rfl ⟨rfl, rfl⟩ (fun hend => absurd hend hended) fun _ _ hw =>
        absurd (hw.writable (by rw [hwriter]; rfl)) (by simpa using hwritable)
    · rename_i hwritable
      have hyes : w.eye.writable = true := by simpa using hwritable
      obtain ⟨m, hshape⟩ := h.inv.shape
      have hcurrent := hshape.ready hyes (by rw [hwriter]; rfl) hended
      split
      · rename_i hnone
        rw [hnone] at hcurrent
        cases hcurrent
      · split
        · exact .phase h (h.inv.skip hwriter) hpending (by simp) (by simp) hended (by simp)
        · split
          · exact .phase h (h.inv.skip hwriter) hpending (by simp) (by simp) hended (by simp)
          · refine .phase h (h.inv.write hwriter hyes) hpending ?_ ?_ hended fun _ => hyes
            · split <;> simp
            · split <;> simp
  · cases hr

/-- What `segment_close` leaves. -/
theorem segmentClose_eq (hcurrent : w.eye.current = some g) :
    w.segmentClose = { w with
      eye := { w.eye with
        current := none, segments := w.eye.segments ++ [{ g with endFrame := w.eye.ordinal }] }
      closed := w.closed ++ [{ g with endFrame := w.eye.ordinal }] } := by
  unfold segmentClose
  rw [hcurrent]

/-- A segment that is closed goes to the closer. -/
theorem Kept.close {writer : Writer} (h : w.Ready k side) (hcurrent : w.eye.current = some g) (hside : g.side = side)
    (hinv : Eye.Inv k side { w.eye with
      current := none, segments := w.eye.segments ++ [{ g with endFrame := w.eye.ordinal }], writer := writer })
    (hbefore : ∀ index first held, w.eye.writer ≠ .opening index first held)
    (hafter : ∀ index first held, writer ≠ .opening index first held) (hended : w.eye.writer ≠ .ended)
    (hhealthy : w.eye.Healthy k side w.splitDone → Eye.Healthy k side w.splitDone { w.eye with
      current := none, segments := w.eye.segments ++ [{ g with endFrame := w.eye.ordinal }], writer := writer }) :
    Kept k side honest w { w with
      eye := { w.eye with
        current := none, segments := w.eye.segments ++ [{ g with endFrame := w.eye.ordinal }], writer := writer }
      closed := w.closed ++ [{ g with endFrame := w.eye.ordinal }] } where
  inv := hinv
  segments := by simp [h.fresh.1]
  sides := by simp [h.fresh.1, hside]
  pending := by
    rw [Eye.pending_eq hbefore, Eye.pending_eq hafter, hcurrent, h.fresh.1]
    rfl
  bounded := h.bounded
  faulted := h.fresh.2
  given := ⟨rfl, rfl⟩
  ended hend := absurd hend hended
  healthy _ _ hw := hhealthy hw

theorem writerRoll_kept (h : w.Ready k side) (hr : w.writerRoll k = some r) : Kept k side honest w r := by
  unfold writerRoll at hr
  split at hr
  · rename_i p hwriter
    obtain ⟨m, hshape⟩ := h.inv.shape
    obtain ⟨hwritable, -⟩ := hshape.rolling p hwriter
    have hcurrent := hshape.ready hwritable (by rw [hwriter]; rfl) (by simp [hwriter])
    obtain ⟨segment, hsegment⟩ := Option.isSome_iff_exists.1 hcurrent
    obtain ⟨hside, -⟩ := hshape.opens segment hsegment
    rw [segmentClose_eq hsegment] at hr
    cases hr
    refine .close h hsegment hside (h.inv.roll hwriter hsegment) (by simp [hwriter]) (by simp)
      (by simp [hwriter]) fun hw => ?_
    exact { hw with
      writable := fun _ => hwritable
      last := fun hend => by cases hend
      empty := fun hend => by simp at hend }
  · cases hr

theorem writerRelease_kept (h : w.Ready k side) (hr : w.writerRelease = some r) : Kept k side honest w r := by
  unfold writerRelease at hr
  split at hr
  · rename_i p hwriter
    cases hr
    refine .plain h (h.inv.release hwriter) ?_ rfl ⟨rfl, rfl⟩ (by simp [hwriter]) fun _ _ hw => ?_
    · rw [Eye.pending, Eye.pending, hwriter]
    · have hwritable := hw.writable (by rw [hwriter]; rfl)
      exact { hw with
        writable := fun _ => hwritable
        last := fun hend => by cases hend
        empty := fun hend => by simp at hend }
  · cases hr

theorem writerFinish_kept (h : w.Ready k side) (hr : w.writerFinish = some r) : Kept k side honest w r := by
  unfold writerFinish at hr
  obtain ⟨hwriter, hr⟩ := Option.ite_none_right_eq_some.1 hr
  rw [Option.some.injEq] at hr
  subst hr
  have hpending := Eye.pending_eq (e := w.eye) (by simp [hwriter])
  obtain ⟨m, hshape⟩ := h.inv.shape
  split
  · rename_i hwritable
    have hcurrent := hshape.ready hwritable (by rw [hwriter]; rfl) (by simp [hwriter])
    obtain ⟨segment, hsegment⟩ := Option.isSome_iff_exists.1 hcurrent
    obtain ⟨hside, hindex, hstart⟩ := hshape.opens segment hsegment
    have hclosed := hshape.closed.resolve_right (by simp [hwriter])
    rw [hwriter] at hshape
    rw [segmentClose_eq hsegment]
    refine .close h hsegment hside (h.inv.finish hwriter hsegment) (by simp [hwriter]) (by simp)
      (by simp [hwriter]) fun hw => ?_
    exact { hw with
      writable := fun _ => hwritable
      last := fun _ => by rw [cut, ← hshape.count, hclosed, ← hside, ← hstart, ← hindex]
      empty := fun _ => hw.empty (.inl hwriter) }
  · rename_i hwritable
    have hno : w.eye.writable = false := by simpa using hwritable
    have hleave := h.inv.leave hwriter hno
    have hsick : ¬w.eye.Healthy k side w.splitDone := fun hw => hwritable (hw.writable (by rw [hwriter]; rfl))
    split
    · rename_i hcurrent
      obtain ⟨segment, hsegment⟩ := Option.isSome_iff_exists.1 hcurrent
      replace hpending : w.eye.pending = 1 := by
        rw [hpending, hsegment]
        rfl
      obtain ⟨hsub, hbounded⟩ := sub_pending ((hpending ▸ Nat.one_pos).trans_le h.enough) h.bounded
      refine ⟨hleave, by simp [h.fresh.1], by simp [h.fresh.1], ?_, hbounded, h.fresh.2, ⟨rfl, rfl⟩, by simp [hwriter],
        fun _ _ hw => absurd hw hsick⟩
      rw [hpending, h.fresh.1]
      exact hsub
    · rename_i hcurrent
      have hnone : w.eye.current = none := by simpa using hcurrent
      rw [← hnone] at hleave
      exact .plain h hleave (by rw [hpending]; rfl) rfl ⟨rfl, rfl⟩ (by simp [hwriter]) fun _ _ hw => absurd hw hsick

theorem act_kept {a : Action} (h : w.Ready k side) (hr : w.act k side a = some r) : Kept k side (w.Honest a) w r := by
  cases a with
  | outputPoll encoded => exact outputPoll_kept h hr
  | outputLeave => exact outputLeave_kept h hr
  | writerReserve => exact writerReserve_kept h hr
  | writerOpen ok => exact writerOpen_kept h hr
  | writerPop => exact writerPop_kept h hr
  | writerWrite ok => exact writerWrite_kept h hr
  | writerRoll => exact writerRoll_kept h hr
  | writerRelease => exact writerRelease_kept h hr
  | writerFinish => exact writerFinish_kept h hr

/-- The threads of an eye that have ended. -/
theorem ended_still {a : Action} (houtput : w.eye.output = .ended) (hwriter : w.eye.writer = .ended) :
    w.act k side a = none := by
  cases a
  all_goals
    simp [act, outputPoll, outputLeave, writerReserve, writerOpen, writerPop, writerWrite, writerRoll,
      writerRelease, writerFinish, houtput, hwriter]

end Work

end Conductor.Stereo
