import Conductor.Lib.Tiling
import Conductor.Stereo.LedgerLaw
import Conductor.Stereo.WorkLaw

/-! The whole pipeline: its segments pass from the eyes to the closer and to the ledger, and their
count is the one that bounds them. -/

namespace Conductor.Stereo

open Runs Wrap

/-! ### Segments on their way -/

/-- The segment that the closer is at. -/
def Closer.segments : Closer → List Segment
  | .sealing segment | .releasing segment => [segment]
  | _ => []

/-- It was sealed, as far as it could be. -/
def Closer.through : Closer → List Segment
  | .releasing segment => [segment]
  | _ => []

@[simp] theorem Closer.sealing_through (g : Segment) : (Closer.sealing g).through = [] := rfl

@[simp] theorem Closer.releasing_through (g : Segment) : (Closer.releasing g).through = [g] := rfl

def Segment.filled (g : Segment) : Bool := decide (g.startFrame < g.endFrame)

namespace Pipeline

variable {k : Config} {s t : Pipeline} {side : Side} {e : Eye} {g : Segment}

/-- The bounds of the segments of an eye. -/
def span (s : Pipeline) (side : Side) (i : ℕ) : ℕ × ℕ :=
  match (s.eyes side).segments[i]? with
  | some g => (g.startFrame, g.endFrame)
  | none => (0, 0)

/-- The segments with frames that the closer has been through. -/
def came (s : Pipeline) (side : Side) : ℕ :=
  ((s.settled ++ s.closer.through).filter fun g => decide (g.side = side) && g.filled).length

structure Inv (k : Config) (s : Pipeline) : Prop where
  eye : ∀ side, (s.eyes side).Inv k side
  closer : ∀ side, (s.settled ++ s.closer.segments ++ s.closerQueue).filter (fun g => g.side = side) =
    (s.eyes side).segments
  ledger : s.ledger.Inv s.span s.came
  flushed : s.ledger.Flushed
  pending : s.pendingSegments =
    (s.eyes .left).pending + (s.eyes .right).pending + s.closerQueue.length + s.closer.segments.length
  bounded : s.pendingSegments ≤ maxPendingSegments
  faulted : s.faulted = false

theorem init_inv (k : Config) : Inv k (init k) := by
  refine ⟨fun side => Eye.init_inv k side, fun _ => rfl, ?_, ?_, rfl, by simp [init, maxPendingSegments], rfl⟩
  · exact Ledger.init_inv
  · intro pair hpair
    cases hpair

/-! ### What a step leaves -/

/-- The bounds of the segments that came are all that the ledger has of them. -/
theorem ledger_of_span {l : Ledger} {next : Side → ℕ} {f f' : Side → ℕ → ℕ × ℕ} (h : l.Inv f next)
    (hsame : ∀ side i, i < next side → f' side i = f side i) : l.Inv f' next := by
  refine ⟨h.sorted, h.pending, h.later, fun pair hpair side hfile => ?_, h.reached, ?_, fun i hi => ?_⟩
  · obtain ⟨hlt, hspan⟩ := h.files pair hpair side hfile
    exact ⟨hlt, hspan.trans (hsame side pair.index hlt).symm⟩
  · rw [h.reports]
    refine List.map_congr_left fun i hi => ?_
    rw [hsame .left i ((List.mem_range.1 hi).trans_le (h.reached .left))]
  · rw [hsame .left i (hi.trans_le (h.reached .left)), hsame .right i (hi.trans_le (h.reached .right))]
    exact h.agreed i hi

theorem came_eq (hsettled : t.settled = s.settled) (hthrough : t.closer.through = s.closer.through) :
    t.came = s.came := by
  funext side
  rw [came, came, hsettled, hthrough]

theorem through_sublist (c : Closer) : c.through.Sublist c.segments := by
  cases c
  all_goals
    simp [Closer.through, Closer.segments]

/-- What came of a side was all with frames. -/
theorem Inv.came_filled (h : Inv k s) (side : Side) :
    s.came side ≤ ((s.eyes side).segments.filter Segment.filled).length := by
  have hthrough : (s.settled ++ s.closer.through).Sublist (s.settled ++ s.closer.segments ++ s.closerQueue) :=
    ((List.Sublist.refl _).append (through_sublist _)).trans (List.sublist_append_left _ _)
  rw [← h.closer side, List.filter_filter]
  refine le_trans (le_of_eq ?_) (hthrough.filter _).length_le
  simp only [came, Bool.and_comm]

theorem Inv.came_le (h : Inv k s) (side : Side) : s.came side ≤ (s.eyes side).segments.length :=
  (h.came_filled side).trans (List.length_filter_le _ _)

theorem span_eq (h : t.eyes = s.eyes) : t.span = s.span := by
  funext side i
  rw [span, span, h]

/-- What is outside the eyes, the queue of the closer and the count, and stays. -/
structure Keeps (s t : Pipeline) : Prop where
  settled : t.settled = s.settled
  closer : t.closer = s.closer
  ledger : t.ledger = s.ledger

/-- A step of one eye, which may bring segments to the closer. -/
theorem Inv.update {new : List Segment} (h : Inv k s) (hkeeps : Keeps s t)
    (heyes : t.eyes = Function.update s.eyes side e)
    (he : e.Inv k side) (hqueue : t.closerQueue = s.closerQueue ++ new)
    (hsegments : e.segments = (s.eyes side).segments ++ new)
    (hsides : ∀ g ∈ new, g.side = side)
    (hpending : t.pendingSegments + (s.eyes side).pending = s.pendingSegments + e.pending + new.length)
    (hbounded : t.pendingSegments ≤ maxPendingSegments) (hfaulted : t.faulted = false) : Inv k t := by
  obtain ⟨hsettled, hcloser, hledger⟩ := hkeeps
  have hself : t.eyes side = e := by rw [heyes, Function.update_self]
  have hothers : ∀ other, other ≠ side → t.eyes other = s.eyes other := fun other hother => by
    rw [heyes, Function.update_of_ne hother]
  refine ⟨?_, fun other => ?_, ?_, by rw [hledger]; exact h.flushed, ?_, hbounded, hfaulted⟩
  · rw [heyes]
    exact (Function.forall_update_iff s.eyes (p := fun side e => Eye.Inv k side e)).2 ⟨he, fun other _ => h.eye other⟩
  · rw [hsettled, hcloser, hqueue, ← List.append_assoc, List.filter_append, h.closer]
    by_cases hother : other = side
    · rw [hother, hself, hsegments, List.filter_eq_self.2 fun g hg => decide_eq_true (hsides g hg)]
    · have hnone : new.filter (fun g => decide (g.side = other)) = [] := List.filter_eq_nil_iff.2 fun g hg heq =>
        hother ((of_decide_eq_true heq).symm.trans (hsides g hg))
      rw [hothers other hother, hnone, List.append_nil]
  · rw [came_eq hsettled (by rw [hcloser]), hledger]
    refine ledger_of_span h.ledger fun other i hi => ?_
    by_cases hother : other = side
    · rw [hother] at hi ⊢
      rw [span, span, hself, hsegments, List.getElem?_append_left (hi.trans_le (h.came_le side))]
    · rw [span, span, hothers other hother]
  · have hold := h.pending
    rw [hcloser, hqueue, List.length_append]
    cases side
    · rw [hself, hothers .right (by simp)]
      omega
    · rw [hself, hothers .left (by simp)]
      omega

/-- A step of the caller or the splitter at one eye. -/
theorem Inv.poke (h : Inv k s) (hkeeps : Keeps s t) (heyes : t.eyes = Function.update s.eyes side e)
    (hqueue : t.closerQueue = s.closerQueue) (hcount : t.pendingSegments = s.pendingSegments)
    (hfaulted : t.faulted = s.faulted)
    (he : e.Inv k side) (hsegments : e.segments = (s.eyes side).segments)
    (hpending : e.pending = (s.eyes side).pending) : Inv k t :=
  h.update hkeeps heyes he (hqueue.trans (List.append_nil _).symm) (hsegments.trans (List.append_nil _).symm) (by simp)
    (by rw [hcount, hpending]; rfl) (by rw [hcount]; exact h.bounded) (hfaulted.trans h.faulted)

/-- A step outside the eyes and the closer. -/
theorem Inv.same (h : Inv k s) (hkeeps : Keeps s t) (heyes : t.eyes = s.eyes) (hqueue : t.closerQueue = s.closerQueue)
    (hcount : t.pendingSegments = s.pendingSegments) (hfaulted : t.faulted = s.faulted) : Inv k t :=
  h.poke hkeeps (heyes.trans (Function.update_eq_self Side.left _).symm) hqueue hcount hfaulted (h.eye .left) rfl rfl

theorem Inv.ready (h : Inv k s) (side : Side) : (s.work side).Ready k side := by
  refine ⟨h.eye side, h.bounded, ?_, rfl, rfl⟩
  have hpending := h.pending
  cases side
  all_goals
    simp only [work]
    omega

/-- A step of the threads of an eye. -/
theorem settle_inv {a : Work.Action} {w : Work} (h : Inv k s) (hw : (s.work side).act k side a = some w) :
    Inv k (s.settle side w) := by
  have hkept := Work.act_kept (h.ready side) hw
  exact h.update ⟨rfl, rfl, rfl⟩ rfl hkept.inv rfl hkept.segments hkept.sides hkept.pending hkept.bounded
    (by simp [settle, setEye, h.faulted, hkept.faulted])

/-! ### The closer -/

/-- The segment that is sealed next is the first of its side that did not come. -/
theorem Inv.sealing (h : Inv k s) (hcloser : s.closer = .sealing g) :
    (s.eyes g.side).segments[g.index]? = some g ∧ s.came g.side = g.index := by
  have hsegments := h.closer g.side
  rw [hcloser] at hsegments
  simp only [Closer.segments, List.filter_append, List.filter_cons, List.filter_nil, decide_true, if_true] at hsegments
  obtain ⟨m, hshape⟩ := (h.eye g.side).shape
  have hplace : (s.eyes g.side).segments[(s.settled.filter fun x => decide (x.side = g.side)).length]? = some g := by
    rw [← hsegments]
    simp
  obtain ⟨-, hindex, -⟩ := hshape.nth hplace
  refine ⟨hindex ▸ hplace, ?_⟩
  have hfilled : ∀ x ∈ s.settled.filter fun x => decide (x.side = g.side), x.filled = true := by
    intro x hx
    obtain ⟨i, hi, rfl⟩ := List.mem_iff_getElem.1 hx
    have hnth : (s.eyes g.side).segments[i]? = some (s.settled.filter fun x => decide (x.side = g.side))[i] := by
      rw [← hsegments, List.append_assoc, List.getElem?_append_left hi, List.getElem?_eq_getElem hi]
    have hlt : i + 1 < (s.eyes g.side).segments.length := by
      rw [← hsegments]
      simp only [List.length_append, List.length_cons, List.length_nil]
      omega
    exact decide_eq_true ((hshape.nth hnth).2.2.2.1 hlt).2
  have hsame : s.settled.filter (fun x => decide (x.side = g.side) && x.filled) =
    s.settled.filter fun x => decide (x.side = g.side) := by
    refine List.filter_congr fun x hx => ?_
    cases hside : decide (x.side = g.side) with
    | false => rfl
    | true => exact hfilled x (List.mem_filter.2 ⟨hx, hside⟩)
  rw [came, hcloser, Closer.sealing_through, List.append_nil, hsame, hindex]

theorem Inv.sealing_filled (h : Inv k s) (hcloser : s.closer = .sealing g)
    (hframes : g.endFrame ≠ g.startFrame) : g.filled = true := by
  obtain ⟨hplace, -⟩ := h.sealing hcloser
  obtain ⟨m, hshape⟩ := (h.eye g.side).shape
  have hle := (hshape.nth hplace).2.2.2.2.2
  exact decide_eq_true (lt_of_le_of_ne hle hframes.symm)

/-- A step of the closer that brings nothing to the ledger. -/
theorem Inv.pass (h : Inv k s) (heyes : t.eyes = s.eyes) (hledger : t.ledger = s.ledger)
    (hfaulted : t.faulted = s.faulted)
    (hlist : t.settled ++ t.closer.segments ++ t.closerQueue = s.settled ++ s.closer.segments ++ s.closerQueue)
    (hthrough : t.settled ++ t.closer.through = s.settled ++ s.closer.through)
    (hpending : t.pendingSegments + s.closerQueue.length + s.closer.segments.length =
      s.pendingSegments + t.closerQueue.length + t.closer.segments.length)
    (hbounded : t.pendingSegments ≤ maxPendingSegments) : Inv k t := by
  have hcame : t.came = s.came := by
    funext side
    rw [came, came, hthrough]
  refine ⟨fun side => ?_, fun side => ?_, ?_, ?_, ?_, hbounded, hfaulted.trans h.faulted⟩
  · rw [heyes]
    exact h.eye side
  · rw [hlist, heyes]
    exact h.closer side
  · rw [span_eq heyes, hcame, hledger]
    exact h.ledger
  · rw [hledger]
    exact h.flushed
  · have hold := h.pending
    rw [heyes]
    omega

/-- What came with a segment that the closer is through with. -/
theorem came_through (hsettled : t.settled = s.settled) (hcloser : s.closer = .sealing g)
    (hnext : t.closer = .releasing g) :
    t.came = if g.filled then Ledger.bump s.came g.side (s.came g.side) else s.came := by
  funext side
  have hstay : s.came side = (s.settled.filter fun x => decide (x.side = side) && x.filled).length := by
    rw [came, hcloser, Closer.sealing_through, List.append_nil]
  have hcame : t.came side = s.came side + if decide (g.side = side) && g.filled then 1 else 0 := by
    rw [came, hsettled, hnext, Closer.releasing_through, List.filter_append, List.length_append, hstay]
    congr 1
    cases hg : decide (g.side = side) && g.filled <;> simp [hg]
  rw [hcame]
  cases hfilled : g.filled with
  | false => simp
  | true =>
    by_cases hside : g.side = side
    · subst hside
      simp
    · simp [hside, Ledger.bump, Function.update_of_ne (Ne.symm hside)]

/-- A segment that was sealed, or could not be, with what the ledger says of it. -/
theorem Inv.seal (h : Inv k s) (hcloser : s.closer = .sealing g) (hnext : t.closer = .releasing g)
    (heyes : t.eyes = s.eyes)
    (hsettled : t.settled = s.settled) (hqueue : t.closerQueue = s.closerQueue)
    (hcount : t.pendingSegments = s.pendingSegments)
    (hfaulted : t.faulted = s.faulted)
    (hledger : t.ledger = s.ledger ∨ g.filled = true ∧ ∃ file allocated,
      t.ledger = (s.ledger.record g.side g.index g.startFrame g.endFrame file allocated).2) : Inv k t := by
  obtain ⟨hplace, hcame⟩ := h.sealing hcloser
  have hspan : s.span g.side g.index = (g.startFrame, g.endFrame) := by rw [span, hplace]
  have hspans := span_eq heyes
  have hthrough := came_through hsettled hcloser hnext
  have hkept : t.ledger.Inv t.span t.came ∧ t.ledger.Flushed := by
    rw [hspans, hthrough]
    rcases hledger with hledger | ⟨hfilled, file, allocated, hledger⟩
    · rw [hledger]
      refine ⟨h.ledger.mono fun side => ?_, h.flushed⟩
      split
      · exact Ledger.le_bump (Nat.le_refl _) side
      · exact Nat.le_refl _
    · rw [if_pos hfilled]
      obtain ⟨hinv, hflushed, -⟩ := Ledger.record_inv h.ledger h.flushed (Nat.le_of_eq hcame) hspan
        (Prod.mk.eta (p := s.ledger.record g.side g.index g.startFrame g.endFrame file allocated)).symm
      rw [hledger, hcame]
      exact ⟨hinv, hflushed⟩
  refine ⟨fun side => ?_, fun side => ?_, hkept.1, hkept.2, ?_, by rw [hcount]; exact h.bounded,
    hfaulted.trans h.faulted⟩
  · rw [heyes]
    exact h.eye side
  · rw [hsettled, hnext, hqueue, heyes, ← h.closer side, hcloser]
    rfl
  · rw [hcount, heyes, hqueue, hnext, h.pending, hcloser]
    rfl

/-! ### The actions -/

section Actions

theorem startThread_inv {ok : Bool} (h : Inv k s) (ht : s.startThread ok = some t) : Inv k t := by
  unfold startThread at ht
  obtain ⟨-, ht⟩ := Option.ite_none_right_eq_some.1 ht
  split at ht <;> cases ht <;> exact h.same ⟨rfl, rfl, rfl⟩ rfl rfl rfl rfl

theorem submit_inv {input : Input} (h : Inv k s) (ht : s.submit input = some t) : Inv k t := by
  unfold submit at ht
  dsimp only at ht
  obtain ⟨-, ht⟩ := Option.ite_none_right_eq_some.1 ht
  split_ifs at ht
  · cases ht
    exact h.same ⟨rfl, rfl, rfl⟩ rfl rfl rfl rfl
  · cases input <;> cases ht <;> exact h.same ⟨rfl, rfl, rfl⟩ rfl rfl rfl rfl

theorem advance_inv (h : Inv k s) (ht : s.advance = some t) : Inv k t := by
  unfold advance at ht
  split at ht
  case h_3 =>
    split at ht
    · cases ht
      exact h.same ⟨rfl, rfl, rfl⟩ rfl rfl rfl rfl
    · obtain ⟨-, ht⟩ := Option.ite_none_right_eq_some.1 ht
      cases ht
      exact h.same ⟨rfl, rfl, rfl⟩ rfl rfl rfl rfl
  case h_4 =>
    obtain ⟨-, ht⟩ := Option.ite_none_right_eq_some.1 ht
    cases ht
    exact h.poke ⟨rfl, rfl, rfl⟩ rfl rfl rfl rfl (h.eye _).close rfl rfl
  case h_5 | h_7 =>
    obtain ⟨-, ht⟩ := Option.ite_none_right_eq_some.1 ht
    cases ht
    exact h.same ⟨rfl, rfl, rfl⟩ rfl rfl rfl rfl
  case h_6 =>
    split at ht <;> cases ht <;> exact h.same ⟨rfl, rfl, rfl⟩ rfl rfl rfl rfl
  case h_8 | h_9 => cases ht
  all_goals
    cases ht
    exact h.same ⟨rfl, rfl, rfl⟩ rfl rfl rfl rfl

theorem splitPoll_inv {picture : Picture} (h : Inv k s) (ht : s.splitPoll k picture = some t) : Inv k t := by
  unfold splitPoll at ht
  obtain ⟨-, ht⟩ := Option.ite_none_right_eq_some.1 ht
  cases picture with
  | none =>
    dsimp only at ht
    split_ifs at ht <;> cases ht <;> exact h.same ⟨rfl, rfl, rfl⟩ rfl rfl rfl rfl
  | invalid =>
    cases ht
    exact h.same ⟨rfl, rfl, rfl⟩ rfl rfl rfl rfl
  | geometry width height =>
    dsimp only at ht
    split_ifs at ht <;> cases ht <;> exact h.same ⟨rfl, rfl, rfl⟩ rfl rfl rfl rfl

theorem splitFeed_inv {feed : Feed} (h : Inv k s) (ht : s.splitFeed feed = some t) : Inv k t := by
  unfold splitFeed at ht
  split at ht
  · rename_i side hsplit
    cases feed with
    | queued =>
      cases ht
      exact h.poke ⟨rfl, rfl, rfl⟩ rfl rfl rfl rfl (h.eye side).poll rfl rfl
    | _ =>
      cases ht
      exact h.same ⟨rfl, rfl, rfl⟩ rfl rfl rfl rfl
  · cases ht

theorem splitAdvance_inv (h : Inv k s) (ht : s.splitAdvance = some t) : Inv k t := by
  unfold splitAdvance at ht
  split at ht
  · rename_i side hsplit
    cases ht
    exact h.poke ⟨rfl, rfl, rfl⟩ rfl rfl rfl rfl (h.eye side).poll rfl rfl
  · cases ht
    exact h.same ⟨rfl, rfl, rfl⟩ rfl rfl rfl rfl
  · cases ht
    exact h.same ⟨rfl, rfl, rfl⟩ rfl rfl rfl rfl
  · cases ht

theorem closerTake_inv (h : Inv k s) (ht : s.closerTake = some t) : Inv k t := by
  unfold closerTake at ht
  obtain ⟨hcloser, ht⟩ := Option.ite_none_right_eq_some.1 ht
  split at ht
  · rename_i segment rest hqueue
    cases ht
    refine h.pass rfl rfl rfl ?_ ?_ ?_ h.bounded
    · rw [hcloser, hqueue]
      simp [Closer.segments]
    · rw [hcloser]
      rfl
    · rw [hcloser, hqueue]
      show s.pendingSegments + (rest.length + 1) + 0 = s.pendingSegments + rest.length + 1
      omega
  · rename_i hqueue
    obtain ⟨-, ht⟩ := Option.ite_none_right_eq_some.1 ht
    cases ht
    refine h.pass rfl rfl rfl ?_ ?_ ?_ h.bounded
    all_goals
      rw [hcloser]
      rfl

theorem closerSeal_inv {result : Sealing} (h : Inv k s) (ht : s.closerSeal k result = some t) : Inv k t := by
  unfold closerSeal at ht
  dsimp only at ht
  split at ht
  · rename_i segment hcloser
    rw [Option.some.injEq] at ht
    subst ht
    split
    · exact h.seal hcloser rfl rfl rfl rfl rfl rfl (.inl rfl)
    · split
      · exact h.seal hcloser rfl rfl rfl rfl rfl rfl (.inl rfl)
      · rename_i hframes
        have hfilled := h.sealing_filled hcloser hframes
        split
        · split
          · exact h.seal hcloser rfl rfl rfl rfl rfl rfl (.inr ⟨hfilled, _, _, rfl⟩)
          · exact h.seal hcloser rfl rfl rfl rfl rfl rfl (.inr ⟨hfilled, _, _, rfl⟩)
        · exact h.seal hcloser rfl rfl rfl rfl rfl rfl (.inl rfl)
  · cases ht

theorem closerRelease_inv (h : Inv k s) (ht : s.closerRelease = some t) : Inv k t := by
  unfold closerRelease at ht
  split at ht
  · rename_i segment hcloser
    cases ht
    have hone : s.closer.segments.length = 1 := by
      rw [hcloser]
      rfl
    have hpos : 0 < s.pendingSegments := by
      have := h.pending
      omega
    obtain ⟨hsub, hbounded⟩ := Work.sub_pending hpos h.bounded
    refine h.pass rfl rfl rfl ?_ ?_ ?_ hbounded
    · rw [hcloser]
      simp [Closer.segments]
    · rw [hcloser]
      simp [Closer.through]
    · rw [hone]
      show sub 32 s.pendingSegments 1 + s.closerQueue.length + 1 = s.pendingSegments + s.closerQueue.length + 0
      omega
  · cases ht

theorem step_inv {a : Action} (h : Inv k s) (ht : s.step k a = some t) : Inv k t := by
  unfold step at ht
  obtain ⟨-, ht⟩ := Option.ite_none_right_eq_some.1 ht
  cases a with
  | startThread ok => exact startThread_inv h ht
  | submit input => exact submit_inv h ht
  | advance => exact advance_inv h ht
  | splitPoll picture => exact splitPoll_inv h ht
  | splitFeed feed => exact splitFeed_inv h ht
  | splitAdvance => exact splitAdvance_inv h ht
  | eye side a =>
    obtain ⟨w, hw, rfl⟩ := Option.map_eq_some_iff.1 ht
    exact settle_inv h hw
  | closerTake => exact closerTake_inv h ht
  | closerSeal result => exact closerSeal_inv h ht
  | closerRelease => exact closerRelease_inv h ht

theorem run_inv {actions : List Action} (ht : run (fun s a => step k s a) (init k) actions = some t) : Inv k t :=
  run_invariant (fun _ _ _ h ht => step_inv h ht) (init_inv k) ht

end Actions

end Pipeline

end Conductor.Stereo
