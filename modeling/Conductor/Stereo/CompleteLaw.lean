import Conductor.Stereo.PipelineLaw

/-! A take without a failure: every frame that was submitted is in a reported segment of both eyes. -/

namespace Conductor.Stereo

open Runs Wrap

/-- The frame that the splitter has not given to an eye yet, or not counted. -/
def Split.given : Split → Side → ℕ
  | .feeding .left, _ | .counting .left, .right | .feeding .right, .right => 1
  | _, _ => 0

def Split.fed : Split → Side → ℕ
  | .counting .left, .left | .counting .right, .right => 1
  | _, _ => 0

namespace Pipeline

variable {k : Config} {s t : Pipeline} {side : Side} {e : Eye} {g : Segment}

/-- Where the caller is: all threads run, what it has counted, and what it has waited for. -/
def Arrived (s : Pipeline) : Prop :=
  match s.caller with
  | .starting => s.started < 6 ∧ s.stopping = false ∧ s.accepted = s.submitted
  | .idle => s.started = 6 ∧ s.stopping = false ∧ s.accepted = s.submitted
  | .counting => s.started = 6 ∧ s.stopping = false ∧ s.accepted = s.submitted + 1
  | .joinSplit | .joinOutput .left | .joinWriter .left => s.started = 6 ∧ s.accepted = s.submitted
  | .joinOutput .right | .joinWriter .right => s.started = 6 ∧ s.accepted = s.submitted ∧ (s.eyes .left).writer = .ended
  | .stopCloser | .joinCloser => s.started = 6 ∧ s.accepted = s.submitted ∧ ∀ side, (s.eyes side).writer = .ended
  | .finished ok => s.accepted = s.submitted ∧ (∀ side, (s.eyes side).writer = .ended) ∧ s.closer = .ended ∧ ok = true

structure Healthy (k : Config) (s : Pipeline) : Prop where
  eyes : ∀ side, (s.eyes side).Healthy k side s.splitDone
  whole : s.ledger.Whole s.came
  fed : ∀ side, (s.eyes side).given + s.split.given side = s.decoded ∧
    (s.eyes side).fed + s.split.fed side = (s.eyes side).given
  drained : s.split = .leaving ∨ s.split = .ended → s.stopping = true ∧ s.submitted ≤ s.decoded
  splitDone : s.splitDone = true → s.split = .ended
  honest : s.decoded ≤ s.accepted
  arrived : Arrived s
  stop : s.closerStop = true → ∀ side, (s.eyes side).writer = .ended
  ended : s.closer = .ended → s.closerStop = true ∧ s.closerQueue = []

/-- The codec answers no more pictures and packets than it was given. -/
def Honest (s : Pipeline) : Action → Prop
  | .splitPoll (.geometry _ _) => s.decoded < s.accepted
  | .eye side a => (s.work side).Honest a
  | _ => True

instance (s : Pipeline) : DecidablePred (Honest s)
  | .splitPoll picture => match picture with
    | .geometry _ _ => inferInstanceAs (Decidable (s.decoded < s.accepted))
    | .none | .invalid => isTrue trivial
  | .eye side a => inferInstanceAs (Decidable ((s.work side).Honest a))
  | .startThread _ | .submit _ | .advance | .splitFeed _ | .splitAdvance | .closerTake | .closerSeal _ |
    .closerRelease => isTrue trivial

theorem init_healthy (k : Config) : Healthy k (init k) := by
  constructor
  case eyes => exact fun side => by constructor <;> simp [init, Writer.fresh]
  case whole => exact Ledger.init_whole
  case fed => exact fun _ => ⟨rfl, rfl⟩
  case arrived => exact ⟨Nat.succ_pos 5, rfl, rfl⟩
  all_goals simp [init]

/-! ### A step of one eye -/

/-- What is outside the eyes, the splitter and the queue of the closer. -/
structure Frame (s t : Pipeline) : Prop where
  caller : t.caller = s.caller ∧ t.started = s.started
  closer : t.closer = s.closer ∧ t.closerStop = s.closerStop ∧ t.settled = s.settled ∧ t.ledger = s.ledger
  counts : t.accepted = s.accepted ∧ t.submitted = s.submitted ∧ t.decoded = s.decoded
  flags : t.stopping = s.stopping ∧ t.splitDone = s.splitDone

theorem Arrived.mono (h : Arrived s) (hcaller : t.caller = s.caller ∧ t.started = s.started)
    (hcounts : t.accepted = s.accepted ∧ t.submitted = s.submitted) (hstopping : t.stopping = s.stopping)
    (hcloser : s.closer = .ended → t.closer = .ended)
    (hstays : ∀ side, (s.eyes side).writer = .ended → (t.eyes side).writer = .ended) : Arrived t := by
  unfold Arrived at h ⊢
  rw [hcaller.1, hcaller.2, hcounts.1, hcounts.2, hstopping]
  split at h
  case h_7 | h_8 => exact ⟨h.1, h.2.1, hstays _ h.2.2⟩
  case h_9 | h_10 => exact ⟨h.1, h.2.1, fun side => hstays side (h.2.2 side)⟩
  case h_11 => exact ⟨h.1, fun side => hstays side (h.2.1 side), hcloser h.2.2.1, h.2.2.2⟩
  all_goals exact h

/-- A step of one eye, or of the splitter at it. -/
theorem Healthy.update (h : Healthy k s) (hframe : Frame s t) (heyes : t.eyes = Function.update s.eyes side e)
    (he : e.Healthy k side s.splitDone)
    (hfed : ∀ side, (t.eyes side).given + t.split.given side = s.decoded ∧
      (t.eyes side).fed + t.split.fed side = (t.eyes side).given)
    (hsplit : t.split = .leaving ∨ t.split = .ended ↔ s.split = .leaving ∨ s.split = .ended)
    (hdone : s.split = .ended → t.split = .ended)
    (hended : (s.eyes side).writer = .ended → e.writer = .ended)
    (hqueue : s.closer = .ended → t.closerQueue = s.closerQueue) :
    Healthy k t := by
  obtain ⟨hcaller, ⟨hcloser, hstop, hsettled, hledger⟩, ⟨haccepted, hsubmitted, hdecoded⟩, hstopping,
    hsplitDone⟩ := hframe
  have hstays : ∀ other, (s.eyes other).writer = .ended → (t.eyes other).writer = .ended := by
    rw [heyes]
    exact (Function.forall_update_iff s.eyes (p := fun other e => (s.eyes other).writer = .ended → e.writer = .ended)).2
      ⟨hended, fun _ _ hend => hend⟩
  constructor
  · rw [hsplitDone, heyes]
    exact (Function.forall_update_iff s.eyes (p := fun side e => e.Healthy k side s.splitDone)).2
      ⟨he, fun other _ => h.eyes other⟩
  · rw [came_eq hsettled (by rw [hcloser]), hledger]
    exact h.whole
  · rw [hdecoded]
    exact hfed
  · rw [hsplit, hstopping, hsubmitted, hdecoded]
    exact h.drained
  · rw [hsplitDone]
    exact fun hend => hdone (h.splitDone hend)
  · rw [hdecoded, haccepted]
    exact h.honest
  · exact h.arrived.mono hcaller ⟨haccepted, hsubmitted⟩ hstopping (by rw [hcloser]; exact id) hstays
  · rw [hstop]
    exact fun hend other => hstays other (h.stop hend other)
  · rw [hcloser, hstop]
    intro hend
    rw [hqueue hend]
    exact h.ended hend

/-- A step of the threads of an eye. -/
theorem settle_healthy {a : Work.Action} {w : Work} (hinv : Inv k s) (h : Healthy k s)
    (hw : (s.work side).act k side a = some w)
    (hgood : (s.settle side w).failed = false) (hhonest : (s.work side).Honest a) : Healthy k (s.settle side w) := by
  have hkept := Work.act_kept (hinv.ready side) hw
  have hfailure : w.failure = none := by
    rw [settle, Bool.or_eq_false_iff] at hgood
    simpa using hgood.2
  refine h.update ⟨⟨rfl, rfl⟩, ⟨rfl, rfl, rfl, rfl⟩, ⟨rfl, rfl, rfl⟩, rfl, rfl⟩ rfl
    (hkept.healthy hhonest hfailure (h.eyes side))
    (fun other => ?_) Iff.rfl id (fun hend => (hkept.ended hend).1) fun hend => ?_
  · by_cases hother : other = side
    · subst hother
      simp only [settle, setEye, Function.update_self]
      rw [hkept.given.1, hkept.given.2]
      exact h.fed other
    · simp only [settle, setEye, Function.update_of_ne hother]
      exact h.fed other
  · obtain ⟨-, hclosed⟩ := hkept.ended (h.stop (h.ended hend).1 side)
    simp [settle, hclosed]

/-! ### The other actions -/

section Actions

theorem startThread_healthy {ok : Bool} (h : Healthy k s) (ht : s.startThread ok = some t) (hgood : t.failed = false) :
    Healthy k t := by
  unfold startThread at ht
  obtain ⟨hcaller, ht⟩ := Option.ite_none_right_eq_some.1 ht
  have harrived := h.arrived
  rw [Arrived, hcaller] at harrived
  obtain ⟨hroom, hrest⟩ := harrived
  split_ifs at ht with hno hlast
  · cases ht
    cases hgood
  · cases ht
    exact { h with arrived := ⟨congrArg (· + 1) hlast, hrest⟩ }
  · cases ht
    have hne : s.started ≠ 5 := hlast
    exact { h with arrived := ⟨show s.started + 1 < 6 by omega, hrest⟩ }

theorem submit_healthy {input : Input} (h : Healthy k s) (ht : s.submit input = some t) (hgood : t.failed = false) :
    Healthy k t := by
  unfold submit at ht
  dsimp only at ht
  obtain ⟨hcaller, ht⟩ := Option.ite_none_right_eq_some.1 ht
  have harrived := h.arrived
  rw [Arrived, hcaller] at harrived
  obtain ⟨hstarted, hstopping, haccepted⟩ := harrived
  split_ifs at ht with hfailed
  · cases ht
    exact absurd hgood (by simp [hfailed])
  · cases input with
    | queued =>
      cases ht
      exact { h with
        honest := h.honest.trans (Nat.le_succ _)
        arrived := ⟨hstarted, hstopping, congrArg (· + 1) haccepted⟩ }
    | _ =>
      cases ht
      cases hgood

theorem advance_healthy (h : Healthy k s) (ht : s.advance = some t) (hgood : t.failed = false) : Healthy k t := by
  have harrived := h.arrived
  unfold advance at ht
  unfold Arrived at harrived
  cases hcaller : s.caller with
  | starting =>
    rw [hcaller] at ht
    cases ht
  | counting =>
    rw [hcaller] at ht harrived
    obtain ⟨hstarted, hstopping, haccepted⟩ := harrived
    cases ht
    exact { h with
      drained := fun hsplit => absurd (h.drained hsplit).1 (by simp [hstopping])
      arrived := ⟨hstarted, hstopping, haccepted⟩ }
  | idle =>
    rw [hcaller] at ht harrived
    cases ht
    exact { h with
      drained := fun hsplit => ⟨rfl, (h.drained hsplit).2⟩
      arrived := ⟨harrived.1, harrived.2.2⟩ }
  | joinSplit =>
    rw [hcaller] at ht harrived
    dsimp only at ht
    rw [if_neg (by rw [harrived.1]; decide)] at ht
    obtain ⟨-, ht⟩ := Option.ite_none_right_eq_some.1 ht
    cases ht
    exact { h with arrived := harrived }
  | joinOutput side =>
    have hstarted : s.started = 6 := by
      cases side <;> exact (hcaller ▸ harrived).1
    rw [hcaller] at ht
    obtain ⟨hend, ht⟩ := Option.ite_none_right_eq_some.1 ht
    have houtput : (s.eyes side).output = .ended := hend.resolve_left (by rw [hstarted]; cases side <;> decide)
    cases ht
    have heye : Eye.Healthy k side s.splitDone { s.eyes side with packets := (s.eyes side).packets.close } :=
      { h.eyes side with
        closed := fun _ => houtput
        empty := fun hwriter => ⟨rfl, ((h.eyes side).empty hwriter).2⟩ }
    have hclosed : Healthy k (s.setEye side { s.eyes side with packets := (s.eyes side).packets.close }) := by
      refine h.update ⟨⟨rfl, rfl⟩, ⟨rfl, rfl, rfl, rfl⟩, ⟨rfl, rfl, rfl⟩, rfl, rfl⟩ rfl heye (fun other => ?_)
        Iff.rfl id id fun _ => rfl
      have hfed := h.fed other
      by_cases hother : other = side
      · subst hother
        simpa only [setEye, Function.update_self] using hfed
      · simpa only [setEye, Function.update_of_ne hother] using hfed
    refine { hclosed with arrived := ?_ }
    rw [hcaller] at harrived
    cases side <;> exact harrived
  | joinWriter side =>
    have hstarted : s.started = 6 := by
      cases side <;> exact (hcaller ▸ harrived).1
    rw [hcaller] at ht harrived
    obtain ⟨hend, ht⟩ := Option.ite_none_right_eq_some.1 ht
    have hwriter : (s.eyes side).writer = .ended := hend.resolve_left (by rw [hstarted]; cases side <;> decide)
    cases ht
    refine { h with arrived := ?_ }
    cases side with
    | left => exact ⟨hstarted, harrived.2, hwriter⟩
    | right =>
      refine ⟨hstarted, harrived.2.1, fun other => ?_⟩
      cases other with
      | left => exact harrived.2.2
      | right => exact hwriter
  | stopCloser =>
    rw [hcaller] at ht harrived
    dsimp only at ht
    rw [if_neg (by rw [harrived.1]; decide)] at ht
    cases ht
    exact { h with
      arrived := harrived
      stop := fun _ => harrived.2.2
      ended := fun hend => ⟨rfl, (h.ended hend).2⟩ }
  | joinCloser =>
    rw [hcaller] at ht harrived
    obtain ⟨hend, ht⟩ := Option.ite_none_right_eq_some.1 ht
    cases ht
    exact { h with arrived := ⟨harrived.2.1, harrived.2.2, hend, by rw [show s.failed = false from hgood]; rfl⟩ }
  | finished ok =>
    rw [hcaller] at ht
    cases ht

theorem splitPoll_healthy {picture : Picture} (h : Healthy k s) (ht : s.splitPoll k picture = some t)
    (hgood : t.failed = false) (hhonest : Honest s (.splitPoll picture)) : Healthy k t := by
  unfold splitPoll at ht
  obtain ⟨hsplit, ht⟩ := Option.ite_none_right_eq_some.1 ht
  have hfed := h.fed
  rw [hsplit] at hfed
  have hdone : s.splitDone ≠ true := fun hd => by
    have hend := h.splitDone hd
    rw [hsplit] at hend
    cases hend
  cases picture with
  | none =>
    dsimp only at ht
    split_ifs at ht with hstopping hdecoded
    · cases ht
      exact h
    · cases ht
      exact { h with
        fed := hfed
        drained := fun _ => ⟨by simpa using hstopping, hdecoded⟩
        splitDone := fun hd => absurd hd hdone }
    · cases ht
      cases hgood
    · cases ht
      exact { h with }
  | invalid =>
    cases ht
    cases hgood
  | geometry width height =>
    dsimp only at ht
    split_ifs at ht
    · cases ht
      cases hgood
    · cases ht
      exact { h with
        fed := fun side => ⟨by cases side <;> exact congrArg (· + 1) (hfed _).1, (hfed side).2⟩
        drained := fun hsplit => by simp at hsplit
        splitDone := fun hd => absurd hd hdone
        honest := hhonest }

/-- A step of the splitter at one eye. -/
theorem Healthy.feed {next : Split} (h : Healthy k s) (he : e.Healthy k side s.splitDone)
    (hwriter : e.writer = (s.eyes side).writer)
    (hsplit : s.split ≠ .leaving ∧ s.split ≠ .ended) (hnext : next ≠ .leaving ∧ next ≠ .ended)
    (hfed : ∀ other, (Function.update s.eyes side e other).given + next.given other = s.decoded ∧
      (Function.update s.eyes side e other).fed + next.fed other = (Function.update s.eyes side e other).given) :
    Healthy k { s.setEye side e with split := next } :=
  h.update ⟨⟨rfl, rfl⟩, ⟨rfl, rfl, rfl, rfl⟩, ⟨rfl, rfl, rfl⟩, rfl, rfl⟩ rfl he hfed
    (iff_of_false (not_or.2 hnext) (not_or.2 hsplit)) (fun hend => absurd hend hsplit.2) hwriter.trans fun _ => rfl

theorem splitFeed_healthy {feed : Feed} (h : Healthy k s) (ht : s.splitFeed feed = some t) (hgood : t.failed = false) :
    Healthy k t := by
  unfold splitFeed at ht
  split at ht
  · rename_i side hsplit
    cases feed with
    | queued =>
      cases ht
      have heye : Eye.Healthy k side s.splitDone { s.eyes side with given := (s.eyes side).given + 1 } :=
        { h.eyes side with honest := (h.eyes side).honest.trans (Nat.le_succ _) }
      refine h.feed heye rfl (by simp [hsplit]) (by simp) fun other => ?_
      have hother := h.fed other
      rw [hsplit] at hother
      cases side <;> cases other
      all_goals
        simp only [Split.given, Split.fed, Function.update_apply, reduceCtorEq, if_true, if_false] at hother ⊢
        omega
    | _ =>
      cases ht
      cases hgood
  · cases ht

theorem splitAdvance_healthy (h : Healthy k s) (ht : s.splitAdvance = some t) (hgood : t.failed = false) :
    Healthy k t := by
  unfold splitAdvance at ht
  have hfed := h.fed
  have hdone : s.split ≠ .ended → s.splitDone ≠ true := fun hne hd => hne (h.splitDone hd)
  split at ht
  · rename_i side hsplit
    rw [hsplit] at hfed
    cases ht
    have heye : Eye.Healthy k side s.splitDone { s.eyes side with fed := (s.eyes side).fed + 1 } :=
      { h.eyes side with drained := fun houtput => absurd ((h.eyes side).drained houtput).1 (hdone (by simp [hsplit])) }
    refine h.feed heye rfl (by simp [hsplit]) (by cases side <;> simp) fun other => ?_
    have hother := hfed other
    cases side <;> cases other
    all_goals
      simp only [Split.given, Split.fed, Function.update_apply, reduceCtorEq, if_true, if_false] at hother ⊢
      omega
  · rename_i hsplit
    rw [hsplit] at hfed
    cases ht
    rw [show s.failed = false from hgood]
    exact { h with
      fed := hfed
      drained := fun hsplit => by simp at hsplit
      splitDone := fun hd => absurd hd (hdone (by simp [hsplit])) }
  · rename_i hsplit
    rw [hsplit] at hfed
    cases ht
    exact { h with
      eyes := fun side => { h.eyes side with drained := fun houtput => ⟨rfl, ((h.eyes side).drained houtput).2⟩ }
      fed := hfed
      drained := fun _ => h.drained (.inl hsplit)
      splitDone := fun _ => rfl }
  · cases ht

/-- A step of the closer. -/
theorem Healthy.close {closer : Closer} {rest settled : List Segment} {l : Ledger} {n : ℕ} {next : Side → ℕ}
    (h : Healthy k s) (hcloser : s.closer ≠ .ended)
    (hcame : came { s with closer := closer, closerQueue := rest, settled := settled, ledger := l,
                            pendingSegments := n } = next)
    (hwhole : l.Whole next) (hended : closer = .ended → s.closerStop = true ∧ rest = []) :
    Healthy k { s with closer := closer, closerQueue := rest, settled := settled, ledger := l, pendingSegments := n } :=
  { h with
    whole := hcame ▸ hwhole
    arrived := h.arrived.mono ⟨rfl, rfl⟩ ⟨rfl, rfl⟩ rfl (fun hend => absurd hend hcloser) fun _ hend => hend
    ended := hended }

theorem closerTake_healthy (h : Healthy k s) (ht : s.closerTake = some t) : Healthy k t := by
  unfold closerTake at ht
  obtain ⟨hcloser, ht⟩ := Option.ite_none_right_eq_some.1 ht
  split at ht
  · cases ht
    exact h.close (by simp [hcloser]) (came_eq (s := s) rfl (by rw [hcloser]; rfl)) h.whole (by simp)
  · rename_i hqueue
    obtain ⟨hstop, ht⟩ := Option.ite_none_right_eq_some.1 ht
    cases ht
    exact h.close (by simp [hcloser]) (came_eq (s := s) rfl (by rw [hcloser]; rfl)) h.whole fun _ => ⟨hstop, hqueue⟩

theorem closerSeal_healthy {result : Sealing} (hinv : Inv k s) (h : Healthy k s) (ht : s.closerSeal k result = some t)
    (hgood : t.failed = false) : Healthy k t := by
  unfold closerSeal at ht
  dsimp only at ht
  split at ht
  · rename_i segment hcloser
    obtain ⟨hplace, hcame⟩ := hinv.sealing hcloser
    have hspan : s.span segment.side segment.index = (segment.startFrame, segment.endFrame) := by rw [span, hplace]
    have hnext : ∀ l, l.Whole
      (if segment.filled then Ledger.bump s.came segment.side (s.came segment.side) else s.came) →
        Healthy k { s with closer := .releasing segment, ledger := l } := fun l hwhole =>
      h.close (by simp [hcloser]) (came_through (s := s) rfl hcloser rfl) hwhole (by simp)
    rw [Option.some.injEq] at ht
    subst ht
    split at hgood
    · cases hgood
    · rename_i hstop
      rw [if_neg hstop]
      split at hgood
      · rename_i hempty
        rw [if_pos hempty]
        refine hnext s.ledger ?_
        rw [if_neg (by simp [Segment.filled, hempty])]
        exact h.whole
      · rename_i hframes
        rw [if_neg hframes]
        cases result with
        | done bytes allocated =>
          obtain ⟨error, l, hrecord⟩ : ∃ error l,
            s.ledger.record segment.side segment.index segment.startFrame segment.endFrame
              ⟨segment.relative k, bytes⟩ allocated = (error, l) := ⟨_, _, rfl⟩
          dsimp only at hgood ⊢
          rw [hrecord] at hgood ⊢
          cases error with
          | some error => cases hgood
          | none =>
            obtain ⟨-, -, hwhole⟩ := Ledger.record_inv hinv.ledger hinv.flushed (Nat.le_of_eq hcame) hspan hrecord
            refine hnext l ?_
            rw [if_pos (hinv.sealing_filled hcloser hframes), hcame]
            exact hwhole rfl hcame.symm h.whole
        | _ => cases hgood
  · cases ht

theorem closerRelease_healthy (h : Healthy k s) (ht : s.closerRelease = some t) : Healthy k t := by
  unfold closerRelease at ht
  split at ht
  · rename_i segment hcloser
    cases ht
    refine h.close (by simp [hcloser]) ?_ h.whole (by simp)
    funext side
    rw [came, came, hcloser]
    exact congrArg (fun l => (List.filter _ l).length) (List.append_nil _)
  · cases ht

end Actions

/-! ### The run -/

variable {a : Action}

/-- No step takes a failure back, and the caller is told that all is well where nothing has failed. -/
theorem act_failed (ht : s.act k a = some t) : (t.failed = false → s.failed = false) ∧
      (t.caller = .finished true → s.caller = .finished true ∨ t.failed = false) := by
  cases a with
  | startThread ok => grind [act, startThread]
  | submit input => cases input <;> grind [act, submit, fail]
  | advance => grind [act, advance, setEye]
  | splitPoll picture => cases picture <;> grind [act, splitPoll, fail]
  | splitFeed feed => cases feed <;> grind [act, splitFeed, fail, setEye]
  | splitAdvance => grind [act, splitAdvance, setEye]
  | eye side a => grind [act, settle, setEye, Option.map_eq_some_iff]
  | closerTake => grind [act, closerTake]
  | closerSeal result => cases result <;> grind [act, closerSeal, fail]
  | closerRelease => grind [act, closerRelease]

theorem act_healthy (hinv : Inv k s) (h : Healthy k s) (ht : s.act k a = some t) (hgood : t.failed = false)
    (hhonest : Honest s a) : Healthy k t := by
  cases a with
  | startThread ok => exact startThread_healthy h ht hgood
  | submit input => exact submit_healthy h ht hgood
  | advance => exact advance_healthy h ht hgood
  | splitPoll picture => exact splitPoll_healthy h ht hgood hhonest
  | splitFeed feed => exact splitFeed_healthy h ht hgood
  | splitAdvance => exact splitAdvance_healthy h ht hgood
  | eye side a =>
    obtain ⟨w, hw, rfl⟩ := Option.map_eq_some_iff.1 ht
    exact settle_healthy hinv h hw hgood hhonest
  | closerTake => exact closerTake_healthy h ht
  | closerSeal result => exact closerSeal_healthy hinv h ht hgood
  | closerRelease => exact closerRelease_healthy h ht

/-- Where the caller was told that all is well, nothing moves any more. -/
theorem Healthy.still {ok : Bool} (h : Healthy k s) (hcaller : s.caller = .finished ok) : s.act k a = none := by
  have harrived := h.arrived
  rw [Arrived, hcaller] at harrived
  obtain ⟨-, hwriter, hcloser, -⟩ := harrived
  have houtput : ∀ side, (s.eyes side).output = .ended := fun side =>
    (h.eyes side).closed ((h.eyes side).empty (.inr (hwriter side))).1
  have hsplit : s.split = .ended := h.splitDone ((h.eyes .left).drained (by rw [houtput]; simp)).1
  cases a with
  | startThread ok => simp [act, startThread, hcaller]
  | submit input => simp [act, submit, hcaller]
  | advance => simp [act, advance, hcaller]
  | splitPoll picture => simp [act, splitPoll, hsplit]
  | splitFeed feed => simp [act, splitFeed, hsplit]
  | splitAdvance => simp [act, splitAdvance, hsplit]
  | eye side a => simp [act, Work.ended_still (w := s.work side) (houtput side) (hwriter side)]
  | closerTake => simp [act, closerTake, hcloser]
  | closerSeal result => simp [act, closerSeal, hcloser]
  | closerRelease => simp [act, closerRelease, hcloser]

/-- What every run of an honest codec leaves. -/
structure Sound (k : Config) (s : Pipeline) : Prop where
  inv : Inv k s
  healthy : s.failed = false → Healthy k s
  finished : s.caller = .finished true → s.failed = false

theorem step_sound (h : Sound k s) (ht : s.step k a = some t) (hhonest : Honest s a) : Sound k t := by
  have hinv := step_inv h.inv ht
  unfold step at ht
  obtain ⟨-, ht⟩ := Option.ite_none_right_eq_some.1 ht
  obtain ⟨hfailed, hfinished⟩ := act_failed ht
  refine ⟨hinv, fun hgood => act_healthy h.inv (h.healthy (hfailed hgood)) ht hgood hhonest, fun hcaller => ?_⟩
  refine (hfinished hcaller).resolve_left fun hbefore => ?_
  rw [(h.healthy (h.finished hbefore)).still hbefore] at ht
  cases ht

theorem run_sound {actions : List Action} (ht : run (fun s a => step k s a) (init k) actions = some t)
    (hhonest : Along (fun s a => step k s a) (fun s a _ => Honest s a) (init k) actions) : Sound k t :=
  run_invariant_of_along (fun _ _ _ h ht hhonest => step_sound h ht hhonest)
    ⟨init_inv k, fun _ => init_healthy k, fun hcaller => by cases hcaller⟩ hhonest ht

end Pipeline

end Conductor.Stereo
