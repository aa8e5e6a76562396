import Conductor.Lib.Concat
import Conductor.Session.Inventory
import Mathlib.Data.List.Infix

/-! Segment inventory windows: whatever the callers and the encoder do, the planner has
accepted a prefix of the inventory, as long as the counter says, and every successful call
returns its window of the inventory that it saw. -/

namespace Conductor.Session.Inventory

open Capture Runs Word64

theorem coveredTo_append (covered : ℕ) (xs ys : List SegmentEvent) :
    coveredTo covered (xs ++ ys) = coveredTo (coveredTo covered xs) ys := by
  cases ys using List.reverseRecOn with
  | nil => simp [coveredTo]
  | append_singleton ys y => simp [coveredTo, ← List.append_assoc]

theorem TilesFrom.append {index covered : ℕ} {xs ys : List SegmentEvent} (hx : TilesFrom index covered xs)
    (hy : TilesFrom (index + xs.length) (coveredTo covered xs) ys) : TilesFrom index covered (xs ++ ys) := by
  induction xs generalizing index covered with
  | nil => exact hy
  | cons x xs ih =>
    obtain ⟨hindex, hstart, hend, hrest⟩ := hx
    have hc : coveredTo covered (x :: xs) = coveredTo x.endFrame xs := coveredTo_append covered [x] xs
    rw [hc, List.length_cons, Nat.add_comm xs.length 1, ← Nat.add_assoc] at hy
    exact ⟨hindex, hstart, hend, ih hrest hy⟩

/-! ### Registration -/

variable {p q : RecordingSegmentPlanner} {n : ℕ} {inventory accepted : List SegmentEvent} {t : Sys}

/-- What one registration accepts: the next index, at the covered end, not empty. -/
theorem registerSegment_ok {index start stop : ℕ} {r : SegmentPlannerSnapshot}
    (h : p.registerSegment index start stop = (.ok r, q)) :
    index = p.segmentCount ∧ start = p.coveredFrames ∧ start < stop ∧
      q = { p with coveredFrames := stop, segmentCount := p.segmentCount + 1 } := by
  unfold RecordingSegmentPlanner.registerSegment at h
  split_ifs at h with h1 h2 h3
  · simp at h
  · simp at h
  · simp at h
  · simp only at h
    split at h
    · simp at h
    · next n hn =>
      obtain ⟨-, rfl⟩ := checkedAdd_eq_some.1 hn
      simp only [Prod.mk.injEq, Except.ok.injEq] at h
      obtain ⟨-, rfl⟩ := h
      exact ⟨by simpa using h2, by simpa using h3, by omega, rfl⟩

/-- A refused segment changes nothing while the count is in range. -/
theorem registerSegment_error {index start stop : ℕ} {e : RuntimeError}
    (h : p.registerSegment index start stop = (.error e, q)) (hcount : p.segmentCount + 1 < size) : q = p := by
  unfold RecordingSegmentPlanner.registerSegment at h
  split_ifs at h
  iterate 3 · simp_all
  simp only at h
  split at h
  · next hn => simp [checkedAdd, hcount] at hn
  · simp at h

variable {r : Except StoreError Unit} {s : Sys} {c : ℕ} {pc : Caller}

/-- Everything a registration loop does. -/
theorem registerAll_spec {segments : List SegmentEvent} {n' : ℕ}
    (h : registerAll segments n p = (r, n', q)) (hcount : p.segmentCount + segments.length < size) :
    n' = n + (acceptedBy segments p).length ∧ q.segmentCount = p.segmentCount + (acceptedBy segments p).length ∧
      q.coveredFrames = coveredTo p.coveredFrames (acceptedBy segments p) ∧
      TilesFrom p.segmentCount p.coveredFrames (acceptedBy segments p) ∧
      acceptedBy segments p <+: segments ∧ (∀ u, r = .ok u → acceptedBy segments p = segments) := by
  induction segments generalizing n p with
  | nil =>
    cases h
    exact ⟨rfl, rfl, rfl, trivial, List.nil_prefix, fun _ _ => rfl⟩
  | cons segment rest ih =>
    rw [List.length_cons] at hcount
    rcases hreg : p.registerSegment segment.index segment.startFrame segment.endFrame with ⟨e | snapshot, planner⟩
    · obtain rfl := registerSegment_error hreg (by omega)
      simp only [registerAll, acceptedBy, hreg] at h ⊢
      cases h
      exact ⟨rfl, rfl, rfl, trivial, List.nil_prefix, by simp⟩
    · simp only [registerAll, acceptedBy, hreg] at h ⊢
      obtain ⟨hindex, hstart, hstop, hplanner⟩ := registerSegment_ok hreg
      have hsc : planner.segmentCount = p.segmentCount + 1 := by rw [hplanner]
      have hcf : planner.coveredFrames = segment.endFrame := by rw [hplanner]
      obtain ⟨hn, hq, hcov, htiles, hpre, hall⟩ := ih h (by omega)
      rw [hsc, hcf] at htiles
      rw [hcf] at hcov
      refine ⟨by rw [hn, List.length_cons]; omega, by rw [hq, hsc, List.length_cons]; omega, ?_,
        ⟨hindex, hstart, hstop, htiles⟩, (List.prefix_cons_inj segment).2 hpre, fun u hu => by rw [hall u hu]⟩
      rw [hcov]
      exact (coveredTo_append p.coveredFrames [segment] _).symm

/-- The counter, the planner and the inventory in step. -/
structure Ledger (inventory accepted : List SegmentEvent) (n : ℕ) (p : RecordingSegmentPlanner) : Prop where
  counted : n = p.segmentCount
  le : n ≤ inventory.length
  taken : accepted = inventory.take n
  tiles : TilesFrom 0 0 accepted
  covered : p.coveredFrames = coveredTo 0 accepted

/-- Only the registered part and the count matter to the ledger, not the frames. -/
theorem Ledger.congr (h : Ledger inventory accepted n p) (hcount : q.segmentCount = p.segmentCount)
    (hcovered : q.coveredFrames = p.coveredFrames) : Ledger inventory accepted n q :=
  ⟨hcount ▸ h.counted, h.le, h.taken, h.tiles, hcovered ▸ h.covered⟩

theorem Ledger.event (h : Ledger inventory accepted n p) (segment : SegmentEvent) :
    Ledger (inventory ++ [segment]) accepted n p where
  counted := h.counted
  le := by
    have := h.le
    simp only [List.length_append, List.length_singleton]
    omega
  taken := by rw [List.take_append_of_le_length h.le, h.taken]
  tiles := h.tiles
  covered := h.covered

/-- Registering what follows the counter in a snapshot of the inventory. -/
theorem Ledger.register {seen : List SegmentEvent} {n' : ℕ} (h : Ledger inventory accepted n p)
    (hseen : seen <+: inventory) (hn : n ≤ seen.length) (hbound : inventory.length ≤ vecCapacity)
    (hr : registerAll (seen.drop n) n p = (r, n', q)) :
    Ledger inventory (accepted ++ acceptedBy (seen.drop n) p) n' q ∧
      n' = n + (acceptedBy (seen.drop n) p).length ∧ (∀ u, r = .ok u → n' = seen.length) := by
  have hlen := hseen.length_le
  have hcount := h.counted
  have hsmall : p.segmentCount + (seen.drop n).length < size := by
    simp only [List.length_drop, size, vecCapacity] at hbound ⊢
    omega
  obtain ⟨hn', hq, hcov, htiles, hpre, hall⟩ := registerAll_spec hr hsmall
  have haccepted : accepted.length = n := by
    rw [h.taken, List.length_take]
    exact Nat.min_eq_left h.le
  have hnew : accepted ++ acceptedBy (seen.drop n) p <+: seen := by
    obtain ⟨more, rfl⟩ := hseen
    rw [h.taken, List.take_append_of_le_length hn]
    conv_rhs => rw [← List.take_append_drop n seen]
    exact (List.prefix_append_right_inj _).2 hpre
  have htotal : (accepted ++ acceptedBy (seen.drop n) p).length = n' := by
    rw [List.length_append, haccepted, hn']
  refine ⟨⟨by rw [hn', hq, hcount], ?_, ?_, ?_, ?_⟩, hn', fun u hu => ?_⟩
  · have := (hnew.trans hseen).length_le
    omega
  · rw [← htotal]
    exact List.prefix_iff_eq_take.1 (hnew.trans hseen)
  · refine h.tiles.append ?_
    rw [← hcount] at htiles
    rw [Nat.zero_add, haccepted, ← h.covered]
    exact htiles
  · rw [hcov, h.covered, ← coveredTo_append]
  · rw [hn', hall u hu, List.length_drop]
    omega

/-! ### The invariant -/

/-- What a call has read is what it still finds under the inventory lock. -/
def CallerOk (s : Sys) (c : ℕ) : Caller → Prop
  | .idle => True
  | .listing offset start => s.holder = some c ∧ start = min offset s.state.registeredSegments
  | .snapshotted offset start segments seen =>
    s.holder = some c ∧ start = min offset s.state.registeredSegments ∧ seen <+: s.inventory ∧
      s.state.registeredSegments ≤ seen.length ∧ segments = seen.drop start
  | .registering segments => segments = s.inventory ∧ s.closed = true

def WindowOk (s : Sys) (r : Return) : Prop :=
  ∀ segments, r.result = .ok segments → r.offset ≤ r.seen.length ∧ segments = r.seen.drop r.offset ∧
    r.seen <+: s.inventory ∧ r.seen.length ≤ s.state.registeredSegments

structure Inv (s : Sys) : Prop where
  ledger : Ledger s.inventory s.accepted s.state.registeredSegments s.resources.segmentPlanner
  bound : s.inventory.length ≤ vecCapacity
  callers : ∀ c, CallerOk s c (s.callers c)
  windows : ∀ r ∈ s.returned, WindowOk s r

theorem Inv.lawful (hi : Inv s) : Lawful s where
  counted := hi.ledger.counted
  registered := ⟨hi.ledger.le, hi.ledger.taken⟩
  tiling := ⟨hi.ledger.tiles, hi.ledger.covered⟩
  windows := hi.windows

theorem init_inv (activeTake : ActiveTakeWriter) (sink : RecordingSink) (segmentFrames : ℕ)
    (pos : 0 < segmentFrames) : Inv (init activeTake sink segmentFrames pos) where
  ledger := ⟨rfl, Nat.zero_le _, rfl, trivial, rfl⟩
  bound := Nat.zero_le _
  callers _ := trivial
  windows := by simp [init]

/-- Windows stay right when the inventory grows and more is registered. -/
theorem WindowOk.mono {r : Return} (h : WindowOk s r) (hinv : s.inventory <+: t.inventory)
    (hreg : s.state.registeredSegments ≤ t.state.registeredSegments) : WindowOk t r := by
  intro segments hr
  obtain ⟨h1, h2, h3, h4⟩ := h segments hr
  exact ⟨h1, h2, h3.trans hinv, h4.trans hreg⟩

theorem CallerOk.congr (h : CallerOk s c pc) (hholder : t.holder = s.holder)
    (hstate : t.state.registeredSegments = s.state.registeredSegments) (hinv : t.inventory = s.inventory)
    (hclosed : s.closed = true → t.closed = true) : CallerOk t c pc := by
  cases pc with
  | idle => trivial
  | listing offset start => simpa only [CallerOk, hholder, hstate] using h
  | snapshotted offset start segments seen => simpa only [CallerOk, hholder, hstate, hinv] using h
  | registering segments => exact ⟨h.1.trans hinv.symm, hclosed h.2⟩

theorem Inv.moveTo (hi : Inv s) (hpc : CallerOk s c pc) : Inv (s.moveTo c pc) :=
  { hi with
    callers := fun d => by
      by_cases hd : d = c
      · subst hd
        simp only [Sys.moveTo, Function.update_self]
        exact hpc.congr rfl rfl rfl id
      · simp only [Sys.moveTo, Function.update_of_ne hd]
        exact (hi.callers d).congr rfl rfl rfl id }

theorem Inv.event (hi : Inv s) {segment : SegmentEvent} (hopen : s.closed = false)
    (hroom : s.inventory.length < vecCapacity) : Inv { s with inventory := s.inventory ++ [segment] } where
  ledger := hi.ledger.event segment
  bound := by
    simp only [List.length_append, List.length_singleton]
    omega
  callers c := by
    have hc := hi.callers c
    cases hpc : s.callers c with
    | idle => trivial
    | listing offset start => rwa [hpc] at hc
    | snapshotted offset start segments seen =>
      rw [hpc] at hc
      obtain ⟨h1, h2, h3, h4⟩ := hc
      exact ⟨h1, h2, h3.trans (List.prefix_append _ _), h4⟩
    | registering segments =>
      rw [hpc] at hc
      have hclosed := hc.2
      simp [hopen] at hclosed
  windows r hr := (hi.windows r hr).mono (List.prefix_append _ _) (Nat.le_refl _)

/-- The lock excludes every other call of `segments_since`. -/
theorem Inv.others (hi : Inv s) {d : ℕ} (hholder : s.holder = some c ∨ s.holder = none)
    (hd : d ≠ c) : s.callers d = .idle ∨ ∃ segments, s.callers d = .registering segments := by
  have hcd : s.holder ≠ some d := by
    rcases hholder with h | h <;> rw [h]
    · exact fun h' => hd (Option.some.inj h').symm
    · simp
  have hok := hi.callers d
  cases hpc : s.callers d with
  | idle => exact Or.inl rfl
  | registering segments => exact Or.inr ⟨segments, rfl⟩
  | listing offset start =>
    rw [hpc] at hok
    exact absurd hok.1 hcd
  | snapshotted offset start segments seen =>
    rw [hpc] at hok
    exact absurd hok.1 hcd

/-- A registration under the inventory lock, and the return of the call that made it. -/
theorem Inv.registered (hi : Inv s) {planner : RecordingSegmentPlanner} {holder : Option ℕ} {returned : List Return}
    (hholder : s.holder = some c ∨ s.holder = none)
    (hledger : Ledger s.inventory accepted n planner)
    (hwindows : ∀ r ∈ returned, WindowOk
    { s with state := { s.state with registeredSegments := n } } r) :
    Inv ({ s with
      state := { s.state with registeredSegments := n }
      resources := { s.resources with segmentPlanner := planner }
      accepted, holder, returned }.moveTo c .idle) where
  ledger := hledger
  bound := hi.bound
  callers d := by
    by_cases hd : d = c
    · subst hd
      simp [Sys.moveTo, CallerOk]
    · simp only [Sys.moveTo, Function.update_of_ne hd]
      have hok := hi.callers d
      rcases hi.others hholder hd with hpc | ⟨segments, hpc⟩
      · simp [hpc, CallerOk]
      · rw [hpc] at hok ⊢
        exact hok
  windows := hwindows

/-- A call takes the free inventory lock. -/
theorem Inv.enter (hi : Inv s) (hfree : s.holder = none)
    (hpc : CallerOk { s with holder := some c } c pc) : Inv ({ s with holder := some c }.moveTo c pc) :=
  { hi with
    callers := fun d => by
      by_cases hd : d = c
      · subst hd
        simp only [Sys.moveTo, Function.update_self]
        exact hpc.congr rfl rfl rfl id
      · simp only [Sys.moveTo, Function.update_of_ne hd]
        have hok := hi.callers d
        rcases hi.others (Or.inr hfree) hd with hidle | ⟨segments, hidle⟩
        · simp [hidle, CallerOk]
        · rw [hidle] at hok ⊢
          exact hok }

/-! ### The steps -/

theorem listSegments_cases (offset start : ℕ) (segments : List SegmentEvent) (s : State) (r : Resources) :
    (start + segments.length < s.registeredSegments ∧
      listSegments offset start segments s r = (.error regressed, s, r)) ∨
    (start + segments.length < offset ∧ listSegments offset start segments s r =
      (.error ⟨"invalid_argument", "segment offset exceeds inventory"⟩, s, r)) ∨
    (offset ≤ start + segments.length ∧ ∃ result n planner,
      registerAll (segments.drop (s.registeredSegments - start)) s.registeredSegments r.segmentPlanner =
        (result, n, planner) ∧
      listSegments offset start segments s r = (result.map fun () => segments.drop (offset - start),
        { s with registeredSegments := n }, { r with segmentPlanner := planner })) := by
  unfold listSegments
  simp only
  split_ifs with h1 h2
  · exact Or.inl ⟨h1, rfl⟩
  · exact Or.inr (Or.inl ⟨h2, rfl⟩)
  · exact Or.inr (Or.inr ⟨by omega, _, _, _, rfl, rfl⟩)

theorem Inv.list (hi : Inv s) (ht : step s (.list c) = some t) : Inv t ∧ StepLawful s (.list c) t := by
  simp only [step] at ht
  split at ht
  case h_2 => cases ht
  next offset start segments seen hpc =>
  have hok := hi.callers c
  rw [hpc] at hok
  obtain ⟨hholder, rfl, hseen, hreg, rfl⟩ := hok
  have hstart : min offset s.state.registeredSegments ≤ s.state.registeredSegments := Nat.min_le_right _ _
  have htotal : min offset s.state.registeredSegments +
      (seen.drop (min offset s.state.registeredSegments)).length = seen.length := by
    rw [List.length_drop]
    omega
  have hwindow : ∀ n : ℕ, s.state.registeredSegments ≤ n → ∀ r ∈ s.returned,
      WindowOk { s with state := { s.state with registeredSegments := n } } r := fun n hn r hr =>
    (hi.windows r hr).mono (List.prefix_refl _) hn
  constructor
  · rcases listSegments_cases offset (min offset s.state.registeredSegments)
      (seen.drop (min offset s.state.registeredSegments)) s.state s.resources with
      ⟨hlt, -⟩ | ⟨-, heq⟩ | ⟨hle, result, n, planner, hall, heq⟩
    · omega
    · simp only [heq, Nat.sub_self, List.take_zero, List.append_nil, Option.some.injEq] at ht
      subst ht
      refine hi.registered (Or.inl hholder) hi.ledger ?_
      refine forall_mem_concat (hwindow _ (Nat.le_refl _)) ?_
      intro segments h
      cases h
    · rw [List.drop_drop, Nat.add_sub_cancel' hstart] at hall
      obtain ⟨hledger, hn, hfull⟩ := hi.ledger.register hseen hreg hi.bound hall
      simp only [heq, List.drop_drop, Nat.add_sub_cancel' hstart, Option.some.injEq] at ht
      rw [List.take_of_length_le (by omega)] at ht
      subst ht
      refine hi.registered (Or.inl hholder) hledger ?_
      refine forall_mem_concat (hwindow n (by omega)) ?_
      intro segments h
      cases result with
      | error e => cases h
      | ok u =>
        have hseg : segments = seen.drop offset := by
          simp only [Except.map, Except.ok.injEq] at h
          rw [← h, Nat.add_sub_cancel' (Nat.min_le_left _ _)]
        exact ⟨htotal ▸ hle, hseg, hseen, by rw [hfull u rfl]⟩
  · intro offset' start' segments' seen' hpc'
    rw [hpc] at hpc'
    cases hpc'
    refine ⟨hstart, by omega, Nat.min_le_left _ _, by omega, htotal, fun hexceeds => ?_⟩
    rcases listSegments_cases offset (min offset s.state.registeredSegments)
      (seen.drop (min offset s.state.registeredSegments)) s.state s.resources with
      ⟨hlt, -⟩ | ⟨-, heq⟩ | ⟨hle, -⟩
    · omega
    · simp only [heq, Nat.sub_self, List.take_zero, List.append_nil, Option.some.injEq] at ht
      subst ht
      exact ⟨rfl, rfl, rfl, rfl⟩
    · omega

theorem Inv.register (hi : Inv s) (ht : step s (.register c) = some t) : Inv t ∧ StepLawful s (.register c) t := by
  simp only [step] at ht
  split at ht
  case h_2 => cases ht
  next segments hpc =>
  split_ifs at ht with hfree
  have hok := hi.callers c
  rw [hpc] at hok
  obtain ⟨rfl, hclosed⟩ := hok
  have hle := hi.ledger.le
  obtain ⟨result, n, planner, hall⟩ : ∃ result n planner,
      registerAll (s.inventory.drop s.state.registeredSegments) s.state.registeredSegments
        s.resources.segmentPlanner = (result, n, planner) := ⟨_, _, _, rfl⟩
  have heq : registerSegments s.inventory s.state s.resources =
      (result, { s.state with registeredSegments := n }, { s.resources with segmentPlanner := planner }) := by
    unfold registerSegments
    rw [if_neg (by omega), hall]
  obtain ⟨hledger, hn, hfull⟩ := hi.ledger.register (List.prefix_refl _) hle hi.bound hall
  simp only [heq, Option.some.injEq] at ht
  subst ht
  constructor
  · exact hi.registered (Or.inr hfree) hledger fun r hr =>
      (hi.windows r hr).mono (List.prefix_refl _) (by simp only; omega)
  · intro segments' hpc'
    rw [hpc] at hpc'
    cases hpc'
    refine ⟨rfl, hle, fun hok => ?_⟩
    rw [heq] at hok
    exact hfull () hok

/-- Another section leaves the counter, the counts of the planner and the calls alone. -/
theorem Inv.elsewhere (hi : Inv s) {lifecycle : Lifecycle} {outcome : Option RecordingOutcome}
    {r : Resources} (hcount : r.segmentPlanner.segmentCount = s.resources.segmentPlanner.segmentCount)
    (hcovered : r.segmentPlanner.coveredFrames = s.resources.segmentPlanner.coveredFrames) :
    Inv { s with state := { s.state with lifecycle, outcome }, resources := r } where
  ledger := hi.ledger.congr hcount hcovered
  bound := hi.bound
  callers c := (hi.callers c).congr rfl rfl rfl id
  windows r hr := (hi.windows r hr).mono (List.prefix_refl _) (Nat.le_refl _)

theorem nextFrame_counts (p : RecordingSegmentPlanner) (n : ℕ) (t : ℚ) :
    (p.nextFrame n t).2.segmentCount = p.segmentCount ∧ (p.nextFrame n t).2.coveredFrames = p.coveredFrames := by
  unfold RecordingSegmentPlanner.nextFrame
  split
  · exact ⟨rfl, rfl⟩
  · simp only
    split <;> split_ifs <;> exact ⟨rfl, rfl⟩

theorem finish_counts (p : RecordingSegmentPlanner) (n m : ℕ) (t : ℚ) :
    (p.finish n m t).2.segmentCount = p.segmentCount ∧ (p.finish n m t).2.coveredFrames = p.coveredFrames := by
  unfold RecordingSegmentPlanner.finish
  split
  · exact ⟨rfl, rfl⟩
  · simp only
    split_ifs <;> exact ⟨rfl, rfl⟩

theorem Inv.step {a : Action} (hi : Inv s) (ht : step s a = some t) : Inv t ∧ StepLawful s a t := by
  cases a with
  | event segment =>
    simp only [Inventory.step, Option.ite_none_right_eq_some, Option.some.injEq, Bool.and_eq_true,
      Bool.not_eq_true', decide_eq_true_eq] at ht
    obtain ⟨⟨hopen, hroom⟩, rfl⟩ := ht
    exact ⟨hi.event hopen hroom, trivial⟩
  | segmentsSince c offset =>
    simp only [Inventory.step, Option.ite_none_right_eq_some, Option.some.injEq] at ht
    obtain ⟨⟨hidle, hfree⟩, rfl⟩ := ht
    exact ⟨hi.enter hfree ⟨rfl, rfl⟩, trivial⟩
  | snapshot c =>
    simp only [Inventory.step] at ht
    split at ht
    case h_2 => cases ht
    next offset start hpc =>
    have hok := hi.callers c
    rw [hpc] at hok
    obtain ⟨hholder, rfl⟩ := hok
    have hle := hi.ledger.le
    have hstart : min offset s.state.registeredSegments ≤ s.inventory.length := by omega
    simp only [encoderSegmentsSince, hstart, if_true, Option.some.injEq] at ht
    subst ht
    exact ⟨hi.moveTo ⟨hholder, rfl, List.prefix_refl _, hle, rfl⟩, trivial⟩
  | list c => exact hi.list ht
  | encoderFinish c success =>
    simp only [Inventory.step, Option.ite_none_right_eq_some, Option.some.injEq] at ht
    obtain ⟨hidle, rfl⟩ := ht
    have hclosed : Inv { s with closed := true } :=
      { hi with callers := fun d => (hi.callers d).congr rfl rfl rfl fun _ => rfl }
    refine ⟨hclosed.moveTo ?_, trivial⟩
    split_ifs
    · exact ⟨rfl, rfl⟩
    · trivial
  | register c => exact hi.register ht
  | nextFrame recordSequence elapsed =>
    cases ht
    obtain ⟨hcount, hcovered⟩ := nextFrame_counts s.resources.segmentPlanner recordSequence elapsed
    exact ⟨hi.elsewhere hcount hcovered, trivial⟩
  | plannerFinish submittedFrames frameDomain duration =>
    cases ht
    obtain ⟨hcount, hcovered⟩ := finish_counts s.resources.segmentPlanner submittedFrames frameDomain duration
    exact ⟨hi.elsewhere hcount hcovered, trivial⟩
  | other lifecycle outcome activeTake sink =>
    cases ht
    exact ⟨hi.elsewhere rfl rfl, trivial⟩

/-- In every run the planner has accepted what the counter says, every successful call has
returned its window, and no slice is out of range. -/
theorem windows_lawful {activeTake : ActiveTakeWriter} {sink : RecordingSink} {segmentFrames : ℕ}
    {pos : 0 < segmentFrames} {as : List Action} {s : Sys}
    (hr : run step (init activeTake sink segmentFrames pos) as = some s) :
    Lawful s ∧ Along step StepLawful (init activeTake sink segmentFrames pos) as := by
  have hinit := init_inv activeTake sink segmentFrames pos
  constructor
  · exact (run_invariant (fun _ _ _ hi ht => (hi.step ht).1) hinit hr).lawful
  · exact along_of_invariant (fun _ _ _ hi ht => hi.step ht) hinit

def sampleInit : Sys := init { sessionId := "s" } { sessionId := "s" } 2 Nat.two_pos

/-- Two segments, a window beyond the registered prefix, a third segment that arrives between the
snapshot and the registration, and the registration of `finish`. -/
def sampleActions : List Action :=
  [.event ⟨0, 0, 2⟩, .event ⟨1, 2, 4⟩, .segmentsSince 7 1, .snapshot 7, .event ⟨2, 4, 6⟩, .list 7,
    .segmentsSince 8 9, .snapshot 8, .list 8, .encoderFinish 9 true, .register 9]

theorem windows_lawful_sample :
    ∃ s, run step sampleInit sampleActions = some s ∧ s.state.registeredSegments = 3 ∧ Lawful s := by
  have hrun : ∃ s, run step sampleInit sampleActions = some s ∧ s.state.registeredSegments = 3 := ⟨_, rfl, rfl⟩
  obtain ⟨s, hs, hcount⟩ := hrun
  exact ⟨s, hs, hcount, (windows_lawful hs).1⟩

end Conductor.Session.Inventory
