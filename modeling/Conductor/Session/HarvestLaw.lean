import Conductor.Session.Harvest

/-! When the checkpoints of the segments are complete. A call that seals one eye of a segment and not
the other has counted bytes of no record, and a call that finds nothing new does not write the
checkpoint that an earlier one owes. In the runs without such calls the records, the counter and
`segments.json` agree. -/

namespace Conductor.Harvest

open Checked KeyTable Runs

/-- The record of a segment of the inventory. -/
def Record.Lists (record : Record) (item : Option ClosedSegment) : Prop :=
  ∃ segment, item = some segment ∧ record.index = segment.index ∧ record.startOrdinal = segment.startFrame ∧
    record.endOrdinal = segment.endFrame ∧ record.left.path = segment.leftPath ∧ record.right.path = segment.rightPath

/-- What the memory of the recorder keeps at all times. -/
structure Kept (r : Recorder) : Prop where
  counted : r.harvestedSegments = r.segmentRecords.length
  listed : List.Forall₂ Record.Lists r.segmentRecords (r.inventory.listed.take r.harvestedSegments)
  bytes : r.segmentBytes = (r.segmentRecords.map Record.bytes).sum
  indexed : ∀ record ∈ r.segmentRecords, record.endOrdinal ≤ r.indexed

structure Complete (r : Recorder) : Prop where
  kept : Kept r
  durable : r.returned = true → r.checkpoint.getD [] = r.segmentRecords

/-- Unless a checkpoint is owed, `segments.json` has all records. -/
def Settled (r : Recorder) : Prop := r.owed = false → r.checkpoint.getD [] = r.segmentRecords

/-- Some turn of the loop seals the left eye of its segment and not the right one. -/
def halfSealed (call : Call) (turn : ℕ) : List ClosedSegment → ℕ → Bool
  | [], _ => false
  | segment :: rest, indexed =>
    let indexed := indexed + call.growth turn
    if call.snapshotRaises turn || indexed < segment.endFrame then false
    else
      match call.finalize segment.leftPath segment.leftBytes, call.finalize segment.rightPath segment.rightBytes with
      | .error _, _ => false
      | .ok _, .error _ => true
      | .ok _, .ok _ => halfSealed call (turn + 1) rest indexed

/-- The segments that a call may harvest, unless it raises before. -/
def unharvested (call : Call) (r : Recorder) : Option (List ClosedSegment) :=
  if r.gone then some []
  else if call.inventoryRaises then none
  else
    match r.inventory.closed r.harvestedSegments with
    | .error _ => none
    | .ok (offset, closed) => some (closed.drop (r.harvestedSegments - offset))

/-- A call that finds no new segment whose frames have an index. -/
def findsNothing (call : Call) (r : Recorder) : Bool :=
  match unharvested call r with
  | none => false
  | some [] => true
  | some (segment :: _) => !call.snapshotRaises 0 && r.indexed + call.growth 0 < segment.endFrame

/-- The calls that do what the recorder relies on: they seal both eyes or none, and none finds nothing
new while a checkpoint is owed. -/
def Regular (r : Recorder) : Act → Prop
  | .harvest call =>
    (∀ l, unharvested call r = some l → halfSealed call 0 l r.indexed = false) ∧
      (findsNothing call r = true → r.owed = false)
  | _ => True

/-! ### One segment -/

variable {r : Recorder} {call : Call} {closed : List ClosedSegment}

theorem Kept.grow (h : Kept r) (frames : ℕ) : Kept (r.grow frames) :=
  ⟨h.counted, h.listed, h.bytes, fun record hr => (h.indexed record hr).trans (Nat.le_add_right _ _)⟩

theorem Kept.extend (h : Kept r) (raws : List RawSegment) (segments : List ClosedSegment) :
    Kept { r with inventory := r.inventory.extend raws segments } := by
  obtain ⟨more, hmore⟩ : ∃ more, (r.inventory.extend raws segments).listed = r.inventory.listed ++ more := by
    cases r.inventory with
    | native incremental old => exact ⟨_, List.map_append⟩
    | encoder old => exact ⟨_, List.map_append⟩
  refine ⟨h.counted, ?_, h.bytes, h.indexed⟩
  have hlength : r.harvestedSegments ≤ r.inventory.listed.length := by
    have := h.listed.length_eq
    rw [List.length_take, ← h.counted] at this
    omega
  show List.Forall₂ _ _ (((r.inventory.extend raws segments).listed).take r.harvestedSegments)
  rw [hmore, List.take_append_of_le_length hlength]
  exact h.listed

variable {segment : ClosedSegment} {r' : Recorder}

theorem halfSealed_both {turn : ℕ} {rest : List ClosedSegment} {indexed : ℕ}
    (h : (match call.finalize segment.leftPath segment.leftBytes, call.finalize segment.rightPath segment.rightBytes with
      | .error _, _ => false | .ok _, .error _ => true
      | .ok _, .ok _ => halfSealed call (turn + 1) rest indexed) = false) :
    ((call.finalize segment.leftPath segment.leftBytes).toBool = true →
      (call.finalize segment.rightPath segment.rightBytes).toBool = true) ∧
    ((call.finalize segment.leftPath segment.leftBytes).toBool = true → halfSealed call (turn + 1) rest indexed = false) := by
  split at h
  · rename_i heq
    rw [heq]
    exact ⟨fun hleft => (nomatch hleft), fun hleft => (nomatch hleft)⟩
  · cases h
  · rename_i heq
    rw [heq]
    exact ⟨fun _ => rfl, fun _ => h⟩

/-- Both eyes are sealed, or the left one is not. -/
theorem segmentRecord_cases (h : (call.finalize segment.leftPath segment.leftBytes).toBool = true →
    (call.finalize segment.rightPath segment.rightBytes).toBool = true) :
    (∃ e, segmentRecord call segment r = (.error e, r)) ∨
      ∃ record r', segmentRecord call segment r = (.ok record, r') ∧
        (call.finalize segment.leftPath segment.leftBytes).toBool = true ∧ record.Lists (some segment) ∧
        r' = { r with
          artifactIdentities := r'.artifactIdentities
          segmentBytes := r.segmentBytes + record.bytes } := by
  unfold segmentRecord sealEye
  cases hleft : call.finalize segment.leftPath segment.leftBytes with
  | error e => exact .inl ⟨e, rfl⟩
  | ok left =>
    rw [hleft] at h
    cases hright : call.finalize segment.rightPath segment.rightBytes with
    | error e =>
      rw [hright] at h
      exact absurd (h rfl) (by simp [Except.toBool])
    | ok right =>
      refine .inr ⟨_, _, rfl, rfl, ⟨segment, rfl, rfl, rfl, rfl, rfl, rfl⟩, ?_⟩
      simp only [Record.bytes, Nat.add_assoc]

theorem Kept.record (h : Kept r) {record : Record}
    (hlists : record.Lists (some segment)) (hnext : r.inventory.listed[r.harvestedSegments]? = some (some segment))
    (hindexed : segment.endFrame ≤ r.indexed)
    (hr' : r' = { r with
      artifactIdentities := r'.artifactIdentities
      segmentBytes := r.segmentBytes + record.bytes }) :
    Kept { r' with
      segmentRecords := r'.segmentRecords ++ [record]
      harvestedSegments := r'.harvestedSegments + 1
      owed := true } := by
  rw [hr']
  constructor
  · simp [h.counted]
  · show List.Forall₂ _ (r.segmentRecords ++ [record]) (r.inventory.listed.take (r.harvestedSegments + 1))
    rw [List.take_add_one, hnext]
    exact List.rel_append h.listed (.cons hlists .nil)
  · simp [h.bytes]
  · intro other hother
    rcases mem_concat.1 hother with hother | hother
    · exact h.indexed other hother
    · obtain ⟨s, hs, -, -, hend, -⟩ := hlists
      rw [hother, hend, ← Option.some.inj hs]
      exact hindexed

/-! ### The loop -/

/-- What the loop does to a recorder. -/
structure Harvested (r r' : Recorder) : Prop where
  kept : Kept r'
  checkpoint : r'.checkpoint = r.checkpoint
  grows : r.harvestedSegments ≤ r'.harvestedSegments
  same : r'.harvestedSegments = r.harvestedSegments → r'.segmentRecords = r.segmentRecords
  owed : r'.owed = true ∨ r'.owed = r.owed ∧ r'.segmentRecords = r.segmentRecords

theorem Harvested.settled (h : Harvested r r') (hr : Settled r) : Settled r' := by
  intro howed
  rcases h.owed with htrue | ⟨hsame, hrecords⟩
  · rw [howed] at htrue
    cases htrue
  · rw [h.checkpoint, hrecords]
    exact hr (hsame ▸ howed)

theorem harvestLoop_spec (turn : ℕ) {l : List ClosedSegment} (hk : Kept r)
    (hl : r.inventory.listed.drop r.harvestedSegments = l.map some) (hsealed : halfSealed call turn l r.indexed = false) :
    Harvested r (harvestLoop call turn l r).2 ∧
      ((harvestLoop call turn l r).1 = .ok () → (harvestLoop call turn l r).2.harvestedSegments = r.harvestedSegments →
        ∀ segment ∈ l.head?, call.snapshotRaises turn = false ∧ r.indexed + call.growth turn < segment.endFrame) := by
  induction l generalizing turn r with
  | nil => exact ⟨⟨hk, rfl, le_rfl, fun _ => rfl, .inr ⟨rfl, rfl⟩⟩, fun _ _ _ hs => by simp at hs⟩
  | cons segment rest ih =>
    have hg := hk.grow (call.growth turn)
    cases hsnapshot : call.snapshotRaises turn with
    | true =>
      rw [harvestLoop, hsnapshot, if_pos rfl]
      exact ⟨⟨hg, rfl, le_rfl, fun _ => rfl, .inr ⟨rfl, rfl⟩⟩, fun h => by simp at h⟩
    | false =>
      rw [harvestLoop, hsnapshot]
      rw [halfSealed, hsnapshot, Bool.false_or] at hsealed
      by_cases hindex : (r.grow (call.growth turn)).indexed < segment.endFrame
      · rw [if_neg Bool.false_ne_true, if_pos hindex]
        refine ⟨⟨hg, rfl, le_rfl, fun _ => rfl, .inr ⟨rfl, rfl⟩⟩, fun _ _ s hs => ⟨rfl, ?_⟩⟩
        rw [List.head?_cons, Option.mem_some_iff] at hs
        exact hs ▸ hindex
      · have hindex' : ¬r.indexed + call.growth turn < segment.endFrame := hindex
        rw [if_neg (by simpa using hindex')] at hsealed
        obtain ⟨hboth, hrest⟩ := halfSealed_both hsealed
        rw [if_neg Bool.false_ne_true, if_neg hindex]
        rcases segmentRecord_cases (r := r.grow (call.growth turn)) hboth with ⟨e, he⟩ | ⟨record, r₁, he, hleft, hlists, hr₁⟩
        · rw [he]
          exact ⟨⟨hg, rfl, le_rfl, fun _ => rfl, .inr ⟨rfl, rfl⟩⟩, fun h => by simp at h⟩
        · rw [he]
          have hnext : r.inventory.listed[r.harvestedSegments]? = some (some segment) := by
            have := congrArg (·[0]?) hl
            simpa [List.getElem?_drop] using this
          have hk₁ := hg.record hlists hnext (not_lt.1 hindex) hr₁
          have hrest₁ : halfSealed call (turn + 1) rest r₁.indexed = false := by
            rw [hr₁]
            exact hrest hleft
          have hl₁ : r₁.inventory.listed.drop (r₁.harvestedSegments + 1) = rest.map some := by
            rw [hr₁]
            show r.inventory.listed.drop (r.harvestedSegments + 1) = _
            rw [← List.drop_drop, hl]
            rfl
          obtain ⟨hh, -⟩ := ih (turn + 1) hk₁ hl₁ hrest₁
          have hgrows : r.harvestedSegments < _ := lt_of_lt_of_le (by rw [hr₁]; exact Nat.lt_succ_self _) hh.grows
          refine ⟨⟨hh.kept, hh.checkpoint.trans (by rw [hr₁]; rfl), hgrows.le, fun heq => absurd heq hgrows.ne',
            .inl (hh.owed.elim id And.left)⟩, fun _ heq => absurd heq hgrows.ne'⟩

/-! ### One call -/

theorem mapM_closed {items : List RawSegment} (h : items.mapM closedSegment = .ok closed) :
    items.map (fun item => (closedSegment item).toOption) = closed.map some := by
  induction items generalizing closed with
  | nil =>
    obtain rfl : [] = closed := Except.ok.inj h
    rfl
  | cons item items ih =>
    rw [List.mapM_cons] at h
    obtain ⟨segment, hs, h⟩ := bind_eq_ok.1 h
    obtain ⟨rest, hrest, h⟩ := bind_eq_ok.1 h
    obtain rfl := pure_eq_ok.1 h
    rw [List.map_cons, List.map_cons, ih hrest, hs]
    rfl

/-- What is read of the inventory is what follows the harvested segments. -/
theorem closed_listed {inventory : Inventory} {harvested offset : ℕ}
    (h : inventory.closed harvested = .ok (offset, closed)) :
    inventory.listed.drop harvested = (closed.drop (harvested - offset)).map some := by
  cases inventory with
  | native incremental segments =>
    unfold Inventory.closed at h
    dsimp only at h
    split at h
    · cases h
    · cases hm : (segments.drop harvested).mapM closedSegment with
      | error e =>
        rw [hm] at h
        cases h
      | ok read =>
        rw [hm] at h
        obtain ⟨rfl, rfl⟩ := Prod.mk.inj (Except.ok.inj h)
        rw [Nat.sub_self, List.drop_zero, Inventory.listed, ← List.map_drop]
        exact mapM_closed hm
  | encoder segments =>
    obtain ⟨rfl, rfl⟩ := Prod.mk.inj (Except.ok.inj h)
    rw [Nat.sub_zero, Inventory.listed, ← List.map_drop]

theorem Kept.checkpoint (h : Kept r) (list : Option (List Record)) :
    Kept { r with checkpoint := list, owed := false } :=
  ⟨h.counted, h.listed, h.bytes, h.indexed⟩

theorem writeCheckpoint_spec (call : Call) (h : Kept r) (hsettled : Settled r) :
    Kept (writeCheckpoint call r).2 ∧ Settled (writeCheckpoint call r).2 ∧ ((writeCheckpoint call r).1 = .ok () →
        (writeCheckpoint call r).2.checkpoint.getD [] = (writeCheckpoint call r).2.segmentRecords) := by
  unfold writeCheckpoint
  split
  · exact ⟨h, hsettled, fun he => by cases he⟩
  · split
    · exact ⟨h, hsettled, fun he => by cases he⟩
    · exact ⟨h.checkpoint _, fun _ => rfl, fun he => by cases he⟩
    · exact ⟨h.checkpoint _, fun _ => rfl, fun _ => rfl⟩

theorem harvestSegments_spec (hk : Kept r) (hsettled : Settled r) (hregular : Regular r (.harvest call)) :
    Kept (harvestSegments call r).2 ∧ Settled (harvestSegments call r).2 ∧ ((harvestSegments call r).1 = .ok () →
        (harvestSegments call r).2.checkpoint.getD [] = (harvestSegments call r).2.segmentRecords) := by
  obtain ⟨hsealed, hidle⟩ := hregular
  unfold findsNothing at hidle
  unfold unharvested at hsealed hidle
  unfold harvestSegments
  split
  · rename_i hgone
    rw [if_pos hgone] at hidle
    exact ⟨hk, hsettled, fun _ => hsettled (hidle rfl)⟩
  · rename_i hgone
    rw [if_neg hgone] at hsealed hidle
    split
    · exact ⟨hk, hsettled, fun he => by cases he⟩
    · rename_i hinventory
      rw [if_neg hinventory] at hsealed hidle
      cases hclosed : r.inventory.closed r.harvestedSegments with
      | error e => exact ⟨hk, hsettled, fun he => by cases he⟩
      | ok read =>
        obtain ⟨offset, closed⟩ := read
        rw [hclosed] at hsealed hidle
        dsimp only at hsealed hidle ⊢
        obtain ⟨hh, hfirst⟩ := harvestLoop_spec 0 hk (closed_listed hclosed) (hsealed _ rfl)
        rcases hloop : harvestLoop call 0 (closed.drop (r.harvestedSegments - offset)) r with ⟨o, r'⟩
        rw [hloop] at hh hfirst
        cases o with
        | error e => exact ⟨hh.kept, hh.settled hsettled, fun he => by cases he⟩
        | ok u =>
          dsimp only
          split
          · rename_i hsame
            refine ⟨hh.kept, hh.settled hsettled, fun _ => ?_⟩
            rw [hh.checkpoint, hh.same hsame]
            refine hsettled (hidle ?_)
            cases hl : closed.drop (r.harvestedSegments - offset) with
            | nil => rfl
            | cons segment rest =>
              obtain ⟨hsnapshot, hindex⟩ := hfirst rfl hsame segment (by rw [hl]; rfl)
              simp [hsnapshot, hindex]
          · exact writeCheckpoint_spec call hh.kept (hh.settled hsettled)

/-! ### All calls -/

theorem step_complete {a : Act} (h : Complete r ∧ Settled r) (hregular : Regular r a)
    (hstep : step r a = some r') : Complete r' ∧ Settled r' := by
  obtain ⟨h, hsettled⟩ := h
  cases a with
  | close raws segments =>
    cases hstep
    exact ⟨⟨h.kept.extend raws segments, h.durable⟩, hsettled⟩
  | index frames =>
    cases hstep
    exact ⟨⟨h.kept.grow frames, h.durable⟩, hsettled⟩
  | abandon =>
    cases hstep
    exact ⟨⟨⟨h.kept.counted, h.kept.listed, h.kept.bytes, h.kept.indexed⟩, h.durable⟩, hsettled⟩
  | harvest call =>
    obtain ⟨hk, hs, hdurable⟩ := harvestSegments_spec h.kept hsettled hregular
    cases hstep
    refine ⟨⟨⟨hk.counted, hk.listed, hk.bytes, hk.indexed⟩, fun hreturned => ?_⟩, hs⟩
    cases ho : (harvestSegments call r).1 with
    | error e =>
      rw [ho] at hreturned
      cases hreturned
    | ok u => exact hdurable ho

theorem checkpoints_complete (inventory : Inventory) (indexed : ℕ) (acts : List Act) (r : Recorder)
    (hrun : run step { inventory, indexed } acts = some r)
    (hregular : Along step (fun r a _ => Regular r a) { inventory, indexed } acts) : Complete r := by
  have hinit : Complete { inventory, indexed } ∧ Settled { inventory, indexed } :=
    ⟨⟨⟨rfl, .nil, rfl, fun _ h => by simp at h⟩, fun _ => rfl⟩, fun _ => rfl⟩
  refine (run_invariant_of_along (G := fun r a _ => Regular r a) (I := fun r => Complete r ∧ Settled r) ?_ hinit
    hregular hrun).1
  exact fun r a r' h hstep hregular => step_complete h hregular hstep

/-! ### Two segments -/

def sampleSegment (index : ℕ) : ClosedSegment :=
  ⟨index, 60 * index, 60 * (index + 1), "video/left", 10, "video/right", 20⟩

def sampleFinalize (_ : String) (declared : ℕ) : Except Error FinalizedArtifact := .ok ⟨⟨1, 2, declared, 3⟩, "sha256", declared⟩

/-- The sync of a journal fails, and the next call finds another segment. -/
def sampleActs : List Act :=
  [.close [] [sampleSegment 0], .index 60, .harvest { finalize := sampleFinalize, journalRaises := true },
    .close [] [sampleSegment 1], .index 60, .harvest { finalize := sampleFinalize }]

theorem checkpoints_complete_sample :
    ∃ r, run step { inventory := .encoder [], indexed := 0 } sampleActs = some r ∧
      r.checkpoint = some r.segmentRecords ∧ r.segmentRecords.length = 2 ∧ r.segmentBytes = 60 ∧ Complete r := by
  refine ⟨_, rfl, rfl, rfl, rfl, checkpoints_complete (.encoder []) 0 sampleActs _ rfl ?_⟩
  intro _ h₁
  cases h₁
  refine ⟨trivial, fun _ h₂ => ?_⟩
  cases h₂
  refine ⟨trivial, fun _ h₃ => ?_⟩
  refine ⟨⟨fun l hl => ?_, fun h => (nomatch h)⟩, ?_⟩
  · cases hl
    rfl
  · cases h₃
    intro _ h₄
    cases h₄
    refine ⟨trivial, fun _ h₅ => ?_⟩
    cases h₅
    refine ⟨trivial, fun _ h₆ => ⟨⟨fun l hl => ?_, fun h => (nomatch h)⟩, trivial⟩⟩
    cases hl
    rfl

/-- The sync of a journal fails in the last call that finds a segment. The call at the failure of the
recording returns, and there is no `segments.json`. -/
theorem checkpoints_complete_fails :
    ¬∀ (inventory : Inventory) (indexed : ℕ) (acts : List Act) (r : Recorder),
      run step { inventory, indexed } acts = some r → Complete r := by
  intro h
  have hdurable := (h (.encoder []) 0
    [.close [] [sampleSegment 0], .index 60, .harvest { finalize := sampleFinalize, journalRaises := true },
      .harvest { finalize := sampleFinalize }] _ rfl).durable rfl
  exact absurd (congrArg List.length hdurable) (by decide)

end Conductor.Harvest
