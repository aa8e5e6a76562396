import Conductor.Stereo.Ledger
import Mathlib.Algebra.Order.Group.Nat
import Mathlib.Data.List.Nodup

/-! What the ledger keeps: its pairs are sorted, and what it has reported are the first pairs, each
with the same bounds on both sides. -/

namespace Conductor.Stereo.Ledger

variable {l m : Ledger} {side : Side} {index start stop : ℕ} {file : SealedFile} {allocated : Bool}

/-! ### The position -/

theorem position_append (index : ℕ) (pairs : List ClosedPair) :
    (position index pairs).1 ++ (position index pairs).2 = pairs := by
  induction pairs with
  | nil => rfl
  | cons pair rest ih =>
    unfold position
    split
    · simp [ih]
    · rfl

variable {pair : ClosedPair} {pairs : List ClosedPair}

theorem position_below (h : pair ∈ (position index pairs).1) : pair.index < index := by
  induction pairs with
  | nil => cases h
  | cons first rest ih =>
    unfold position at h
    split at h
    · rename_i hlt
      rcases List.mem_cons.1 h with rfl | h
      · exact hlt
      · exact ih h
    · cases h

theorem position_above (hsorted : pairs.Pairwise fun p q => p.index < q.index)
    (h : pair ∈ (position index pairs).2) : index ≤ pair.index := by
  induction pairs with
  | nil => cases h
  | cons first rest ih =>
    obtain ⟨hfirst, hrest⟩ := List.pairwise_cons.1 hsorted
    unfold position at h
    split at h
    · exact ih hrest h
    · rename_i hge
      rcases List.mem_cons.1 h with rfl | h
      · exact not_lt.1 hge
      · exact (not_lt.1 hge).trans (hfirst pair h).le

/-! ### The invariant -/

/-- The bounds of the segments of each side, and how many of them came. -/
structure Inv (span : Side → ℕ → ℕ × ℕ) (next : Side → ℕ) (l : Ledger) : Prop where
  sorted : l.closedPairs.Pairwise fun p q => p.index < q.index
  pending : l.pendingPairs = l.closedPairs.length
  later : ∀ pair ∈ l.closedPairs, l.reportedPairs ≤ pair.index
  files : ∀ pair ∈ l.closedPairs, ∀ side, (pair.files side).isSome → pair.index < next side ∧
    (pair.start, pair.stop) = span side pair.index
  reached : ∀ side, l.reportedPairs ≤ next side
  reports : l.reports.map (fun r => (r.index, r.start, r.stop)) =
    (List.range l.reportedPairs).map fun i => (i, span .left i)
  agreed : ∀ i, i < l.reportedPairs → span .left i = span .right i

/-- Nothing that came is missing. -/
def Whole (next : Side → ℕ) (l : Ledger) : Prop :=
  ∀ side i, l.reportedPairs ≤ i → i < next side → ∃ pair ∈ l.closedPairs, pair.index = i ∧ (pair.files side).isSome

/-- The first pair is not the one to report. -/
def Flushed (l : Ledger) : Prop :=
  ∀ pair ∈ l.closedPairs, pair.index = l.reportedPairs → ∃ side, pair.files side = none

variable {span : Side → ℕ → ℕ × ℕ} {next : Side → ℕ}

theorem Inv.mono {later : Side → ℕ} (h : Inv span next l) (hle : ∀ side, next side ≤ later side) : Inv span later l :=
  ⟨h.sorted, h.pending, h.later, fun pair hpair side hfile =>
    ⟨(h.files pair hpair side hfile).1.trans_le (hle side), (h.files pair hpair side hfile).2⟩,
    fun side => (h.reached side).trans (hle side), h.reports, h.agreed⟩

theorem init_inv : Inv span (fun _ => 0) {} := by
  constructor <;> simp

theorem init_whole : Whole (fun _ => 0) {} := by
  intro side i _ hi
  cases hi

variable {rest before : List ClosedPair}

/-- The first pair, with both files, and all pairs before it reported. -/
theorem Inv.report {left right : SealedFile} (h : Inv span next l)
    (hpairs : l.closedPairs = pair :: rest) (hleft : pair.files .left = some left)
    (hright : pair.files .right = some right)
    (hindex : pair.index = l.reportedPairs) :
    Inv span next { l with
      closedPairs := rest
      pendingPairs := l.pendingPairs - 1
      reportedPairs := l.reportedPairs + 1
      reports := l.reports ++ [⟨pair.index, pair.start, pair.stop, left, right⟩] } := by
  have hsorted := h.sorted
  rw [hpairs, List.pairwise_cons] at hsorted
  have hfirst : pair ∈ l.closedPairs := by simp [hpairs]
  obtain ⟨hnextLeft, hspanLeft⟩ := h.files pair hfirst .left (by simp [hleft])
  obtain ⟨hnextRight, hspanRight⟩ := h.files pair hfirst .right (by simp [hright])
  constructor
  · exact hsorted.2
  · simp [h.pending, hpairs]
  · intro other hother
    have hlt := hsorted.1 other hother
    dsimp only
    omega
  · intro other hother
    exact h.files other (by simp [hpairs, hother])
  · intro side
    cases side
    · simp only [← hindex]
      omega
    · simp only [← hindex]
      omega
  · simp only [List.map_append, List.map_cons, List.map_nil, List.range_succ, h.reports]
    rw [← hindex, ← hspanLeft]
  · intro i hi
    by_cases hlast : i = pair.index
    · rw [hlast, ← hspanLeft, ← hspanRight]
    · exact h.agreed i (by dsimp only at hi; omega)

theorem Whole.report {reports : List Report} (h : Whole next l)
    (hpairs : l.closedPairs = pair :: rest) (hindex : pair.index = l.reportedPairs) :
    Whole next { l with
      closedPairs := rest
      pendingPairs := l.pendingPairs - 1
      reportedPairs := l.reportedPairs + 1
      reports := reports } := by
  intro side i hlow hhigh
  dsimp only at hlow
  obtain ⟨other, hother, rfl, hfile⟩ := h side i (by omega) hhigh
  rw [hpairs] at hother
  rcases List.mem_cons.1 hother with rfl | hother
  · omega
  · exact ⟨other, hother, rfl, hfile⟩

theorem flush_inv (h : Inv span next l) (hpairs : l.closedPairs = pairs) :
    Inv span next (flush pairs l) ∧ Flushed (flush pairs l) ∧ (Whole next l → Whole next (flush pairs l)) := by
  induction pairs generalizing l with
  | nil => exact ⟨h, by simp [Flushed, flush, hpairs], fun hwhole => hwhole⟩
  | cons pair rest ih =>
    have hstay : (pair.index = l.reportedPairs → ∃ side, pair.files side = none) → Flushed l := by
      intro hnone other hother hindex
      rw [hpairs] at hother
      rcases List.mem_cons.1 hother with rfl | hother
      · exact hnone hindex
      · have hsorted := h.sorted
        rw [hpairs, List.pairwise_cons] at hsorted
        have hlt := hsorted.1 other hother
        have hge := h.later pair (by simp [hpairs])
        omega
    unfold flush
    split
    · rename_i left right hleft hright
      split
      · rename_i hindex
        obtain ⟨hinv, hflushed, hwhole⟩ := ih (h.report hpairs hleft hright hindex) rfl
        exact ⟨hinv, hflushed, fun hw => hwhole (hw.report hpairs hindex)⟩
      · rename_i hindex
        exact ⟨h, hstay fun heq => absurd heq hindex, fun hw => hw⟩
    · rename_i hnot
      refine ⟨h, hstay fun _ => ?_, fun hw => hw⟩
      cases hleft : pair.files .left with
      | none => exact ⟨.left, hleft⟩
      | some left =>
        cases hright : pair.files .right with
        | none => exact ⟨.right, hright⟩
        | some right => exact absurd hright (hnot left right hleft)

/-! ### One record -/

/-- One pair has changed, or is new. -/
theorem Inv.place {later : Side → ℕ} {n : ℕ} (h : Inv span next l)
    (hle : ∀ side, next side ≤ later side) (hsorted : (before ++ pair :: rest).Pairwise fun p q => p.index < q.index)
    (hpending : n = (before ++ pair :: rest).length)
    (hothers : ∀ other, other ∈ before ∨ other ∈ rest → other ∈ l.closedPairs)
    (hlater : l.reportedPairs ≤ pair.index) (hfiles : ∀ side, (pair.files side).isSome → pair.index < later side ∧
    (pair.start, pair.stop) = span side pair.index) :
    Inv span later { l with closedPairs := before ++ pair :: rest, pendingPairs := n } := by
  have hmem : ∀ other ∈ before ++ pair :: rest, other = pair ∨ other ∈ l.closedPairs := by
    intro other hother
    rcases List.mem_append.1 hother with hother | hother
    · exact .inr (hothers other (.inl hother))
    · exact (List.mem_cons.1 hother).imp_right fun hother => hothers other (.inr hother)
  have hkept := h.mono hle
  refine ⟨hsorted, hpending, fun other hother => ?_, fun other hother => ?_, hkept.reached, h.reports, h.agreed⟩
  · rcases hmem other hother with rfl | hother
    · exact hlater
    · exact h.later other hother
  · rcases hmem other hother with rfl | hother
    · exact hfiles
    · exact hkept.files other hother

/-- A new pair has a place of its own. -/
theorem Inv.insert (h : Inv span next l) (hmissing : ∀ pair ∈ l.closedPairs, pair.index ≠ index)
    (hlater : l.reportedPairs ≤ index) :
    Inv span next { l with
      closedPairs := (position index l.closedPairs).1 ++
        { index := index, start := start, stop := stop } :: (position index l.closedPairs).2
      pendingPairs := l.pendingPairs + 1 } := by
  have happend := position_append index l.closedPairs
  have hmem : ∀ pair, pair ∈ (position index l.closedPairs).1 ∨ pair ∈ (position index l.closedPairs).2 →
    pair ∈ l.closedPairs := by
    intro pair
    rw [← List.mem_append, happend]
    exact id
  have hsorted := h.sorted
  rw [← happend, List.pairwise_append] at hsorted
  refine h.place (fun _ => Nat.le_refl _) ?_ ?_ hmem hlater (by simp)
  · refine List.pairwise_append.2
      ⟨hsorted.1, List.pairwise_cons.2 ⟨fun pair hpair => ?_, hsorted.2.1⟩, fun pair hpair other hother => ?_⟩
    · exact lt_of_le_of_ne (position_above h.sorted hpair) (hmissing pair (hmem pair (.inr hpair))).symm
    · rcases List.mem_cons.1 hother with rfl | hother
      · exact position_below hpair
      · exact hsorted.2.2 pair hpair other hother
  · rw [h.pending, ← congrArg List.length happend, List.length_append, List.length_append, List.length_cons]
    rfl

/-- The pair that was found or made, and no other is lost. -/
structure Located (l m : Ledger) (index : ℕ) (before : List ClosedPair) (pair : ClosedPair)
    (rest : List ClosedPair) : Prop where
  pairs : m.closedPairs = before ++ pair :: rest
  index : pair.index = index
  same : m.reportedPairs = l.reportedPairs
  kept : ∀ other ∈ l.closedPairs, other ∈ m.closedPairs
  new : ∀ other ∈ m.closedPairs, other ∈ l.closedPairs ∨ other.files = fun _ => none

theorem locate_spec (h : Inv span next l) (hlater : l.reportedPairs ≤ index)
    (hlocate : l.locate index start stop allocated = some (m, before, pair, rest)) :
    Inv span next m ∧ Located l m index before pair rest := by
  have happend := position_append index l.closedPairs
  have hinsert : (∀ pair ∈ (position index l.closedPairs).2, pair.index ≠ index) →
      l.insert index start stop allocated = some (m, before, pair, rest) → Inv span next m ∧
        Located l m index before pair rest := by
    intro hmissing hsome
    unfold Ledger.insert at hsome
    obtain ⟨-, hsome⟩ := Option.ite_none_right_eq_some.1 hsome
    cases hsome
    refine ⟨h.insert (fun pair hpair => ?_) hlater, rfl, rfl, rfl, fun other hother => ?_, fun other hother => ?_⟩
    · rw [← happend] at hpair
      rcases List.mem_append.1 hpair with hpair | hpair
      · exact (position_below hpair).ne
      · exact hmissing pair hpair
    · rw [← happend] at hother
      rcases List.mem_append.1 hother with hother | hother
      · exact List.mem_append_left _ hother
      · exact List.mem_append_right _ (List.mem_cons_of_mem _ hother)
    · rw [← happend]
      rcases List.mem_append.1 hother with hother | hother
      · exact .inl (List.mem_append_left _ hother)
      · rcases List.mem_cons.1 hother with rfl | hother
        · exact .inr rfl
        · exact .inl (List.mem_append_right _ hother)
  unfold locate at hlocate
  dsimp only at hlocate
  split at hlocate
  · rename_i first after hsecond
    split at hlocate
    · rename_i hindex
      cases hlocate
      refine ⟨h, ?_, hindex, rfl, fun _ hother => hother, fun _ hother => .inl hother⟩
      rw [← hsecond, happend]
    · rename_i hindex
      refine hinsert (fun other hother => ?_) hlocate
      have hsorted := h.sorted
      rw [← happend, List.pairwise_append, hsecond, List.pairwise_cons] at hsorted
      have hfirst := position_above h.sorted (show first ∈ (position index l.closedPairs).2 by simp [hsecond])
      rw [hsecond] at hother
      rcases List.mem_cons.1 hother with rfl | hother
      · exact hindex
      · have hlt := hsorted.2.1.1 other hother
        omega
  · rename_i hsecond
    exact hinsert (by simp [hsecond]) hlocate

/-- The number of segments that came, with one more on this side. -/
abbrev bump (next : Side → ℕ) (side : Side) (index : ℕ) : Side → ℕ := Function.update next side (index + 1)

theorem le_bump (h : next side ≤ index) (other : Side) : next other ≤ bump next side index other := by
  unfold bump
  by_cases hother : other = side
  · subst hother
    rw [Function.update_self]
    omega
  · rw [Function.update_of_ne hother]

/-- The file of the segment that came. -/
theorem Inv.fill (h : Inv span next l) (hnext : next side ≤ index)
    (hpairs : l.closedPairs = before ++ pair :: rest) (hindex : pair.index = index)
    (hspan : (pair.start, pair.stop) = span side index) : Inv span (bump next side index) { l with
      closedPairs := before ++ { pair with files := Function.update pair.files side (some file) } :: rest } := by
  have hsorted := h.sorted
  rw [hpairs, List.pairwise_append, List.pairwise_cons] at hsorted
  refine h.place (le_bump hnext) ?_ ?_ (fun other hother => ?_) (h.later pair (by simp [hpairs])) fun which hfile => ?_
  · refine List.pairwise_append.2
      ⟨hsorted.1, List.pairwise_cons.2 ⟨hsorted.2.1.1, hsorted.2.1.2⟩, fun other hother last hlast => ?_⟩
    rcases List.mem_cons.1 hlast with rfl | hlast
    · exact hsorted.2.2 other hother pair (List.mem_cons_self ..)
    · exact hsorted.2.2 other hother last (List.mem_cons_of_mem _ hlast)
  · simp [h.pending, hpairs]
  · rcases hother with hother | hother <;> simp [hpairs, hother]
  · by_cases hwhich : which = side
    · subst hwhich hindex
      exact ⟨by simp, hspan⟩
    · obtain ⟨hlt, hsame⟩ := h.files pair (by simp [hpairs]) which (by simpa [Function.update_of_ne hwhich] using hfile)
      exact ⟨hlt.trans_le (le_bump hnext which), hsame⟩

theorem Whole.fill (h : Whole next l)
    (hsame : m.reportedPairs = l.reportedPairs) (hkept : ∀ other ∈ l.closedPairs, other ∈ m.closedPairs)
    (hpairs : m.closedPairs = before ++ pair :: rest) (hindex : pair.index = index) (hnext : index = next side) :
    Whole (bump next side index) { m with
      closedPairs := before ++ { pair with files := Function.update pair.files side (some file) } :: rest } := by
  intro which i hlow hhigh
  have hfound : (which = side ∧ i = index) ∨ ∃ other ∈ m.closedPairs, other.index = i ∧ (other.files which).isSome := by
    by_cases hwhich : which = side
    · subst hwhich
      rw [bump, Function.update_self] at hhigh
      by_cases hi : i = index
      · exact .inl ⟨rfl, hi⟩
      · obtain ⟨other, hother, hrest⟩ := h which i (hsame ▸ hlow) (by omega)
        exact .inr ⟨other, hkept other hother, hrest⟩
    · rw [bump, Function.update_of_ne hwhich] at hhigh
      obtain ⟨other, hother, hrest⟩ := h which i (hsame ▸ hlow) hhigh
      exact .inr ⟨other, hkept other hother, hrest⟩
  rcases hfound with ⟨rfl, rfl⟩ | ⟨other, hother, rfl, hfile⟩
  · refine ⟨{ pair with files := Function.update pair.files which (some file) }, by simp, hindex, ?_⟩
    simp
  · rw [hpairs] at hother
    rcases List.mem_append.1 hother with hother | hother
    · exact ⟨other, by simp [hother], rfl, hfile⟩
    · rcases List.mem_cons.1 hother with rfl | hother
      · refine ⟨{ other with files := Function.update other.files side (some file) }, by simp, rfl, ?_⟩
        by_cases hwhich : which = side
        · subst hwhich
          simp
        · simpa [Function.update_of_ne hwhich] using hfile
      · exact ⟨other, by simp [hother], rfl, hfile⟩

/-- A record of the next segment of a side, whatever it answers. -/
theorem record_inv {error : Option LedgerError} (h : Inv span next l) (hflushed : Flushed l) (hnext : next side ≤ index)
    (hspan : span side index = (start, stop)) (hrecord : l.record side index start stop file allocated = (error, m)) :
    Inv span (bump next side index) m ∧ Flushed m ∧
      (error = none → index = next side → Whole next l → Whole (bump next side index) m) := by
  have hlater : l.reportedPairs ≤ index := (h.reached side).trans hnext
  unfold record at hrecord
  split at hrecord
  · cases hrecord
    exact ⟨h.mono (le_bump hnext), hflushed, by simp⟩
  · rename_i l' before pair rest hlocate
    obtain ⟨hinv, hpairs, hindex, hsame, hkept, hnew⟩ := locate_spec h hlater hlocate
    split at hrecord
    · cases hrecord
      refine ⟨hinv.mono (le_bump hnext), fun other hother hfirst => ?_, by simp⟩
      rcases hnew other hother with hold | hempty
      · exact hflushed other hold (hfirst.trans hsame)
      · exact ⟨.left, by rw [hempty]⟩
    · rename_i hfits
      rw [not_or, not_or, not_not, not_not] at hfits
      obtain ⟨hstart, hstop, -⟩ := hfits
      cases hrecord
      have hfilled : Inv span (bump next side index) { l' with
          closedPairs := before ++ { pair with files := Function.update pair.files side (some file) } :: rest } :=
        hinv.fill hnext hpairs hindex (by rw [hspan, hstart, hstop])
      obtain ⟨hdone, hflush, hwhole⟩ := flush_inv hfilled rfl
      exact ⟨hdone, hflush, fun _ hnow hw => hwhole (hw.fill hsame hkept hpairs hindex hnow)⟩

/-- When both sides have brought as many segments, and none was lost, all pairs are reported. -/
theorem Inv.complete {n : ℕ} (h : Inv span next l) (hflushed : Flushed l) (hwhole : Whole next l)
    (hnext : ∀ side, next side = n) : l.reportedPairs = n := by
  refine le_antisymm (by simpa [hnext] using h.reached .left) (not_lt.1 fun hlt => ?_)
  have hpair : ∀ side, ∃ pair ∈ l.closedPairs, pair.index = l.reportedPairs ∧ (pair.files side).isSome := by
    intro side
    exact hwhole side l.reportedPairs (Nat.le_refl _) (by rw [hnext]; exact hlt)
  obtain ⟨left, hleft, hindexLeft, hfileLeft⟩ := hpair .left
  obtain ⟨right, hright, hindexRight, hfileRight⟩ := hpair .right
  have hnodup : (l.closedPairs.map (·.index)).Nodup := List.pairwise_map.2 (h.sorted.imp fun hlt => hlt.ne)
  obtain rfl := List.inj_on_of_nodup_map hnodup hleft hright (hindexLeft.trans hindexRight.symm)
  obtain ⟨side, hnone⟩ := hflushed left hleft hindexLeft
  cases side
  · rw [hnone] at hfileLeft
    cases hfileLeft
  · rw [hnone] at hfileRight
    cases hfileRight

end Conductor.Stereo.Ledger
