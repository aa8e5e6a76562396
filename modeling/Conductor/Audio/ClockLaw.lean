import Conductor.Audio.Clock
import Mathlib.Data.List.Chain
import Mathlib.Data.List.GetD
import Mathlib.Algebra.Order.Field.Power
import Mathlib.Tactic.Linarith
import Mathlib.Tactic.Ring

/-! The two clock models accept the same anchors and give the same times. Both decide
one set of conditions: on each row, on each pair of neighbours, on the ends and on the
slope. Once the rows before it are accepted, every subtraction of the device is one of
a greater number and no divisor is zero. -/

namespace Conductor.Audio

open Checked Word64 Bisect

/-! ### Rows -/

def Anchor.midpoint (a : Anchor) : ℕ := a.before.toNat + (a.after.toNat - a.before.toNat) / 2

def Anchor.mapped (a : Anchor) : ℕ := a.raw.toNat + a.mono.toNat - a.midpoint

def Anchor.point (a : Anchor) : ℕ × ℕ := (a.position.toNat, a.mapped)

/-- A row that both models map to the host clock. -/
structure Bridged (a : Anchor) : Prop where
  position : 0 < a.position.toNat
  raw : 0 < a.raw.toNat
  mono : 0 < a.mono.toNat
  raw_le : a.raw.toNat ≤ a.before.toNat
  before_le : a.before.toNat ≤ a.after.toNat
  width : a.after.toNat ≤ a.before.toNat + 1000000
  age : a.after.toNat ≤ a.raw.toNat + 20000000
  mapped : a.midpoint < a.raw.toNat + a.mono.toNat

theorem toNat_eq_zero {x : UInt64} : x = 0 ↔ x.toNat = 0 := by
  rw [← UInt64.toNat_inj]
  rfl

theorem mappedNs_decides (a : Anchor) : Decides (mappedNs a) (Bridged a) a.mapped := by
  have hafter : a.after.toNat < size := a.after.toNat_lt
  unfold mappedNs
  simp only
  refine ((decides_reject _ _).bind (Q := Bridged a) fun h => ?_).congr ⟨And.right, fun h => ⟨?_, h⟩⟩
  swap
  · simp only [toNat_eq_zero, not_or, not_lt]
    exact ⟨h.position.ne', h.raw.ne', h.mono.ne', h.raw_le, h.before_le⟩
  simp only [toNat_eq_zero, not_or, not_lt, ← Nat.pos_iff_ne_zero] at h
  obtain ⟨hposition, hraw, hmono, hle, hbefore⟩ := h
  refine .of_ok (sub_eq hbefore) ?_
  refine ((decides_reject _ _).bind (Q := Bridged a) fun hwidth => ?_).congr
    ⟨And.right, fun h => ⟨by have := h.width; omega, h⟩⟩
  refine .of_ok (sub_eq (hle.trans hbefore)) ?_
  refine ((decides_reject _ _).bind (Q := Bridged a) fun hage => ?_).congr
    ⟨And.right, fun h => ⟨by have := h.age; omega, h⟩⟩
  have hmid : checkedAdd a.before.toNat ((a.after.toNat - a.before.toNat) / 2) = some a.midpoint :=
    checkedAdd_eq_some.2 ⟨by omega, rfl⟩
  rw [hmid]
  refine .of_ok rfl ?_
  have hmidle : a.raw.toNat ≤ a.midpoint := by unfold Anchor.midpoint; omega
  refine .of_ok (sub_eq hmidle) ?_
  by_cases hm : a.midpoint < a.raw.toNat + a.mono.toNat
  · have hvalue : (checkedSub a.mono.toNat (a.midpoint - a.raw.toNat)).filter (0 < ·) = some a.mapped := by
      have hs : checkedSub a.mono.toNat (a.midpoint - a.raw.toNat) = some a.mapped :=
        checkedSub_eq_some.2 ⟨by omega, by unfold Anchor.mapped; omega⟩
      rw [hs]
      simp [Anchor.mapped]
      omega
    rw [hvalue]
    exact .inl ⟨⟨hposition, hraw, hmono, hle, hbefore, by omega, by omega, hm⟩, rfl⟩
  · have hnone : (checkedSub a.mono.toNat (a.midpoint - a.raw.toNat)).filter (0 < ·) = none := by
      rw [Option.filter_eq_none_iff]
      intro v hv
      obtain ⟨-, rfl⟩ := checkedSub_eq_some.1 hv
      simp
      omega
    rw [hnone]
    exact .inr ⟨fun h => hm h.mapped, _, rfl⟩

/-- The point of an anchor as the readers compute it. -/
def Anchor.pointInt (a : Anchor) : ℤ × ℤ := (a.position.toNat, a.mapped)

theorem mapRow_decides (a : Anchor) : Decides (mapRow a.row) (Bridged a) a.pointInt := by
  have hposition := a.position.toNat_lt
  have hraw := a.raw.toNat_lt
  have hmono := a.mono.toNat_lt
  have hbefore := a.before.toNat_lt
  have hafter := a.after.toNat_lt
  unfold mapRow Anchor.row
  simp only
  refine ((decides_reject _ _).bind (Q := Bridged a) fun h => ?_).congr ⟨And.right, fun h => ⟨?_, h⟩⟩
  swap
  · have h1 := h.position
    have h2 := h.raw
    have h3 := h.mono
    have h4 := h.raw_le
    have h5 := h.before_le
    simp only [List.mem_cons, List.not_mem_nil, or_false, exists_eq_or_imp, exists_eq_left, not_or, not_not]
    omega
  simp only [List.mem_cons, List.not_mem_nil, or_false, exists_eq_or_imp, exists_eq_left, not_or,
    not_not] at h
  refine ((decides_reject _ _).bind (Q := Bridged a) fun hbridge => ?_).congr
    ⟨And.right, fun h => ⟨?_, h⟩⟩
  swap
  · have h1 := h.raw_le
    have h2 := h.before_le
    have h3 := h.width
    have h4 := h.age
    omega
  have hmid : (a.before.toNat : ℤ) + ((a.after.toNat : ℤ) - a.before.toNat) / 2 = a.midpoint := by
    unfold Anchor.midpoint
    omega
  rw [hmid]
  refine ((decides_reject _ _).bind (Q := Bridged a) fun hmapped => ?_).congr
    ⟨And.right, fun h => ⟨by have := h.mapped; omega, h⟩⟩
  have hvalue : (a.raw.toNat : ℤ) + a.mono.toNat - a.midpoint = a.mapped := by
    unfold Anchor.mapped
    omega
  rw [hvalue]
  exact .inl ⟨⟨by omega, by omega, by omega, by omega, by omega, by omega, by omega, by omega⟩, rfl⟩

/-! ### Neighbours -/

/-- What both models ask of two neighbours. -/
structure Successive (rate buffer : ℕ) (a b : Anchor) : Prop where
  position : a.position.toNat < b.position.toNat
  raw : a.raw.toNat < b.raw.toNat
  mono : a.mono.toNat < b.mono.toNat
  bracket : a.after.toNat < b.before.toNat
  mapped : a.mapped < b.mapped
  gap : b.position.toNat ≤ a.position.toNat + (rate + buffer)
  bridge : |((b.mono.toNat : ℚ) - a.mono.toNat) - (((b.before.toNat : ℚ) - a.before.toNat) +
      (((b.after.toNat : ℚ) - b.before.toNat) - ((a.after.toNat : ℚ) - a.before.toNat)) / 2)| ≤
    (((b.before.toNat : ℚ) - a.before.toNat) +
      (((b.after.toNat : ℚ) - b.before.toNat) - ((a.after.toNat : ℚ) - a.before.toNat)) / 2) * (1 / 100) +
    (((b.after.toNat : ℚ) - b.before.toNat) + ((a.after.toNat : ℚ) - a.before.toNat)) / 2

/-- An addition that compares with words as the exact sum does. -/
def Adds (add : ℕ → ℕ → ℕ) : Prop := ∀ a b c, c < size → (add a b < c ↔ a + b < c)

theorem adds_saturating : Adds saturatingAdd := fun _ _ _ hc => saturatingAdd_lt_iff hc

theorem adds_exact : Adds (· + ·) := fun _ _ _ _ => Iff.rfl

variable {add : ℕ → ℕ → ℕ} {points : List (ℕ × ℕ)}

theorem checkWindow_decides (hadd : Adds add) (rate buffer : ℕ) {a b : Anchor} (ha : Bridged a) (hb : Bridged b) :
    Decides (checkWindow add rate buffer ((a, b), (a.point, b.point))) (Successive rate buffer a b) () := by
  have hposition : b.position.toNat < size := b.position.toNat_lt
  unfold checkWindow
  simp only [UInt64.le_iff_toNat_le, Anchor.point]
  refine ((decides_reject _ _).bind (Q := Successive rate buffer a b) fun h => ?_).congr
    ⟨And.right, fun h => ⟨?_, h⟩⟩
  swap
  · simp only [not_or, not_le]
    exact ⟨h.position, h.raw, h.mono, h.bracket, h.mapped⟩
  simp only [not_or, not_le] at h
  obtain ⟨h1, h2, h3, h4, h5⟩ := h
  have hab : a.before.toNat ≤ b.before.toNat := (ha.before_le.trans_lt h4).le
  refine .of_ok (sub_eq h1.le) ?_
  refine ((decides_reject _ _).bind (Q := Successive rate buffer a b) fun hgap => ?_).congr
    ⟨And.right, fun h => ⟨by rw [hadd _ _ _ (by omega)]; have := h.gap; omega, h⟩⟩
  rw [hadd _ _ _ (by omega)] at hgap
  refine .of_ok (sub_eq hab) (.of_ok (sub_eq hb.before_le) (.of_ok (sub_eq ha.before_le)
    (.of_ok (sub_eq h3.le) ?_)))
  refine (decides_reject _ _).congr ?_
  rw [Nat.cast_sub hab, Nat.cast_sub hb.before_le, Nat.cast_sub ha.before_le, Nat.cast_sub h3.le, not_lt]
  exact ⟨fun h => ⟨h1, h2, h3, h4, h5, by omega, h⟩, fun h => h.bridge⟩

theorem checkRows_decides (rate buffer : ℕ) (a b : Anchor) :
    Decides (checkRows rate buffer ((a.row, b.row), (a.pointInt, b.pointInt)))
      (Successive rate buffer a b) () := by
  unfold checkRows Anchor.row
  simp only [Anchor.pointInt]
  refine ((decides_reject _ _).bind (Q := Successive rate buffer a b) fun h => ?_).congr
    ⟨And.right, fun h => ⟨?_, h⟩⟩
  swap
  · have h1 := h.position
    have h2 := h.raw
    have h3 := h.mono
    have h4 := h.bracket
    have h5 := h.mapped
    omega
  refine ((decides_reject _ _).bind (Q := Successive rate buffer a b) fun hgap => ?_).congr
    ⟨And.right, fun h => ⟨by have := h.gap; omega, h⟩⟩
  refine (decides_reject _ _).congr ?_
  rw [not_lt]
  push_cast
  have hwidth : (b.after.toNat : ℚ) - b.before.toNat + a.after.toNat - a.before.toNat =
      ((b.after.toNat : ℚ) - b.before.toNat) + (a.after.toNat - a.before.toNat) := by ring
  rw [hwidth]
  exact ⟨fun hb => ⟨by omega, by omega, by omega, by omega, by omega, by omega, hb⟩, fun h => h.bridge⟩

variable {α : Type} {rows : List (List ℤ)}

theorem windows_map {β : Type} (f : α → β) (l : List α) :
    windows (l.map f) = (windows l).map fun w => (f w.1, f w.2) := by
  simp only [windows, ← List.map_tail, List.zip_map]
  rfl

/-- The loop over the windows of the rows and those of their points. -/
theorem windows_points {β γ : Type} (f : α → β) (g : α → γ) (l : List α) : (windows (l.map f)).zip (windows (l.map g)) =
      (windows l).map fun w => ((f w.1, f w.2), (g w.1, g w.2)) := by
  rw [windows_map, windows_map, List.zip_map']

theorem mem_of_mem_windows {l : List α} {w : α × α} (h : w ∈ windows l) : w.1 ∈ l ∧ w.2 ∈ l := by
  obtain ⟨h1, h2⟩ := List.of_mem_zip h
  exact ⟨h1, List.mem_of_mem_tail h2⟩

theorem isChain_of_windows {R : α → α → Prop} {l : List α} (h : ∀ w ∈ windows l, R w.1 w.2) : l.IsChain R := by
  induction l with
  | nil => exact .nil
  | cons a l ih =>
    cases l with
    | nil => exact .singleton a
    | cons b l =>
      have hsplit : windows (a :: b :: l) = (a, b) :: windows (b :: l) := rfl
      rw [hsplit] at h
      obtain ⟨hab, hl⟩ := List.forall_mem_cons.1 h
      exact .cons_cons hab (ih hl)

/-! ### The whole list -/

/-- Strictly earlier in samples, in raw time and on the host clock. -/
structure Below (a b : Anchor) : Prop where
  position : a.position.toNat < b.position.toNat
  raw : a.raw.toNat < b.raw.toNat
  mapped : a.mapped < b.mapped

instance : Trans Below Below Below where
  trans h1 h2 := ⟨h1.position.trans h2.position, h1.raw.trans h2.raw, h1.mapped.trans h2.mapped⟩

theorem pairwise_below {rate buffer : ℕ} {anchors : List Anchor}
    (h : ∀ w ∈ windows anchors, Successive rate buffer w.1 w.2) : anchors.Pairwise Below :=
  (isChain_of_windows fun w hw => ⟨(h w hw).position, (h w hw).raw, (h w hw).mapped⟩).pairwise

/-- The time of a sample between the two points that surround it. -/
def timeAt (points : List (ℕ × ℕ)) (sample : ℕ) : ℚ :=
  let index := segmentIndex (partitionPoint (fun point : ℕ × ℕ => sample < point.1) points) points.length
  match points[index - 1]?, points[index]? with
  | some first, some last =>
    first.2 + ((sample : ℚ) - first.1) * ((last.2 : ℚ) - first.2) / ((last.1 : ℚ) - first.1)
  | _, _ => 0

def Increasing (points : List (ℕ × ℕ)) : Prop := points.Pairwise fun p q => p.1 < q.1 ∧ p.2 < q.2

/-- The two points that surround a sample, or the nearest two. -/
theorem segment_points (hp : Increasing points) (hlen : 2 ≤ points.length)
    (index : ℕ) : ∃ p q, points[segmentIndex index points.length - 1]? = some p ∧
      points[segmentIndex index points.length]? = some q ∧ p.1 < q.1 ∧ p.2 < q.2 := by
  have hi : segmentIndex index points.length < points.length := by unfold segmentIndex; omega
  have hi' : segmentIndex index points.length - 1 < segmentIndex index points.length := by
    unfold segmentIndex; omega
  exact ⟨_, _, List.getElem?_eq_getElem (hi'.trans hi), List.getElem?_eq_getElem hi,
    List.pairwise_iff_getElem.1 hp _ _ _ _ hi'⟩

theorem sampleTime_eq (hp : Increasing points) (hlen : 2 ≤ points.length)
    (sample : ℕ) : sampleTime points sample = .ok (timeAt points sample) := by
  obtain ⟨p, q, h1, h2, hsample, htime⟩ := segment_points hp hlen
    (partitionPoint (fun point : ℕ × ℕ => sample < point.1) points)
  have hspan : ((q.1 - p.1 : ℕ) : ℚ) ≠ 0 := by
    rw [Nat.cast_ne_zero]
    omega
  simp only [sampleTime, timeAt, h1, h2, ofOption, bind, Except.bind, sub_eq htime.le,
    sub_eq hsample.le, div_eq hspan, pure, Except.pure]
  rw [Nat.cast_sub htime.le, Nat.cast_sub hsample.le]

def castPoint (p : ℕ × ℕ) : ℤ × ℤ := (p.1, p.2)

theorem audioSampleTimeNs_eq (hp : Increasing points) (hlen : 2 ≤ points.length) (sample : ℕ) :
    audioSampleTimeNs (points.map castPoint) sample = .ok (timeAt points sample) := by
  have hindex : bisectRight (fun point : ℤ × ℤ => (sample : ℤ) < point.1) (points.map castPoint) =
      partitionPoint (fun point : ℕ × ℕ => sample < point.1) points := by
    rw [bisectRight_eq]
    · rw [partitionPoint_map]
      congr 1
      funext point
      simp [castPoint]
    · refine List.pairwise_map.2 (hp.imp fun h => ?_)
      simp only [castPoint, decide_eq_true_eq, Nat.cast_lt]
      omega
  obtain ⟨p, q, h1, h2, hsample, htime⟩ := segment_points hp hlen
    (partitionPoint (fun point : ℕ × ℕ => sample < point.1) points)
  have hspan : (((castPoint q).1 - (castPoint p).1 : ℤ) : ℚ) ≠ 0 := by
    rw [Int.cast_ne_zero]
    simp only [castPoint]
    omega
  simp only [audioSampleTimeNs, timeAt, hindex, List.length_map, List.getElem?_map, h1, h2,
    Option.map_some, ofOption, bind, Except.bind, div_eq hspan, pure, Except.pure]
  simp only [castPoint]
  push_cast
  rfl

theorem increasing_points {anchors : List Anchor} (h : anchors.Pairwise Below) :
    Increasing (anchors.map Anchor.point) :=
  List.pairwise_map.2 (h.imp fun h => ⟨h.position, h.mapped⟩)

/-- The nanoseconds of one sample between the first and the last anchor. -/
def slope (first last : Anchor) : ℚ :=
  ((last.raw.toNat : ℚ) - first.raw.toNat) / ((last.position.toNat : ℚ) - first.position.toNat)

def residualAt (first last row : Anchor) : ℚ :=
  |((row.raw.toNat : ℚ) - first.raw.toNat) -
    ((row.position.toNat : ℚ) - first.position.toNat) * slope first last|

def residualNs (first last : Anchor) (anchors : List Anchor) : ℚ :=
  (anchors.map (residualAt first last)).foldl max 0

structure Domain (rate samples period buffer : ℕ) : Prop where
  rate_pos : 0 < rate
  samples_pos : 0 < samples
  period_pos : 0 < period
  period_le : period ≤ buffer

structure Covers (samples period buffer : ℕ) (first last : Anchor) : Prop where
  start : first.position.toNat ≤ buffer + period
  reaches : samples ≤ last.position.toNat
  stop : last.position.toNat ≤ samples + buffer

structure Continuous (rate : ℕ) (first last : Anchor) (anchors : List Anchor) : Prop where
  relative : |1000000000 / slope first last / rate - 1| ≤ 1 / 100
  residual : residualNs first last anchors ≤ 20000000

/-- Everything that both models ask of the anchors, in the order in which they ask it. -/
def Accepts (first last : Anchor) (anchors : List Anchor) (rate samples period buffer : ℕ) : Prop :=
  Domain rate samples period buffer ∧ (∀ a ∈ anchors, Bridged a) ∧
    (∀ w ∈ windows anchors, Successive rate buffer w.1 w.2) ∧
    Covers samples period buffer first last ∧ Continuous rate first last anchors

theorem slope_pos {first last : Anchor} (h : Below first last) : 0 < slope first last := by
  have hposition : (first.position.toNat : ℚ) < last.position.toNat := by exact_mod_cast h.position
  have hraw : (first.raw.toNat : ℚ) < last.raw.toNat := by exact_mod_cast h.raw
  exact div_pos (by linarith) (by linarith)

/-- The residuals are not negative, so starting the maximum at zero changes nothing. -/
theorem max?_eq_foldl {l : List ℚ} (hl : l ≠ []) (h : ∀ x ∈ l, 0 ≤ x) :
    l.max? = some (l.foldl max 0) := by
  cases l with
  | nil => exact absurd rfl hl
  | cons a l => rw [List.max?_cons', List.foldl_cons, max_eq_right (h a List.mem_cons_self)]

section Ends

variable {first last : Anchor} {anchors : List Anchor}

theorem below_ends (h : anchors.Pairwise Below) (hfirst : anchors.head? = some first)
    (hlast : anchors.getLast? = some last) (hlen : 2 ≤ anchors.length) : Below first last := by
  obtain ⟨rest, rfl⟩ := List.head?_eq_some_iff.1 hfirst
  have hrest : rest ≠ [] := by
    rintro rfl
    simp at hlen
  have hmem : last ∈ rest := by
    rw [List.getLast?_cons_of_ne_nil hrest] at hlast
    exact List.mem_of_getLast? hlast
  exact (List.pairwise_cons.1 h).1 last hmem

theorem first_le (h : anchors.Pairwise Below) (hfirst : anchors.head? = some first) {row : Anchor}
    (hrow : row ∈ anchors) :
    first.raw.toNat ≤ row.raw.toNat ∧ first.position.toNat ≤ row.position.toNat := by
  obtain ⟨rest, rfl⟩ := List.head?_eq_some_iff.1 hfirst
  rcases List.mem_cons.1 hrow with rfl | hrow
  · exact ⟨le_rfl, le_rfl⟩
  · have hb := (List.pairwise_cons.1 h).1 row hrow
    exact ⟨hb.raw.le, hb.position.le⟩

theorem residual_eq (h : anchors.Pairwise Below) (hfirst : anchors.head? = some first) {row : Anchor}
    (hrow : row ∈ anchors) :
    residual (slope first last) first row = .ok (residualAt first last row) := by
  obtain ⟨h1, h2⟩ := first_le h hfirst hrow
  simp only [residual, sub_eq h1, sub_eq h2, bind, Except.bind, pure, Except.pure, residualAt,
    Nat.cast_sub h1, Nat.cast_sub h2]

theorem evaluateWith_decides (hadd : Adds add) (hfirst : anchors.head? = some first)
    (hlast : anchors.getLast? = some last) (hlen : 2 ≤ anchors.length) (rate : UInt32)
    (samples period buffer : UInt64) :
    Decides (evaluateWith add anchors rate samples period buffer)
      (Accepts first last anchors rate.toNat samples.toNat period.toNat buffer.toNat)
      ⟨timeAt (anchors.map Anchor.point) 0, timeAt (anchors.map Anchor.point) samples.toNat,
        residualNs first last anchors⟩ := by
  have hpositionSize : first.position.toNat < size := first.position.toNat_lt
  have hlastSize : last.position.toNat < size := last.position.toNat_lt
  unfold evaluateWith
  refine ((decides_reject _ _).congr (Q := Domain rate.toNat samples.toNat period.toNat buffer.toNat)
    ?_).bind fun hdomain => ?_
  · have hrate : rate = 0 ↔ rate.toNat = 0 := by
      rw [← UInt32.toNat_inj]
      rfl
    simp only [hrate, toNat_eq_zero, UInt64.lt_iff_toNat_lt, not_or, not_lt]
    exact ⟨fun h => ⟨by omega, by omega, by omega, h.2.2.2.2⟩, fun h => ⟨hlen, h.rate_pos.ne',
      h.samples_pos.ne', h.period_pos.ne', h.period_le⟩⟩
  refine (decides_mapM (P := Bridged) (g := Anchor.point) fun a _ =>
    ((mappedNs_decides a).bind fun _ => decides_ok a.point).congr (iff_of_eq (and_true _))).bind
      fun hbridged => ?_
  have hzip := windows_points id Anchor.point anchors
  rw [List.map_id] at hzip
  rw [hzip]
  refine (decides_forM (P := fun w : Anchor × Anchor => Successive rate.toNat buffer.toNat w.1 w.2) fun w hw => ?_).bind
    fun hwindows => ?_
  · obtain ⟨h1, h2⟩ := mem_of_mem_windows hw
    exact checkWindow_decides hadd _ _ (hbridged _ h1) (hbridged _ h2)
  have hpairs := pairwise_below hwindows
  have hends := below_ends hpairs hfirst hlast hlen
  have hpoints := increasing_points hpairs
  have hpointsLen : 2 ≤ (anchors.map Anchor.point).length := by simpa using hlen
  rw [hfirst, hlast]
  refine .of_ok rfl (.of_ok rfl ?_)
  refine ((decides_reject _ _).congr (Q := Covers samples.toNat period.toNat buffer.toNat first last)
    ?_).bind fun _ => ?_
  · rw [hadd _ _ _ hpositionSize, hadd _ _ _ hlastSize, UInt64.lt_iff_toNat_lt]
    simp only [not_or, not_lt]
    exact ⟨fun h => ⟨h.1, h.2.1, h.2.2⟩, fun h => ⟨h.start, h.reaches, h.stop⟩⟩
  have hspan : ((last.position.toNat - first.position.toNat : ℕ) : ℚ) ≠ 0 := by
    have := hends.position
    rw [Nat.cast_ne_zero]
    omega
  have hslope : div (((last.raw.toNat - first.raw.toNat : ℕ) : ℚ))
      ((last.position.toNat - first.position.toNat : ℕ) : ℚ) =
        (.ok (slope first last) : Result ClockError ℚ) := by
    rw [div_eq hspan, slope, Nat.cast_sub hends.raw.le, Nat.cast_sub hends.position.le]
  have hrate : (rate.toNat : ℚ) ≠ 0 := by
    rw [Nat.cast_ne_zero]
    exact hdomain.rate_pos.ne'
  refine .of_ok (sub_eq hends.raw.le) (.of_ok (sub_eq hends.position.le) (.of_ok hslope
    (.of_ok (div_eq (slope_pos hends).ne') (.of_ok (mapM_eq fun row hrow => residual_eq hpairs hfirst hrow)
      (.of_ok (div_eq hrate) ?_)))))
  refine (((decides_reject _ _).congr (Q := Continuous rate.toNat first last anchors) ?_).bind
    fun _ => ?_).congr (iff_of_eq (and_true _))
  · simp only [not_or, not_lt]
    exact ⟨fun h => ⟨h.1, h.2⟩, fun h => ⟨h.relative, h.residual⟩⟩
  exact .of_ok (sampleTime_eq hpoints hpointsLen 0)
    (.of_ok (sampleTime_eq hpoints hpointsLen samples.toNat) (decides_ok _))

theorem rawAudioClockModel_decides (hfirst : anchors.head? = some first)
    (hlast : anchors.getLast? = some last) (hlen : 2 ≤ anchors.length) (rate samples period buffer : ℕ) :
    Decides (rawAudioClockModel (anchors.map Anchor.row) rate samples period buffer)
      (Accepts first last anchors rate samples period buffer)
      ⟨anchors.map Anchor.pointInt, 1000000000 / slope first last, residualNs first last anchors,
        timeAt (anchors.map Anchor.point) 0, timeAt (anchors.map Anchor.point) samples⟩ := by
  unfold rawAudioClockModel
  refine ((decides_reject _ _).congr (Q := Domain rate samples period buffer) ?_).bind fun hdomain => ?_
  · simp only [List.mem_cons, List.not_mem_nil, or_false, exists_eq_or_imp, exists_eq_left,
      List.length_map, not_or, not_lt, not_le]
    exact ⟨fun h => ⟨by omega, by omega, by omega, by omega⟩, fun h => by
      have h1 := h.rate_pos
      have h2 := h.samples_pos
      have h3 := h.period_pos
      have h4 := h.period_le
      omega⟩
  rw [List.mapM_map]
  refine (decides_mapM (P := Bridged) (g := Anchor.pointInt) fun a _ => mapRow_decides a).bind fun _ => ?_
  rw [windows_points Anchor.row Anchor.pointInt anchors]
  refine (decides_forM (P := fun w : Anchor × Anchor => Successive rate buffer w.1 w.2) fun w _ =>
    checkRows_decides rate buffer w.1 w.2).bind fun hwindows => ?_
  have hpairs := pairwise_below hwindows
  have hends := below_ends hpairs hfirst hlast hlen
  have hpoints := increasing_points hpairs
  have hpointsLen : 2 ≤ (anchors.map Anchor.point).length := by simpa using hlen
  rw [List.mapM_map]
  have hstarts : anchors.mapM (rowStart ∘ Anchor.row) =
      (.ok (anchors.map fun a => ((a.position.toNat : ℤ), (a.raw.toNat : ℤ))) : Result String _) :=
    mapM_eq fun _ _ => rfl
  refine .of_ok hstarts ?_
  rw [List.head?_map, List.getLast?_map, hfirst, hlast]
  refine .of_ok rfl (.of_ok rfl ?_)
  refine ((decides_reject _ _).congr (Q := Covers samples period buffer first last) ?_).bind fun _ => ?_
  · simp only [not_or, not_lt, not_not]
    exact ⟨fun h => ⟨by omega, by omega, by omega⟩, fun h => by
      have h1 := h.start
      have h2 := h.reaches
      have h3 := h.stop
      omega⟩
  have hspan : (((last.position.toNat : ℤ) - first.position.toNat : ℤ) : ℚ) ≠ 0 := by
    have := hends.position
    rw [Int.cast_ne_zero]
    omega
  have hslope : div (((last.raw.toNat : ℤ) - first.raw.toNat : ℤ) : ℚ)
      (((last.position.toNat : ℤ) - first.position.toNat : ℤ) : ℚ) =
        (.ok (slope first last) : Result String ℚ) := by
    rw [div_eq hspan, slope]
    push_cast
    rfl
  have hresidual : (ofOption ((anchors.map fun a => ((a.position.toNat : ℤ), (a.raw.toNat : ℤ))).map
      fun row => |((row.2 - (first.raw.toNat : ℤ) : ℤ) : ℚ) -
        ((row.1 - (first.position.toNat : ℤ) : ℤ) : ℚ) * slope first last|).max? : Result String ℚ) =
      .ok (residualNs first last anchors) := by
    have hmap : (anchors.map fun a => ((a.position.toNat : ℤ), (a.raw.toNat : ℤ))).map
        (fun row => |((row.2 - (first.raw.toNat : ℤ) : ℤ) : ℚ) -
          ((row.1 - (first.position.toNat : ℤ) : ℤ) : ℚ) * slope first last|) =
        anchors.map (residualAt first last) := by
      rw [List.map_map]
      refine List.map_congr_left fun a _ => ?_
      simp only [Function.comp_apply, residualAt]
      push_cast
      rfl
    have hne : anchors.map (residualAt first last) ≠ [] := by
      rw [ne_eq, List.map_eq_nil_iff]
      rintro rfl
      simp at hlen
    rw [hmap, max?_eq_foldl hne (by simp [residualAt])]
    rfl
  have hrate : (rate : ℚ) ≠ 0 := by
    rw [Nat.cast_ne_zero]
    exact hdomain.rate_pos.ne'
  refine .of_ok hslope (.of_ok (div_eq (slope_pos hends).ne') (.of_ok hresidual
    (.of_ok (div_eq (by exact_mod_cast hrate)) ?_)))
  refine (((decides_reject _ _).congr (Q := Continuous rate first last anchors) ?_).bind
    fun _ => ?_).congr (iff_of_eq (and_true _))
  · simp only [not_or, not_lt, Int.cast_natCast]
    exact ⟨fun h => ⟨h.1, h.2⟩, fun h => ⟨h.relative, h.residual⟩⟩
  have hcast : anchors.map Anchor.pointInt = (anchors.map Anchor.point).map castPoint := by
    rw [List.map_map]
    rfl
  rw [hcast]
  exact .of_ok (audioSampleTimeNs_eq hpoints hpointsLen 0)
    (.of_ok (audioSampleTimeNs_eq hpoints hpointsLen samples) (decides_ok _))

end Ends

/-- Too few anchors have no model. -/
theorem evaluateWith_short {anchors : List Anchor} (hlen : anchors.length < 2)
    (rate : UInt32) (samples period buffer : UInt64) :
    evaluateWith add anchors rate samples period buffer = .error (.rejected .domain) := by
  simp [evaluateWith, reject, hlen, bind, Except.bind]

theorem rawAudioClockModel_short {anchors : List (List ℤ)} (hlen : anchors.length < 2)
    (rate count period buffer : ℤ) : rawAudioClockModel anchors rate count period buffer =
      .error (.rejected "invalid raw audio clock domain") := by
  simp [rawAudioClockModel, reject, hlen, bind, Except.bind]

/-! ### What a reader accepts -/

/-- An accepted row holds five words. -/
theorem row_of_mapRow {row : List ℤ} {p : ℤ × ℤ} (h : mapRow row = .ok p) : ∃ a : Anchor, row = a.row := by
  unfold mapRow at h
  split at h
  · next position raw mono before after =>
    obtain ⟨_, hreject, -⟩ := bind_eq_ok.1 h
    have hrange := ((decides_reject _ _).ok_iff.1 hreject).1
    simp only [List.mem_cons, List.not_mem_nil, or_false, exists_eq_or_imp, exists_eq_left, not_or,
      not_not] at hrange
    have hword {v : ℤ} (hv : 0 < v ∧ v < 2 ^ 64) : ((UInt64.ofNat v.toNat).toNat : ℤ) = v := by
      rw [UInt64.toNat_ofNat_of_lt' (show v.toNat < 2 ^ 64 by omega)]
      exact Int.toNat_of_nonneg hv.1.le
    obtain ⟨h1, h2, h3, h4, h5⟩ := hrange
    refine ⟨⟨.ofNat position.toNat, .ofNat raw.toNat, .ofNat mono.toNat, .ofNat before.toNat,
      .ofNat after.toNat⟩, ?_⟩
    rw [Anchor.row, hword h1, hword h2, hword h3, hword h4, hword h5]
  · cases h

theorem rows_of_mapM : ∀ {points : List (ℤ × ℤ)}, rows.mapM mapRow = .ok points →
    ∃ anchors : List Anchor, rows = anchors.map Anchor.row := by
  induction rows with
  | nil => exact fun _ => ⟨[], rfl⟩
  | cons row rows ih =>
    intro points h
    rw [List.mapM_cons] at h
    obtain ⟨p, hp, h⟩ := bind_eq_ok.1 h
    obtain ⟨points, hpoints, -⟩ := bind_eq_ok.1 h
    obtain ⟨a, rfl⟩ := row_of_mapRow hp
    obtain ⟨anchors, rfl⟩ := ih hpoints
    exact ⟨a :: anchors, rfl⟩

/-- Everything that an accepted model says of its input. -/
structure Modelled (anchors : List Anchor) (rate count period buffer : ℤ) (m : RawModel) where
  first : Anchor
  last : Anchor
  head : anchors.head? = some first
  getLast : anchors.getLast? = some last
  two_le : 2 ≤ anchors.length
  rate_eq : (rate.toNat : ℤ) = rate
  count_eq : (count.toNat : ℤ) = count
  period_eq : (period.toNat : ℤ) = period
  buffer_eq : (buffer.toNat : ℤ) = buffer
  accepts : Accepts first last anchors rate.toNat count.toNat period.toNat buffer.toNat
  model : m = ⟨anchors.map Anchor.pointInt, 1000000000 / slope first last, residualNs first last anchors,
    timeAt (anchors.map Anchor.point) 0, timeAt (anchors.map Anchor.point) count.toNat⟩

theorem modelled {rate count period buffer : ℤ} {m : RawModel}
    (h : rawAudioClockModel rows rate count period buffer = .ok m) :
    ∃ anchors : List Anchor, rows = anchors.map Anchor.row ∧
      Nonempty (Modelled anchors rate count period buffer m) := by
  have hread := h
  unfold rawAudioClockModel at h
  obtain ⟨_, hreject, h⟩ := bind_eq_ok.1 h
  have hdomain := ((decides_reject _ _).ok_iff.1 hreject).1
  obtain ⟨points, hpoints, -⟩ := bind_eq_ok.1 h
  obtain ⟨anchors, rfl⟩ := rows_of_mapM hpoints
  simp only [List.mem_cons, List.not_mem_nil, or_false, exists_eq_or_imp, exists_eq_left, not_or,
    not_le, not_lt, List.length_map] at hdomain
  obtain ⟨⟨hrate, hcount, hperiod, hbuffer⟩, -, hlen⟩ := hdomain
  have hne : anchors ≠ [] := List.length_pos_iff.1 (by omega)
  have hfirst := List.head?_eq_some_head hne
  have hlast := List.getLast?_eq_some_getLast hne
  have hdecides := rawAudioClockModel_decides hfirst hlast hlen rate.toNat count.toNat period.toNat buffer.toNat
  rw [Int.toNat_of_nonneg hrate.le, Int.toNat_of_nonneg hcount.le, Int.toNat_of_nonneg hperiod.le,
    Int.toNat_of_nonneg hbuffer.le] at hdecides
  obtain ⟨haccepts, hmodel⟩ := hdecides.ok_iff.1 hread
  exact ⟨anchors, rfl, ⟨⟨_, _, hfirst, hlast, hlen, Int.toNat_of_nonneg hrate.le, Int.toNat_of_nonneg hcount.le,
    Int.toNat_of_nonneg hperiod.le, Int.toNat_of_nonneg hbuffer.le, haccepts, hmodel⟩⟩⟩

/-- The device accepts exactly the anchors that a reader accepts, and gives the same times;
none of its operations leaves its domain, and exact sums would not change its answer. -/
theorem evaluate_agrees (anchors : List Anchor) (rate : UInt32) (samples period buffer : UInt64) :
    ((∃ m, evaluate anchors rate samples period buffer = .ok m) ↔
      ∃ r, rawAudioClockModel (anchors.map Anchor.row) rate.toNat samples.toNat period.toNat
        buffer.toNat = .ok r) ∧
    (∀ m r, evaluate anchors rate samples period buffer = .ok m →
      rawAudioClockModel (anchors.map Anchor.row) rate.toNat samples.toNat period.toNat
        buffer.toNat = .ok r →
      m.startNs = r.startNs ∧ m.endNs = r.endNs ∧ m.residualNs = r.maxResidualNs) ∧
    evaluate anchors rate samples period buffer ≠ .error .fault ∧
    ∀ m, evaluate anchors rate samples period buffer = .ok m ↔
      evaluateWith (· + ·) anchors rate samples period buffer = .ok m := by
  rcases Nat.lt_or_ge anchors.length 2 with hlen | hlen
  · have hrow : (anchors.map Anchor.row).length < 2 := by simpa using hlen
    simp [evaluate, evaluateWith_short hlen, rawAudioClockModel_short hrow]
  have hne : anchors ≠ [] := List.length_pos_iff.1 (by omega)
  have hfirst := List.head?_eq_some_head hne
  have hlast := List.getLast?_eq_some_getLast hne
  have hdevice := evaluateWith_decides adds_saturating hfirst hlast hlen rate samples period buffer
  have hexact := evaluateWith_decides adds_exact hfirst hlast hlen rate samples period buffer
  have hreader := rawAudioClockModel_decides hfirst hlast hlen rate.toNat samples.toNat period.toNat
    buffer.toNat
  simp only [evaluate, hdevice.ok_iff, hreader.ok_iff, hexact.ok_iff]
  refine ⟨?_, ?_, hdevice.no_fault, fun _ => trivial⟩
  · simp
  · rintro m r ⟨-, rfl⟩ ⟨-, rfl⟩
    exact ⟨rfl, rfl, rfl⟩

end Conductor.Audio
