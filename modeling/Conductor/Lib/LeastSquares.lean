import Conductor.Lib.Moments
import Mathlib.Algebra.Order.BigOperators.Group.List

/-! The line of least squares through points that increase in both coordinates: its denominator and
its slope are positive. The slope needs one threshold of the second coordinate: the points on one
side of the first mean are on the same side of the threshold. -/

namespace Conductor.LeastSquares

open Moments

variable {α : Type} [Field α] [LinearOrder α] [IsStrictOrderedRing α]

/-- The sum of the products of the deviations of `x` from its mean with those of `y` from `c`. -/
def product (c : α) (l : List (α × α)) : α := (l.map fun p => (p.1 - mean (l.map Prod.fst)) * (p.2 - c)).sum

/-- Strictly increasing in both coordinates. -/
def Increasing (l : List (α × α)) : Prop := l.Pairwise fun p q => p.1 < q.1 ∧ p.2 < q.2

theorem sum_from_mean (l : List α) : (l.map fun x => x - mean l).sum = 0 := by
  rw [sum_deviation, sum_eq_mean, sub_self]

omit [LinearOrder α] [IsStrictOrderedRing α] in
theorem sum_products (a b : α) (l : List (α × α)) (m : α) :
    (l.map fun p => (p.1 - m) * (p.2 - a)).sum =
      (l.map fun p => (p.1 - m) * (p.2 - b)).sum + (b - a) * (l.map fun p => p.1 - m).sum := by
  induction l with
  | nil => simp
  | cons p l ih =>
    simp only [List.map_cons, List.sum_cons, ih]
    ring

/-- The centre of the second coordinate does not matter. -/
theorem product_center (a b : α) (l : List (α × α)) : product a l = product b l := by
  have hzero : (l.map fun p => p.1 - mean (l.map Prod.fst)).sum = 0 := by
    have h := sum_from_mean (l.map Prod.fst)
    rwa [List.map_map] at h
  rw [product, sum_products a b, hzero, mul_zero, add_zero, product]

/-- No first coordinate is below the mean only when all are equal to it. -/
theorem exists_lt_mean {l : List α} (h : l.Pairwise (· < ·)) (hlen : 2 ≤ l.length) : ∃ x ∈ l, x < mean l := by
  by_contra hnone
  have hge : ∀ x ∈ l, 0 ≤ x - mean l := by
    intro x hx
    by_contra hneg
    exact hnone ⟨x, hx, by linarith⟩
  obtain ⟨x, y, rest, rfl⟩ : ∃ x y rest, l = x :: y :: rest := by
    match l, hlen with
    | x :: y :: rest, _ => exact ⟨x, y, rest, rfl⟩
  have hxy : x < y := (List.pairwise_cons.1 h).1 y (by simp)
  have hsum := sum_from_mean (x :: y :: rest)
  have hx := hge x (by simp)
  have hrest : 0 ≤ (rest.map fun z => z - mean (x :: y :: rest)).sum := by
    refine List.sum_nonneg fun z hz => ?_
    obtain ⟨w, hw, rfl⟩ := List.mem_map.1 hz
    exact hge w (by simp [hw])
  simp only [List.map_cons, List.sum_cons] at hsum
  linarith

/-- A sum of terms none of which is negative and one of which is positive. -/
theorem sum_pos_of_mem {l : List α} (hall : ∀ x ∈ l, 0 ≤ x) {x : α} (hx : x ∈ l) (hpos : 0 < x) : 0 < l.sum := by
  obtain ⟨s, t, rfl⟩ := List.append_of_mem hx
  have hs : 0 ≤ s.sum := List.sum_nonneg fun y hy => hall y (by simp [hy])
  have ht : 0 ≤ t.sum := List.sum_nonneg fun y hy => hall y (by simp [hy])
  rw [List.sum_append, List.sum_cons]
  linarith

theorem exists_mean_le {l : List α} (hne : l ≠ []) : ∃ x ∈ l, mean l ≤ x := by
  by_contra hnone
  have hlt : ∀ x ∈ l, 0 < mean l - x := by
    intro x hx
    by_contra hge
    exact hnone ⟨x, hx, by linarith⟩
  have hzero : (l.map fun x => mean l - x).sum = 0 := by
    have hneg : (l.map fun x => mean l - x) = (l.map fun x => x - mean l).map Neg.neg := by
      rw [List.map_map]
      exact List.map_congr_left fun x _ => (neg_sub x (mean l)).symm
    rw [hneg, ← List.sum_neg, sum_from_mean, neg_zero]
  obtain ⟨x, hx⟩ := List.exists_mem_of_ne_nil l hne
  have hpos := sum_pos_of_mem (l := l.map fun x => mean l - x) (fun y hy => by
    obtain ⟨w, hw, rfl⟩ := List.mem_map.1 hy
    exact (hlt w hw).le) (List.mem_map_of_mem hx) (hlt x hx)
  linarith

variable {l : List (α × α)}

omit [Field α] [IsStrictOrderedRing α] in
/-- The second coordinate of the first point that is not below the mean parts the points. -/
theorem exists_threshold (h : Increasing l) (hne : l ≠ []) (m : α) (hm : ∃ p ∈ l, m ≤ p.1) :
    ∃ t, ∀ p ∈ l, (p.1 < m → p.2 < t) ∧ (m ≤ p.1 → t ≤ p.2) := by
  obtain ⟨q, hq⟩ : ∃ q, l.find? (fun p => decide (m ≤ p.1)) = some q := by
    rw [← Option.isSome_iff_exists, List.find?_isSome]
    simpa using hm
  obtain ⟨hmq, before, after, rfl, hbefore⟩ := List.find?_eq_some_iff_append.1 hq
  obtain ⟨-, hafter, hcross⟩ := List.pairwise_append.1 h
  refine ⟨q.2, fun p hp => ?_⟩
  rcases List.mem_append.1 hp with hp | hp
  · have hlt := hcross p hp q (by simp)
    have hlow : ¬ m ≤ p.1 := by simpa using hbefore p hp
    exact ⟨fun _ => hlt.2, fun hle => absurd hle hlow⟩
  · have hge : q.1 ≤ p.1 ∧ q.2 ≤ p.2 := by
      rcases List.mem_cons.1 hp with rfl | hp
      · exact ⟨le_rfl, le_rfl⟩
      · have hlt := (List.pairwise_cons.1 hafter).1 p hp
        exact ⟨hlt.1.le, hlt.2.le⟩
    have hmq : m ≤ q.1 := by simpa using hmq
    exact ⟨fun hlt => absurd (hmq.trans hge.1) (not_le.2 hlt), fun _ => hge.2⟩

theorem product_pos (h : Increasing l) (hlen : 2 ≤ l.length) (c : α) : 0 < product c l := by
  have hne : l ≠ [] := by
    rintro rfl
    simp at hlen
  have hfst : (l.map Prod.fst).Pairwise (· < ·) := List.pairwise_map.2 (h.imp fun hpq => hpq.1)
  obtain ⟨_, hlow, hlt⟩ := exists_lt_mean hfst (by simpa using hlen)
  obtain ⟨low, hlowmem, rfl⟩ := List.mem_map.1 hlow
  have hhigh : ∃ p ∈ l, mean (l.map Prod.fst) ≤ p.1 := by
    obtain ⟨_, hmem, hle⟩ := exists_mean_le (l := l.map Prod.fst) (by simpa using hne)
    obtain ⟨p, hp, rfl⟩ := List.mem_map.1 hmem
    exact ⟨p, hp, hle⟩
  obtain ⟨t, ht⟩ := exists_threshold h hne _ hhigh
  rw [product_center c t]
  refine sum_pos_of_mem (fun x hx => ?_) (List.mem_map_of_mem hlowmem) ?_
  · obtain ⟨p, hp, rfl⟩ := List.mem_map.1 hx
    rcases lt_or_ge p.1 (mean (l.map Prod.fst)) with hlt | hle
    · have := (ht p hp).1 hlt
      exact (mul_pos_of_neg_of_neg (by linarith) (by linarith)).le
    · have := (ht p hp).2 hle
      exact mul_nonneg (by linarith) (by linarith)
  · have := (ht low hlowmem).1 hlt
    exact mul_pos_of_neg_of_neg (by linarith) (by linarith)

/-! ### The line -/

/-- The points with the first coordinate twice. -/
def diagonal (l : List (α × α)) : List (α × α) := l.map fun p => (p.1, p.1)

omit [Field α] [IsStrictOrderedRing α] in
theorem Increasing.diagonal (h : Increasing l) : Increasing (diagonal l) :=
  List.pairwise_map.2 (h.imp fun hpq => ⟨hpq.1, hpq.1⟩)

def slope (l : List (α × α)) : α := product (mean (l.map Prod.snd)) l / product (mean (l.map Prod.fst)) (diagonal l)

theorem slope_pos (h : Increasing l) (hlen : 2 ≤ l.length) : 0 < slope l :=
  div_pos (product_pos h hlen _) (product_pos h.diagonal (by simpa [diagonal] using hlen) _)

def intercept (l : List (α × α)) : α := mean (l.map Prod.snd) - slope l * mean (l.map Prod.fst)

/-- The largest distance of a point from the line. -/
def distance (l : List (α × α)) : α := (l.map fun p => |p.2 - (intercept l + slope l * p.1)|).foldl max 0

omit [Field α] [IsStrictOrderedRing α] in
/-- The start of a running maximum and each of its elements are at most the end of it. -/
theorem le_foldl_max (l : List α) (a : α) : a ≤ l.foldl max a ∧ ∀ x ∈ l, x ≤ l.foldl max a := by
  induction l generalizing a with
  | nil => simp
  | cons y ys ih =>
    obtain ⟨hstart, hall⟩ := ih (max a y)
    refine ⟨(le_max_left a y).trans hstart, List.forall_mem_cons.2 ⟨(le_max_right a y).trans hstart, hall⟩⟩

omit [Field α] [IsStrictOrderedRing α] in
theorem foldl_max_le {l : List α} {a b : α} (ha : a ≤ b) (hall : ∀ x ∈ l, x ≤ b) : l.foldl max a ≤ b := by
  induction l generalizing a with
  | nil => exact ha
  | cons y ys ih =>
    obtain ⟨hy, hys⟩ := List.forall_mem_cons.1 hall
    exact ih (max_le ha hy) hys

/-! ### Residuals -/

omit [LinearOrder α] [IsStrictOrderedRing α] in
theorem sum_residual (s m c : α) (l : List (α × α)) :
    (l.map fun p => (p.2 - c - s * (p.1 - m)) ^ 2).sum =
      (l.map fun p => (p.2 - c) ^ 2).sum - 2 * s * (l.map fun p => (p.1 - m) * (p.2 - c)).sum +
        s ^ 2 * (l.map fun p => (p.1 - m) * (p.1 - m)).sum := by
  induction l with
  | nil => simp
  | cons p l ih =>
    simp only [List.map_cons, List.sum_cons, ih]
    ring

/-- The line is no worse than a constant. -/
theorem sum_residual_le (h : Increasing l) (hlen : 2 ≤ l.length) (c : α) :
    (l.map fun p => (p.2 - (intercept l + slope l * p.1)) ^ 2).sum ≤ (l.map fun p => (p.2 - c) ^ 2).sum := by
  have hline : (l.map fun p => (p.2 - (intercept l + slope l * p.1)) ^ 2) =
      l.map fun p => (p.2 - mean (l.map Prod.snd) - slope l * (p.1 - mean (l.map Prod.fst))) ^ 2 :=
    List.map_congr_left fun p _ => by rw [intercept]; ring
  have hpos := product_pos h.diagonal (by simpa [diagonal] using hlen) (mean (l.map Prod.fst))
  have hslope : slope l * product (mean (l.map Prod.fst)) (diagonal l) = product (mean (l.map Prod.snd)) l :=
    div_mul_cancel₀ _ hpos.ne'
  have hfst : (diagonal l).map Prod.fst = l.map Prod.fst := by
    rw [diagonal, List.map_map]
    rfl
  rw [product, hfst, diagonal, List.map_map] at hslope hpos
  have hmean := deviation_shift (mean (l.map Prod.snd)) c (l.map Prod.snd)
  rw [sum_eq_mean, sub_self, mul_zero, sub_zero, deviation, deviation, List.map_map, List.map_map] at hmean
  change (l.map fun p => (p.2 - c) ^ 2).sum = (l.map fun p => (p.2 - mean (l.map Prod.snd)) ^ 2).sum + _ at hmean
  have hsquare : 0 ≤ ((l.map Prod.snd).length : α) * (c - mean (l.map Prod.snd)) ^ 2 := by positivity
  have hgain := mul_nonneg (sq_nonneg (slope l)) (le_of_lt hpos)
  rw [hline, sum_residual, hmean]
  change slope l * (l.map fun p => (p.1 - _) * (p.1 - _)).sum = (l.map fun p => (p.1 - _) * (p.2 - _)).sum at hslope
  change 0 ≤ slope l ^ 2 * (l.map fun p => (p.1 - _) * (p.1 - _)).sum at hgain
  rw [← hslope]
  linarith

/-- Points in a strip are not far from the line. -/
theorem residual_le (h : Increasing l) (hlen : 2 ≤ l.length) {c r : α} (hr : ∀ p ∈ l, |p.2 - c| ≤ r) {k : ℕ}
    (hk : l.length ≤ k ^ 2) : ∀ p ∈ l, |p.2 - (intercept l + slope l * p.1)| ≤ k * r := by
  intro p hp
  have hone : (p.2 - (intercept l + slope l * p.1)) ^ 2 ≤ (l.map fun p => (p.2 - (intercept l + slope l * p.1)) ^ 2).sum :=
    List.single_le_sum (fun x hx => by obtain ⟨q, -, rfl⟩ := List.mem_map.1 hx; exact sq_nonneg _) _ (List.mem_map_of_mem hp)
  have hall : (l.map fun p => (p.2 - c) ^ 2).sum ≤ (l.map fun p => (p.2 - c) ^ 2).length • r ^ 2 :=
    List.sum_le_card_nsmul _ _ fun x hx => by
      obtain ⟨q, hq, rfl⟩ := List.mem_map.1 hx
      rw [← sq_abs]
      exact pow_le_pow_left₀ (abs_nonneg _) (hr q hq) 2
  have hlength : (l.length : α) ≤ k ^ 2 := by exact_mod_cast hk
  rw [List.length_map, nsmul_eq_mul] at hall
  have hr0 : 0 ≤ r := (abs_nonneg _).trans (hr p hp)
  refine abs_le_of_sq_le_sq ?_ (by positivity)
  calc (p.2 - (intercept l + slope l * p.1)) ^ 2 ≤ l.length * r ^ 2 := hone.trans ((sum_residual_le h hlen c).trans hall)
    _ ≤ k ^ 2 * r ^ 2 := mul_le_mul_of_nonneg_right hlength (sq_nonneg r)
    _ = (k * r) ^ 2 := (mul_pow _ _ 2).symm

end Conductor.LeastSquares
