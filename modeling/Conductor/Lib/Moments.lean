import Mathlib.Algebra.Order.Field.Basic
import Mathlib.Data.List.MinMax
import Mathlib.Tactic.FieldSimp
import Mathlib.Tactic.Linarith
import Mathlib.Tactic.Ring

/-! The mean of a list and the squared deviations from it, and how both change when one element is
appended. -/

namespace Conductor.Moments

variable {α : Type} [Field α] [LinearOrder α] [IsStrictOrderedRing α]

def mean (l : List α) : α := l.sum / l.length

/-- The sum of the squared deviations from a centre. -/
def deviation (center : α) (l : List α) : α := (l.map fun x => (x - center) ^ 2).sum

theorem mean_append (l : List α) (x : α) : mean (l ++ [x]) = mean l + (x - mean l) / (l.length + 1 : ℕ) := by
  have hpos : ((l.length : α) + 1) ≠ 0 := by positivity
  unfold mean
  rw [List.sum_append, List.sum_singleton, List.length_append, List.length_singleton]
  push_cast
  cases l with
  | nil => simp
  | cons y ys =>
    have hlen : (((y :: ys).length : ℕ) : α) ≠ 0 := by
      rw [List.length_cons]
      positivity
    field_simp
    ring

omit [LinearOrder α] [IsStrictOrderedRing α] in
theorem sum_deviation (center : α) (l : List α) : (l.map fun x => x - center).sum = l.sum - l.length * center := by
  induction l with
  | nil => simp
  | cons x xs ih =>
    rw [List.map_cons, List.sum_cons, ih, List.sum_cons, List.length_cons]
    push_cast
    ring

omit [LinearOrder α] [IsStrictOrderedRing α] in
/-- The deviations from two centres. -/
theorem deviation_shift (c d : α) (l : List α) :
    deviation d l = deviation c l - 2 * (d - c) * (l.sum - l.length * c) + l.length * (d - c) ^ 2 := by
  induction l with
  | nil => simp [deviation]
  | cons x xs ih =>
    simp only [deviation, List.map_cons, List.sum_cons, List.length_cons] at ih ⊢
    rw [ih]
    push_cast
    ring

theorem sum_eq_mean (l : List α) : l.sum = l.length * mean l := by
  cases l with
  | nil => simp
  | cons x xs =>
    have hlen : (((x :: xs).length : ℕ) : α) ≠ 0 := by
      rw [List.length_cons]
      positivity
    rw [mean, mul_div_cancel₀ _ hlen]

/-- The update of the squared deviations. -/
theorem deviation_append (l : List α) (x : α) : deviation (mean (l ++ [x])) (l ++ [x]) =
    deviation (mean l) l + (x - mean l) * (x - mean (l ++ [x])) := by
  have hpos : ((l.length : α) + 1) ≠ 0 := by positivity
  have hsplit : deviation (mean (l ++ [x])) (l ++ [x]) =
      deviation (mean (l ++ [x])) l + (x - mean (l ++ [x])) ^ 2 := by
    simp [deviation]
  have hmean : mean (l ++ [x]) - mean l = (x - mean l) / (l.length + 1) := by
    rw [mean_append]
    push_cast
    ring
  rw [hsplit, deviation_shift (mean l), sum_eq_mean, sub_self, mul_zero, sub_zero,
    show x - mean (l ++ [x]) = (x - mean l) - (mean (l ++ [x]) - mean l) by ring, hmean]
  field_simp
  ring

omit [Field α] [IsStrictOrderedRing α] in
theorem min?_append (l : List α) (x : α) : (l ++ [x]).min? = some (match l.min? with
    | none => x
    | some m => min m x) := by
  cases l with
  | nil => rfl
  | cons y ys =>
    rw [List.cons_append, List.min?_cons', List.min?_cons', List.foldl_append]
    rfl

omit [Field α] [IsStrictOrderedRing α] in
theorem max?_append (l : List α) (x : α) : (l ++ [x]).max? = some (match l.max? with
    | none => x
    | some m => max m x) := by
  cases l with
  | nil => rfl
  | cons y ys =>
    rw [List.cons_append, List.max?_cons', List.max?_cons', List.foldl_append]
    rfl

end Conductor.Moments
