import Mathlib.Algebra.Order.Group.Nat
import Mathlib.Data.List.Basic

/-! Spans that tile an interval: each starts where the one before has ended, and none is empty. -/

namespace Conductor.Tiling

variable {α : Type*} [LT α]

/-- The spans tile the interval from `lo` to `hi`. -/
def Tiles : α → List (α × α) → α → Prop
  | lo, [], hi => lo = hi
  | lo, span :: rest, hi => span.1 = lo ∧ span.1 < span.2 ∧ Tiles span.2 rest hi

theorem Tiles.append {lo mid hi : α} {spans rest : List (α × α)} (h : Tiles lo spans mid) (h' : Tiles mid rest hi) :
    Tiles lo (spans ++ rest) hi := by
  induction spans generalizing lo with
  | nil =>
    cases h
    exact h'
  | cons span spans ih => exact ⟨h.1, h.2.1, ih h.2.2⟩

/-- The steps of a strictly increasing sequence. -/
theorem tiles_range (g : ℕ → α) (n : ℕ) (h : ∀ i, i < n → g i < g (i + 1)) :
    Tiles (g 0) ((List.range n).map fun i => (g i, g (i + 1))) (g n) := by
  induction n with
  | zero => rfl
  | succ n ih =>
    rw [List.range_succ, List.map_append]
    exact (ih fun i hi => h i (by omega)).append ⟨rfl, h n (by omega), rfl⟩

end Conductor.Tiling
