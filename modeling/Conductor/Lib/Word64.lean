import Mathlib.Algebra.Order.Group.Nat
import Mathlib.Tactic.Common

/-! Unsigned 64-bit arithmetic on natural numbers: the checked and saturating
operations of a `u64`, and the range of an `i64` conversion. A value is a plain
`ℕ`; only the operations know the width. -/

namespace Conductor.Word64

/-- The number of values of a `u64`. -/
def size : ℕ := 2 ^ 64

def checkedAdd (a b : ℕ) : Option ℕ := if a + b < size then some (a + b) else none

def checkedSub (a b : ℕ) : Option ℕ := if b ≤ a then some (a - b) else none

def saturatingAdd (a b : ℕ) : ℕ := min (a + b) (size - 1)

/-- `i64::try_from` of a `u64`. -/
def i64TryFrom (a : ℕ) : Option ℤ := if a < 2 ^ 63 then some a else none

theorem checkedAdd_eq_some {a b c : ℕ} : checkedAdd a b = some c ↔ a + b < size ∧ c = a + b := by
  unfold checkedAdd
  split_ifs with h <;> simp [h, eq_comm]

theorem checkedSub_eq_some {a b c : ℕ} : checkedSub a b = some c ↔ b ≤ a ∧ c = a - b := by
  unfold checkedSub
  split_ifs with h <;> simp [h, eq_comm]

theorem i64TryFrom_eq_some {a : ℕ} {z : ℤ} : i64TryFrom a = some z ↔ a < 2 ^ 63 ∧ z = a := by
  unfold i64TryFrom
  split_ifs with h
  · simp only [Option.some.injEq, h, true_and, eq_comm]
  · simp only [h, false_and]

theorem saturatingAdd_lt_iff {a b c : ℕ} (hc : c < size) : saturatingAdd a b < c ↔ a + b < c := by
  unfold saturatingAdd
  omega

end Conductor.Word64
