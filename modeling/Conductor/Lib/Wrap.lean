import Mathlib.Algebra.Order.Ring.Nat

/-! Unsigned arithmetic that wraps, on natural numbers with the width as a parameter. Where no
operation wraps it is the arithmetic of `ℕ`. -/

namespace Conductor.Wrap

variable {w a b : ℕ}

def add (w a b : ℕ) : ℕ := (a + b) % 2 ^ w

def sub (w a b : ℕ) : ℕ := (a + (2 ^ w - b % 2 ^ w)) % 2 ^ w

theorem add_of_lt (h : a + b < 2 ^ w) : add w a b = a + b := Nat.mod_eq_of_lt h

theorem sub_of_le (hle : b ≤ a) (hlt : a < 2 ^ w) : sub w a b = a - b := by
  unfold sub
  rw [Nat.mod_eq_of_lt (hle.trans_lt hlt), show a + (2 ^ w - b) = a - b + 2 ^ w by omega, Nat.add_mod_right]
  exact Nat.mod_eq_of_lt (by omega)

end Conductor.Wrap
