import Mathlib.Data.Int.Log
import Mathlib.Data.Rat.Floor

/-! Binary floating-point numbers of 64 bits, as far as their values go: a finite one is
the rational number that it stands for. Every operation is the exact one, rounded to the
nearest double, ties to the even one. -/

namespace Conductor

/-- To the nearest integer, ties to the even one. -/
def roundHalfEven (q : ℚ) : ℤ :=
  let low := ⌊q⌋
  if q - low < 1 / 2 then low
  else if 1 / 2 < q - low then low + 1
  else if low % 2 = 0 then low else low + 1

inductive Double where
  | nan
  | infinity (negative : Bool)
  | finite (value : ℚ)
  deriving DecidableEq

namespace Double

/-- The exponent of the unit in the last place of a nonzero number. -/
def exponent (q : ℚ) : ℤ := max (-1074) (Int.log 2 |q| - 52)

def round (q : ℚ) : Double :=
  let unit : ℚ := 2 ^ exponent q
  let value := roundHalfEven (q / unit) * unit
  if 2 ^ 1024 ≤ |value| then .infinity (q < 0) else .finite value

/-- The least positive integer that rounds to an infinity. -/
def overflow : ℤ := 2 ^ 1024 - 2 ^ 970

/-- The conversion of an integer fails when it would round to an infinity. -/
def ofInt (n : ℤ) : Option Double := if overflow ≤ |n| then none else some (round n)

def neg : Double → Double
  | .nan => .nan
  | .infinity negative => .infinity !negative
  | .finite value => .finite (-value)

def add : Double → Double → Double
  | .nan, _ | _, .nan => .nan
  | .infinity a, .infinity b => if a = b then .infinity a else .nan
  | .infinity a, .finite _ | .finite _, .infinity a => .infinity a
  | .finite a, .finite b => round (a + b)

def sub (a b : Double) : Double := add a b.neg

/-- `a <= b`; a NaN is not comparable. -/
def le : Double → Double → Bool
  | .nan, _ | _, .nan => false
  | .infinity true, _ | _, .infinity false => true
  | .finite a, .finite b => a ≤ b
  | _, _ => false

/-- `a < b`. -/
def lt : Double → Double → Bool
  | .nan, _ | _, .nan => false
  | a, b => !le b a

/-- Comparison with an integer is exact. -/
def eqInt : Double → ℤ → Bool
  | .finite value, n => value = n
  | _, _ => false

theorem roundHalfEven_le (q : ℚ) : (roundHalfEven q : ℚ) ≤ q + 1 / 2 := by
  have hfloor := Int.floor_le q
  simp only [roundHalfEven]
  split_ifs <;> push_cast <;> linarith

theorem roundHalfEven_nonneg {q : ℚ} (h : 0 ≤ q) : 0 ≤ roundHalfEven q := by
  have hfloor := Int.floor_nonneg.2 h
  simp only [roundHalfEven]
  split_ifs <;> omega

theorem floor_le_roundHalfEven (q : ℚ) : ⌊q⌋ ≤ roundHalfEven q := by
  simp only [roundHalfEven]
  split_ifs <;> omega

theorem roundHalfEven_le_floor (q : ℚ) : roundHalfEven q ≤ ⌊q⌋ + 1 := by
  simp only [roundHalfEven]
  split_ifs <;> omega

theorem roundHalfEven_mono {q r : ℚ} (h : q ≤ r) : roundHalfEven q ≤ roundHalfEven r := by
  rcases (Int.floor_le_floor h).lt_or_eq with hlt | heq
  · have hq := roundHalfEven_le_floor q
    have hr := floor_le_roundHalfEven r
    omega
  · simp only [roundHalfEven, heq]
    split_ifs <;> first | omega | (exfalso; linarith)

/-- The unit in the last place of what is below the overflow is at most 2^971. -/
theorem exponent_le {q : ℚ} (h : |q| < 2 ^ 1024) : exponent q ≤ 971 := by
  have hlog : Int.log 2 |q| < 1024 := by
    rcases (abs_nonneg q).eq_or_lt with hzero | hpos
    · rw [← hzero, Int.log_zero_right]
      decide
    · exact (Int.lt_zpow_iff_log_lt Nat.one_lt_two hpos).1 (by exact_mod_cast h)
  exact max_le (by decide) (by omega)

/-- An integer that is not negative converts to a finite number that is not negative. -/
theorem ofInt_nonneg {n : ℤ} {x : Double} (hn : 0 ≤ n) (h : ofInt n = some x) : ∃ q, x = .finite q ∧ 0 ≤ q := by
  unfold ofInt at h
  split at h
  · cases h
  · next hsmall =>
    cases h
    have hq : (0 : ℚ) ≤ n := by exact_mod_cast hn
    have hlt : (n : ℚ) < 2 ^ 1024 - 2 ^ 970 := by
      rw [not_le, abs_of_nonneg hn] at hsmall
      have hcast : (n : ℚ) < (overflow : ℤ) := Int.cast_lt.2 hsmall
      rwa [overflow, Int.cast_sub, Int.cast_pow, Int.cast_pow, Int.cast_ofNat] at hcast
    have hbound : |(n : ℚ)| < 2 ^ 1024 := by
      rw [abs_of_nonneg hq]
      exact hlt.trans_le (sub_le_self _ (by positivity))
    have hunit : (2 : ℚ) ^ exponent n ≤ 2 * 2 ^ 970 := by
      rw [← pow_succ', ← zpow_natCast]
      exact zpow_le_zpow_right₀ one_le_two (exponent_le hbound)
    have hpos : (0 : ℚ) < 2 ^ exponent n := zpow_pos two_pos _
    set unit : ℚ := 2 ^ exponent n
    -- the sum stays below the overflow whatever the powers are
    generalize (2 : ℚ) ^ 970 = half at hlt hunit
    have hround : (roundHalfEven (n / unit) : ℚ) * unit ≤ n + half := by
      calc (roundHalfEven (n / unit) : ℚ) * unit ≤ (n / unit + 1 / 2) * unit :=
            mul_le_mul_of_nonneg_right (roundHalfEven_le _) hpos.le
        _ = n + unit / 2 := by field_simp
        _ ≤ n + half := by linarith
    have hnonneg : (0 : ℚ) ≤ roundHalfEven (n / unit) * unit :=
      mul_nonneg (by exact_mod_cast roundHalfEven_nonneg (div_nonneg hq hpos.le)) hpos.le
    refine ⟨_, ?_, hnonneg⟩
    unfold round
    refine if_neg ?_
    rw [abs_of_nonneg hnonneg, not_le]
    generalize (2 : ℚ) ^ 1024 = top at hlt ⊢
    linarith

end Double

end Conductor
