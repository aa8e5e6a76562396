import Conductor.Lib.Double

/-! The Python values that a JSON document gives, with the operations that raise. A string
that UTF-8 can encode is a `String`; one with lone surrogates is kept as its code points. -/

namespace Conductor

inductive PyStr where
  | text (value : String)
  | surrogates (codePoints : List ℕ)
  deriving DecidableEq

inductive PyError where
  | valueError
  | keyError
  | typeError
  | recursionError
  | overflowError
  | unicodeEncodeError
  | zstdError
  deriving DecidableEq

inductive PyValue where
  | none
  | bool (value : Bool)
  | int (value : ℤ)
  | float (value : Double)
  | str (value : PyStr)
  | list (items : List PyValue)
  | dict (items : List (PyStr × PyValue))

namespace PyValue

/-- `value.get(key)` of a dictionary's items. -/
def lookup (items : List (PyStr × PyValue)) (key : String) : Option PyValue :=
  (items.find? fun item => item.1 = .text key).map (·.2)

/-- `value[key]` with a string for a key. -/
def item (value : PyValue) (key : String) : Except PyError PyValue :=
  match value with
  | .dict items =>
    match lookup items key with
    | some v => .ok v
    | .none => .error .keyError
  | _ => .error .typeError

def eqStr (value : PyValue) (s : PyStr) : Bool :=
  match value with
  | .str t => t = s
  | _ => false

/-- Equality with an integer; a truth value is one of the integers 0 and 1. -/
def eqInt (value : PyValue) (n : ℤ) : Bool :=
  match value with
  | .bool b => b.toInt = n
  | .int m => m = n
  | .float x => x.eqInt n
  | _ => false

/-- Membership in a set of strings: a list or a dictionary cannot be hashed. -/
def inStrings (value : PyValue) (strings : List String) : Except PyError Bool :=
  match value with
  | .list _ | .dict _ => .error .typeError
  | .str (.text s) => .ok (s ∈ strings)
  | _ => .ok false

/-- `type(value) is int`. -/
def asInt : PyValue → Option ℤ
  | .int n => some n
  | _ => Option.none

/-- An integer among the numbers, a truth value included. -/
def toInt : PyValue → Option ℤ
  | .bool b => some b.toInt
  | .int n => some n
  | _ => Option.none

def toDouble : PyValue → Except PyError Double
  | .float x => .ok x
  | value =>
    match value.toInt with
    | some n =>
      match Double.ofInt n with
      | some x => .ok x
      | .none => .error .overflowError
    | .none => .error .typeError

/-- `a - b`: exact on integers; if one side is a float the other is converted. -/
def sub (a b : PyValue) : Except PyError PyValue :=
  match a.toInt, b.toInt with
  | some m, some n => .ok (.int (m - n))
  | _, _ =>
    match a, b with
    | .float _, _ | _, .float _ => do
      let x ← a.toDouble
      let y ← b.toDouble
      return .float (x.sub y)
    | _, _ => .error .typeError

/-- `a <= b` on integers. -/
def le (a b : PyValue) : Except PyError Bool :=
  match a.toInt, b.toInt with
  | some m, some n => .ok (m ≤ n)
  | _, _ => .error .typeError

theorem toDouble_error {v : PyValue} {e : PyError} (h : v.toDouble = .error e) :
    e = .typeError ∨ e = .overflowError ∧ ∃ n, v.toInt = some n ∧ Double.overflow ≤ |n| := by
  unfold toDouble at h
  split at h
  · cases h
  · split at h
    · next n hn =>
      split at h
      · cases h
      · next hround =>
        cases h
        refine .inr ⟨rfl, n, hn, ?_⟩
        by_contra hsmall
        simp [Double.ofInt, hsmall] at hround
    · cases h
      exact .inl rfl

/-- A subtraction overflows only when it converts an integer that rounds to an infinity. -/
theorem sub_error {a b : PyValue} {e : PyError} (h : a.sub b = .error e) :
    e = .typeError ∨ e = .overflowError ∧ ∃ n, (a.toInt = some n ∨ b.toInt = some n) ∧ Double.overflow ≤ |n| := by
  have hconvert : ∀ x y : PyValue, (do
      let p ← x.toDouble
      let q ← y.toDouble
      return PyValue.float (p.sub q)) = .error e → e = .typeError ∨ e = .overflowError ∧
        ∃ n, (x.toInt = some n ∨ y.toInt = some n) ∧ Double.overflow ≤ |n| := by
    intro x y h
    cases hx : x.toDouble with
    | error e' =>
      rw [hx] at h
      cases h
      exact (toDouble_error hx).imp_right fun ⟨he, n, hn, hlarge⟩ => ⟨he, n, .inl hn, hlarge⟩
    | ok p =>
      cases hy : y.toDouble with
      | error e' =>
        rw [hx, hy] at h
        cases h
        exact (toDouble_error hy).imp_right fun ⟨he, n, hn, hlarge⟩ => ⟨he, n, .inr hn, hlarge⟩
      | ok q =>
        rw [hx, hy] at h
        cases h
  unfold sub at h
  split at h
  · cases h
  · split at h
    · exact hconvert _ _ h
    · exact hconvert _ _ h
    · cases h
      exact .inl rfl

end PyValue

end Conductor
