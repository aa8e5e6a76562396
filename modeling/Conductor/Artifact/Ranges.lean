import Conductor.Api.Wire
import Conductor.Lib.Digits
import Mathlib.Data.Nat.Digits.Defs

/-! The `Range` header of a download (`api/downloads.py`), and beside it what a byte range selects
when its numbers are read as numbers. -/

namespace Conductor.Artifact.Ranges

open Api

inductive RangeError where
  | valueError (message : String)
  /-- `UnsatisfiableRange`. -/
  | unsatisfiable (completeSize : ℕ)
  deriving DecidableEq

/-- `value.isascii() and value.isdigit()`. -/
def decimalText (value : List Char) : Bool := !value.isEmpty && value.all isDigit

/-- `value.lstrip("0") or "0"`. -/
def normalize (value : List Char) : List Char :=
  match value.dropWhile (· = '0') with
  | [] => ['0']
  | rest => rest

/-- The number of a text of decimal digits, `int(value)`. -/
def number (value : List Char) : ℕ := Nat.ofDigitChars 10 value 0

/-- The comparison of a normalized text with `str(upper_bound)`. -/
def exceeds (normalized : List Char) (upperBound : ℕ) : Bool :=
  let bound := Nat.toDigits 10 upperBound
  bound.length < normalized.length || (normalized.length = bound.length && bound < normalized)

/-- `_bounded_range_decimal`. -/
def boundedRangeDecimal (value : List Char) (upperBound completeSize : ℕ) : Except RangeError ℕ :=
  if decimalText value then
    let normalized := normalize value
    if exceeds normalized upperBound then .ok (upperBound + 1) else .ok (number normalized)
  else .error (.unsatisfiable completeSize)

def parseSuffix (suffix : List Char) (completeSize : ℕ) : Except RangeError (ℕ × ℕ) := do
  let suffixSize ← boundedRangeDecimal suffix completeSize completeSize
  if suffixSize = 0 ∨ completeSize = 0 then .error (.unsatisfiable completeSize)
  else return (completeSize - suffixSize, completeSize - 1)

def parseFirstLast (selected : List Char) (completeSize : ℕ) : Except RangeError (ℕ × ℕ) := do
  let firstText := selected.takeWhile (· ≠ '-')
  let separator := (selected.dropWhile (· ≠ '-')).take 1
  let lastText := (selected.dropWhile (· ≠ '-')).drop 1
  if separator = [] ∨ ¬ decimalText firstText ∨ (lastText ≠ [] ∧ ¬ decimalText lastText) then
    .error (.unsatisfiable completeSize)
  else
    let first ← boundedRangeDecimal firstText completeSize completeSize
    if completeSize ≤ first then .error (.unsatisfiable completeSize)
    else if lastText = [] then return (first, completeSize - 1)
    else
      let last ← boundedRangeDecimal lastText completeSize completeSize
      if last < first then .error (.unsatisfiable completeSize)
      else return (first, min last (completeSize - 1))

/-- `parse_single_range`. -/
def parseSingleRange (value : Option String) (completeSize : ℤ) : Except RangeError (Option (ℕ × ℕ)) :=
  if completeSize < 0 then .error (.valueError "complete_size 不能为负数")
  else
    match value with
    | none => .ok none
    | some value =>
      let size := completeSize.toNat
      if ¬ "bytes=".toList.isPrefixOf value.toList ∨ ',' ∈ value.toList then .error (.unsatisfiable size)
      else
        match value.toList.drop 6 with
        | '-' :: suffix => (parseSuffix suffix size).map some
        | selected => (parseFirstLast selected size).map some

/-! ### The reference -/

/-- One range of the grammar: `first-`, `first-last` or `-length`. -/
inductive RangeSpec where
  | first (first : ℕ)
  | firstLast (first last : ℕ)
  | suffix (length : ℕ)

/-- The bytes that a range selects of a representation, when it is satisfiable. -/
def RangeSpec.select (size : ℕ) : RangeSpec → Option (ℕ × ℕ)
  | .first f => if f < size then some (f, size - 1) else none
  | .firstLast f l => if f ≤ l ∧ f < size then some (f, min l (size - 1)) else none
  | .suffix n => if n ≠ 0 ∧ size ≠ 0 then some (size - n, size - 1) else none

/-- A nonempty text of decimal digits, of any length. -/
def Digits (text : List Char) : Prop := text ≠ [] ∧ ∀ c ∈ text, isDigit c = true

inductive Spells : List Char → RangeSpec → Prop where
  | first {f : List Char} (hf : Digits f) : Spells (f ++ ['-']) (.first (number f))
  | firstLast {f l : List Char} (hf : Digits f) (hl : Digits l) :
    Spells (f ++ '-' :: l) (.firstLast (number f) (number l))
  | suffix {n : List Char} (hn : Digits n) : Spells ('-' :: n) (.suffix (number n))

/-- The header is a single byte range that selects `r`; the name of the unit is without case. -/
def Names (header : String) (size : ℕ) (r : ℕ × ℕ) : Prop :=
  ∃ unit text spec, header.toList = unit ++ '=' :: text ∧ unit.map Char.toLower = "bytes".toList ∧
    Spells text spec ∧ spec.select size = some r

/-- The parser answers what the header names, and refuses every other header. -/
def Agrees (header : String) (size : ℕ) : Prop :=
  (∀ r, parseSingleRange (some header) size = .ok (some r) ↔ Names header size r) ∧
  (∀ r, Names header size r → r.1 ≤ r.2 ∧ r.2 < size) ∧
  ((∀ r, ¬ Names header size r) → parseSingleRange (some header) size = .error (.unsatisfiable size))

end Conductor.Artifact.Ranges
