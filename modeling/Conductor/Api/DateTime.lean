import Conductor.Api.Wire
import Mathlib.Algebra.Order.Ring.Int

/-! `datetime.fromisoformat` on the texts that `RFC3339_DATE_TIME` accepts. Two aware date-times
compare by the instants that they denote, in microseconds. -/

namespace Conductor.Api

def digitsValue (digits : List Char) : ℕ := digits.foldl (fun n d => 10 * n + (d.toNat - '0'.toNat)) 0

def digitsAt (text : List Char) (start length : ℕ) : ℕ := digitsValue ((text.drop start).take length)

/-- `_is_leap`. -/
def isLeap (year : ℕ) : Bool := year % 4 = 0 && (year % 100 ≠ 0 || year % 400 = 0)

/-- `_days_in_month`. -/
def daysInMonth (year month : ℕ) : ℕ :=
  if month = 2 then if isLeap year then 29 else 28
  else if month = 4 ∨ month = 6 ∨ month = 9 ∨ month = 11 then 30 else 31

/-- `_days_before_year`. -/
def daysBeforeYear (year : ℕ) : ℕ := (year - 1) * 365 + (year - 1) / 4 - (year - 1) / 100 + (year - 1) / 400

/-- `_days_before_month`. -/
def daysBeforeMonth (year month : ℕ) : ℕ := ((List.range (month - 1)).map fun m => daysInMonth year (m + 1)).sum

/-- `_ymd2ord`. -/
def toOrdinal (year month day : ℕ) : ℕ := daysBeforeYear year + daysBeforeMonth year month + day

/-- Six digits of the fraction; more are dropped. -/
def microseconds (fraction : List Char) : ℕ :=
  digitsValue (fraction.take 6) * 10 ^ (6 - (fraction.take 6).length)

/-- The offset of a zone in minutes. -/
def zoneMinutes : List Char → ℤ
  | '+' :: zone => digitsAt zone 0 2 * 60 + digitsAt zone 3 2
  | '-' :: zone => -(digitsAt zone 0 2 * 60 + digitsAt zone 3 2 : ℤ)
  | _ => 0

/-- `datetime.fromisoformat`; `none` is its `ValueError`. -/
def fromIsoFormat (text : String) : Option ℤ :=
  let cs := text.toList
  let year := digitsAt cs 0 4
  let month := digitsAt cs 5 2
  let day := digitsAt cs 8 2
  let hour := digitsAt cs 11 2
  let minute := digitsAt cs 14 2
  let second := digitsAt cs 17 2
  let (fraction, zone) := match cs.drop 19 with
    | '.' :: rest => (rest.takeWhile isDigit, rest.dropWhile isDigit)
    | rest => ([], rest)
  let offset := zoneMinutes zone
  if 1 ≤ year ∧ 1 ≤ month ∧ month ≤ 12 ∧ 1 ≤ day ∧ day ≤ daysInMonth year month ∧ hour ≤ 23 ∧ minute ≤ 59 ∧
      second ≤ 59 ∧ -1440 < offset ∧ offset < 1440 then
    some ((((toOrdinal year month day * 24 + hour) * 60 + minute - offset) * 60 + second) * 1000000 +
      microseconds fraction)
  else none

example : fromIsoFormat "1970-01-01T00:00:00Z" = some (719163 * 86400 * 1000000) := by decide

end Conductor.Api
