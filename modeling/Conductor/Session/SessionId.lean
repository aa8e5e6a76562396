import Conductor.Api.Wire
import Conductor.Lib.Digits

/-! The identifiers of sessions and takes. `uuid7` keeps the last millisecond and a counter; the
counter runs on while the clock stands still or goes back, and carries into the millisecond. -/

namespace Conductor.Session.Id

/-- `_UUID7_MILLISECOND` and `_UUID7_COUNTER`. -/
structure State where
  millisecond : ℕ
  counter : ℕ
  counter_lt : counter < 2 ^ 12

/-- What one call reads: the wall clock and two random draws. -/
structure Call where
  timeNs : ℤ
  counter : Fin (2 ^ 12)
  tail : Fin (2 ^ 62)

def start : State := ⟨0, 0, by decide⟩

def Call.current (c : Call) : ℤ := c.timeNs / 1000000

def advance (s : State) (c : Call) : State :=
  if (s.millisecond : ℤ) < c.current then ⟨c.current.toNat, c.counter, c.counter.isLt⟩
  else
    let counter := (s.counter + 1) &&& 0xFFF
    ⟨if counter = 0 then s.millisecond + 1 else s.millisecond, counter, Nat.and_lt_two_pow _ (by decide)⟩

def value (s : State) (tail : Fin (2 ^ 62)) : ℕ :=
  (s.millisecond &&& (1 <<< 48 - 1)) <<< 80 ||| 0x7 <<< 76 ||| s.counter <<< 64 ||| 0b10 <<< 62 ||| tail

/-- `str(uuid.UUID(int=value))`. -/
def text (value : ℕ) : String :=
  let hex := Digits.fixed 16 Nat.digitChar 32 value
  String.ofList (hex.take 8 ++ '-' :: (hex.drop 8).take 4 ++ '-' :: (hex.drop 12).take 4 ++
    '-' :: (hex.drop 16).take 4 ++ '-' :: hex.drop 20)

/-- The values of the calls of one process, and the state behind them. -/
def run : State → List Call → List ℕ × State
  | s, [] => ([], s)
  | s, c :: calls =>
    let after := advance s c
    let rest := run after calls
    (value after c.tail :: rest.1, rest.2)

/-- The identifiers that the calls return. -/
def uuid7s (calls : List Call) : List String := (run start calls).1.map text

end Conductor.Session.Id
