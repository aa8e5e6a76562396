import Conductor.Lib.PyValue
import Conductor.Lib.Moments
import Conductor.Lib.Recent

/-! The running statistics of frame spacing (`recording/cadence.py`), with floats as exact rationals,
and their definitions over the whole list of timestamps. -/

namespace Conductor.Capture

open Recent

/-- `FrameCadence`. -/
structure Cadence where
  fps : ℚ
  period : ℚ
  count : ℕ
  first : Option ℤ
  last : Option ℤ
  minimum : Option ℤ
  maximum : Option ℤ
  mean : ℚ
  m2 : ℚ
  maxError : ℚ
  over1us : ℕ
  over500us : ℕ
  over1ms : ℕ
  windowIntervals : ℕ
  window : List ℤ
  windowMin : Option ℚ
  windowMax : Option ℚ

namespace Cadence

def start (fps : ℚ) : Cadence where
  fps := fps
  period := 1000000000 / fps
  count := 0
  first := none
  last := none
  minimum := none
  maximum := none
  mean := 0
  m2 := 0
  maxError := 0
  over1us := 0
  over500us := 0
  over1ms := 0
  windowIntervals := ⌈fps⌉₊
  window := []
  windowMin := none
  windowMax := none

/-- `__init__`. -/
def new (fps : ℚ) : Except String Cadence :=
  if 0 < fps ∧ fps ≤ 1000 then .ok (start fps)
  else .error "cadence FPS must be finite and in (0, 1000]"

/-- `value if bound is None else f(bound, value)`. -/
def extreme {α : Type} (f : α → α → α) (bound : Option α) (value : α) : Option α :=
  match bound with
  | none => some value
  | some b => some (f b value)

/-- The statistics of one interval; `count` is the number of timestamps before it, which is the
number of intervals with it. -/
def measure (c : Cadence) (interval : ℤ) : Cadence :=
  let delta := (interval : ℚ) - c.mean
  let mean := c.mean + delta / c.count
  let error := |(interval : ℚ) - c.period|
  { c with
    minimum := extreme min c.minimum interval
    maximum := extreme max c.maximum interval
    mean := mean
    m2 := c.m2 + delta * (interval - mean)
    maxError := max c.maxError error
    over1us := c.over1us + (decide (1000 < error)).toNat
    over500us := c.over500us + (decide (500000 < error)).toNat
    over1ms := c.over1ms + (decide (1000000 < error)).toNat }

/-- The rate over a full window, from its oldest to its newest timestamp. -/
def windowRate (c : Cadence) : Option ℚ :=
  match c.window.head?, c.window.getLast? with
  | some oldest, some newest => some (c.windowIntervals * 1000000000 / ((newest - oldest : ℤ) : ℚ))
  | _, _ => none

/-- What is done with every accepted timestamp. -/
def append (c : Cadence) (timestamp : ℤ) : Cadence :=
  let c := { c with
    last := some timestamp
    count := c.count + 1
    window := pushBounded (c.windowIntervals + 1) c.window timestamp }
  if c.window.length = c.windowIntervals + 1 then
    match c.windowRate with
    | some rate => { c with windowMin := extreme min c.windowMin rate, windowMax := extreme max c.windowMax rate }
    | none => c
  else c

/-- `observe`: what is raised, and the state behind the call. -/
def observe (c : Cadence) (value : PyValue) : Except String Unit × Cadence :=
  match value with
  | .int timestamp =>
    if timestamp < 0 then (.error "cadence timestamp must be a nonnegative integer", c)
    else
      match c.last with
      | some last =>
        if timestamp - last ≤ 0 then (.error "cadence timestamps must strictly increase", c)
        else (.ok (), (c.measure (timestamp - last)).append timestamp)
      | none => (.ok (), { c with first := some timestamp }.append timestamp)
  | _ => (.error "cadence timestamp must be a nonnegative integer", c)

def observeAll (c : Cadence) (values : List PyValue) : Cadence := values.foldl (fun c value => (c.observe value).2) c

/-! ### The batch definitions -/

/-- The distances of neighbours. -/
def intervals : List ℤ → List ℤ
  | a :: b :: rest => (b - a) :: intervals (b :: rest)
  | _ => []

def spans (timestamps : List ℤ) : List ℚ := (intervals timestamps).map fun interval : ℤ => (interval : ℚ)

/-- The rates from every timestamp to the one `w` places on. -/
def rates (w : ℕ) (timestamps : List ℤ) : List ℚ :=
  List.zipWith (fun a b : ℤ => w * 1000000000 / ((b - a : ℤ) : ℚ)) timestamps (timestamps.drop w)

/-- The number of intervals farther than a limit from the nominal period. -/
def overBy (fps : ℚ) (limit : ℚ) (timestamps : List ℤ) : ℕ :=
  (intervals timestamps).countP fun interval : ℤ => limit < |(interval : ℚ) - 1000000000 / fps|

def batch (fps : ℚ) (timestamps : List ℤ) : Cadence :=
  { fps := fps
    period := 1000000000 / fps
    count := timestamps.length
    first := timestamps.head?
    last := timestamps.getLast?
    minimum := (intervals timestamps).min?
    maximum := (intervals timestamps).max?
    mean := Moments.mean (spans timestamps)
    m2 := Moments.deviation (Moments.mean (spans timestamps)) (spans timestamps)
    maxError := ((spans timestamps).map fun span => |span - 1000000000 / fps|).foldl max 0
    over1us := overBy fps 1000 timestamps
    over500us := overBy fps 500000 timestamps
    over1ms := overBy fps 1000000 timestamps
    windowIntervals := ⌈fps⌉₊
    window := recent (⌈fps⌉₊ + 1) timestamps
    windowMin := (rates ⌈fps⌉₊ timestamps).min?
    windowMax := (rates ⌈fps⌉₊ timestamps).max? }

end Cadence

end Conductor.Capture
