import Conductor.Lib.LeastSquares
import Mathlib.Data.Rat.Floor

/-! The fit of the device clock to the host clock (`imu.rs`), in exact arithmetic: floats are
rationals, and the casts and the sum at its end have the widths of the release build. -/

namespace Conductor.Imu

/-- `ImuError`. -/
structure ImuError where
  code : String
  message : String
  retryable : Bool
  deriving DecidableEq

def invalidTimeEvidence : ImuError :=
  ⟨"invalid_time_evidence", "device time or host read interval is invalid", false⟩

def nonMonotonicTime : ImuError := ⟨"non_monotonic_time", "time evidence must move strictly forward", true⟩

def invalidClockFit : ImuError := ⟨"invalid_clock_fit", "device clock fit slope is invalid", false⟩

inductive Quality where
  | insufficient
  | degraded
  | good
  deriving DecidableEq

structure SyncEstimate where
  offsetNs : Option ℤ
  residualNs : Option ℕ
  quality : Quality
  deriving DecidableEq

def insufficient : SyncEstimate := ⟨none, none, .insufficient⟩

structure SyncPoint where
  deviceTicks : UInt64
  hostNs : UInt64
  uncertaintyNs : UInt64
  deriving DecidableEq

/-- `TimeSynchronizer`; its limits are constants. -/
structure TimeSynchronizer where
  points : List SyncPoint
  lastHostNs : Option UInt64

def minimumPoints : ℕ := 3

def windowPoints : ℕ := 64

def goodResidualNs : ℕ := 1000000

def TimeSynchronizer.default : TimeSynchronizer := ⟨[], none⟩

def midpointNs (startNs endNs : UInt64) : UInt64 := startNs + (endNs - startNs) / 2

/-! ### The fit -/

def ticks (p : SyncPoint) : ℚ := p.deviceTicks.toNat

def host (p : SyncPoint) : ℚ := p.hostNs.toNat

def meanX (points : List SyncPoint) : ℚ := Moments.mean (points.map ticks)

def meanY (points : List SyncPoint) : ℚ := Moments.mean (points.map host)

def denominator (points : List SyncPoint) : ℚ :=
  (points.map fun p => (ticks p - meanX points) * (ticks p - meanX points)).sum

def scale (points : List SyncPoint) : ℚ :=
  (points.map fun p => (ticks p - meanX points) * (host p - meanY points)).sum / denominator points

def offset (points : List SyncPoint) : ℚ := meanY points - scale points * meanX points

def fitResidual (points : List SyncPoint) : ℚ :=
  (points.map fun p => |host p - (offset points + scale points * ticks p)|).foldl max 0

/-- The largest uncertainty, zero when there is none. -/
def uncertainty (points : List SyncPoint) : ℕ := (points.map fun p => p.uncertaintyNs.toNat).foldl max 0

/-- `f64::round`: half away from zero. -/
def roundAway (x : ℚ) : ℤ := if x < 0 then -⌊-x + 1 / 2⌋ else ⌊x + 1 / 2⌋

/-- `as i64`. -/
def asI64 (n : ℤ) : ℤ := max (-2 ^ 63) (min n (2 ^ 63 - 1))

def estimate (points : List SyncPoint) : Except ImuError SyncEstimate :=
  if points.length < minimumPoints then .ok insufficient
  else if denominator points = 0 then .ok insufficient
  else if scale points ≤ 0 then .error invalidClockFit
  else
    let residual := (min ⌈fitResidual points⌉₊ (2 ^ 64 - 1) + uncertainty points) % 2 ^ 64
    .ok ⟨some (asI64 (roundAway (offset points))), some residual,
      if goodResidualNs < residual then .degraded else .good⟩

/-! ### The synchronizer -/

namespace TimeSynchronizer

/-- The part of `add` that retains a point. -/
def retain (s : TimeSynchronizer) (point : SyncPoint) : Except ImuError SyncEstimate × TimeSynchronizer :=
  let points := (if s.points.length = windowPoints then s.points.tail else s.points) ++ [point]
  (estimate points, ⟨points, some point.hostNs⟩)

/-- `add`: its result, and the synchronizer behind it. -/
def add (s : TimeSynchronizer) (deviceTicks hostReadStartNs hostReadEndNs : UInt64) :
    Except ImuError SyncEstimate × TimeSynchronizer :=
  if hostReadEndNs < hostReadStartNs then (.error invalidTimeEvidence, s)
  else
    let hostNs := midpointNs hostReadStartNs hostReadEndNs
    let point : SyncPoint := ⟨deviceTicks, hostNs, (hostReadEndNs - hostReadStartNs) / 2⟩
    match s.points.getLast? with
    | none => s.retain point
    | some previous =>
      if deviceTicks < previous.deviceTicks ∨ ∃ last ∈ s.lastHostNs, hostNs ≤ last then (.error nonMonotonicTime, s)
      else if deviceTicks = previous.deviceTicks then (.ok insufficient, { s with lastHostNs := some hostNs })
      else s.retain point

/-- The synchronizer after a sequence of calls. -/
def run (calls : List (UInt64 × UInt64 × UInt64)) : TimeSynchronizer :=
  calls.foldl (fun s c => (s.add c.1 c.2.1 c.2.2).2) default

end TimeSynchronizer

end Conductor.Imu
