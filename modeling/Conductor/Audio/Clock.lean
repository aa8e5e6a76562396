import Conductor.Lib.Word64
import Conductor.Lib.Checked
import Conductor.Lib.Bisect
import Mathlib.Algebra.Order.Field.Rat
import Mathlib.Algebra.Order.Field.Basic

/-! The raw audio clock model twice: `audio_clock::evaluate` of the device, on unsigned
64-bit words with floats taken as exact rationals, and `raw_audio_clock_model` of the
readers, on unbounded integers. `evaluateWith` has the addition as a parameter, since
the source saturates. -/

namespace Conductor.Audio

open Checked Word64

/-- A row `[sample, alsa_raw, observed_monotonic, raw_before, raw_after]`. -/
structure Anchor where
  position : UInt64
  raw : UInt64
  mono : UInt64
  before : UInt64
  after : UInt64
  deriving DecidableEq

/-- One host observation is kept for each sample and raw time. -/
def retainSamePoint (previous : Option Anchor) (next : Anchor) : Anchor :=
  match previous with
  | some first => if first.position = next.position ∧ first.raw = next.raw then first else next
  | none => next

inductive ClockError where
  | domain
  | stale
  | mapped
  | nonmonotonic
  | missing
  | bridgeRate
  | cover
  | discontinuity (rate residualNs : ℚ)

/-- `showFloat` prints a float. -/
def ClockError.message (showFloat : ℚ → String) : ClockError → String
  | .domain => "invalid raw audio clock domain"
  | .stale => "audio clock bridge is stale or uncertain"
  | .mapped => "invalid mapped audio clock"
  | .nonmonotonic => "nonmonotonic raw audio clock or bridge"
  | .missing => "raw audio clock evidence has missing intervals"
  | .bridgeRate => "audio clock bridge rate outside supported range"
  | .cover => "raw audio anchors do not cover captured samples"
  | .discontinuity rate residualNs =>
    "raw audio clock discontinuity: rate=" ++ showFloat rate ++ ", residual_ns=" ++ showFloat residualNs

structure Model where
  startNs : ℚ
  endNs : ℚ
  residualNs : ℚ

/-! ### The device -/

def mappedNs (anchor : Anchor) : Result ClockError ℕ := do
  let raw := anchor.raw.toNat
  let before := anchor.before.toNat
  let after := anchor.after.toNat
  reject (anchor.position = 0 ∨ anchor.raw = 0 ∨ anchor.mono = 0 ∨ before < raw ∨ after < before) .stale
  let width ← sub after before
  reject (1000000 < width) .stale
  let age ← sub after raw
  reject (20000000 < age) .stale
  let midpoint ← ofOption (checkedAdd before (width / 2))
  let elapsed ← sub midpoint raw
  match (checkedSub anchor.mono.toNat elapsed).filter (0 < ·) with
  | some value => return value
  | none => .error (.rejected .mapped)

/-- A pair of neighbours in the loop over the windows. -/
abbrev Window := (Anchor × Anchor) × ((ℕ × ℕ) × (ℕ × ℕ))

def windows {α : Type} (l : List α) : List (α × α) := l.zip l.tail

def checkWindow (add : ℕ → ℕ → ℕ) (rate buffer : ℕ) (w : Window) : Result ClockError Unit := do
  let first := w.1.1
  let last := w.1.2
  reject (last.position ≤ first.position ∨ last.raw ≤ first.raw ∨ last.mono ≤ first.mono ∨
    last.before ≤ first.after ∨ w.2.2.2 ≤ w.2.1.2) .nonmonotonic
  let samples ← sub last.position.toNat first.position.toNat
  reject (add rate buffer < samples) .missing
  let beforeSpan ← sub last.before.toNat first.before.toNat
  let lastWidth ← sub last.after.toNat last.before.toNat
  let firstWidth ← sub first.after.toNat first.before.toNat
  let monoSpan ← sub last.mono.toNat first.mono.toNat
  let rawSpan : ℚ := beforeSpan + ((lastWidth : ℚ) - firstWidth) / 2
  let uncertainty : ℚ := ((lastWidth : ℚ) + firstWidth) / 2
  reject (rawSpan * (1 / 100) + uncertainty < |(monoSpan : ℚ) - rawSpan|) .bridgeRate

/-- `slice.clamp(1, len - 1)`. -/
def segmentIndex (index length : ℕ) : ℕ := min (max index 1) (length - 1)

def sampleTime (points : List (ℕ × ℕ)) (sample : ℕ) : Result ClockError ℚ := do
  let index := segmentIndex (Bisect.partitionPoint (fun point : ℕ × ℕ => sample < point.1) points)
    points.length
  let first ← ofOption points[index - 1]?
  let last ← ofOption points[index]?
  let time ← sub last.2 first.2
  let samples ← sub last.1 first.1
  let offset ← div (((sample : ℚ) - first.1) * time) samples
  return first.2 + offset

def residual (slope : ℚ) (first row : Anchor) : Result ClockError ℚ := do
  let time ← sub row.raw.toNat first.raw.toNat
  let samples ← sub row.position.toNat first.position.toNat
  return |(time : ℚ) - samples * slope|

def evaluateWith (add : ℕ → ℕ → ℕ) (anchors : List Anchor) (rate : UInt32)
    (samples period buffer : UInt64) : Result ClockError Model := do
  reject (anchors.length < 2 ∨ rate = 0 ∨ samples = 0 ∨ period = 0 ∨ buffer < period) .domain
  let points ← anchors.mapM fun anchor => do
    let mono ← mappedNs anchor
    return (anchor.position.toNat, mono)
  ((windows anchors).zip (windows points)).forM (checkWindow add rate.toNat buffer.toNat)
  let first ← ofOption anchors.head?
  let last ← ofOption anchors.getLast?
  reject (add buffer.toNat period.toNat < first.position.toNat ∨ last.position < samples ∨
    add samples.toNat buffer.toNat < last.position.toNat) .cover
  let time ← sub last.raw.toNat first.raw.toNat
  let span ← sub last.position.toNat first.position.toNat
  let slope ← div time span
  let actualRate ← div 1000000000 slope
  let residuals ← anchors.mapM (residual slope first)
  let residualNs := residuals.foldl max 0
  let relative ← div actualRate rate.toNat
  reject (1 / 100 < |relative - 1| ∨ 20000000 < residualNs) (.discontinuity actualRate residualNs)
  let startNs ← sampleTime points 0
  let endNs ← sampleTime points samples.toNat
  return ⟨startNs, endNs, residualNs⟩

def evaluate : List Anchor → UInt32 → UInt64 → UInt64 → UInt64 → Result ClockError Model :=
  evaluateWith saturatingAdd

/-! ### The readers -/

/-- The result of `raw_audio_clock_model`. -/
structure RawModel where
  points : List (ℤ × ℤ)
  actualRate : ℚ
  maxResidualNs : ℚ
  startNs : ℚ
  endNs : ℚ

def audioSampleTimeNs (points : List (ℤ × ℤ)) (sample : ℤ) : Result String ℚ := do
  let index := segmentIndex (Bisect.bisectRight (fun point : ℤ × ℤ => sample < point.1) points)
    points.length
  let first ← ofOption points[index - 1]?
  let last ← ofOption points[index]?
  let offset ← div ((sample - first.1) * (last.2 - first.2) : ℤ) (last.1 - first.1 : ℤ)
  return first.2 + offset

/-- The checks of one row, and its point. -/
def mapRow : List ℤ → Result String (ℤ × ℤ)
  | [position, raw, mono, before, after] => do
    reject (∃ v ∈ [position, raw, mono, before, after], ¬ (0 < v ∧ v < 2 ^ 64))
      "invalid raw audio clock anchor"
    reject (¬ (raw ≤ before ∧ before ≤ after) ∨ 1000000 < after - before ∨ 20000000 < after - raw)
      "audio clock bridge is stale or uncertain"
    let midpoint := before + (after - before) / 2
    let mapped := raw + mono - midpoint
    reject (mapped ≤ 0) "invalid mapped audio clock"
    return (position, mapped)
  | _ => .error (.rejected "invalid raw audio clock anchor")

def checkRows (rate buffer : ℤ) (w : (List ℤ × List ℤ) × ((ℤ × ℤ) × (ℤ × ℤ))) : Result String Unit :=
  match w with
  | (([first0, first1, first2, first3, first4], [last0, last1, last2, last3, last4]),
      (mappedFirst, mappedLast)) => do
    reject (last0 ≤ first0 ∨ last1 ≤ first1 ∨ mappedLast.2 ≤ mappedFirst.2 ∨ last3 ≤ first4 ∨
      last2 ≤ first2) "nonmonotonic raw audio clock or bridge"
    reject (rate + buffer < last0 - first0) "raw audio clock evidence has missing intervals"
    let rawSpan : ℚ := (last3 - first3 : ℤ) + ((last4 - last3 - (first4 - first3) : ℤ) : ℚ) / 2
    let uncertainty : ℚ := ((last4 - last3 + first4 - first3 : ℤ) : ℚ) / 2
    reject (rawSpan * (1 / 100) + uncertainty < |((last2 - first2 : ℤ) : ℚ) - rawSpan|)
      "audio clock bridge rate outside supported range"
  | _ => .error .fault

/-- The entries of a row that the last part reads. -/
def rowStart : List ℤ → Result String (ℤ × ℤ)
  | position :: raw :: _ => .ok (position, raw)
  | _ => .error .fault

def rawAudioClockModel (anchors : List (List ℤ)) (rate count period buffer : ℤ) :
    Result String RawModel := do
  reject ((∃ v ∈ [rate, count, period, buffer], v ≤ 0) ∨ buffer < period ∨ anchors.length < 2)
    "invalid raw audio clock domain"
  let points ← anchors.mapM mapRow
  ((windows anchors).zip (windows points)).forM (checkRows rate buffer)
  let starts ← anchors.mapM rowStart
  let first ← ofOption starts.head?
  let last ← ofOption starts.getLast?
  reject (buffer + period < first.1 ∨ ¬ (count ≤ last.1 ∧ last.1 ≤ count + buffer))
    "raw audio anchors do not cover captured samples"
  let slope ← div (last.2 - first.2 : ℤ) (last.1 - first.1 : ℤ)
  let actualRate ← div 1000000000 slope
  let residual ← ofOption (starts.map fun row =>
    |((row.2 - first.2 : ℤ) : ℚ) - ((row.1 - first.1 : ℤ) : ℚ) * slope|).max?
  let relative ← div actualRate rate
  reject (1 / 100 < |relative - 1| ∨ 20000000 < residual) "raw audio capture continuity failed"
  let startNs ← audioSampleTimeNs points 0
  let endNs ← audioSampleTimeNs points count
  return ⟨points, actualRate, residual, startNs, endNs⟩

/-- The row of an anchor as the readers receive it. -/
def Anchor.row (anchor : Anchor) : List ℤ :=
  [anchor.position.toNat, anchor.raw.toNat, anchor.mono.toNat, anchor.before.toNat, anchor.after.toNat]

end Conductor.Audio
