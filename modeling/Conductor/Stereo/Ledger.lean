import Mathlib.Data.List.Basic

/-! The ledger of closed segments: the eyes seal at their own speed, and a pair is reported when both
have its segment and all pairs before it were reported. -/

namespace Conductor.Stereo

inductive Side where
  | left
  | right
  deriving DecidableEq

def Side.name : Side → String
  | .left => "left"
  | .right => "right"

/-- The path and the size of a sealed segment. -/
structure SealedFile where
  path : String
  bytes : ℕ

/-- `closed_pair_t`; the bit of an eye is set where its file is there. -/
structure ClosedPair where
  index : ℕ
  start : ℕ
  stop : ℕ
  files : Side → Option SealedFile := fun _ => none

/-- What `on_segment` is called with. -/
structure Report where
  index : ℕ
  start : ℕ
  stop : ℕ
  left : SealedFile
  right : SealedFile

structure Ledger where
  closedPairs : List ClosedPair := []
  pendingPairs : ℕ := 0
  reportedPairs : ℕ := 0
  reports : List Report := []

inductive LedgerError where
  | segmentLedgerExhausted
  | segmentBoundaryMismatch

namespace Ledger

/-- The pairs below the index, and the others. -/
def position (index : ℕ) : List ClosedPair → List ClosedPair × List ClosedPair
  | [] => ([], [])
  | pair :: rest =>
    if pair.index < index then
      let r := position index rest
      (pair :: r.1, r.2)
    else ([], pair :: rest)

/-- The loop at the end of `ledger_record`. -/
def flush : List ClosedPair → Ledger → Ledger
  | pair :: rest, l =>
    match pair.files .left, pair.files .right with
    | some left, some right =>
      if pair.index = l.reportedPairs then
        flush rest { l with
          closedPairs := rest
          pendingPairs := l.pendingPairs - 1
          reportedPairs := l.reportedPairs + 1
          reports := l.reports ++ [⟨pair.index, pair.start, pair.stop, left, right⟩] }
      else l
    | _, _ => l
  | [], l => l

/-- A pair that is made, with the answer of `calloc`; there is no room for more than 128 of them. -/
def insert (l : Ledger) (index start stop : ℕ) (allocated : Bool) :
    Option (Ledger × List ClosedPair × ClosedPair × List ClosedPair) :=
  let r := position index l.closedPairs
  if l.pendingPairs < 128 ∧ allocated then
    let pair : ClosedPair := { index := index, start := start, stop := stop }
    some ({ l with closedPairs := r.1 ++ pair :: r.2, pendingPairs := l.pendingPairs + 1 }, r.1, pair, r.2)
  else none

/-- The pair of the index among the others; it is made where it is missing. -/
def locate (l : Ledger) (index start stop : ℕ) (allocated : Bool) :
    Option (Ledger × List ClosedPair × ClosedPair × List ClosedPair) :=
  let r := position index l.closedPairs
  match r.2 with
  | pair :: rest => if pair.index = index then some (l, r.1, pair, rest) else l.insert index start stop allocated
  | [] => l.insert index start stop allocated

/-- `ledger_record`. -/
def record (l : Ledger) (side : Side) (index start stop : ℕ) (file : SealedFile) (allocated : Bool) :
    Option LedgerError × Ledger :=
  match l.locate index start stop allocated with
  | none => (some .segmentLedgerExhausted, l)
  | some (l, before, pair, rest) =>
    if pair.start ≠ start ∨ pair.stop ≠ stop ∨ (pair.files side).isSome ∨ index < l.reportedPairs then
      (some .segmentBoundaryMismatch, l)
    else
      let pairs := before ++ { pair with files := Function.update pair.files side (some file) } :: rest
      (none, flush pairs { l with closedPairs := pairs })

end Ledger

end Conductor.Stereo
