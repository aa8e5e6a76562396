import Mathlib.Data.Int.Notation
import Mathlib.Data.List.Basic

/-! Scatter writes: `writev_all` of `session_io.rs` and `_writev_all` of `stereo_encoder.py`. The kernel is the
list of the replies it has left. A call takes one of them, and a run that has taken all waits in `writev`. -/

namespace Conductor.Capture.Scatter

/-- `IOV_MAX` of the system. -/
def iovMax : ℕ := 1024

/-- `WRITEV_MAX` of `session_io.rs`. -/
def writevMax : ℕ := 1024

/-- The kernel has room for some bytes, is interrupted by a signal, or fails. -/
inductive Reply where
  | room (bytes : ℕ)
  | interrupted
  | failed
  deriving DecidableEq

inductive Answer where
  | wrote (bytes : List UInt8)
  | interrupted
  | failed

/-- `writev`: more vectors than the system takes are `EINVAL`. -/
def writev (vectors : List (List UInt8)) (reply : Reply) : Answer :=
  if iovMax < vectors.length then .failed
  else
    match reply with
    | .room bytes => .wrote (vectors.flatten.take bytes)
    | .interrupted => .interrupted
    | .failed => .failed

/-- Where a loop stands. -/
structure Cursor where
  index : ℕ
  offset : ℕ

inductive Ending (α : Type) where
  | returned (value : α)
  | failed (message : String)
  /-- A slice out of bounds, or a length below zero. -/
  | panicked
  | waiting

/-- A run with the bytes that the descriptor has and the first slice of every call. -/
structure Ran (α : Type) where
  ending : Ending α
  sent : List UInt8 := []
  slices : List Cursor := []

/-- A run behind a call that took some bytes. -/
def Ran.after {α : Type} (r : Ran α) (c : Cursor) (bytes : List UInt8) : Ran α :=
  { r with sent := bytes ++ r.sent, slices := c :: r.slices }

/-! ### session_io.rs -/

namespace Native

variable (chunks : List (List UInt8))

/-- `while index < chunks.len() && chunks[index].is_empty()`. -/
def skipEmpty (c : Cursor) : Cursor :=
  if h : c.index < chunks.length then
    if chunks[c.index].isEmpty then skipEmpty ⟨c.index + 1, 0⟩ else c
  else c
termination_by chunks.length - c.index

/-- The `iovec`s of a call; `none` is a slice out of bounds. -/
def vectors (c : Cursor) : Option (List (List UInt8)) :=
  if h : c.index < chunks.length then
    if chunks[c.index].length < c.offset then none
    else some (chunks[c.index].drop c.offset ::
      ((chunks.drop (c.index + 1)).filter fun chunk => !chunk.isEmpty).take (writevMax - 1))
  else none

/-- The loop over `remaining`; `none` is an offset behind the chunk. -/
def advance (c : Cursor) (remaining : ℕ) : Option Cursor :=
  if h : c.index < chunks.length then
    if chunks[c.index].isEmpty then advance ⟨c.index + 1, 0⟩ remaining
    else if chunks[c.index].length < c.offset then none
    else
      let available := chunks[c.index].length - c.offset
      if remaining < available then some ⟨c.index, c.offset + remaining⟩
      else if remaining - available = 0 then some ⟨c.index + 1, 0⟩
      else advance ⟨c.index + 1, 0⟩ (remaining - available)
  else some c
termination_by chunks.length - c.index

def loop (replies : List Reply) (c : Cursor) (total : UInt64) : Ran UInt64 :=
  let c := skipEmpty chunks c
  if chunks.length ≤ c.index then { ending := .returned total }
  else
    match vectors chunks c with
    | none => { ending := .panicked }
    | some vectors =>
      match replies with
      | [] => { ending := .waiting, slices := [c] }
      | reply :: replies =>
        match writev vectors reply with
        | .wrote bytes =>
          if bytes.length = 0 then { ending := .failed "writev 写入零字节", slices := [c] }
          else
            match advance chunks c bytes.length with
            | none => { ending := .panicked, sent := bytes, slices := [c] }
            | some next => (loop replies next (total + .ofNat bytes.length)).after c bytes
        | .interrupted => (loop replies c total).after c []
        | .failed => { ending := .failed "writev 失败", slices := [c] }

/-- `writev_all`. -/
def writevAll (fd : ℤ) (replies : List Reply) : Ran UInt64 :=
  if fd < 0 then { ending := .failed "文件描述符无效" } else loop chunks replies ⟨0, 0⟩ 0

end Native

/-! ### stereo_encoder.py -/

namespace Python

variable (views : List (List UInt8))

/-- The inner loop, and `if written` behind it. -/
def advance (c : Cursor) (written : ℕ) : Cursor :=
  if h : c.index < views.length then
    if views[c.index].length - c.offset ≤ written then
      advance ⟨c.index + 1, 0⟩ (written - (views[c.index].length - c.offset))
    else ⟨c.index, c.offset + written⟩
  else ⟨c.index, c.offset + written⟩
termination_by views.length - c.index

/-- The loop; `os.writev` calls again after a signal. -/
def loop (replies : List Reply) (c : Cursor) : Ran Unit :=
  if h : c.index < views.length then
    match replies with
    | [] => { ending := .waiting, slices := [c] }
    | reply :: replies =>
      match writev (views[c.index].drop c.offset :: views.drop (c.index + 1)) reply with
      | .wrote bytes =>
        if bytes.length = 0 then { ending := .failed "encoder pipe wrote zero bytes", slices := [c] }
        else (loop replies (advance views c bytes.length)).after c bytes
      | .interrupted => (loop replies c).after c []
      | .failed => { ending := .failed "OSError", slices := [c] }
  else { ending := .returned () }

/-- `_writev_all`. -/
def writevAll (chunks : List (List UInt8)) (replies : List Reply) : Ran Unit :=
  loop (chunks.filter fun chunk => !chunk.isEmpty) replies ⟨0, 0⟩

end Python

end Conductor.Capture.Scatter
