import Conductor.Recovery.MetadataFrames

/-! `MetadataFrames` as a raw stream: what its `readinto` gives to a reader that asks for any number of
bytes at a time. The stream is an open one. -/

namespace Conductor.Recovery

open Checked

/-- `MetadataFrames` with its buffer. -/
structure FrameStream where
  frames : MetadataFrames
  buffer : List UInt8 := []
  offset : ℕ := 0
  ended : Bool := false

namespace FrameStream

/-- The loop of `readinto`; it says whether the buffer has bytes to give. Each pass but the last two takes
a frame from the source. -/
def fill (z : Zstd) (blockBytes : ℕ) : ℕ → FrameStream → Result ZstdError (Bool × FrameStream)
  | 0, _ => .error .fault
  | fuel + 1, s =>
    if s.offset = s.buffer.length then
      if s.ended then .ok (false, s)
      else
        match s.frames.frame z blockBytes with
        | .error e => .error e
        | .ok (none, frames) => fill z blockBytes fuel { frames, buffer := [], offset := 0, ended := true }
        | .ok (some content, frames) => fill z blockBytes fuel { s with frames, buffer := content, offset := 0 }
    else .ok (true, s)

/-- `readinto` with a target of `size` bytes. -/
def readinto (z : Zstd) (blockBytes : ℕ) (s : FrameStream) (size : ℕ) :
    Result ZstdError (List UInt8 × FrameStream) :=
  if size = 0 then .ok ([], s)
  else
    match s.fill z blockBytes (s.frames.source.content.length + 2) with
    | .error e => .error e
    | .ok (false, s) => .ok ([], s)
    | .ok (true, s) =>
      let count := min size (s.buffer.length - s.offset)
      .ok ((s.buffer.drop s.offset).take count, { s with offset := s.offset + count })

/-- One `readinto` after the other. -/
def reads (z : Zstd) (blockBytes : ℕ) : FrameStream → List ℕ → Result ZstdError (List (List UInt8) × FrameStream)
  | s, [] => .ok ([], s)
  | s, size :: sizes => do
    let (chunk, s) ← s.readinto z blockBytes size
    let (chunks, s) ← reads z blockBytes s sizes
    return (chunk :: chunks, s)

end FrameStream

/-- `MetadataFrames` over a source from its beginning. -/
def openFrames (source : Source) : FrameStream := { frames := { source } }

end Conductor.Recovery
