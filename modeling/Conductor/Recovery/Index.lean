import Conductor.Recovery.MetadataFrames

/-! `RecoveryIndex`: a derived index that is written in blocks and can go back to its last
checkpoint. A running hash is the bytes that it was fed, so a copy of one is its value; the
buffered file takes every payload whole. -/

namespace Conductor.Recovery

open Checked

/-! ### The output file -/

structure Output where
  content : List UInt8 := []
  position : ℕ := 0

namespace Output

def write (o : Output) (payload : List UInt8) : Output :=
  ⟨o.content.take o.position ++ payload ++ o.content.drop (o.position + payload.length),
    o.position + payload.length⟩

def tell (o : Output) : ℕ := o.position

def seek (o : Output) (offset : ℕ) : Output := { o with position := offset }

def truncate (o : Output) : Output := { o with content := o.content.take o.position }

end Output

/-! ### The index -/

structure Checkpoint where
  offset : ℕ
  size : ℕ
  digest : List UInt8
  encodedSize : ℕ
  encodedDigest : List UInt8

/-- `compressed` says that there is a compressor. -/
structure RecoveryIndex where
  compressed : Bool
  pending : List UInt8 := []
  size : ℕ := 0
  digest : List UInt8 := []
  encodedDigest : List UInt8 := []
  encodedSize : ℕ := 0

structure StorageEncoding where
  codec : String
  level : ℕ
  blockBytes : ℕ
  uncompressedBytes : ℕ
  uncompressedSha256 : String

inductive VerifyError where
  | mismatch (message : String)
  | codec (error : Failure ZstdError)

namespace RecoveryIndex

/-- `_write`. -/
def writeOutput (w : RecoveryIndex) (output : Output) (payload : List UInt8) : RecoveryIndex × Output :=
  if w.compressed then
    ({ w with
        encodedSize := w.encodedSize + payload.length
        encodedDigest := w.encodedDigest ++ payload }, output.write payload)
  else (w, output.write payload)

/-- `_flush`. -/
def flush (z : Zstd) (w : RecoveryIndex) (output : Output) : RecoveryIndex × Output :=
  if w.pending = [] then (w, output)
  else
    let (w, output) := w.writeOutput output (z.compress w.pending)
    ({ w with pending := [] }, output)

/-- How much of a payload the pending block still takes. -/
def room (w : RecoveryIndex) (view : List UInt8) : ℕ := min (storageBlockBytes - w.pending.length) view.length

def extend (w : RecoveryIndex) (view : List UInt8) : RecoveryIndex :=
  { w with pending := w.pending ++ view.take (w.room view) }

/-- The loop of `write` over the payload. Each pass takes a byte at least, since a full block
is flushed at once. -/
def fill (z : Zstd) : ℕ → RecoveryIndex → Output → List UInt8 → RecoveryIndex × Output
  | 0, w, output, _ => (w, output)
  | passes + 1, w, output, view =>
    if view = [] then (w, output)
    else
      let next := w.extend view
      let (next, output) :=
        if next.pending.length = storageBlockBytes then next.flush z output else (next, output)
      fill z passes next output (view.drop (w.room view))

/-- The two totals of the payloads. -/
def account (w : RecoveryIndex) (payload : List UInt8) : RecoveryIndex :=
  { w with size := w.size + payload.length, digest := w.digest ++ payload }

def write (z : Zstd) (w : RecoveryIndex) (output : Output) (payload : List UInt8) : RecoveryIndex × Output :=
  if w.compressed then (w.account payload).fill z payload.length output payload
  else w.writeOutput output payload

def checkpoint (z : Zstd) (w : RecoveryIndex) (output : Output) : Checkpoint × RecoveryIndex × Output :=
  let (w, output) := w.flush z output
  (⟨output.tell, w.size, w.digest, w.encodedSize, w.encodedDigest⟩, w, output)

def rollback (w : RecoveryIndex) (output : Output) (c : Checkpoint) : RecoveryIndex × Output :=
  ({ w with
      size := c.size, encodedSize := c.encodedSize, encodedDigest := c.encodedDigest
      pending := [], digest := c.digest }, (output.seek c.offset).truncate)

def finish (z : Zstd) (w : RecoveryIndex) (output : Output) : RecoveryIndex × Output :=
  if w.compressed then
    let (w, output) := w.flush z output
    if w.size = 0 then w.writeOutput output (z.compress []) else (w, output)
  else (w, output)

/-- `_digest`. -/
def digestOf (hexdigest : List UInt8 → String) (content : List UInt8) : ℕ × String :=
  (content.length, hexdigest content)

def verify (z : Zstd) (hexdigest : List UInt8 → String) (w : RecoveryIndex) (temporary : List UInt8) :
    Except VerifyError (Option StorageEncoding) :=
  if w.compressed then
    if digestOf hexdigest temporary ≠ (w.encodedSize, hexdigest w.encodedDigest) then
      .error (.mismatch "recovery index compressed-byte readback mismatch")
    else
      match decodedMetadata z ⟨temporary, []⟩ with
      | .error e => .error (.codec e)
      | .ok decoded =>
        if digestOf hexdigest decoded ≠ (w.size, hexdigest w.digest) then
          .error (.mismatch "recovery index compression round-trip mismatch")
        else .ok (some ⟨"zstd", 1, storageBlockBytes, w.size, hexdigest w.digest⟩)
  else .ok none

end RecoveryIndex

end Conductor.Recovery
