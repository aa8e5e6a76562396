import Conductor.Lib.Runs
import Conductor.Recovery.Index

/-! Compaction of a metadata journal: `_Journal`, which follows the file while it grows, and
`compact_metadata`, which reads it once when it is complete. A running hash is the bytes that
it was fed, and a hash value is a function of them; the codec is a parameter, with the
one-shot decoder of the read-back. A read of the growing file returns any part of what is
there, and nothing only when nothing is there. -/

namespace Conductor.Live.JournalSeal

open Checked Recovery

inductive SealError where
  | raised (message : String)
  | codec (error : Failure ZstdError)

def sealError (message : String) : Failure SealError := .rejected (.raised message)

/-- What `identity` compares of a regular file with one link. -/
structure Identity where
  device : ℕ
  inode : ℕ
  size : ℕ
  mtime : ℕ
  ctime : ℕ
  deriving DecidableEq

structure File where
  device : ℕ
  inode : ℕ
  content : List UInt8
  mtime : ℕ := 0
  ctime : ℕ := 0

def File.identity (f : File) : Identity := ⟨f.device, f.inode, f.content.length, f.mtime, f.ctime⟩

/-- The codec and the one-shot decoder, which answers the content of a frame. -/
structure Codec extends Zstd where
  decompress : List UInt8 → Option (List UInt8)

/-! ### The journal -/

structure Journal where
  sourceId : ℕ × ℕ
  position : ℕ := 0
  pending : List UInt8 := []
  digest : List UInt8 := []
  encodedDigest : List UInt8 := []
  size : ℕ := 0
  output : Output := {}

namespace Journal

def new (f : File) : Journal := { sourceId := (f.device, f.inode) }

/-- The open file: what is left to read of it. -/
def source (j : Journal) (f : File) (splits : List ℕ) : Source := ⟨f.content.drop j.position, splits⟩

/-- `os.pread`. -/
def pread (output : Output) (count offset : ℕ) : List UInt8 := (output.content.drop offset).take count

/-- The pending block is compressed, written, and decoded from what was written. -/
def store (z : Codec) (j : Journal) : Result SealError Journal :=
  let block := j.pending
  let encoded := z.compress block
  let offset := j.output.tell
  let output := j.output.write encoded
  match z.decompress (pread output encoded.length offset) with
  | none => .error (.rejected (.codec (.rejected .library)))
  | some decoded =>
    if decoded ≠ block then .error (sealError "incremental metadata round-trip mismatch")
    else
      .ok { j with
        pending := [], digest := j.digest ++ block, size := j.size + block.length
        encodedDigest := j.encodedDigest ++ encoded, output }

def extend (j : Journal) (data : List UInt8) : Journal :=
  { j with pending := j.pending ++ data, position := j.position + data.length }

/-- One pass of the loop of `pump`, on the data that was read. -/
def pass (z : Codec) (final : Bool) (j : Journal) (data : List UInt8) : Result SealError Journal :=
  let j := j.extend data
  if j.pending.length = storageBlockBytes ∨ (final = true ∧ data = [] ∧ j.pending ≠ []) then j.store z
  else .ok j

/-- The read of one pass. -/
def read (j : Journal) (source : Source) : List UInt8 × Source :=
  source.read (storageBlockBytes - j.pending.length)

/-- `pump` with `final` set. Each pass but the last reads a byte at least. -/
def pumpFinal (z : Codec) : ℕ → Journal → Source → Result SealError Journal
  | 0, _, _ => .error .fault
  | fuel + 1, j, source => do
    let (data, source) := j.read source
    let j ← j.pass z true data
    if data = [] then return j
    pumpFinal z fuel j source

/-- The frame of an empty journal. -/
def writeEmpty (z : Codec) (j : Journal) : Journal :=
  if j.size = 0 then
    { j with
      output := j.output.write (z.compress [])
      encodedDigest := j.encodedDigest ++ z.compress [] }
  else j

end Journal

/-- What a compaction leaves: the file beside the journal, and the encoding that the manifest
records of it. -/
structure Compacted where
  target : List UInt8
  compression : StorageEncoding

/-- `PreparedArtifact`. -/
structure PreparedArtifact where
  source : Identity × String
  sha256 : String
  compacted : Compacted

def compression (hexdigest : List UInt8 → String) (size : ℕ) (digest : List UInt8) : StorageEncoding :=
  ⟨"zstd", 1, storageBlockBytes, size, hexdigest digest⟩

/-- `finish`. `source` is the open file and `path` the file that the name stands for. -/
def finish (z : Codec) (hexdigest : List UInt8 → String) (j : Journal) (source path : File) (splits : List ℕ) :
    Result SealError PreparedArtifact := do
  let j ← j.pumpFinal z (source.content.length + 1) (j.source source splits)
  let j := j.writeEmpty z
  let sourceIdentity := source.identity
  if (sourceIdentity.device, sourceIdentity.inode) ≠ j.sourceId ∨ sourceIdentity.size ≠ j.size then
    throw (sealError "incremental journal source changed")
  if path.identity ≠ sourceIdentity then
    throw (sealError "incremental journal source was replaced")
  let sha256 := hexdigest j.output.content
  if sha256 ≠ hexdigest j.encodedDigest then
    throw (sealError "incremental compressed journal changed after block verification")
  return ⟨(sourceIdentity, hexdigest j.digest), sha256, j.output.content, compression hexdigest j.size j.digest⟩

/-! ### Appends and passes -/

/-- `passes` counts the passes of the call of `pump` that is under way. -/
structure State where
  file : File
  journal : Journal
  passes : Option ℕ := none
  error : Option (Failure SealError) := none

/-- The journal's writer appends; the compaction thread calls `pump` and makes its passes. -/
inductive Action where
  | append (data : List UInt8) (mtime ctime : ℕ)
  | pump
  | pass (splits : List ℕ)

def start (f : File) : State := ⟨f, .new f, none, none⟩

/-- `pump` without `final` makes four passes at most. -/
def maxPasses : ℕ := 4

def State.pass (z : Codec) (s : State) (passes : ℕ) (splits : List ℕ) : State :=
  let data := (s.journal.read (s.journal.source s.file splits)).1
  match s.journal.pass z false data with
  | .error e => { s with error := some e, passes := none }
  | .ok journal =>
    { s with journal, passes := if data = [] ∨ maxPasses ≤ passes + 1 then none else some (passes + 1) }

def step (z : Codec) (s : State) : Action → Option State
  | .append data mtime ctime =>
    some { s with file := { s.file with content := s.file.content ++ data, mtime, ctime } }
  | .pump => if s.passes = none ∧ s.error = none then some { s with passes := some 0 } else none
  | .pass splits =>
    match s.passes with
    | none => none
    | some passes => some (s.pass z passes splits)

/-! ### The complete file -/

/-- `BufferedReader.read`: it reads on until it has the count or the file ends. Each pass
reads a byte at least. -/
def bufferedFrom (count : ℕ) : ℕ → List UInt8 → Source → List UInt8 × Source
  | 0, data, source => (data, source)
  | fuel + 1, data, source =>
    if data.length < count then
      let (block, source) := source.read (count - data.length)
      if block = [] then (data, source) else bufferedFrom count fuel (data ++ block) source
    else (data, source)

def buffered (count : ℕ) (source : Source) : List UInt8 × Source := bufferedFrom count count [] source

structure Compaction where
  size : ℕ := 0
  digest : List UInt8 := []
  output : List UInt8 := []

def Compaction.add (z : Codec) (c : Compaction) (block : List UInt8) : Compaction :=
  ⟨c.size + block.length, c.digest ++ block, c.output ++ z.compress block⟩

/-- The loop of `compact_metadata`. Each pass but the last reads a byte at least. -/
def compactBlocks (z : Codec) : ℕ → Compaction → Source → Result SealError Compaction
  | 0, _, _ => .error .fault
  | fuel + 1, c, source =>
    let (block, source) := buffered storageBlockBytes source
    if block = [] then .ok c else compactBlocks z fuel (c.add z block) source

/-- The file is read in `splits`, and the output read back in `splits'`. -/
def compactMetadata (z : Codec) (hexdigest : List UInt8 → String) (content : List UInt8) (splits splits' : List ℕ) :
    Result SealError Compacted := do
  let c ← compactBlocks z (content.length + 1) {} ⟨content, splits⟩
  let output := if c.size = 0 then c.output ++ z.compress [] else c.output
  match decodedMetadata z.toZstd ⟨output, splits'⟩ with
  | .error e => throw (.rejected (.codec e))
  | .ok decoded =>
    if (decoded.length, hexdigest decoded) ≠ (c.size, hexdigest c.digest) then
      throw (sealError "metadata compression round-trip mismatch")
    return ⟨output, compression hexdigest c.size c.digest⟩

end Conductor.Live.JournalSeal
