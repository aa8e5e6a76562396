import Conductor.Lib.Checked
import Mathlib.Algebra.BigOperators.Group.List.Basic

/-! The bounded reader of concatenated metadata frames. The codec itself is a parameter:
what the reader uses of it is the compressor, the size and the parameters of a frame
header, and the decoder of one frame. A source may return less than it is asked for. -/

namespace Conductor.Recovery

open Checked

/-- `get_frame_parameters`; an unknown content size is `none`. -/
structure FrameParameters where
  windowSize : ℕ
  contentSize : Option ℕ
  hasChecksum : Bool

/-- The codec. `decode` is what its stream reader yields for one frame. -/
structure Zstd where
  compress : List UInt8 → List UInt8
  frameHeaderSize : List UInt8 → Option ℕ
  frameParameters : List UInt8 → Option FrameParameters
  decode : List UInt8 → Option (List UInt8)

inductive ZstdError where
  | raised (message : String)
  | library
  deriving DecidableEq

def zstdError (message : String) : Failure ZstdError := .rejected (.raised message)

/-- An answer of the codec, or the error that it raises. -/
def library {α : Type} : Option α → Result ZstdError α
  | some a => .ok a
  | none => .error (.rejected .library)

/-! ### The source -/

/-- The rest of a file, and how much each of the next reads returns at most. -/
structure Source where
  content : List UInt8
  splits : List ℕ := []
  deriving DecidableEq

def Source.read (s : Source) (n : ℕ) : List UInt8 × Source :=
  match s.splits with
  | [] => (s.content.take n, ⟨s.content.drop n, []⟩)
  | k :: splits => (s.content.take (min n (k + 1)), ⟨s.content.drop (min n (k + 1)), splits⟩)

/-- The loop of `_exact`. Each pass reads a byte at least, so `count` passes are enough. -/
def exactFrom (boundary : Bool) (count : ℕ) :
    ℕ → List UInt8 → Source → Result ZstdError (Option (List UInt8) × Source)
  | 0, data, source => .ok (some data, source)
  | fuel + 1, data, source =>
    if data.length < count then
      let (block, source) := source.read (count - data.length)
      if block = [] then
        if boundary = true ∧ data = [] then .ok (none, source)
        else .error (zstdError "incomplete metadata compression frame")
      else exactFrom boundary count fuel (data ++ block) source
    else .ok (some data, source)

def exact (boundary : Bool) (count : ℕ) (source : Source) :
    Result ZstdError (Option (List UInt8) × Source) :=
  exactFrom boundary count count [] source

/-- `_exact` where the source may not end. -/
def exactly (count : ℕ) (source : Source) : Result ZstdError (List UInt8 × Source) := do
  let (data, source) ← exact false count source
  let data ← ofOption data
  return (data, source)

/-! ### One frame -/

/-- `int.from_bytes(header, "little")`. -/
def littleEndian (bytes : List UInt8) : ℕ := bytes.foldr (fun b n => b.toNat + 256 * n) 0

def blockKind (header : List UInt8) : ℕ := littleEndian header / 2 % 4

def blockSize (header : List UInt8) : ℕ := littleEndian header / 8

/-- An RLE block stores one byte. -/
def blockStored (header : List UInt8) : ℕ := if blockKind header = 1 then 1 else blockSize header

def isLastBlock (header : List UInt8) : Bool := littleEndian header % 2 = 1

/-- The loop over the blocks of a frame. Each pass adds three bytes at least, so the bound on
the encoded bytes ends it. -/
def frameBlocks (blockBytes : ℕ) : ℕ → List UInt8 → Source → Result ZstdError (List UInt8 × Source)
  | 0, _, _ => .error .fault
  | fuel + 1, encoded, source => do
    let (header, source) ← exactly 3 source
    if blockKind header = 3 ∨ 128 * 1024 < blockSize header then
      throw (zstdError "invalid metadata compression block")
    if 2 * blockBytes < encoded.length + 3 + blockStored header + 4 then
      throw (zstdError "encoded metadata frame exceeds bounded size")
    let (body, source) ← exactly (blockStored header) source
    let encoded := encoded ++ header ++ body
    if isLastBlock header then return (encoded, source)
    frameBlocks blockBytes fuel encoded source

structure MetadataFrames where
  source : Source
  frames : ℕ := 0
  deriving DecidableEq

/-- `_frame`: the content of the next frame, or `none` at the end. -/
def MetadataFrames.frame (z : Zstd) (blockBytes : ℕ) (m : MetadataFrames) :
    Result ZstdError (Option (List UInt8) × MetadataFrames) := do
  let (start, source) ← exact (m.frames ≠ 0) 5 m.source
  match start with
  | none => return (none, { m with source })
  | some start =>
    let headerBytes ← library (z.frameHeaderSize start)
    let (rest, source) ← exactly (headerBytes - start.length) source
    let header := start ++ rest
    let parameters ← library (z.frameParameters header)
    if blockBytes < parameters.windowSize ∨ parameters.contentSize.any (blockBytes < ·) then
      throw (zstdError "metadata compression frame exceeds block limit")
    let (encoded, source) ← frameBlocks blockBytes (2 * blockBytes) header source
    let (checksum, source) ← exactly (if parameters.hasChecksum then 4 else 0) source
    let decoded ← library (z.decode (encoded ++ checksum))
    if blockBytes < decoded.length then
      throw (zstdError "decoded metadata frame exceeds block limit")
    return (some decoded, ⟨source, m.frames + 1⟩)

/-- Everything that a reader of the frames gets up to the end. Each frame takes five bytes at
least. -/
def MetadataFrames.readAll (z : Zstd) (blockBytes : ℕ) : ℕ → MetadataFrames → Result ZstdError (List UInt8)
  | 0, _ => .error .fault
  | fuel + 1, m => do
    match ← m.frame z blockBytes with
    | (none, _) => return []
    | (some decoded, m) =>
      let rest ← m.readAll z blockBytes fuel
      return decoded ++ rest

/-- `BLOCK_BYTES` of the storage format. -/
def storageBlockBytes : ℕ := 1024 * 1024

/-- `_decoded_metadata`, read to its end. -/
def decodedMetadata (z : Zstd) (source : Source) : Result ZstdError (List UInt8) :=
  MetadataFrames.readAll z storageBlockBytes (source.content.length + 1) { source }

/-! ### Reading what was written -/

theorem exactFrom_append (boundary : Bool) (rest : List UInt8) : ∀ (fuel : ℕ) (done data : List UInt8)
    (splits : List ℕ), data.length ≤ fuel →
    ∃ splits', exactFrom boundary (done ++ data).length fuel done ⟨data ++ rest, splits⟩ =
      .ok (some (done ++ data), ⟨rest, splits'⟩) := by
  intro fuel
  induction fuel with
  | zero =>
    intro done data splits hlen
    obtain rfl : data = [] := List.eq_nil_of_length_eq_zero (by omega)
    exact ⟨splits, by simp [exactFrom]⟩
  | succ fuel ih =>
    intro done data splits hlen
    cases hdata : data with
    | nil => exact ⟨splits, by simp [exactFrom]⟩
    | cons b tail =>
      rw [← hdata]
      have hpos : 0 < data.length := by simp [hdata]
      have hread : ∃ k splits', 0 < k ∧ k ≤ data.length ∧
          Source.read ⟨data ++ rest, splits⟩ data.length = (data.take k, ⟨data.drop k ++ rest, splits'⟩) := by
        cases splits with
        | nil => exact ⟨data.length, [], hpos, le_rfl, by simp [Source.read]⟩
        | cons k splits =>
          have hle : min data.length (k + 1) ≤ data.length := min_le_left _ _
          refine ⟨min data.length (k + 1), splits, by omega, hle, ?_⟩
          simp only [Source.read, List.take_append_of_le_length hle, List.drop_append_of_le_length hle]
      obtain ⟨k, splits', hk, hle, hread⟩ := hread
      have htake : data.take k ≠ [] := by
        apply List.ne_nil_of_length_pos
        rw [List.length_take]
        omega
      obtain ⟨splits'', h⟩ := ih (done ++ data.take k) (data.drop k) splits' (by simp; omega)
      rw [List.append_assoc, List.take_append_drop] at h
      refine ⟨splits'', ?_⟩
      have hmissing : (done ++ data).length - done.length = data.length := by simp
      rw [exactFrom, if_pos (by simp; omega), hmissing, hread]
      simp only [htake, ↓reduceIte, h]

theorem exact_append (boundary : Bool) {n : ℕ} {data : List UInt8} (hn : data.length = n)
    (rest : List UInt8) (splits : List ℕ) :
    ∃ splits', exact boundary n ⟨data ++ rest, splits⟩ = .ok (some data, ⟨rest, splits'⟩) := by
  subst hn
  exact exactFrom_append boundary rest data.length [] data splits le_rfl

theorem exactly_append {n : ℕ} {data : List UInt8} (hn : data.length = n) (rest : List UInt8)
    (splits : List ℕ) : ∃ splits', exactly n ⟨data ++ rest, splits⟩ = .ok (data, ⟨rest, splits'⟩) := by
  obtain ⟨splits', h⟩ := exact_append false hn rest splits
  exact ⟨splits', by simp [exactly, h, ofOption, bind, Except.bind, pure, Except.pure]⟩

/-- The header and the body of one block. -/
structure IsBlock (header body : List UInt8) : Prop where
  headerLength : header.length = 3
  kind : blockKind header ≠ 3
  size : blockSize header ≤ 128 * 1024
  bodyLength : body.length = blockStored header

/-- A sequence of blocks that ends with a last one. -/
inductive Blocks : List UInt8 → Prop where
  | last {header body : List UInt8} : IsBlock header body → isLastBlock header = true →
    Blocks (header ++ body)
  | more {header body rest : List UInt8} : IsBlock header body → isLastBlock header = false → Blocks rest →
    Blocks (header ++ body ++ rest)

variable {blockBytes : ℕ} {encoded : List UInt8} {z : Zstd}

/-- One pass of the loop. -/
theorem frameBlocks_block {header body : List UInt8} (h : IsBlock header body)
    (hbound : encoded.length + (header ++ body).length + 4 ≤ 2 * blockBytes) (fuel : ℕ) (rest : List UInt8)
    (splits : List ℕ) : ∃ splits', frameBlocks blockBytes (fuel + 1) encoded ⟨header ++ body ++ rest, splits⟩ =
      if isLastBlock header then .ok (encoded ++ (header ++ body), ⟨rest, splits'⟩)
      else frameBlocks blockBytes fuel (encoded ++ (header ++ body)) ⟨rest, splits'⟩ := by
  obtain ⟨splits₁, h₁⟩ := exactly_append h.headerLength (body ++ rest) splits
  obtain ⟨splits₂, h₂⟩ := exactly_append h.bodyLength rest splits₁
  rw [List.length_append, h.headerLength, h.bodyLength] at hbound
  have hfits : ¬ 2 * blockBytes < encoded.length + 3 + blockStored header + 4 := by omega
  refine ⟨splits₂, ?_⟩
  rw [List.append_assoc header, frameBlocks, h₁]
  simp [bind, Except.bind, h.kind, h.size, hfits, h₂, pure, Except.pure]

theorem frameBlocks_append {blocks : List UInt8} (h : Blocks blocks) (rest : List UInt8) :
    ∀ (fuel : ℕ) (encoded : List UInt8) (splits : List ℕ), blocks.length ≤ fuel →
    encoded.length + blocks.length + 4 ≤ 2 * blockBytes →
    ∃ splits', frameBlocks blockBytes fuel encoded ⟨blocks ++ rest, splits⟩ =
      .ok (encoded ++ blocks, ⟨rest, splits'⟩) := by
  induction h with
  | @last header body hblock hlast =>
    intro fuel encoded splits hfuel hbound
    have hheader := hblock.headerLength
    obtain ⟨fuel, rfl⟩ : ∃ n, fuel = n + 1 := ⟨fuel - 1, by simp at hfuel; omega⟩
    obtain ⟨splits', h⟩ := frameBlocks_block hblock hbound fuel rest splits
    rw [if_pos hlast] at h
    exact ⟨splits', h⟩
  | @more header body blocks hblock hlast _ ih =>
    intro fuel encoded splits hfuel hbound
    have hheader := hblock.headerLength
    simp only [List.length_append] at hfuel hbound
    obtain ⟨fuel, rfl⟩ : ∃ n, fuel = n + 1 := ⟨fuel - 1, by omega⟩
    have hfirst : encoded.length + (header ++ body).length + 4 ≤ 2 * blockBytes := by
      rw [List.length_append]
      omega
    have hothers : (encoded ++ (header ++ body)).length + blocks.length + 4 ≤ 2 * blockBytes := by
      simp only [List.length_append]
      omega
    obtain ⟨splits₁, h₁⟩ := frameBlocks_block hblock hfirst fuel (blocks ++ rest) splits
    obtain ⟨splits₂, h₂⟩ := ih fuel (encoded ++ (header ++ body)) splits₁ (by omega) hothers
    rw [hlast, if_neg Bool.false_ne_true, h₂] at h₁
    exact ⟨splits₂, by simpa using h₁⟩

/-- The bytes that the reader takes for one frame, with what the decoder yields for them. -/
structure Accepted (z : Zstd) (blockBytes : ℕ) (encoded content : List UInt8) : Prop where
  parts : ∃ start rest blocks checksum size parameters, encoded = start ++ rest ++ blocks ++ checksum ∧
    start.length = 5 ∧ z.frameHeaderSize start = some size ∧ rest.length = size - 5 ∧
    z.frameParameters (start ++ rest) = some parameters ∧ parameters.windowSize ≤ blockBytes ∧
    (∀ n ∈ parameters.contentSize, n ≤ blockBytes) ∧ Blocks blocks ∧
    (start ++ rest ++ blocks).length + 4 ≤ 2 * blockBytes ∧
    checksum.length = if parameters.hasChecksum then 4 else 0
  decode : z.decode encoded = some content
  content : content.length ≤ blockBytes

variable {content : List UInt8}

theorem frame_accepted (h : Accepted z blockBytes encoded content) (rest : List UInt8) (splits : List ℕ) (n : ℕ) :
    ∃ splits', MetadataFrames.frame z blockBytes ⟨⟨encoded ++ rest, splits⟩, n⟩ =
      .ok (some content, ⟨⟨rest, splits'⟩, n + 1⟩) := by
  obtain ⟨start, tail, blocks, checksum, size, parameters, rfl, hstart, hsize, htail, hparameters, hwindow,
    hcontent, hblocks, hbound, hlength⟩ := h.parts
  rw [List.length_append] at hbound
  rw [← hstart] at htail
  have hfuel : blocks.length ≤ 2 * blockBytes := by omega
  obtain ⟨splits₁, h₁⟩ := exact_append (n ≠ 0) hstart (tail ++ (blocks ++ (checksum ++ rest))) splits
  obtain ⟨splits₂, h₂⟩ := exactly_append htail (blocks ++ (checksum ++ rest)) splits₁
  obtain ⟨splits₃, h₃⟩ := frameBlocks_append hblocks (checksum ++ rest) _ (start ++ tail) splits₂ hfuel hbound
  obtain ⟨splits₄, h₄⟩ := exactly_append hlength rest splits₃
  have hany : ¬ (blockBytes < parameters.windowSize ∨ parameters.contentSize.any (blockBytes < ·) = true) := by
    rintro (hw | hc)
    · omega
    · cases hsome : parameters.contentSize with
      | none => simp [hsome] at hc
      | some n =>
        have := hcontent n hsome
        simp [hsome] at hc
        omega
  have hsource : start ++ tail ++ blocks ++ checksum ++ rest =
      start ++ (tail ++ (blocks ++ (checksum ++ rest))) := by simp only [List.append_assoc]
  have hdecode := h.decode
  refine ⟨splits₄, ?_⟩
  rw [hsource, MetadataFrames.frame]
  simp only [h₁, bind, Except.bind, hsize, library, h₂, hparameters, hany, ↓reduceIte, h₃, h₄, hdecode, pure,
    Except.pure, not_lt.2 h.content]

/-- `encoded` is a complete checksummed frame within the limits, and its content is `content`. -/
structure IsFrame (z : Zstd) (blockBytes : ℕ) (encoded content : List UInt8) : Prop where
  parts : ∃ start rest blocks checksum parameters, encoded = start ++ rest ++ blocks ++ checksum ∧
    start.length = 5 ∧ z.frameHeaderSize start = some (start ++ rest).length ∧
    z.frameParameters (start ++ rest) = some parameters ∧ parameters.windowSize ≤ blockBytes ∧
    (∀ n ∈ parameters.contentSize, n ≤ blockBytes) ∧ parameters.hasChecksum = true ∧
    Blocks blocks ∧ checksum.length = 4
  bounded : encoded.length ≤ 2 * blockBytes
  decode : z.decode encoded = some content
  content : content.length ≤ blockBytes

theorem IsFrame.accepted (h : IsFrame z blockBytes encoded content) : Accepted z blockBytes encoded content where
  parts := by
    obtain ⟨start, rest, blocks, checksum, parameters, rfl, hstart, hsize, hparameters, hwindow, hcontent,
      hchecksum, hblocks, hlength⟩ := h.parts
    have hbound := h.bounded
    rw [List.length_append, hlength] at hbound
    refine ⟨start, rest, blocks, checksum, _, parameters, rfl, hstart, hsize, ?_, hparameters, hwindow, hcontent,
      hblocks, hbound, ?_⟩
    · rw [List.length_append, hstart, Nat.add_sub_cancel_left]
    · rw [hlength, hchecksum, if_pos rfl]
  decode := h.decode
  content := h.content

theorem frame_append (h : IsFrame z blockBytes encoded content) (rest : List UInt8) (splits : List ℕ) (n : ℕ) :
    ∃ splits', MetadataFrames.frame z blockBytes ⟨⟨encoded ++ rest, splits⟩, n⟩ =
      .ok (some content, ⟨⟨rest, splits'⟩, n + 1⟩) :=
  frame_accepted h.accepted rest splits n

/-- The end of the source is one only after a frame. -/
theorem frame_end (z : Zstd) (blockBytes : ℕ) (splits : List ℕ) {n : ℕ} (hn : 0 < n) :
    ∃ splits', MetadataFrames.frame z blockBytes ⟨⟨[], splits⟩, n⟩ = .ok (none, ⟨⟨[], splits'⟩, n⟩) := by
  have hread : ∃ splits', exact (n ≠ 0) 5 ⟨[], splits⟩ = .ok (none, ⟨[], splits'⟩) := by
    cases splits with
    | nil => exact ⟨[], by simp [exact, exactFrom, Source.read, hn.ne']⟩
    | cons k splits => exact ⟨splits, by simp [exact, exactFrom, Source.read, hn.ne']⟩
  obtain ⟨splits', h⟩ := hread
  exact ⟨splits', by simp only [MetadataFrames.frame, h, bind, Except.bind, pure, Except.pure]⟩

/-- Frames one after the other are read back in order, however the source splits its reads. -/
theorem readAll_frames : ∀ {contents : List (List UInt8)}, (∀ x ∈ contents, IsFrame z blockBytes (z.compress x) x) →
    ∀ (fuel : ℕ) (splits : List ℕ) (n : ℕ), contents.length < fuel → (contents = [] → 0 < n) →
    MetadataFrames.readAll z blockBytes fuel ⟨⟨contents.flatMap z.compress, splits⟩, n⟩ = .ok contents.flatten := by
  intro contents
  induction contents with
  | nil =>
    intro _ fuel splits n hfuel hn
    obtain ⟨fuel, rfl⟩ : ∃ m, fuel = m + 1 := ⟨fuel - 1, by omega⟩
    obtain ⟨splits', h⟩ := frame_end z blockBytes splits (hn rfl)
    rw [List.flatMap_nil, MetadataFrames.readAll, h]
    rfl
  | cons x contents ih =>
    intro h fuel splits n hfuel _
    rw [List.length_cons] at hfuel
    obtain ⟨fuel, rfl⟩ : ∃ m, fuel = m + 1 := ⟨fuel - 1, by omega⟩
    obtain ⟨hx, hrest⟩ := List.forall_mem_cons.1 h
    obtain ⟨splits', hframe⟩ := frame_append hx (contents.flatMap z.compress) splits n
    have hothers := ih hrest fuel splits' (n + 1) (by omega) fun _ => n.succ_pos
    rw [List.flatMap_cons, MetadataFrames.readAll, hframe]
    simp only [bind, Except.bind, hothers, pure, Except.pure, List.flatten_cons]

/-- The codec is lossless on every block that the storage format gives it. -/
def Zstd.Lossless (z : Zstd) : Prop :=
  ∀ x : List UInt8, x.length ≤ storageBlockBytes → IsFrame z storageBlockBytes (z.compress x) x

theorem IsFrame.length_pos (h : IsFrame z blockBytes encoded content) : 0 < encoded.length := by
  obtain ⟨start, _, _, _, _, rfl, hstart, -⟩ := h.parts
  simp only [List.length_append]
  omega

theorem decodedMetadata_frames {contents : List (List UInt8)}
    (h : ∀ x ∈ contents, IsFrame z storageBlockBytes (z.compress x) x) (hne : contents ≠ []) (splits : List ℕ) :
    decodedMetadata z ⟨contents.flatMap z.compress, splits⟩ = .ok contents.flatten := by
  have hlength : contents.length ≤ (contents.flatMap z.compress).length := by
    rw [List.length_flatMap]
    have := List.length_le_sum_of_one_le (contents.map fun x => (z.compress x).length) (by
      intro n hn
      obtain ⟨x, hx, rfl⟩ := List.mem_map.1 hn
      exact (h x hx).length_pos)
    rwa [List.length_map] at this
  exact readAll_frames h _ splits 0 (by simp only; omega) fun hnil => absurd hnil hne

end Conductor.Recovery
