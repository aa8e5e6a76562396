import Conductor.Recovery.MetadataFrames

/-! A codec that stores its input: the frames are those of the real one for inputs that do
not compress. The content checksum is a parameter. It shows that what is assumed of the
codec can be met. -/

namespace Conductor.Recovery.Raw

open Checked

def blockLimit : ℕ := 128 * 1024

def little (bytes n : ℕ) : List UInt8 := (List.range bytes).map fun i => UInt8.ofNat (n / 256 ^ i)

theorem littleEndian_little (bytes n : ℕ) (h : n < 256 ^ bytes) : littleEndian (little bytes n) = n := by
  induction bytes generalizing n with
  | zero =>
    obtain rfl : n = 0 := by simpa using h
    rfl
  | succ bytes ih =>
    have htail : little (bytes + 1) n = UInt8.ofNat n :: little bytes (n / 256) := by
      simp [little, List.range_succ_eq_map, Nat.pow_succ', Nat.div_div_eq_div_mul]
    have hquotient : n / 256 < 256 ^ bytes := Nat.div_lt_of_lt_mul (by rwa [← Nat.pow_succ'])
    have hfold : littleEndian (UInt8.ofNat n :: little bytes (n / 256)) =
        (UInt8.ofNat n).toNat + 256 * littleEndian (little bytes (n / 256)) := rfl
    rw [htail, hfold, ih _ hquotient, UInt8.toNat_ofNat']
    omega

/-- The header of a stored block. -/
def blockHeader (size : ℕ) (last : Bool) : List UInt8 := little 3 (8 * size + last.toNat)

theorem littleEndian_blockHeader {size : ℕ} (h : size ≤ blockLimit) (last : Bool) :
    littleEndian (blockHeader size last) = 8 * size + last.toNat := by
  apply littleEndian_little
  have := last.toNat_le
  unfold blockLimit at h
  omega

variable {x : List UInt8}

theorem isBlock_raw (h : x.length ≤ blockLimit) (last : Bool) :
    IsBlock (blockHeader x.length last) x ∧ isLastBlock (blockHeader x.length last) = last := by
  have hvalue := littleEndian_blockHeader h last
  have hlast := last.toNat_le
  have hkind : blockKind (blockHeader x.length last) = 0 := by
    rw [blockKind, hvalue]
    omega
  have hsize : blockSize (blockHeader x.length last) = x.length := by
    rw [blockSize, hvalue]
    omega
  refine ⟨⟨by simp [blockHeader, little], by simp [hkind], by rw [hsize]; exact h, ?_⟩, ?_⟩
  · simp [blockStored, hkind, hsize]
  · rw [isLastBlock, hvalue]
    cases last <;> simp <;> omega

/-- At most `n + 1` blocks. -/
def blocks : ℕ → List UInt8 → List UInt8
  | 0, x => blockHeader x.length true ++ x
  | n + 1, x =>
    if x.length ≤ blockLimit then blockHeader x.length true ++ x
    else blockHeader blockLimit false ++ x.take blockLimit ++ blocks n (x.drop blockLimit)

/-- The content of blocks that are all stored, and what follows them. -/
def readBlocks : ℕ → List UInt8 → Option (List UInt8 × List UInt8)
  | 0, _ => none
  | fuel + 1, bytes =>
    let header := bytes.take 3
    let size := blockSize header
    let body := (bytes.drop 3).take size
    let rest := (bytes.drop 3).drop size
    if isLastBlock header then some (body, rest)
    else (readBlocks fuel rest).map fun (content, rest) => (body ++ content, rest)

theorem blocks_length (n : ℕ) (x : List UInt8) : (blocks n x).length ≤ x.length + 3 * (n + 1) := by
  have hheader : ∀ size last, (blockHeader size last).length = 3 := by simp [blockHeader, little]
  induction n generalizing x with
  | zero =>
    simp only [blocks, List.length_append, hheader]
    omega
  | succ n ih =>
    unfold blocks
    split
    · simp only [List.length_append, hheader]
      omega
    · have := ih (x.drop blockLimit)
      simp only [List.length_append, hheader, List.length_take, List.length_drop] at this ⊢
      omega

theorem readBlocks_block (h : x.length ≤ blockLimit) (last : Bool) (fuel : ℕ) (rest : List UInt8) :
    readBlocks (fuel + 1) (blockHeader x.length last ++ (x ++ rest)) = if last then some (x, rest)
      else (readBlocks fuel rest).map fun (content, rest) => (x ++ content, rest) := by
  obtain ⟨hblock, hlast⟩ := isBlock_raw h last
  have htake : (blockHeader x.length last ++ (x ++ rest)).take 3 = blockHeader x.length last :=
    List.take_left' hblock.headerLength
  have hdrop : (blockHeader x.length last ++ (x ++ rest)).drop 3 = x ++ rest :=
    List.drop_left' hblock.headerLength
  have hsize : blockSize (blockHeader x.length last) = x.length := by
    rw [blockSize, littleEndian_blockHeader h]
    have := last.toNat_le
    omega
  simp only [readBlocks, htake, hdrop, hsize, hlast, List.take_left, List.drop_left]

theorem isBlocks (n : ℕ) (h : x.length ≤ (n + 1) * blockLimit) : Blocks (blocks n x) := by
  induction n generalizing x with
  | zero =>
    obtain ⟨hblock, hlast⟩ := isBlock_raw (by simpa using h) true
    exact .last hblock hlast
  | succ n ih =>
    unfold blocks
    split
    · next hsmall =>
      obtain ⟨hblock, hlast⟩ := isBlock_raw hsmall true
      exact .last hblock hlast
    · next hlarge =>
      have htake : (x.take blockLimit).length = blockLimit := by
        rw [List.length_take]
        omega
      obtain ⟨hblock, hlast⟩ := isBlock_raw htake.le false
      rw [htake] at hblock hlast
      refine .more hblock hlast (ih ?_)
      rw [List.length_drop]
      rw [Nat.succ_mul] at h
      omega

theorem readBlocks_blocks (n : ℕ) (h : x.length ≤ (n + 1) * blockLimit)
    (rest : List UInt8) : readBlocks (n + 1) (blocks n x ++ rest) = some (x, rest) := by
  induction n generalizing x with
  | zero =>
    rw [blocks, List.append_assoc, readBlocks_block (by simpa using h)]
    rfl
  | succ n ih =>
    unfold blocks
    split
    · next hsmall =>
      rw [List.append_assoc, readBlocks_block hsmall]
      rfl
    · next hlarge =>
      have htake : (x.take blockLimit).length = blockLimit := by
        rw [List.length_take]
        omega
      have hdrop : (x.drop blockLimit).length ≤ (n + 1) * blockLimit := by
        rw [List.length_drop]
        rw [Nat.succ_mul] at h
        omega
      have hblock := readBlocks_block htake.le false (n + 1) (blocks n (x.drop blockLimit) ++ rest)
      rw [htake, ih hdrop] at hblock
      rw [List.append_assoc, List.append_assoc, hblock]
      simp

/-! ### Frames -/

def magic : List UInt8 := [0x28, 0xB5, 0x2F, 0xFD]

/-- The descriptor and the content size: one byte for a short content, else four. -/
def sizeFields (x : List UInt8) : List UInt8 :=
  if x.length < 256 then 0x24 :: little 1 x.length else 0xA4 :: little 4 x.length

/-- By the four fields of the descriptor. -/
def frameHeaderSize : List UInt8 → Option ℕ
  | [0x28, 0xB5, 0x2F, 0xFD, descriptor] =>
    let single := descriptor.toNat / 32 % 2
    let dictionary := [0, 1, 2, 4].getD (descriptor.toNat % 4) 0
    let size := [single, 2, 4, 8].getD (descriptor.toNat / 64) 0
    some (5 + (1 - single) + dictionary + size)
  | _ => none

/-- For the two descriptors that the codec writes. -/
def frameParameters : List UInt8 → Option FrameParameters
  | 0x28 :: 0xB5 :: 0x2F :: 0xFD :: descriptor :: size =>
    if descriptor = 0x24 ∨ descriptor = 0xA4 then
      some ⟨littleEndian size, some (littleEndian size), true⟩
    else none
  | _ => none

variable (checksum : List UInt8 → List UInt8)

def compress (x : List UInt8) : List UInt8 := magic ++ sizeFields x ++ blocks 7 x ++ checksum x

def decode (encoded : List UInt8) : Option (List UInt8) := do
  let headerBytes ← frameHeaderSize (encoded.take 5)
  let (content, rest) ← readBlocks 8 (encoded.drop headerBytes)
  if rest = checksum content then some content else none

def zstd : Zstd := ⟨compress checksum, frameHeaderSize, frameParameters, decode checksum⟩

variable {checksum}

theorem sizeFields_eq (hx : x.length ≤ storageBlockBytes) :
    ∃ descriptor size, sizeFields x = descriptor :: size ∧ (descriptor = 0x24 ∨ descriptor = 0xA4) ∧
      frameHeaderSize (magic ++ [descriptor]) = some (5 + size.length) ∧
      littleEndian size = x.length ∧ size.length ≤ 4 := by
  unfold sizeFields
  split
  · next hshort =>
    exact ⟨0x24, little 1 x.length, rfl, .inl rfl, by simp [little]; decide,
      littleEndian_little 1 _ (by omega), by simp [little]⟩
  · exact ⟨0xA4, little 4 x.length, rfl, .inr rfl, by simp [little]; decide,
      littleEndian_little 4 _ (by unfold storageBlockBytes at hx; omega), by simp [little]⟩

/-- Every content of a block comes back, in a frame within the limits. -/
theorem zstd_lossless (h : ∀ x, (checksum x).length = 4) : (zstd checksum).Lossless := by
  intro x hx
  obtain ⟨descriptor, size, hfields, hdescriptor, hheader, hvalue, hsize⟩ := sizeFields_eq hx
  have hstart : (magic ++ [descriptor]).length = 5 := rfl
  have hcompress : compress checksum x =
      magic ++ [descriptor] ++ size ++ blocks 7 x ++ checksum x := by
    simp [compress, hfields]
  have hblocks : x.length ≤ (7 + 1) * blockLimit := by
    unfold storageBlockBytes at hx
    unfold blockLimit
    omega
  refine ⟨⟨magic ++ [descriptor], size, blocks 7 x, checksum x, ⟨x.length, some x.length, true⟩, hcompress,
    hstart, ?_, ?_, hx, ?_, rfl, isBlocks 7 hblocks, h x⟩, ?_, ?_, hx⟩
  · rw [List.length_append, hstart]
    exact hheader
  · simp [zstd, magic, frameParameters, hdescriptor, hvalue]
  · simpa using hx
  · have := blocks_length 7 x
    have := h x
    simp only [zstd, hcompress, List.length_append, hstart]
    unfold storageBlockBytes at hx ⊢
    omega
  · have htake : (compress checksum x).take 5 = magic ++ [descriptor] := by
      rw [hcompress]
      simp [magic]
    have hdrop : (compress checksum x).drop (5 + size.length) = blocks 7 x ++ checksum x := by
      rw [hcompress, List.append_assoc]
      exact List.drop_left' (by rw [List.length_append, hstart])
    simp only [zstd, decode, htake, hheader, Option.bind_eq_bind, Option.bind_some, hdrop,
      readBlocks_blocks 7 hblocks, ↓reduceIte]

end Conductor.Recovery.Raw
