import Conductor.Lib.PrefixFree
import Conductor.Recovery.MetadataFrames

/-! The frames of RFC 8878 and what the codec's functions say about them: Zstandard frames, whose header
tells its size and whether a checksum follows the blocks, and skippable frames, which tell their size and
have no blocks. -/

namespace Conductor.Recovery

open Words

/-! ### Headers -/

def magicNumber : List UInt8 := [0x28, 0xb5, 0x2f, 0xfd]

/-- The sixteen magic numbers of skippable frames. -/
def isSkippable (bytes : List UInt8) : Bool := littleEndian (bytes.take 4) / 16 = 0x184d2a5

/-- `Frame_Header_Descriptor`. -/
def headerDescriptor (bytes : List UInt8) : ℕ := (bytes.getD 4 0).toNat

def singleSegment (descriptor : ℕ) : Bool := descriptor / 32 % 2 = 1

def windowDescriptorSize (descriptor : ℕ) : ℕ := if singleSegment descriptor then 0 else 1

def dictionaryIdSize (descriptor : ℕ) : ℕ :=
  match descriptor % 4 with
  | 0 => 0
  | 1 => 1
  | 2 => 2
  | _ => 4

def contentSizeSize (descriptor : ℕ) : ℕ :=
  match descriptor / 64 with
  | 0 => if singleSegment descriptor then 1 else 0
  | 1 => 2
  | 2 => 4
  | _ => 8

/-- The bytes of the magic number and of the header. -/
def headerSize (descriptor : ℕ) : ℕ :=
  5 + windowDescriptorSize descriptor + dictionaryIdSize descriptor + contentSizeSize descriptor

/-- `Frame_Content_Size`. -/
def headerContentSize (header : List UInt8) : Option ℕ :=
  let descriptor := headerDescriptor header
  let field := (header.drop (5 + windowDescriptorSize descriptor + dictionaryIdSize descriptor)).take
    (contentSizeSize descriptor)
  match contentSizeSize descriptor with
  | 0 => none
  | 2 => some (littleEndian field + 256)
  | _ => some (littleEndian field)

/-- `Window_Size`: the content size of a single segment. -/
def headerWindowSize (header : List UInt8) : ℕ :=
  if singleSegment (headerDescriptor header) then (headerContentSize header).getD 0
  else
    let descriptor := (header.getD 5 0).toNat
    let base := 2 ^ (10 + descriptor / 8)
    base + base / 8 * (descriptor % 8)

def hasChecksum (descriptor : ℕ) : Bool := descriptor / 4 % 2 = 1

def headerParameters (header : List UInt8) : FrameParameters where
  windowSize := headerWindowSize header
  contentSize := headerContentSize header
  hasChecksum := hasChecksum (headerDescriptor header)

/-- The header of a Zstandard frame; the reserved bit is zero. -/
structure IsHeader (header : List UInt8) : Prop where
  magic : header.take 4 = magicNumber
  length : header.length = headerSize (headerDescriptor header)
  reserved : headerDescriptor header / 8 % 2 = 0

/-! ### Complete frames -/

def checksumSize (header : List UInt8) : ℕ := if hasChecksum (headerDescriptor header) then 4 else 0

structure IsZstandardFrame (bytes : List UInt8) : Prop where
  parts : ∃ header blocks checksum, bytes = header ++ blocks ++ checksum ∧ IsHeader header ∧ Blocks blocks ∧
    checksum.length = checksumSize header

/-- The size that a skippable frame tells. -/
def skippableSize (bytes : List UInt8) : ℕ := 8 + littleEndian ((bytes.drop 4).take 4)

structure IsSkippableFrame (bytes : List UInt8) : Prop where
  magic : isSkippable bytes = true
  length : bytes.length = skippableSize bytes

def IsCompleteFrame (bytes : List UInt8) : Prop := IsZstandardFrame bytes ∨ IsSkippableFrame bytes

/-- A complete frame with its content. Skippable frames have none. -/
def HasContent (z : Zstd) (bytes content : List UInt8) : Prop :=
  (IsZstandardFrame bytes ∧ z.decode bytes = some content) ∨ (IsSkippableFrame bytes ∧ content = [])

/-- What is assumed of the codec. Its header functions read the headers of Zstandard frames as they are;
the size is that of some header in any case, and of other frames only skippable ones have parameters. Its
decoder skips a skippable frame. -/
structure Zstd.FollowsRfc (z : Zstd) : Prop where
  headerSize : ∀ start size, start.length = 5 → z.frameHeaderSize start = some size → size ≤ 18 ∧
    (start.take 4 = magicNumber → size = headerSize (headerDescriptor start))
  parameters : ∀ header p, 5 ≤ header.length → z.frameParameters header = some p →
    header.take 4 = magicNumber ∧ headerDescriptor header / 8 % 2 = 0 ∧ p = headerParameters header ∨
      isSkippable header = true
  skips : ∀ bytes, IsSkippableFrame bytes → z.decode bytes = some []

/-! ### Frames end where they end -/

theorem headerSize_pos (descriptor : ℕ) : 5 ≤ headerSize descriptor := by
  unfold headerSize
  omega

theorem IsHeader.five {header : List UInt8} (h : IsHeader header) : 5 ≤ header.length :=
  h.length ▸ headerSize_pos _

variable {a bytes : List UInt8} {r b s : List UInt8}

theorem take_four (h : 5 ≤ a.length) : (a ++ r).take 4 = a.take 4 :=
  List.take_append_of_le_length (by omega)

theorem headerDescriptor_append (h : 5 ≤ a.length) (r : List UInt8) :
    headerDescriptor (a ++ r) = headerDescriptor a := by
  unfold headerDescriptor
  rw [List.getD_eq_getElem?_getD, List.getD_eq_getElem?_getD, List.getElem?_append_left (by omega)]

theorem blocks_head (ha : Blocks a) : ∀ {b r s : List UInt8}, Blocks b → a ++ r = b ++ s → a = b := by
  have hfirst {header body header' body' r s : List UInt8} (h : IsBlock header body) (h' : IsBlock header' body')
      (heq : header ++ (body ++ r) = header' ++ (body' ++ s)) : header = header' ∧ body = body' ∧ r = s := by
    obtain ⟨rfl, hrest⟩ := List.append_inj heq (h.headerLength.trans h'.headerLength.symm)
    obtain ⟨rfl, rfl⟩ := List.append_inj hrest (h.bodyLength.trans h'.bodyLength.symm)
    exact ⟨rfl, rfl, rfl⟩
  induction ha with
  | last hblock hlast =>
    intro b r s hb heq
    cases hb with
    | last hblock' _ =>
      rw [List.append_assoc, List.append_assoc] at heq
      obtain ⟨rfl, rfl, -⟩ := hfirst hblock hblock' heq
      rfl
    | more hblock' hlast' _ =>
      simp only [List.append_assoc] at heq
      obtain ⟨rfl, -, -⟩ := hfirst hblock hblock' heq
      exact absurd (hlast.symm.trans hlast') (by decide)
  | more hblock hlast _ ih =>
    intro b r s hb heq
    cases hb with
    | last hblock' hlast' =>
      simp only [List.append_assoc] at heq
      obtain ⟨rfl, -, -⟩ := hfirst hblock hblock' heq
      exact absurd (hlast.symm.trans hlast') (by decide)
    | more hblock' _ hb =>
      simp only [List.append_assoc] at heq
      obtain ⟨rfl, rfl, hrest⟩ := hfirst hblock hblock' heq
      rw [ih hb hrest]

/-- Two headers at the beginning of one text are the same. -/
theorem header_head (ha : IsHeader a) (hb : IsHeader b) (heq : a ++ r = b ++ s) : a = b ∧ r = s := by
  have hdescriptor : headerDescriptor a = headerDescriptor b := by
    rw [← headerDescriptor_append ha.five r, heq, headerDescriptor_append hb.five]
  apply List.append_inj heq
  rw [ha.length, hb.length, hdescriptor]

theorem zstandard_head (ha : IsZstandardFrame a) (hb : IsZstandardFrame b) (heq : a ++ r = b ++ s) : a = b := by
  obtain ⟨header, blocks, checksum, rfl, hheader, hblocks, hchecksum⟩ := ha.parts
  obtain ⟨header', blocks', checksum', rfl, hheader', hblocks', hchecksum'⟩ := hb.parts
  simp only [List.append_assoc] at heq
  obtain ⟨rfl, hrest⟩ := header_head hheader hheader' heq
  obtain rfl := blocks_head hblocks hblocks' hrest
  have htail := List.append_cancel_left hrest
  rw [(List.append_inj htail (hchecksum.trans hchecksum'.symm)).1]

theorem zstandard_five (h : IsZstandardFrame bytes) : 5 ≤ bytes.length := by
  obtain ⟨header, blocks, checksum, rfl, hheader, -, -⟩ := h.parts
  have := hheader.five
  simp only [List.length_append]
  omega

theorem zstandard_magic (h : IsZstandardFrame bytes) : bytes.take 4 = magicNumber := by
  obtain ⟨header, blocks, checksum, rfl, hheader, -, -⟩ := h.parts
  rw [List.append_assoc, take_four hheader.five, hheader.magic]

theorem isSkippable_of_magic (h : bytes.take 4 = magicNumber) : isSkippable bytes = false := by
  unfold isSkippable
  rw [h]
  rfl

theorem isSkippable_append (h : 4 ≤ a.length) (r : List UInt8) : isSkippable (a ++ r) = isSkippable a := by
  unfold isSkippable
  rw [List.take_append_of_le_length h]

theorem skippable_eight (h : IsSkippableFrame bytes) : 8 ≤ bytes.length :=
  h.length ▸ Nat.le_add_right _ _

theorem skippableSize_append (h : 8 ≤ a.length) (r : List UInt8) : skippableSize (a ++ r) = skippableSize a := by
  unfold skippableSize
  rw [List.drop_append_of_le_length (by omega), List.take_append_of_le_length]
  rw [List.length_drop]
  omega

theorem not_both (ha : IsZstandardFrame a) (hb : IsSkippableFrame b) (heq : a ++ r = b ++ s) : False := by
  have hskippable : isSkippable (b ++ s) = true := by
    rw [isSkippable_append ((by decide : 4 ≤ 8).trans (skippable_eight hb)), hb.magic]
  have hmagic : (a ++ r).take 4 = magicNumber := by rw [take_four (zstandard_five ha), zstandard_magic ha]
  rw [← heq, isSkippable_of_magic hmagic] at hskippable
  cases hskippable

/-- Complete frames tell where they end. -/
theorem completeFrames : PrefixFree IsCompleteFrame where
  eq_of_prefix := by
    rintro a b ha hb ⟨r, heq⟩
    have heq : a ++ r = b ++ [] := by rw [heq, List.append_nil]
    rcases ha with ha | ha <;> rcases hb with hb | hb
    · exact zstandard_head ha hb heq
    · exact (not_both ha hb heq).elim
    · exact (not_both hb ha heq.symm).elim
    · have hlength : a.length = b.length := by
        rw [ha.length, hb.length, ← skippableSize_append (skippable_eight ha) r, heq, List.append_nil]
      exact (List.append_inj heq hlength).1
  ne_nil := by
    rintro a (ha | ha) rfl
    · exact absurd (zstandard_five ha) (by decide)
    · exact absurd (skippable_eight ha) (by decide)

end Conductor.Recovery
