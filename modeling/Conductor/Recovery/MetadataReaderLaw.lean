import Conductor.Lib.Related
import Conductor.Recovery.FrameFormat
import Conductor.Recovery.MetadataReader

/-! What `MetadataFrames` gives is settled by the bytes of its source, however they are split, and it takes
no more than its bound for one frame. It agrees with the format about where a frame ends, unless the frame
is a skippable one: it walks over the user data of these as over blocks. -/

namespace Conductor.Recovery

open Checked Words

/-! ### Reading -/

def incomplete : ZstdError := .raised "incomplete metadata compression frame"

theorem read_eq (n : ℕ) (content : List UInt8) (splits : List ℕ) (hn : 0 < n) :
    ∃ k splits', k ≤ n ∧ (content ≠ [] → 0 < min k content.length) ∧
      Source.read ⟨content, splits⟩ n = (content.take k, ⟨content.drop k, splits'⟩) := by
  cases splits with
  | nil =>
    refine ⟨n, [], le_refl n, fun hne => ?_, rfl⟩
    have := List.length_pos_iff.2 hne
    omega
  | cons k splits =>
    refine ⟨min n (k + 1), splits, min_le_left _ _, fun hne => ?_, rfl⟩
    have := List.length_pos_iff.2 hne
    omega

theorem exactFrom_eq (boundary : Bool) (count : ℕ) : ∀ (fuel : ℕ) (data content : List UInt8) (splits : List ℕ),
    data.length ≤ count → count ≤ data.length + fuel →
    ∃ splits', exactFrom boundary count fuel data ⟨content, splits⟩ =
      if count ≤ data.length + content.length then
        .ok (some (data ++ content.take (count - data.length)), ⟨content.drop (count - data.length), splits'⟩)
      else if boundary = true ∧ data = [] ∧ content = [] then .ok (none, ⟨[], splits'⟩)
      else .error (.rejected incomplete) := by
  intro fuel
  induction fuel with
  | zero =>
    intro data content splits hle hfuel
    have hcount : count - data.length = 0 := by omega
    exact ⟨splits, by rw [if_pos (by omega), hcount, List.take_zero, List.append_nil, List.drop_zero]; rfl⟩
  | succ fuel ih =>
    intro data content splits hle hfuel
    by_cases hdone : data.length < count
    · obtain ⟨k, splits', hk, hpos, hread⟩ := read_eq (count - data.length) content splits (by omega)
      by_cases hcontent : content = []
      · subst hcontent
        refine ⟨splits', ?_⟩
        rw [exactFrom, if_pos hdone, hread, if_neg (by simp only [List.length_nil]; omega)]
        simp only [List.take_nil, List.drop_nil, ↓reduceIte, and_true]
        rfl
      · have hlength := hpos hcontent
        have htake : content.take k ≠ [] := by
          apply List.ne_nil_of_length_pos
          rwa [List.length_take]
        have hdata : (data ++ content.take k).length = data.length + min k content.length := by
          rw [List.length_append, List.length_take]
        obtain ⟨splits'', h⟩ := ih (data ++ content.take k) (content.drop k) splits' (by omega) (by omega)
        refine ⟨splits'', ?_⟩
        rw [exactFrom, if_pos hdone, hread]
        simp only [htake, ↓reduceIte, h, hdata, List.length_drop]
        by_cases hall : count ≤ data.length + content.length
        · have hmin : min k content.length = k := by omega
          have hrest : count - (data.length + k) = count - data.length - k := by omega
          have hsum : k + (count - data.length - k) = count - data.length := by omega
          rw [if_pos (by omega), if_pos hall, hmin, hrest, List.append_assoc, List.drop_drop, hsum,
            ← List.take_add, hsum]
        · have hnone : ¬ (boundary = true ∧ data ++ content.take k = [] ∧ content.drop k = []) :=
            fun h => htake (List.append_eq_nil_iff.1 h.2.1).2
          have hnone' : ¬ (boundary = true ∧ data = [] ∧ content = []) := fun h => hcontent h.2.2
          rw [if_neg (by omega), if_neg hall, if_neg hnone, if_neg hnone']
    · have hcount : count - data.length = 0 := by omega
      refine ⟨splits, ?_⟩
      rw [exactFrom, if_neg hdone, if_pos (by omega), hcount, List.take_zero, List.append_nil, List.drop_zero]

theorem exact_eq (boundary : Bool) (n : ℕ) (content : List UInt8) (splits : List ℕ) :
    ∃ splits', exact boundary n ⟨content, splits⟩ =
      if n ≤ content.length then .ok (some (content.take n), ⟨content.drop n, splits'⟩)
      else if boundary = true ∧ content = [] then .ok (none, ⟨[], splits'⟩)
      else .error (.rejected incomplete) := by
  obtain ⟨splits', h⟩ := exactFrom_eq boundary n n [] content splits (Nat.zero_le n) (by simp)
  refine ⟨splits', ?_⟩
  unfold exact
  simpa using h

/-! ### Two sources -/

section Related

variable {t t' b : List UInt8} {s s' : Source}

/-- Two sources with the same bytes `b` and then others, which are out of reach of what asks for `n`
bytes; or there are no others. -/
structure Apart (t t' : List UInt8) (n : ℕ) (b : List UInt8) (s s' : Source) : Prop where
  left : s.content = b ++ t
  right : s'.content = b ++ t'
  enough : t = [] ∧ t' = [] ∨ n ≤ b.length

/-- The same value from both, with sources that have the same bytes left. -/
def Alike {α : Type} (t t' : List UInt8) (P : α → List UInt8 → Prop) (x x' : α × Source) : Prop :=
  x.1 = x'.1 ∧ ∃ b, P x.1 b ∧ x.2.content = b ++ t ∧ x'.2.content = b ++ t'

variable {n : ℕ}

theorem exact_related (boundary : Bool) (h : Apart t t' n b s s') :
    Related (Alike t t' fun a c => (∃ data, a = some data ∧ data.length = n ∧ b = data ++ c) ∨
      (a = none ∧ boundary = true ∧ s.content = [] ∧ b = c)) (exact boundary n s) (exact boundary n s') := by
  obtain ⟨content, splits⟩ := s
  obtain ⟨content', splits'⟩ := s'
  obtain rfl : content = b ++ t := h.left
  obtain rfl : content' = b ++ t' := h.right
  obtain ⟨rest, hread⟩ := exact_eq boundary n (b ++ t) splits
  obtain ⟨rest', hread'⟩ := exact_eq boundary n (b ++ t') splits'
  rw [hread, hread']
  by_cases hn : n ≤ b.length
  · rw [if_pos (by rw [List.length_append]; omega), if_pos (by rw [List.length_append]; omega),
      List.take_append_of_le_length hn, List.take_append_of_le_length hn, List.drop_append_of_le_length hn,
      List.drop_append_of_le_length hn]
    refine related_ok ⟨rfl, b.drop n, .inl ⟨b.take n, rfl, ?_, (List.take_append_drop n b).symm⟩, rfl, rfl⟩
    rw [List.length_take]
    omega
  · obtain ⟨rfl, rfl⟩ : t = [] ∧ t' = [] := by
      rcases h.enough with hnil | hle
      · exact hnil
      · exact absurd hle hn
    rw [List.append_nil, if_neg hn, if_neg hn]
    split
    · next hnone =>
      obtain ⟨hboundary, rfl⟩ := hnone
      exact related_ok ⟨rfl, [], .inr ⟨rfl, hboundary, rfl, rfl⟩, rfl, rfl⟩
    · exact related_rejected incomplete

theorem exactly_related (h : Apart t t' n b s s') :
    Related (Alike t t' fun data c => data.length = n ∧ b = data ++ c) (exactly n s) (exactly n s') := by
  unfold exactly
  refine (exact_related false h).bind ?_
  rintro ⟨a, s₁⟩ ⟨_, s₁'⟩ ⟨rfl, c, hread, hleft, hright⟩
  rcases hread with ⟨data, hdata, hlength, hb⟩ | ⟨-, hfalse, -⟩
  · obtain rfl : a = some data := hdata
    exact related_ok ⟨rfl, c, ⟨hlength, hb⟩, hleft, hright⟩
  · cases hfalse

theorem Apart.advance {m : ℕ} {d c : List UInt8} (h : Apart t t' n b s s') {s₁ s₁' : Source} (hb : b = d ++ c)
    (hleft : s₁.content = c ++ t) (hright : s₁'.content = c ++ t') (hm : d.length + m ≤ n) :
    Apart t t' m c s₁ s₁' := by
  refine ⟨hleft, hright, h.enough.imp id fun hn => ?_⟩
  rw [hb, List.length_append] at hn
  omega

theorem Apart.mono {m : ℕ} (h : Apart t t' n b s s') (hm : m ≤ n) : Apart t t' m b s s' :=
  ⟨h.left, h.right, h.enough.imp id fun hn => hm.trans hn⟩

/-- The blocks of a frame, which end within the bound. -/
theorem frameBlocks_related {bound : ℕ} : ∀ (fuel : ℕ) {b encoded : List UInt8} {s s' : Source},
    Apart t t' (2 * bound - encoded.length) b s s' → encoded.length + 3 ≤ 2 * bound →
    2 * bound ≤ fuel + encoded.length →
    Related (Alike t t' fun taken c => ∃ blocks, taken = encoded ++ blocks ∧ Blocks blocks ∧ b = blocks ++ c ∧
        (encoded ++ blocks).length + 4 ≤ 2 * bound)
      (frameBlocks bound fuel encoded s) (frameBlocks bound fuel encoded s') := by
  intro fuel
  induction fuel with
  | zero =>
    intro b encoded s s' _ hroom hfuel
    omega
  | succ fuel ih =>
    intro b encoded s s' h hroom hfuel
    unfold frameBlocks
    refine (exactly_related (h.mono (by omega))).bind ?_
    rintro ⟨header, s₁⟩ ⟨_, s₁'⟩ ⟨rfl, c₁, ⟨hheader, hb⟩, hleft₁, hright₁⟩
    refine Related.unless fun hkind => ?_
    refine Related.unless fun hfits => ?_
    rw [not_or, not_lt] at hkind
    have h₁ : Apart t t' (blockStored header) c₁ s₁ s₁' := h.advance hb hleft₁ hright₁ (by omega)
    refine (exactly_related h₁).bind ?_
    rintro ⟨body, s₂⟩ ⟨_, s₂'⟩ ⟨rfl, c₂, ⟨hbody, hc₁⟩, hleft₂, hright₂⟩
    change header.length = 3 at hheader
    change body.length = blockStored header at hbody
    have hblock : IsBlock header body := ⟨hheader, hkind.1, hkind.2, hbody⟩
    have hlength : (encoded ++ (header ++ body)).length = encoded.length + 3 + blockStored header := by
      simp only [List.length_append]
      omega
    have hb₂ : b = header ++ body ++ c₂ := by rw [hb, hc₁, List.append_assoc]
    show Related _ (if isLastBlock header = true then .ok (encoded ++ header ++ body, s₂) else _)
      (if isLastBlock header = true then .ok (encoded ++ header ++ body, s₂') else _)
    rw [List.append_assoc encoded]
    by_cases hlast : isLastBlock header = true
    · rw [if_pos hlast, if_pos hlast]
      exact related_ok ⟨rfl, c₂, ⟨header ++ body, rfl, .last hblock hlast, hb₂, by omega⟩, hleft₂, hright₂⟩
    · rw [if_neg hlast, if_neg hlast]
      have h₂ : Apart t t' (2 * bound - (encoded ++ (header ++ body)).length) c₂ s₂ s₂' := by
        refine h.advance hb₂ hleft₂ hright₂ ?_
        simp only [List.length_append] at hlength ⊢
        omega
      rcases ih h₂ (by omega) (by omega) with hfail | ⟨x, x', ⟨heq, c, ⟨blocks, htaken, hblocks, hc₂, hbound⟩, hleft, hright⟩, hx, hx'⟩
      · exact .inl hfail
      · refine .inr ⟨x, x', ⟨heq, c, ⟨header ++ body ++ blocks, ?_, ?_, ?_, ?_⟩, hleft, hright⟩, hx, hx'⟩
        · rw [htaken, List.append_assoc]
        · exact .more hblock (Bool.eq_false_iff.2 hlast) hblocks
        · rw [hb₂, hc₂]
          exact (List.append_assoc _ _ _).symm
        · rwa [List.append_assoc] at hbound

/-- What one frame takes. -/
def Taken (z : Zstd) (bound : ℕ) (b c : List UInt8) (n : ℕ) : Option (List UInt8) → ℕ → Prop
  | none, n' => b = [] ∧ c = [] ∧ n ≠ 0 ∧ n' = n
  | some content, n' => n' = n + 1 ∧ ∃ encoded, Accepted z bound encoded content ∧ b = encoded ++ c

theorem library_related {α β : Type} {R : β → β → Prop} (o : Option α) {f f' : α → Result ZstdError β}
    (hf : ∀ a, o = some a → Related R (f a) (f' a)) : Related R (library o >>= f) (library o >>= f') := by
  cases o with
  | none => exact related_rejected ZstdError.library
  | some a => exact hf a rfl

/-- Two streams whose sources have the same bytes as far as one frame may reach. -/
theorem frame_related {z : Zstd} {bound : ℕ} (hbound : 11 ≤ bound)
    (hsize : ∀ start size, start.length = 5 → z.frameHeaderSize start = some size → size ≤ 18)
    (h : Apart t t' (2 * bound) b s s') :
    Related (fun x x' => x.1 = x'.1 ∧ x.2.frames = x'.2.frames ∧ ∃ c, x.2.source.content = c ++ t ∧
        x'.2.source.content = c ++ t' ∧ Taken z bound b c n x.1 x.2.frames)
      (MetadataFrames.frame z bound ⟨s, n⟩) (MetadataFrames.frame z bound ⟨s', n⟩) := by
  unfold MetadataFrames.frame
  have h₀ : Apart t t' 5 b s s' := h.mono (by omega)
  refine (exact_related (decide (n ≠ 0)) h₀).bind ?_
  rintro ⟨a, s₁⟩ ⟨_, s₁'⟩ ⟨rfl, c₁, hstart, hleft₁, hright₁⟩
  rcases hstart with ⟨start, hstart, hfive, hb⟩ | ⟨hnone, hn, hcontent, hb⟩
  · obtain rfl : a = some start := hstart
    refine library_related _ fun size hheader => ?_
    have h₁ : Apart t t' (size - start.length) c₁ s₁ s₁' := by
      have := hsize start size hfive hheader
      exact h.advance hb hleft₁ hright₁ (by omega)
    refine (exactly_related h₁).bind ?_
    rintro ⟨rest, s₂⟩ ⟨_, s₂'⟩ ⟨rfl, c₂, ⟨hrest, hc₁⟩, hleft₂, hright₂⟩
    refine library_related _ fun parameters hparameters => ?_
    refine Related.unless fun hlimits => ?_
    have hb₂ : b = start ++ rest ++ c₂ := by rw [hb, hc₁, List.append_assoc]
    have hroom : (start ++ rest).length ≤ 18 := by
      have := hsize start size hfive hheader
      rw [List.length_append, hrest]
      omega
    have h₂ : Apart t t' (2 * bound - (start ++ rest).length) c₂ s₂ s₂' :=
      h.advance hb₂ hleft₂ hright₂ (by omega)
    refine (frameBlocks_related _ h₂ (by omega) (by omega)).bind ?_
    rintro ⟨encoded, s₃⟩ ⟨_, s₃'⟩ ⟨rfl, c₃, ⟨blocks, hencoded, hblocks, hc₂, hfits⟩, hleft₃, hright₃⟩
    obtain rfl : encoded = start ++ rest ++ blocks := hencoded
    have hb₃ : b = start ++ rest ++ blocks ++ c₃ := by rw [hb₂, hc₂, List.append_assoc (start ++ rest)]
    have h₃ : Apart t t' (if parameters.hasChecksum then 4 else 0) c₃ s₃ s₃' := by
      refine h.advance hb₃ hleft₃ hright₃ ?_
      split <;> omega
    refine (exactly_related h₃).bind ?_
    rintro ⟨checksum, s₄⟩ ⟨_, s₄'⟩ ⟨rfl, c₄, ⟨hchecksum, hc₃⟩, hleft₄, hright₄⟩
    refine library_related _ fun decoded hdecode => ?_
    refine Related.unless fun hdecoded => ?_
    have haccepted : Accepted z bound (start ++ rest ++ blocks ++ checksum) decoded := by
      rw [not_or, not_lt] at hlimits
      refine ⟨⟨start, rest, blocks, checksum, size, parameters, rfl, hfive, hheader, ?_, hparameters, hlimits.1, ?_,
        hblocks, hfits, hchecksum⟩, hdecode, not_lt.1 hdecoded⟩
      · rw [hrest, hfive]
      · intro k hk
        by_contra hlt
        refine hlimits.2 ?_
        have hsome : parameters.contentSize = some k := hk
        rw [hsome]
        exact decide_eq_true (not_le.1 hlt)
    have hb₄ : b = start ++ rest ++ blocks ++ checksum ++ c₄ := by
      rw [hb₃, hc₃, List.append_assoc (start ++ rest ++ blocks)]
    exact related_ok ⟨rfl, rfl, c₄, hleft₄, hright₄, rfl, _, haccepted, hb₄⟩
  · obtain rfl : a = none := hnone
    have hnil := hcontent
    rw [h.left] at hnil
    obtain ⟨rfl, rfl⟩ := List.append_eq_nil_iff.1 hnil
    subst hb
    exact related_ok ⟨rfl, rfl, [], hleft₁, hright₁, rfl, rfl, of_decide_eq_true hn, rfl⟩

end Related

/-! ### Frame after frame -/

section Frames

variable {z : Zstd} {bound : ℕ}

theorem Accepted.five {encoded content : List UInt8} (h : Accepted z bound encoded content) : 5 ≤ encoded.length := by
  obtain ⟨start, rest, blocks, checksum, size, parameters, rfl, hstart, -⟩ := h.parts
  simp only [List.length_append]
  omega

/-- The limits under which the reader is used: the sizes of headers, and a bound that leaves room for one. -/
structure Limits (z : Zstd) (bound : ℕ) : Prop where
  bound : 11 ≤ bound
  size : ∀ start size, start.length = 5 → z.frameHeaderSize start = some size → size ≤ 18

/-- What `_frame` does, whatever the splits. -/
theorem frame_cases (hz : Limits z bound) (content : List UInt8) (n : ℕ) :
    (∃ e, ∀ splits, MetadataFrames.frame z bound ⟨⟨content, splits⟩, n⟩ = .error (.rejected e)) ∨
    (content = [] ∧ n ≠ 0 ∧
      ∀ splits, ∃ m, MetadataFrames.frame z bound ⟨⟨content, splits⟩, n⟩ = .ok (none, m)) ∨
    ∃ encoded decoded rest, content = encoded ++ rest ∧ Accepted z bound encoded decoded ∧
      ∀ splits, ∃ splits', MetadataFrames.frame z bound ⟨⟨content, splits⟩, n⟩ =
        .ok (some decoded, ⟨⟨rest, splits'⟩, n + 1⟩) := by
  have hrelated (splits : List ℕ) := frame_related (n := n) hz.bound hz.size
    (⟨(List.append_nil content).symm, (List.append_nil content).symm, .inl ⟨rfl, rfl⟩⟩ :
      Apart [] [] (2 * bound) content ⟨content, []⟩ ⟨content, splits⟩)
  rcases hplain : MetadataFrames.frame z bound ⟨⟨content, []⟩, n⟩ with failure | ⟨a, m⟩
  · left
    rcases hrelated [] with ⟨e, he, -⟩ | ⟨x, -, -, hx, -⟩
    · refine ⟨e, fun splits => ?_⟩
      rcases hrelated splits with ⟨e', he', hsplits⟩ | ⟨x, -, -, hx, -⟩
      · rw [hsplits, ← he', he]
      · rw [he] at hx
        cases hx
    · rw [hplain] at hx
      cases hx
  · right
    have hsplits (splits : List ℕ) : ∃ m' c, MetadataFrames.frame z bound ⟨⟨content, splits⟩, n⟩ = .ok (a, m') ∧
        m.source.content = c ∧ m'.source.content = c ∧ m'.frames = m.frames ∧ Taken z bound content c n a m.frames := by
      rcases hrelated splits with ⟨e, he, -⟩ | ⟨x, x', ⟨ha, hframes, c, hleft, hright, htaken⟩, hx, hx'⟩
      · rw [hplain] at he
        cases he
      · rw [hplain] at hx
        obtain rfl := Except.ok.inj hx
        obtain ⟨a', m'⟩ := x'
        obtain rfl : a = a' := ha
        rw [List.append_nil] at hleft hright
        exact ⟨m', c, hx', hleft, hright, hframes.symm, htaken⟩
    obtain ⟨-, c, -, hc, -, -, htaken⟩ := hsplits []
    cases a with
    | none =>
      obtain ⟨hnil, -, hn, -⟩ := htaken
      refine .inl ⟨hnil, hn, fun splits => ?_⟩
      obtain ⟨m', -, hframe, -⟩ := hsplits splits
      exact ⟨m', hframe⟩
    | some decoded =>
      obtain ⟨hframes, encoded, haccepted, hcontent⟩ := htaken
      refine .inr ⟨encoded, decoded, c, hcontent, haccepted, fun splits => ?_⟩
      obtain ⟨⟨⟨content', splits'⟩, n'⟩, c', hframe, hc', hcontent', hn', -⟩ := hsplits splits
      obtain rfl : content' = c := hcontent'.trans (hc'.symm.trans hc)
      obtain rfl : n' = n + 1 := hn'.trans hframes
      exact ⟨splits', hframe⟩

/-- The frames that `_frame` takes, with their contents, up to the end or to an error. -/
inductive Takes (z : Zstd) (bound : ℕ) :
    MetadataFrames → List (List UInt8 × List UInt8) → Option ZstdError → Prop
  | ended {m m'} : m.frame z bound = .ok (none, m') → Takes z bound m [] none
  | failed {m e} : m.frame z bound = .error (.rejected e) → Takes z bound m [] (some e)
  | next {m m' encoded content pieces last} : m.frame z bound = .ok (some content, m') →
    m.source.content = encoded ++ m'.source.content → Takes z bound m' pieces last →
    Takes z bound m ((encoded, content) :: pieces) last

variable {last : Option ZstdError} {pieces : List (List UInt8 × List UInt8)}

theorem takes_unique {m : MetadataFrames}
    (h : Takes z bound m pieces last) : ∀ {pieces' last'}, Takes z bound m pieces' last' →
    pieces = pieces' ∧ last = last' := by
  induction h with
  | ended hframe =>
    intro pieces' last' h'
    cases h' with
    | ended => exact ⟨rfl, rfl⟩
    | failed hframe' => cases hframe.symm.trans hframe'
    | next hframe' _ _ => cases hframe.symm.trans hframe'
  | failed hframe =>
    intro pieces' last' h'
    cases h' with
    | ended hframe' => cases hframe.symm.trans hframe'
    | failed hframe' =>
      obtain rfl : _ = _ := Failure.rejected.inj (Except.error.inj (hframe.symm.trans hframe'))
      exact ⟨rfl, rfl⟩
    | next hframe' _ _ => cases hframe.symm.trans hframe'
  | next hframe hcontent _ ih =>
    intro pieces' last' h'
    cases h' with
    | ended hframe' => cases hframe.symm.trans hframe'
    | failed hframe' => cases hframe.symm.trans hframe'
    | next hframe' hcontent' htakes =>
      cases hframe.symm.trans hframe'
      obtain ⟨rfl, rfl⟩ := ih htakes
      rw [List.append_cancel_right (hcontent.symm.trans hcontent')]
      exact ⟨rfl, rfl⟩

/-- The bytes of the pieces, and their contents. -/
def encodedOf (pieces : List (List UInt8 × List UInt8)) : List UInt8 := (pieces.map (·.1)).flatten

def contentOf (pieces : List (List UInt8 × List UInt8)) : List UInt8 := (pieces.map (·.2)).flatten

/-- Frames are taken until one is not accepted or the bytes end, and these end only after a frame. -/
theorem takes_exists (hz : Limits z bound) (left : ℕ) : ∀ (content : List UInt8) (n : ℕ), content.length ≤ left →
    ∃ pieces last rest, (∀ splits, Takes z bound ⟨⟨content, splits⟩, n⟩ pieces last) ∧
      (∀ p ∈ pieces, Accepted z bound p.1 p.2) ∧ content = encodedOf pieces ++ rest ∧
      (last = none → rest = [] ∧ (n = 0 → pieces ≠ [])) := by
  induction left with
  | zero =>
    intro content n hleft
    obtain rfl := List.eq_nil_of_length_eq_zero (Nat.le_zero.1 hleft)
    rcases frame_cases hz [] n with ⟨e, he⟩ | ⟨-, hn, hnone⟩ | ⟨encoded, decoded, rest, hcontent, haccepted, -⟩
    · exact ⟨[], some e, [], fun splits => .failed (he splits), by simp, rfl, fun h => nomatch h⟩
    · refine ⟨[], none, [], fun splits => ?_, by simp, rfl, fun _ => ⟨rfl, fun h => absurd h hn⟩⟩
      obtain ⟨m, hm⟩ := hnone splits
      exact .ended hm
    · have hfive := haccepted.five
      rw [(List.append_eq_nil_iff.1 hcontent.symm).1] at hfive
      exact absurd hfive (by decide)
  | succ left ih =>
    intro content n hleft
    rcases frame_cases hz content n with ⟨e, he⟩ | ⟨rfl, hn, hnone⟩ | ⟨encoded, decoded, rest, rfl, haccepted, hsome⟩
    · exact ⟨[], some e, content, fun splits => .failed (he splits), by simp, rfl, fun h => nomatch h⟩
    · refine ⟨[], none, [], fun splits => ?_, by simp, rfl, fun _ => ⟨rfl, fun h => absurd h hn⟩⟩
      obtain ⟨m, hm⟩ := hnone splits
      exact .ended hm
    · have hfive := haccepted.five
      have hrest : rest.length ≤ left := by
        rw [List.length_append] at hleft
        omega
      obtain ⟨pieces, last, rest', htakes, hpieces, rfl, hlast⟩ := ih rest (n + 1) hrest
      refine ⟨(encoded, decoded) :: pieces, last, rest', fun splits => ?_, ?_, ?_, fun h => ?_⟩
      · obtain ⟨splits', hframe⟩ := hsome splits
        exact .next hframe rfl (htakes splits')
      · exact List.forall_mem_cons.2 ⟨haccepted, hpieces⟩
      · exact (List.append_assoc _ _ _).symm
      · exact ⟨(hlast h).1, fun _ => List.cons_ne_nil _ _⟩

/-- Acceptable frames are taken as they are. -/
theorem takes_of_accepted : ∀ {pieces : List (List UInt8 × List UInt8)}, (∀ p ∈ pieces, Accepted z bound p.1 p.2) →
    ∀ (splits : List ℕ) (n : ℕ), (pieces = [] → 0 < n) →
    Takes z bound ⟨⟨encodedOf pieces, splits⟩, n⟩ pieces none := by
  intro pieces
  induction pieces with
  | nil =>
    intro _ splits n hn
    obtain ⟨splits', hframe⟩ := frame_end z bound splits (hn rfl)
    exact .ended hframe
  | cons p pieces ih =>
    intro h splits n _
    obtain ⟨hp, hpieces⟩ := List.forall_mem_cons.1 h
    obtain ⟨splits', hframe⟩ := frame_accepted hp (encodedOf pieces) splits n
    exact .next hframe rfl (ih hpieces splits' (n + 1) fun _ => n.succ_pos)

theorem takes_length (hz : Limits z bound) {m : MetadataFrames}
    (h : Takes z bound m pieces last) : pieces.length ≤ m.source.content.length := by
  obtain ⟨⟨content, splits⟩, n⟩ := m
  obtain ⟨pieces', last', rest, htakes, hpieces, hcontent, -⟩ := takes_exists hz _ content n (le_refl _)
  obtain ⟨rfl, -⟩ := takes_unique h (htakes splits)
  have hlength : pieces.length ≤ (encodedOf pieces).length := by
    unfold encodedOf
    rw [List.length_flatten, List.map_map]
    have := List.length_le_sum_of_one_le (pieces.map (List.length ∘ fun p => p.1)) (by
      intro k hk
      obtain ⟨p, hp, rfl⟩ := List.mem_map.1 hk
      have := (hpieces p hp).five
      simp only [Function.comp_apply]
      omega)
    rwa [List.length_map] at this
  show pieces.length ≤ content.length
  rw [hcontent, List.length_append]
  omega

end Frames

/-! ### The stream -/

section Stream

variable {z : Zstd} {bound : ℕ}

/-- What a stream has still to give: these bytes, and then its end or an error. -/
def Ahead (z : Zstd) (bound : ℕ) (s : FrameStream) (out : List UInt8) (last : Option ZstdError) : Prop :=
  s.offset ≤ s.buffer.length ∧ ∃ later, out = s.buffer.drop s.offset ++ later ∧
    (s.ended = true ∧ later = [] ∧ last = none ∨
      s.ended = false ∧ ∃ pieces, Takes z bound s.frames pieces last ∧ later = contentOf pieces)

variable {last : Option ZstdError}

theorem fill_takes {m : MetadataFrames} {pieces : List (List UInt8 × List UInt8)}
    (h : Takes z bound m pieces last) : ∀ {fuel : ℕ} {s : FrameStream}, pieces.length + 2 ≤ fuel → s.frames = m →
    s.offset = s.buffer.length → s.ended = false →
    (∃ s', s.fill z bound fuel = .ok (true, s') ∧ s'.offset < s'.buffer.length ∧
      Ahead z bound s' (contentOf pieces) last) ∨
    (contentOf pieces = [] ∧ ∃ e, last = some e ∧ s.fill z bound fuel = .error (.rejected e)) ∨
    (contentOf pieces = [] ∧ last = none ∧ ∃ s', s.fill z bound fuel = .ok (false, s') ∧ Ahead z bound s' [] none) := by
  induction h with
  | @ended m m' hframe =>
    intro fuel s hfuel hs hoffset hended
    obtain ⟨fuel, rfl⟩ : ∃ k, fuel = k + 2 := ⟨fuel - 2, by omega⟩
    refine .inr (.inr ⟨rfl, rfl, { frames := m', ended := true }, ?_, le_refl _, [], rfl, .inl ⟨rfl, rfl, rfl⟩⟩)
    rw [FrameStream.fill, if_pos hoffset, hended, if_neg Bool.false_ne_true, hs, hframe]
    rfl
  | failed hframe =>
    intro fuel s hfuel hs hoffset hended
    obtain ⟨fuel, rfl⟩ : ∃ k, fuel = k + 2 := ⟨fuel - 2, by omega⟩
    refine .inr (.inl ⟨rfl, _, rfl, ?_⟩)
    rw [FrameStream.fill, if_pos hoffset, hended, if_neg Bool.false_ne_true, hs, hframe]
  | @next m m' encoded content pieces last hframe _ htakes ih =>
    intro fuel s hfuel hs hoffset hended
    rw [List.length_cons] at hfuel
    obtain ⟨fuel, rfl⟩ : ∃ k, fuel = k + 1 := ⟨fuel - 1, by omega⟩
    have hfill : s.fill z bound (fuel + 1) =
        FrameStream.fill z bound fuel { s with frames := m', buffer := content, offset := 0 } := by
      rw [FrameStream.fill, if_pos hoffset, hended, if_neg Bool.false_ne_true, hs, hframe]
    rw [hfill]
    by_cases hcontent : content = []
    · subst hcontent
      exact ih (by omega) rfl rfl hended
    · obtain ⟨fuel, rfl⟩ : ∃ k, fuel = k + 1 := ⟨fuel - 1, by omega⟩
      have hpos := List.length_pos_iff.2 hcontent
      refine .inl ⟨{ s with frames := m', buffer := content, offset := 0 }, ?_, hpos, Nat.zero_le _, contentOf pieces,
        rfl, .inr ⟨hended, pieces, htakes, rfl⟩⟩
      rw [FrameStream.fill, if_neg hpos.ne]

/-- One `readinto`: it gives something of what is ahead, or else it ends or fails as that says. -/
theorem readinto_ahead (hz : Limits z bound) {s : FrameStream} {out : List UInt8}
    (h : Ahead z bound s out last) {size : ℕ} (hsize : 0 < size) :
    (∃ chunk out' s', s.readinto z bound size = .ok (chunk, s') ∧ out = chunk ++ out' ∧ chunk ≠ [] ∧
      chunk.length ≤ size ∧ Ahead z bound s' out' last) ∨
    (out = [] ∧ ∃ e, last = some e ∧ s.readinto z bound size = .error (.rejected e)) ∨
    (out = [] ∧ last = none ∧ ∃ s', s.readinto z bound size = .ok ([], s') ∧ Ahead z bound s' [] none) := by
  have hgive {s' : FrameStream} (hfill : s.fill z bound (s.frames.source.content.length + 2) = .ok (true, s'))
      (hbytes : s'.offset < s'.buffer.length) (hahead : Ahead z bound s' out last) :
      ∃ chunk out' s', s.readinto z bound size = .ok (chunk, s') ∧ out = chunk ++ out' ∧ chunk ≠ [] ∧
        chunk.length ≤ size ∧ Ahead z bound s' out' last := by
    obtain ⟨-, later, hout, hlater⟩ := hahead
    set count := min size (s'.buffer.length - s'.offset) with hcount
    have hlength : ((s'.buffer.drop s'.offset).take count).length = count := by
      rw [List.length_take, List.length_drop]
      omega
    refine ⟨(s'.buffer.drop s'.offset).take count, s'.buffer.drop (s'.offset + count) ++ later,
      { s' with offset := s'.offset + count }, ?_, ?_, ?_, ?_, ?_, later, rfl, hlater⟩
    · rw [FrameStream.readinto, if_neg hsize.ne', hfill]
    · rw [hout, ← List.append_assoc, ← List.drop_drop, List.take_append_drop]
    · apply List.ne_nil_of_length_pos
      omega
    · omega
    · show s'.offset + count ≤ s'.buffer.length
      omega
  obtain ⟨hoffset, later, hout, hlater⟩ := h
  rcases Nat.lt_or_eq_of_le hoffset with hbytes | hempty
  · refine .inl (hgive ?_ hbytes ⟨hoffset, later, hout, hlater⟩)
    rw [FrameStream.fill, if_neg hbytes.ne]
  · rw [hempty, List.drop_length, List.nil_append] at hout
    subst hout
    rcases hlater with ⟨hended, rfl, rfl⟩ | ⟨hended, pieces, htakes, rfl⟩
    · refine .inr (.inr ⟨rfl, rfl, s, ?_, hoffset, [], ?_, .inl ⟨hended, rfl, rfl⟩⟩)
      · rw [FrameStream.readinto, if_neg hsize.ne', FrameStream.fill, if_pos hempty, if_pos hended]
      · rw [hempty, List.drop_length]
        rfl
    · have hfuel := Nat.add_le_add_right (takes_length hz htakes) 2
      rcases fill_takes htakes hfuel rfl hempty hended with ⟨s', hfill, hbytes, hahead⟩ | ⟨hnil, e, hlast, hfill⟩ |
        ⟨hnil, hlast, s', hfill, hahead⟩
      · exact .inl (hgive hfill hbytes hahead)
      · refine .inr (.inl ⟨hnil, e, hlast, ?_⟩)
        rw [FrameStream.readinto, if_neg hsize.ne', hfill]
      · refine .inr (.inr ⟨hnil, hlast, s', ?_, hahead⟩)
        rw [FrameStream.readinto, if_neg hsize.ne', hfill]

/-- The chunks that a reader gets of `out`: each has something and no more than it asked for, and where
all of `out` was given it gets nothing, which is the end. -/
inductive Served (last : Option ZstdError) : List UInt8 → List ℕ → List (List UInt8) → Prop
  | stop {out} : Served last out [] []
  | chunk {chunk out size sizes chunks} : chunk ≠ [] → chunk.length ≤ size → Served last out sizes chunks →
    Served last (chunk ++ out) (size :: sizes) (chunk :: chunks)
  | done {size sizes chunks} : last = none → Served last [] sizes chunks →
    Served last [] (size :: sizes) ([] :: chunks)

/-- Many `readinto`. -/
theorem reads_ahead (hz : Limits z bound) : ∀ {sizes : List ℕ} {s : FrameStream} {out : List UInt8}
    {last : Option ZstdError}, Ahead z bound s out last → (∀ size ∈ sizes, 0 < size) →
    (∃ chunks s', s.reads z bound sizes = .ok (chunks, s') ∧ Served last out sizes chunks) ∨
      ∃ e, last = some e ∧ s.reads z bound sizes = .error (.rejected e) := by
  intro sizes
  induction sizes with
  | nil =>
    intro s out last _ _
    exact .inl ⟨[], s, rfl, .stop⟩
  | cons size sizes ih =>
    intro s out last h hsizes
    obtain ⟨hsize, hsizes⟩ := List.forall_mem_cons.1 hsizes
    rcases readinto_ahead hz h hsize with ⟨chunk, out', s', hread, rfl, hne, hle, hahead⟩ | ⟨-, e, hlast, hread⟩ |
      ⟨rfl, rfl, s', hread, hahead⟩
    · rcases ih hahead hsizes with ⟨chunks, s'', hreads, hserved⟩ | ⟨e, hlast, hreads⟩
      · refine .inl ⟨chunk :: chunks, s'', ?_, .chunk hne hle hserved⟩
        simp only [FrameStream.reads, hread, hreads, bind, Except.bind, pure, Except.pure]
      · refine .inr ⟨e, hlast, ?_⟩
        simp only [FrameStream.reads, hread, hreads, bind, Except.bind]
    · refine .inr ⟨e, hlast, ?_⟩
      simp only [FrameStream.reads, hread, bind, Except.bind]
    · rcases ih hahead hsizes with ⟨chunks, s'', hreads, hserved⟩ | ⟨e, hlast, -⟩
      · refine .inl ⟨[] :: chunks, s'', ?_, .done rfl hserved⟩
        simp only [FrameStream.reads, hread, hreads, bind, Except.bind, pure, Except.pure]
      · cases hlast

end Stream

/-! ### Complete frames -/

section Complete

variable {z : Zstd} {bound : ℕ}

theorem Zstd.FollowsRfc.limits (hz : z.FollowsRfc) (hbound : 11 ≤ bound) : Limits z bound :=
  ⟨hbound, fun start size hstart hsize => (hz.headerSize start size hstart hsize).1⟩

variable {encoded content : List UInt8}

/-- The bytes that are taken for a frame are one, unless a skippable one says another length. -/
theorem Accepted.hasContent (hz : z.FollowsRfc) (h : Accepted z bound encoded content)
    (hskippable : isSkippable encoded = true → encoded.length = skippableSize encoded) :
    HasContent z encoded content := by
  obtain ⟨start, rest, blocks, checksum, size, parameters, rfl, hstart, hsize, hrest, hparameters, -, -, hblocks, -,
    hchecksum⟩ := h.parts
  have hfive : 5 ≤ (start ++ rest).length := by
    rw [List.length_append]
    omega
  rcases hz.parameters _ _ hfive hparameters with ⟨hmagic, hreserved, rfl⟩ | hskip
  · have hsame : headerDescriptor (start ++ rest) = headerDescriptor start := headerDescriptor_append hstart.ge rest
    rw [take_four hstart.ge] at hmagic
    have hsize := (hz.headerSize start size hstart hsize).2 hmagic
    have hlength : (start ++ rest).length = headerSize (headerDescriptor (start ++ rest)) := by
      have := headerSize_pos (headerDescriptor start)
      rw [List.length_append, hsame]
      omega
    have hheader : IsHeader (start ++ rest) := ⟨(take_four hstart.ge).trans hmagic, hlength, hreserved⟩
    exact .inl ⟨⟨⟨start ++ rest, blocks, checksum, rfl, hheader, hblocks, hchecksum⟩⟩, h.decode⟩
  · have hmagic : isSkippable (start ++ rest ++ blocks ++ checksum) = true := by
      rw [List.append_assoc (start ++ rest), isSkippable_append (by omega), hskip]
    have hframe : IsSkippableFrame (start ++ rest ++ blocks ++ checksum) := ⟨hmagic, hskippable hmagic⟩
    exact .inr ⟨hframe, Option.some.inj (h.decode.symm.trans (hz.skips _ hframe))⟩

theorem HasContent.frame (h : HasContent z encoded content) : IsCompleteFrame encoded := h.imp And.left And.left

theorem skippable_length {p : List UInt8 × List UInt8} (h : HasContent z p.1 p.2) (hskip : isSkippable p.1 = true) :
    p.1.length = skippableSize p.1 := by
  rcases h with ⟨hframe, -⟩ | ⟨hframe, -⟩
  · rw [isSkippable_of_magic (zstandard_magic hframe)] at hskip
    cases hskip
  · exact hframe.length

theorem Accepted.bounded (h : Accepted z bound encoded content) : encoded.length ≤ 2 * bound := by
  obtain ⟨start, rest, blocks, checksum, size, parameters, rfl, -, -, -, -, -, -, -, hfits, hchecksum⟩ := h.parts
  have hfour : checksum.length ≤ 4 := by
    rw [hchecksum]
    split <;> omega
  rw [List.length_append]
  omega

/-- What a reader of the frames gets of some bytes: the same for every split of the source and of the
reads. Either all of it is the contents of one or more complete frames that make up the bytes, or it is
raised; and where the bytes are cut inside a frame it is raised. -/
structure ReadsFrames (z : Zstd) (bound : ℕ) (bytes : List UInt8) : Prop where
  outcome : ∃ pieces last, (∀ splits, Takes z bound ⟨⟨bytes, splits⟩, 0⟩ pieces last) ∧
    (∀ splits sizes, (∀ size ∈ sizes, 0 < size) →
      (∃ chunks s, (openFrames ⟨bytes, splits⟩).reads z bound sizes = .ok (chunks, s) ∧
        Served last (contentOf pieces) sizes chunks) ∨
      ∃ e, last = some e ∧ (openFrames ⟨bytes, splits⟩).reads z bound sizes = .error (.rejected e)) ∧
    (∀ p ∈ pieces, p.1.length ≤ 2 * bound ∧ p.2.length ≤ bound) ∧
    (last = none → pieces ≠ [] ∧ encodedOf pieces = bytes ∧ ∀ p ∈ pieces, HasContent z p.1 p.2)
  cut : ∀ (frames : List (List UInt8)) (frame part : List UInt8), (∀ f ∈ frames, IsCompleteFrame f) → IsCompleteFrame frame → part <+: frame →
    part ≠ frame → part ≠ [] → bytes = frames.flatten ++ part →
    ∀ splits pieces last, Takes z bound ⟨⟨bytes, splits⟩, 0⟩ pieces last → last ≠ none

/-- Where the reader would take all of the bytes for frames, the skippable ones among these are as long
as they say. -/
def SkipsWell (z : Zstd) (bound : ℕ) (bytes : List UInt8) : Prop :=
  ∀ pieces : List (List UInt8 × List UInt8), (∀ p ∈ pieces, Accepted z bound p.1 p.2) → encodedOf pieces = bytes →
    ∀ p ∈ pieces, isSkippable p.1 = true → p.1.length = skippableSize p.1

/-- The reader of metadata reads complete frames exactly of the bytes in which no skippable frame is
longer or shorter than its walk; and no frame of any source reaches past twice the bound. -/
theorem metadata_frames_exact (hz : z.FollowsRfc) (hbound : 11 ≤ bound) :
    (∀ bytes, ReadsFrames z bound bytes ↔ SkipsWell z bound bytes) ∧
    ∀ b t t' splits splits' n, b.length = 2 * bound →
      (∃ e, MetadataFrames.frame z bound ⟨⟨b ++ t, splits⟩, n⟩ = .error (.rejected e) ∧
        MetadataFrames.frame z bound ⟨⟨b ++ t', splits'⟩, n⟩ = .error (.rejected e)) ∨
      ∃ content c rest rest', c.length < b.length ∧
        MetadataFrames.frame z bound ⟨⟨b ++ t, splits⟩, n⟩ = .ok (some content, ⟨⟨c ++ t, rest⟩, n + 1⟩) ∧
        MetadataFrames.frame z bound ⟨⟨b ++ t', splits'⟩, n⟩ = .ok (some content, ⟨⟨c ++ t', rest'⟩, n + 1⟩) := by
  have hlimits := hz.limits hbound
  refine ⟨fun bytes => ⟨fun h pieces hpieces hbytes p hp => ?_, fun h => ?_⟩, fun b t t' splits splits' n hb => ?_⟩
  · obtain ⟨taken, last, htaken, -, -, hcomplete⟩ := h.outcome
    have hall := takes_of_accepted hpieces [] 0 fun hnil => absurd (hnil ▸ hp) List.not_mem_nil
    rw [hbytes] at hall
    obtain ⟨rfl, rfl⟩ := takes_unique hall (htaken [])
    obtain ⟨-, -, hcontent⟩ := hcomplete rfl
    exact skippable_length (hcontent p hp)
  · obtain ⟨pieces, last, rest, htakes, hpieces, hbytes, hlast⟩ := takes_exists hlimits _ bytes 0 (le_refl _)
    have hend : last = none → pieces ≠ [] ∧ encodedOf pieces = bytes ∧ ∀ p ∈ pieces, HasContent z p.1 p.2 := by
      intro hnone
      obtain ⟨rfl, hne⟩ := hlast hnone
      rw [List.append_nil] at hbytes
      refine ⟨hne rfl, hbytes.symm, fun p hp => ?_⟩
      exact (hpieces p hp).hasContent hz (h pieces hpieces hbytes.symm p hp)
    refine ⟨⟨pieces, last, htakes, fun splits sizes hsizes => ?_, fun p hp => ?_, hend⟩, ?_⟩
    · refine reads_ahead hlimits ?_ hsizes
      exact ⟨le_refl _, contentOf pieces, rfl, .inr ⟨rfl, pieces, htakes splits, rfl⟩⟩
    · exact ⟨(hpieces p hp).bounded, (hpieces p hp).content⟩
    · intro frames frame part hframes hframe hpart hne hpos hcut splits pieces' last' htakes' hnone
      obtain ⟨rfl, rfl⟩ := takes_unique (htakes splits) htakes'
      obtain ⟨-, hall, hcontent⟩ := hend hnone
      refine completeFrames.cut hframes (fun f hf => ?_) hframe hpart hne hpos (hcut.symm.trans hall.symm)
      obtain ⟨p, hp, rfl⟩ := List.mem_map.1 hf
      exact (hcontent p hp).frame
  · have hapart : Apart t t' (2 * bound) b ⟨b ++ t, splits⟩ ⟨b ++ t', splits'⟩ := ⟨rfl, rfl, .inr hb.ge⟩
    rcases frame_related (n := n) hlimits.bound hlimits.size hapart with ⟨e, he, he'⟩ |
      ⟨⟨a, m⟩, ⟨a', m'⟩, ⟨ha, hframes, c, hleft, hright, htaken⟩, hx, hx'⟩
    · exact .inl ⟨e, he, he'⟩
    · obtain rfl : a = a' := ha
      cases a with
      | none =>
        rw [htaken.1, List.length_nil] at hb
        omega
      | some content =>
        obtain ⟨hcount, encoded, haccepted, rfl⟩ := htaken
        obtain ⟨⟨rest, rests⟩, count⟩ := m
        obtain ⟨⟨rest', rests'⟩, count'⟩ := m'
        obtain rfl : rest = c ++ t := hleft
        obtain rfl : rest' = c ++ t' := hright
        obtain rfl : count = n + 1 := hcount
        obtain rfl : n + 1 = count' := hframes
        have hfive := haccepted.five
        refine .inr ⟨content, c, rests, rests', ?_, hx, hx'⟩
        rw [List.length_append]
        omega

theorem skipsWell_of_takes {bytes : List UInt8} {splits : List ℕ} {pieces : List (List UInt8 × List UInt8)}
    {last : Option ZstdError} (h : Takes z bound ⟨⟨bytes, splits⟩, 0⟩ pieces last)
    (hskips : ∀ p ∈ pieces, isSkippable p.1 = true → p.1.length = skippableSize p.1) : SkipsWell z bound bytes := by
  intro pieces' hpieces' hbytes p hp
  have hall := takes_of_accepted hpieces' splits 0 fun hnil => absurd (hnil ▸ hp) List.not_mem_nil
  rw [hbytes] at hall
  obtain ⟨rfl, -⟩ := takes_unique hall h
  exact hskips p hp

end Complete

/-! ### A codec -/

/-- The content of raw and RLE blocks. -/
def expandBlocks : ℕ → List UInt8 → Option (List UInt8)
  | 0, _ => none
  | fuel + 1, bytes =>
    let header := bytes.take 3
    let body := (bytes.drop 3).take (blockStored header)
    if 2 ≤ blockKind header then none
    else
      let content := if blockKind header = 1 then List.replicate (blockSize header) (body.getD 0 0) else body
      if isLastBlock header then some content
      else (expandBlocks fuel (bytes.drop (3 + blockStored header))).map (content ++ ·)

/-- The codec on headers, on skippable frames and on frames without checksums and compressed blocks. -/
def plainZstd : Zstd where
  compress x := x
  frameHeaderSize start := some (headerSize (headerDescriptor start))
  frameParameters header :=
    if header.take 4 = magicNumber then
      if headerDescriptor header / 8 % 2 = 0 then some (headerParameters header) else none
    else if isSkippable header ∧ 8 ≤ header.length then some ⟨0, some (skippableSize header - 8), false⟩
    else none
  decode bytes :=
    if isSkippable bytes then if bytes.length ≤ skippableSize bytes then some [] else none
    else if hasChecksum (headerDescriptor bytes) then none
    else expandBlocks bytes.length (bytes.drop (headerSize (headerDescriptor bytes)))

theorem plainZstd_followsRfc : plainZstd.FollowsRfc where
  headerSize start size _ hsize := by
    cases hsize
    refine ⟨?_, fun _ => rfl⟩
    have hwindow : windowDescriptorSize (headerDescriptor start) ≤ 1 := by
      unfold windowDescriptorSize
      split <;> omega
    have hdictionary : dictionaryIdSize (headerDescriptor start) ≤ 4 := by
      unfold dictionaryIdSize
      split <;> omega
    have hcontent : contentSizeSize (headerDescriptor start) ≤ 8 := by
      unfold contentSizeSize
      split
      · split <;> omega
      all_goals omega
    unfold headerSize
    omega
  parameters header p _ h := by
    unfold plainZstd at h
    simp only at h
    split_ifs at h with hmagic hreserved hskip
    · exact .inl ⟨hmagic, hreserved, (Option.some.inj h).symm⟩
    · exact .inr hskip.1
  skips bytes h := by
    unfold plainZstd
    simp only
    rw [if_pos h.magic, if_pos h.length.le]

/-- A frame with one raw block. -/
def rawFrame : List UInt8 := [0x28, 0xb5, 0x2f, 0xfd, 0x20, 3, 0x19, 0, 0, 0x61, 0x62, 0x63]

theorem metadata_frames_exact_sample : ReadsFrames plainZstd storageBlockBytes rawFrame := by
  have hframe : MetadataFrames.frame plainZstd storageBlockBytes ⟨⟨rawFrame, []⟩, 0⟩ =
      .ok (some [0x61, 0x62, 0x63], ⟨⟨[], []⟩, 1⟩) := by decide +kernel
  have hend : MetadataFrames.frame plainZstd storageBlockBytes ⟨⟨[], []⟩, 1⟩ = .ok (none, ⟨⟨[], []⟩, 1⟩) := by
    decide +kernel
  have htakes : Takes plainZstd storageBlockBytes ⟨⟨rawFrame, []⟩, 0⟩ [(rawFrame, [0x61, 0x62, 0x63])] none :=
    .next hframe rfl (.ended hend)
  refine ((metadata_frames_exact plainZstd_followsRfc (by decide)).1 rawFrame).2 (skipsWell_of_takes htakes ?_)
  decide

/-- A skippable frame of 65546 bytes of which there are the first eleven. -/
def cutSkippable : List UInt8 := [0x50, 0x2a, 0x4d, 0x18, 2, 0, 1, 0, 1, 0, 0]

/-- The reader gets its end, and no error. -/
theorem metadata_frames_skip : ¬ ReadsFrames plainZstd storageBlockBytes cutSkippable := by
  intro h
  obtain ⟨pieces, last, htakes, -, -, hcomplete⟩ := h.outcome
  have hframe : MetadataFrames.frame plainZstd storageBlockBytes ⟨⟨cutSkippable, []⟩, 0⟩ =
      .ok (some [], ⟨⟨[], []⟩, 1⟩) := by decide +kernel
  have hend : MetadataFrames.frame plainZstd storageBlockBytes ⟨⟨[], []⟩, 1⟩ = .ok (none, ⟨⟨[], []⟩, 1⟩) := by
    decide +kernel
  have hall : Takes plainZstd storageBlockBytes ⟨⟨cutSkippable, []⟩, 0⟩ [(cutSkippable, [])] none :=
    .next hframe rfl (.ended hend)
  obtain ⟨rfl, rfl⟩ := takes_unique hall (htakes [])
  obtain ⟨-, -, hcontent⟩ := hcomplete rfl
  have hlength := skippable_length (hcontent _ (List.mem_singleton.2 rfl)) (by decide)
  exact absurd hlength (by decide)

end Conductor.Recovery
