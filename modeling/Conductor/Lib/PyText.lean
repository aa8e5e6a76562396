import Mathlib.Data.List.DropRight

/-! Python's views of a text: its lines, its surrounding space and the integer that it writes. The lines
matter here as what a reader keeps of them, one by one, when it keeps nothing of an empty one; then a line
end may be written in more than one way. -/

namespace Conductor.PyText

/-! ### Characters -/

/-- `str.isspace` of one character. -/
def isSpace (c : Char) : Bool :=
  let n := c.toNat
  (9 ≤ n && n ≤ 13) || (28 ≤ n && n ≤ 32) || (0x2000 ≤ n && n ≤ 0x200a) ||
    n ∈ [0x85, 0xa0, 0x1680, 0x2028, 0x2029, 0x202f, 0x205f, 0x3000]

/-- What `str.splitlines` ends a line at. -/
def isLineBreak (c : Char) : Bool := c.toNat ∈ [10, 11, 12, 13, 28, 29, 30, 0x85, 0x2028, 0x2029]

/-- The zeros of the decimal digits of Unicode 15; the nine others follow each. -/
def decimalZeros : List ℕ :=
  [0x30, 0x660, 0x6f0, 0x7c0, 0x966, 0x9e6, 0xa66, 0xae6, 0xb66, 0xbe6, 0xc66, 0xce6, 0xd66, 0xde6, 0xe50, 0xed0,
    0xf20, 0x1040, 0x1090, 0x17e0, 0x1810, 0x1946, 0x19d0, 0x1a80, 0x1a90, 0x1b50, 0x1bb0, 0x1c40, 0x1c50, 0xa620,
    0xa8d0, 0xa900, 0xa9d0, 0xa9f0, 0xaa50, 0xabf0, 0xff10, 0x104a0, 0x10d30, 0x11066, 0x110f0, 0x11136, 0x111d0,
    0x112f0, 0x11450, 0x114d0, 0x11650, 0x116c0, 0x11730, 0x118e0, 0x11950, 0x11c50, 0x11d50, 0x11da0, 0x11f50,
    0x16a60, 0x16ac0, 0x16b50, 0x1d7ce, 0x1d7d8, 0x1d7e2, 0x1d7ec, 0x1d7f6, 0x1e140, 0x1e2f0, 0x1e4f0, 0x1e950, 0x1fbf0]

def digitValue (c : Char) : Option ℕ :=
  decimalZeros.findSome? fun start => if start ≤ c.toNat ∧ c.toNat < start + 10 then some (c.toNat - start) else none

/-! ### Texts -/

/-- The text without the characters at its two ends that a test takes for space. -/
def stripBy (space : Char → Bool) (text : List Char) : List Char := (text.dropWhile space).rdropWhile space

/-- `str.strip`. -/
def strip (text : List Char) : List Char := stripBy isSpace text

/-- `str.splitlines`, with the line that was begun. -/
def splitlinesFrom (line : List Char) : List Char → List (List Char)
  | [] => if line = [] then [] else [line]
  | '\r' :: '\n' :: rest => line :: splitlinesFrom [] rest
  | c :: rest => if isLineBreak c then line :: splitlinesFrom [] rest else splitlinesFrom (line ++ [c]) rest

def splitlines (text : List Char) : List (List Char) := splitlinesFrom [] text

/-- What reading in text mode does to line ends. -/
def universalNewlines : List Char → List Char
  | [] => []
  | '\r' :: '\n' :: rest => '\n' :: universalNewlines rest
  | c :: rest => (if c = '\r' then '\n' else c) :: universalNewlines rest

/-- The values of digits with single underscores between. -/
def digits : List Char → Option (List ℕ)
  | [] => none
  | [c] => (digitValue c).map fun d => [d]
  | c :: '_' :: rest => (digitValue c).bind fun d => (digits rest).map (d :: ·)
  | c :: rest => (digitValue c).bind fun d => (digits rest).map (d :: ·)

/-- Digits of an integer; more than 4300 are refused. -/
def natural (text : List Char) : Option ℕ :=
  (digits text).bind fun ds => if 4300 < ds.length then none else some (ds.foldl (10 * · + ·) 0)

/-- `int(text)`. -/
def int (text : List Char) : Option ℤ :=
  match stripBy (fun c => isSpace c && (c.toNat < 28 || 31 < c.toNat)) text with
  | '-' :: rest => (natural rest).map fun n => -(n : ℤ)
  | '+' :: rest => (natural rest).map fun n => (n : ℤ)
  | rest => (natural rest).map fun n => (n : ℤ)

/-- `str(n)`. -/
def decimal : ℤ → List Char
  | .ofNat n => Nat.toDigits 10 n
  | .negSucc n => '-' :: Nat.toDigits 10 (n + 1)

/-! ### What is kept of the lines -/

section Lines

variable {α : Type*} {f : List Char → Option α}

theorem isLineBreak_cr : isLineBreak '\r' = true := rfl

theorem isLineBreak_lf : isLineBreak '\n' = true := rfl

/-- What `f` keeps of the lines. -/
def keep (f : List Char → Option α) (line text : List Char) : List α := (splitlinesFrom line text).filterMap f

theorem filterMap_cons_toList (line : List Char) (lines : List (List Char)) :
    (line :: lines).filterMap f = (f line).toList ++ lines.filterMap f := by
  cases h : f line <;> simp [h]

theorem keep_break (hf : f [] = none) (line : List Char) {c : Char} (hc : isLineBreak c = true) (rest : List Char) :
    keep f line (c :: rest) = (f line).toList ++ keep f [] rest := by
  unfold keep
  rw [splitlinesFrom.eq_def]
  split
  · contradiction
  · rename_i rest' heq
    obtain ⟨rfl, rfl⟩ := List.cons.inj heq
    rw [filterMap_cons_toList]
    congr 1
    -- the line feed ends an empty line of its own when it is read alone
    have hlf : splitlinesFrom [] ('\n' :: rest') = [] :: splitlinesFrom [] rest' := by
      rw [splitlinesFrom, if_pos isLineBreak_lf]
      simp
    rw [hlf, List.filterMap_cons_none hf]
  · rename_i c' rest' _ heq
    obtain ⟨rfl, rfl⟩ := List.cons.inj heq
    rw [if_pos hc, filterMap_cons_toList]

theorem keep_char (line : List Char) {c : Char} (hc : isLineBreak c = false) (rest : List Char) :
    keep f line (c :: rest) = keep f (line ++ [c]) rest := by
  unfold keep
  rw [splitlinesFrom]
  · rw [if_neg (by rw [hc]; decide)]
  · intro rest' hcr
    rw [hcr] at hc
    cases hc

theorem keep_text (line : List Char) {text : List Char} (htext : ∀ c ∈ text, isLineBreak c = false) (rest : List Char) :
    keep f line (text ++ rest) = keep f (line ++ text) rest := by
  induction text generalizing line with
  | nil => simp
  | cons c text ih =>
    have hrest := fun d hd => htext d (List.mem_cons_of_mem c hd)
    rw [List.cons_append, keep_char line (htext c List.mem_cons_self), ih _ hrest, List.append_assoc]
    rfl

theorem keep_universalNewlines (hf : f [] = none) (line text : List Char) :
    keep f line (universalNewlines text) = keep f line text := by
  induction text using universalNewlines.induct generalizing line with
  | case1 => rfl
  | case2 rest ih =>
    rw [universalNewlines, keep_break hf line isLineBreak_lf, keep_break hf line isLineBreak_cr,
      keep_break hf [] isLineBreak_lf, hf, ih]
    rfl
  | case3 c rest hne ih =>
    rw [universalNewlines]
    · by_cases hcr : c = '\r'
      · rw [if_pos hcr, hcr, keep_break hf line isLineBreak_lf, keep_break hf line isLineBreak_cr, ih]
      · rw [if_neg hcr]
        cases hc : isLineBreak c with
        | true => rw [keep_break hf line hc, keep_break hf line hc, ih]
        | false => rw [keep_char line hc, keep_char line hc, ih]
    · exact hne

end Lines

/-! ### Written integers -/

section Integers

theorem stripBy_eq_self {space : Char → Bool} {text : List Char} (h : ∀ c ∈ text, space c = false) :
    stripBy space text = text := by
  have hdrop : text.dropWhile space = text := by
    rw [List.dropWhile_eq_self_iff]
    intro hpos
    rw [h _ (List.getElem_mem hpos)]
    decide
  unfold stripBy
  rw [hdrop, List.rdropWhile_eq_self_iff]
  intro hne
  rw [h _ (List.getLast_mem hne)]
  decide

variable {c : Char}

theorem isDigit_toNat (h : c.isDigit = true) : 48 ≤ c.toNat ∧ c.toNat ≤ 57 := by
  simp only [Char.isDigit, Bool.and_eq_true, decide_eq_true_eq] at h
  exact ⟨UInt32.le_iff_toNat_le.1 h.1, UInt32.le_iff_toNat_le.1 h.2⟩

theorem digitValue_of_isDigit (h : c.isDigit = true) : digitValue c = some (c.toNat - 48) := by
  have hrange := isDigit_toNat h
  unfold digitValue decimalZeros
  rw [List.findSome?_cons, if_pos (by omega)]

theorem digits_of_isDigit {text : List Char} (hne : text ≠ []) (h : ∀ c ∈ text, c.isDigit = true) :
    digits text = some (text.map fun c => c.toNat - 48) := by
  induction text using digits.induct with
  | case1 => exact absurd rfl hne
  | case2 c =>
    rw [digits, digitValue_of_isDigit (h c List.mem_cons_self)]
    rfl
  | case3 c rest _ => exact absurd (h '_' (by simp)) (by decide)
  | case4 c rest hrest hscore ih =>
    have hne' : rest ≠ [] := fun heq => hrest (by rw [heq])
    rw [digits, digitValue_of_isDigit (h c List.mem_cons_self),
      ih hne' fun d hd => h d (List.mem_cons_of_mem c hd)]
    · rfl
    · exact hrest
    · exact hscore

theorem natural_toDigits (n : ℕ) :
    natural (Nat.toDigits 10 n) = if 4300 < (Nat.toDigits 10 n).length then none else some n := by
  have hdigits := @digits_of_isDigit (Nat.toDigits 10 n) (by simp)
    fun c hc => Nat.isDigit_of_mem_toDigits (by decide) (by decide) hc
  have hvalue : ((Nat.toDigits 10 n).map fun c => c.toNat - 48).foldl (10 * · + ·) 0 = n := by
    rw [List.foldl_map]
    exact Nat.ofDigitChars_ten_toDigits
  unfold natural
  rw [hdigits, Option.bind_some, List.length_map, hvalue]

/-- What an integer is written with. -/
theorem mem_decimal {n : ℤ} (hc : c ∈ decimal n) : c.isDigit = true ∨ c = '-' := by
  cases n with
  | ofNat n => exact Or.inl (Nat.isDigit_of_mem_toDigits (by decide) (by decide) hc)
  | negSucc n =>
    rcases List.mem_cons.1 hc with rfl | hc
    · exact Or.inr rfl
    · exact Or.inl (Nat.isDigit_of_mem_toDigits (by decide) (by decide) hc)

theorem isSpace_of_mem_decimal {n : ℤ} (hc : c ∈ decimal n) : isSpace c = false := by
  rcases mem_decimal hc with hdigit | rfl
  · have hrange := isDigit_toNat hdigit
    simp [isSpace]
    omega
  · rfl

theorem isLineBreak_of_mem_decimal {n : ℤ} (hc : c ∈ decimal n) : isLineBreak c = false := by
  rcases mem_decimal hc with hdigit | rfl
  · have hrange := isDigit_toNat hdigit
    simp [isLineBreak]
    omega
  · rfl

/-- A written integer is read back, unless it has too many digits. -/
theorem int_decimal (n : ℤ) : int (decimal n) = some n ∨ int (decimal n) = none ∧ (n < 0 ∨ 100 < n) := by
  have hstrip : stripBy (fun c => isSpace c && (c.toNat < 28 || 31 < c.toNat)) (decimal n) = decimal n :=
    stripBy_eq_self fun c hc => by rw [isSpace_of_mem_decimal hc, Bool.false_and]
  have hlong : ∀ {m : ℕ}, 4300 < (Nat.toDigits 10 m).length → 100 < m := by
    intro m hm
    by_contra hle
    have hshort : (Nat.toDigits 10 m).length ≤ 3 := (Nat.length_toDigits_le_iff (by decide) (by decide)).2 (by omega)
    omega
  unfold int
  rw [hstrip]
  cases n with
  | ofNat m =>
    have hplain : ∀ d ∈ Nat.toDigits 10 m, d.isDigit = true := fun d hd =>
      Nat.isDigit_of_mem_toDigits (by decide) (by decide) hd
    simp only [decimal]
    split
    · rename_i rest heq
      exact absurd (hplain '-' (by rw [heq]; simp)) (by decide)
    · rename_i rest heq
      exact absurd (hplain '+' (by rw [heq]; simp)) (by decide)
    · rw [natural_toDigits]
      split_ifs with hlen
      · have := hlong hlen
        refine Or.inr ⟨rfl, Or.inr ?_⟩
        simp only [Int.ofNat_eq_natCast]
        omega
      · exact Or.inl rfl
  | negSucc m =>
    simp only [decimal, natural_toDigits]
    split_ifs with hlen
    · exact Or.inr ⟨rfl, Or.inl (Int.negSucc_lt_zero m)⟩
    · exact Or.inl rfl

end Integers

end Conductor.PyText
