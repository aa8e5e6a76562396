import Conductor.Artifact.Ranges

/-! The comparison of digit texts is that of their numbers, so a number above the bound counts as
the bound plus one, and the three forms select what the numbers select. The parser wants the unit
in lower case. -/

namespace Conductor.Artifact.Ranges

open Api

/-! ### Numbers as texts -/

def digitValue (c : Char) : ℕ := c.toNat - '0'.toNat

theorem decimalAlphabet : Digits.Alphabet 10 (fun c => isDigit c = true) digitValue where
  lt_base c hc := by
    simp [isDigit] at hc
    show c.toNat - 48 < 10
    omega
  lt_iff c d hc hd := by
    simp [isDigit] at hc hd
    show c.toNat < d.toNat ↔ c.toNat - 48 < d.toNat - 48
    omega
  inj c d hc hd h := by
    simp [isDigit] at hc hd
    have h : c.toNat - 48 = d.toNat - 48 := h
    exact Char.toNat_inj.1 (by omega)

theorem number_eq_value (text : List Char) : number text = Digits.value 10 digitValue text := by
  induction text with
  | nil => rfl
  | cons c cs ih =>
    rw [number, Nat.ofDigitChars_cons, Nat.ofDigitChars_eq_ofDigitChars_zero, ← number, ih, Digits.value, digitValue]
    ring

theorem digits_toDigits (n : ℕ) : ∀ c ∈ Nat.toDigits 10 n, isDigit c = true := by
  intro c hc
  have h := Nat.isDigit_of_mem_toDigits (by decide) (by decide) hc
  simp only [Char.isDigit, Bool.and_eq_true, decide_eq_true_eq] at h
  simp only [isDigit, Bool.and_eq_true, decide_eq_true_eq]
  exact h

theorem number_toDigits (n : ℕ) : number (Nat.toDigits 10 n) = n := Nat.ofDigitChars_ten_toDigits

theorem decimalText_iff {text : List Char} : decimalText text = true ↔ Digits text := by
  simp [decimalText, Digits]

/-- A normalized text: one zero, or no zero in front. -/
theorem normalize_cases {text : List Char} (h : Digits text) :
    (normalize text = ['0'] ∧ number text = 0) ∨
    ∃ c cs, normalize text = c :: cs ∧ 0 < digitValue c ∧ Digits (c :: cs) ∧ number text = number (c :: cs) := by
  obtain ⟨-, hall⟩ := h
  have hvalue : number text = number (text.dropWhile (· = '0')) := by
    clear hall
    induction text with
    | nil => rfl
    | cons c cs ih =>
      by_cases hc : c = '0'
      · subst hc
        have hzero : digitValue '0' = 0 := rfl
        rw [number_eq_value, Digits.value_zero_cons hzero, ← number_eq_value, ih, List.dropWhile_cons_of_pos (by simp)]
      · rw [List.dropWhile_cons_of_neg (by simpa using hc)]
  have hsub : ∀ c ∈ text.dropWhile (· = '0'), isDigit c = true := fun c hc => hall c ((List.dropWhile_suffix _).mem hc)
  unfold normalize
  split
  · next hnil =>
    rw [hnil] at hvalue
    exact .inl ⟨rfl, hvalue⟩
  · next hne =>
    obtain ⟨c, cs, hcons⟩ := List.exists_cons_of_ne_nil hne
    have hhead : c ≠ '0' := by
      have := List.head_dropWhile_not (fun x => decide (x = '0')) hne
      simpa [hcons] using this
    rw [hcons] at hsub hvalue
    refine .inr ⟨c, cs, hcons, ?_, ⟨by simp, hsub⟩, hvalue⟩
    have hdigit := hsub c (by simp)
    simp [isDigit] at hdigit
    have hne : c.toNat ≠ 48 := fun h => hhead (Char.toNat_inj.1 (by simpa using h))
    show 0 < c.toNat - 48
    omega

/-- The comparison of the texts is that of the numbers. -/
theorem exceeds_iff {text : List Char} (h : Digits text) (bound : ℕ) :
    exceeds (normalize text) bound = true ↔ bound < number text := by
  have hbound := digits_toDigits bound
  have hlength : (Nat.toDigits 10 bound).length ≠ 0 := by simp
  have hnumber := number_toDigits bound
  rw [number_eq_value] at hnumber
  simp only [exceeds, Bool.or_eq_true, Bool.and_eq_true, decide_eq_true_eq]
  rcases normalize_cases h with ⟨hzero, hvalue⟩ | ⟨c, cs, hcons, hpos, ⟨-, hdigits⟩, hvalue⟩
  · rw [hzero, hvalue]
    constructor
    · rintro (hlt | ⟨heq, hlt⟩)
      · simp only [List.length_singleton] at hlt
        omega
      · rw [Digits.lt_iff_value_lt decimalAlphabet hbound (List.all_eq_true.1 rfl) heq.symm] at hlt
        have : Digits.value 10 digitValue ['0'] = 0 := rfl
        omega
    · intro hlt
      omega
  · rw [hcons, hvalue, number_eq_value]
    rcases lt_trichotomy (Nat.toDigits 10 bound).length (c :: cs).length with hlen | hlen | hlen
    · have hlen' : (Nat.toDigits 10 bound).length ≤ cs.length := by
        rw [List.length_cons] at hlen
        omega
      have hlt := Digits.value_lt_of_length decimalAlphabet (hdigits c (by simp)) hpos hbound hlen'
      rw [hnumber] at hlt
      simp only [hlen, true_or, hlt]
    · rw [Digits.lt_iff_value_lt decimalAlphabet hbound hdigits hlen, hnumber]
      simp only [hlen, lt_irrefl, false_or, true_and]
    · have hlt : Digits.value 10 digitValue (c :: cs) < 10 ^ (c :: cs).length :=
        Digits.value_lt decimalAlphabet hdigits
      have hle : ¬ bound < 10 ^ (c :: cs).length := by
        rw [← Nat.length_toDigits_le_iff (by decide) (by simp)]
        omega
      constructor
      · rintro (h1 | ⟨h1, -⟩) <;> omega
      · intro h1
        omega

theorem number_normalize {text : List Char} (h : Digits text) : number (normalize text) = number text := by
  rcases normalize_cases h with ⟨hzero, hvalue⟩ | ⟨c, cs, hcons, -, -, hvalue⟩
  · rw [hzero, hvalue]
    rfl
  · rw [hcons, hvalue]

/-- What a text of digits counts as: its number, at most one above the bound. -/
theorem boundedRangeDecimal_eq {text : List Char} (h : Digits text) (bound size : ℕ) :
    boundedRangeDecimal text bound size = .ok (min (number text) (bound + 1)) := by
  rw [boundedRangeDecimal, if_pos (decimalText_iff.2 h)]
  simp only [number_normalize h]
  split
  · next hlt =>
    rw [exceeds_iff h] at hlt
    rw [min_eq_right (by omega)]
  · next hge =>
    rw [exceeds_iff h] at hge
    rw [min_eq_left (by omega)]

theorem boundedRangeDecimal_error {text : List Char} (h : ¬ Digits text) (bound size : ℕ) :
    boundedRangeDecimal text bound size = .error (.unsatisfiable size) := by
  rw [boundedRangeDecimal, if_neg (mt decimalText_iff.1 h)]

/-! ### The three forms -/

/-- The answer for a range that selects `r`, or nothing. -/
def answer (size : ℕ) : Option (ℕ × ℕ) → Except RangeError (ℕ × ℕ)
  | some r => .ok r
  | none => .error (.unsatisfiable size)

/-- The text behind `bytes=`. -/
def parseSelected (selected : List Char) (size : ℕ) : Except RangeError (ℕ × ℕ) :=
  match selected with
  | '-' :: suffix => parseSuffix suffix size
  | selected => parseFirstLast selected size

theorem Digits.not_dash {text : List Char} (h : Digits text) : ∀ c ∈ text, c ≠ '-' := by
  rintro c hc rfl
  exact absurd (h.2 _ hc) (by decide)

theorem Digits.ne_dash_cons {text rest : List Char} (h : Digits text) (suffix : List Char) :
    text ++ rest ≠ '-' :: suffix := by
  obtain ⟨c, cs, rfl⟩ := List.exists_cons_of_ne_nil h.1
  intro heq
  exact h.not_dash c (by simp) (List.cons_eq_cons.1 heq).1

theorem parseSelected_suffix {n : List Char} (hn : Digits n) (size : ℕ) :
    parseSelected ('-' :: n) size = answer size ((RangeSpec.suffix (number n)).select size) := by
  show parseSuffix n size = _
  rw [parseSuffix, boundedRangeDecimal_eq hn]
  simp only [bind, Except.bind, RangeSpec.select, pure, Except.pure]
  by_cases hzero : number n = 0 ∨ size = 0
  · rw [if_pos (by omega), if_neg (by omega)]
    rfl
  · rw [if_neg (by omega), if_pos (by omega)]
    simp only [answer, Except.ok.injEq, Prod.mk.injEq, and_true]
    omega

/-- The two parts of a text that has its first dash behind `f`. -/
theorem partition_dash {f l : List Char} (hf : ∀ c ∈ f, c ≠ '-') :
    (f ++ '-' :: l).takeWhile (· ≠ '-') = f ∧ (f ++ '-' :: l).dropWhile (· ≠ '-') = '-' :: l := by
  have hall : ∀ c ∈ f, decide (c ≠ '-') = true := fun c hc => decide_eq_true (hf c hc)
  rw [List.takeWhile_append_of_pos hall, List.dropWhile_append_of_pos hall]
  simp

theorem parseSelected_first {f : List Char} (hf : Digits f) (size : ℕ) :
    parseSelected (f ++ ['-']) size = answer size ((RangeSpec.first (number f)).select size) := by
  have hmatch : parseSelected (f ++ ['-']) size = parseFirstLast (f ++ ['-']) size := by
    unfold parseSelected
    split
    · next suffix heq => exact absurd heq (hf.ne_dash_cons suffix)
    · rfl
  obtain ⟨htake, hdrop⟩ := partition_dash (l := []) hf.not_dash
  rw [hmatch, parseFirstLast, htake, hdrop]
  simp only [List.take_succ_cons, List.take_zero, List.drop_succ_cons, List.drop_zero, decimalText_iff.2 hf,
    boundedRangeDecimal_eq hf, bind, Except.bind, RangeSpec.select, pure, Except.pure]
  by_cases hlt : number f < size
  · rw [if_neg (by simp), if_neg (by omega), if_pos trivial, if_pos hlt]
    simp only [answer, Except.ok.injEq, Prod.mk.injEq, and_true]
    omega
  · rw [if_neg (by simp), if_pos (by omega), if_neg hlt]
    rfl

theorem parseSelected_firstLast {f l : List Char} (hf : Digits f) (hl : Digits l) (size : ℕ) :
    parseSelected (f ++ '-' :: l) size = answer size ((RangeSpec.firstLast (number f) (number l)).select size) := by
  have hmatch : parseSelected (f ++ '-' :: l) size = parseFirstLast (f ++ '-' :: l) size := by
    unfold parseSelected
    split
    · next suffix heq => exact absurd heq (hf.ne_dash_cons suffix)
    · rfl
  obtain ⟨htake, hdrop⟩ := partition_dash (l := l) hf.not_dash
  rw [hmatch, parseFirstLast, htake, hdrop]
  simp only [List.take_succ_cons, List.take_zero, List.drop_succ_cons, List.drop_zero, decimalText_iff.2 hf,
    decimalText_iff.2 hl, boundedRangeDecimal_eq hf, boundedRangeDecimal_eq hl, bind, Except.bind, RangeSpec.select,
    pure, Except.pure]
  rw [if_neg (by simp)]
  by_cases hlt : number f < size
  · rw [if_neg (by omega), if_neg hl.1]
    by_cases hle : number f ≤ number l
    · rw [if_neg (by omega), if_pos ⟨hle, hlt⟩]
      simp only [answer, Except.ok.injEq, Prod.mk.injEq]
      omega
    · rw [if_pos (by omega), if_neg (by omega)]
      rfl
  · rw [if_pos (by omega), if_neg (by omega)]
    rfl

variable {spec : RangeSpec}

theorem parseSelected_spells {text : List Char} (h : Spells text spec) (size : ℕ) :
    parseSelected text size = answer size (spec.select size) := by
  cases h with
  | first hf => exact parseSelected_first hf size
  | firstLast hf hl => exact parseSelected_firstLast hf hl size
  | suffix hn => exact parseSelected_suffix hn size

/-- A text outside the grammar is refused. -/
theorem parseSelected_error {text : List Char} (h : ∀ spec, ¬ Spells text spec) (size : ℕ) :
    parseSelected text size = .error (.unsatisfiable size) := by
  unfold parseSelected
  split
  · next suffix =>
    have hn : ¬ Digits suffix := fun hn => h _ (.suffix hn)
    rw [parseSuffix, boundedRangeDecimal_error hn]
    rfl
  · unfold parseFirstLast
    simp only [bind, Except.bind]
    rw [if_pos]
    by_contra hc
    simp only [not_or, not_and, not_not, decimalText_iff] at hc
    obtain ⟨hseparator, hf, hl⟩ := hc
    obtain ⟨c, l, hdrop⟩ : ∃ c l, text.dropWhile (· ≠ '-') = c :: l := by
      cases hd : text.dropWhile (· ≠ '-') with
      | nil => exact absurd (by rw [hd]; rfl) hseparator
      | cons c l => exact ⟨c, l, rfl⟩
    have hdash : c = '-' := by
      have hhead := List.head?_dropWhile_not (fun x => decide (x ≠ '-')) text
      rw [hdrop] at hhead
      simpa using hhead
    have hsplit := List.takeWhile_append_dropWhile (p := fun x => decide (x ≠ '-')) (l := text)
    rw [hdrop, hdash] at hsplit
    rw [hdrop, List.drop_succ_cons, List.drop_zero] at hl
    by_cases hlast : l = []
    · rw [hlast] at hsplit
      exact h _ (hsplit ▸ Spells.first hf)
    · exact h _ (hsplit ▸ Spells.firstLast hf (hl hlast))

/-! ### The header -/

/-- The unit of the header is spelled in lower case. -/
def LowerUnit (header : String) : Prop := "bytes=".toList <+: header.toList

theorem select_bounds {size : ℕ} {r : ℕ × ℕ} (h : spec.select size = some r) : r.1 ≤ r.2 ∧ r.2 < size := by
  cases spec with
  | first f =>
    simp only [RangeSpec.select, Option.ite_none_right_eq_some, Option.some.injEq] at h
    obtain ⟨hlt, rfl⟩ := h
    exact ⟨by omega, by omega⟩
  | firstLast f l =>
    simp only [RangeSpec.select, Option.ite_none_right_eq_some, Option.some.injEq] at h
    obtain ⟨hlt, rfl⟩ := h
    exact ⟨by simp only; omega, by simp only; omega⟩
  | suffix n =>
    simp only [RangeSpec.select, Option.ite_none_right_eq_some, Option.some.injEq] at h
    obtain ⟨hlt, rfl⟩ := h
    exact ⟨by omega, by omega⟩

theorem Spells.no_comma {text : List Char} (h : Spells text spec) : ',' ∉ text := by
  have hdigits : ∀ {t : List Char}, Digits t → ',' ∉ t := fun ht hmem => absurd (ht.2 _ hmem) (by decide)
  cases h with
  | first hf => simp [hdigits hf]
  | firstLast hf hl => simp [hdigits hf, hdigits hl]
  | suffix hn => simp [hdigits hn]

/-- The unit of a named range ends before the first `=`. -/
theorem unit_no_eq {unit : List Char} (h : unit.map Char.toLower = "bytes".toList) : ∀ c ∈ unit, c ≠ '=' := by
  rintro c hc rfl
  have hmem : Char.toLower '=' ∈ unit.map Char.toLower := List.mem_map_of_mem hc
  rw [h] at hmem
  exact absurd hmem (by decide)

theorem parseSingleRange_eq (header : String) (size : ℕ) : parseSingleRange (some header) size =
    if ¬ "bytes=".toList.isPrefixOf header.toList ∨ ',' ∈ header.toList then .error (.unsatisfiable size)
    else (parseSelected (header.toList.drop 6) size).map some := by
  rw [parseSingleRange, if_neg (by omega)]
  simp only [Int.toNat_natCast]
  split
  · rfl
  · generalize header.toList.drop 6 = selected
    cases selected with
    | nil => rfl
    | cons c rest =>
      by_cases hc : c = '-'
      · subst hc
        rfl
      · simp [parseSelected, hc]

section Prefixed

variable {header : String} {text : List Char} (hheader : header.toList = "bytes=".toList ++ text)

include hheader

theorem names_iff (size : ℕ) (r : ℕ × ℕ) :
    Names header size r ↔ ∃ spec, Spells text spec ∧ spec.select size = some r := by
  constructor
  · rintro ⟨unit, text', spec, heq, hunit, hspells, hselect⟩
    have hsplit : unit ++ '=' :: text' = "bytes".toList ++ '=' :: text := by
      rw [← heq, hheader]
      rfl
    have hno := unit_no_eq hunit
    have hall : ∀ c ∈ unit, decide (c ≠ '=') = true := fun c hc => decide_eq_true (hno c hc)
    have hdrop : (unit ++ '=' :: text').dropWhile (· ≠ '=') = '=' :: text' := by
      rw [List.dropWhile_append_of_pos hall]
      simp
    have hdrop' : ("bytes".toList ++ '=' :: text).dropWhile (· ≠ '=') = '=' :: text := by
      rw [List.dropWhile_append_of_pos (List.all_eq_true.1 rfl)]
      simp
    rw [hsplit, hdrop'] at hdrop
    obtain rfl : text = text' := (List.cons_eq_cons.1 hdrop).2
    exact ⟨spec, hspells, hselect⟩
  · rintro ⟨spec, hspells, hselect⟩
    exact ⟨"bytes".toList, text, spec, hheader, by decide, hspells, hselect⟩

theorem parse_prefixed (size : ℕ) : parseSingleRange (some header) size =
    if ',' ∈ text then .error (.unsatisfiable size) else (parseSelected text size).map some := by
  have hunit : "bytes=".toList.isPrefixOf header.toList = true := by
    rw [List.isPrefixOf_iff_prefix, hheader]
    exact List.prefix_append _ _
  have hcomma : ',' ∈ header.toList ↔ ',' ∈ text := by simp [hheader]
  have hdrop : header.toList.drop 6 = text := by
    rw [hheader]
    rfl
  rw [parseSingleRange_eq, hdrop]
  simp only [hunit, hcomma, not_true_eq_false, false_or]

theorem agrees_of_prefixed (size : ℕ) : Agrees header size := by
  have hparse := parse_prefixed hheader size
  refine ⟨fun r => ?_, fun r hr => ?_, fun hnone => ?_⟩
  · rw [names_iff hheader, hparse]
    by_cases hspells : ∃ spec, Spells text spec
    · obtain ⟨spec, hspells⟩ := hspells
      rw [if_neg hspells.no_comma, parseSelected_spells hspells]
      constructor
      · intro hr
        cases hselect : spec.select size with
        | none => simp [answer, hselect, Except.map] at hr
        | some r' =>
          simp only [answer, hselect, Except.map, Except.ok.injEq, Option.some.injEq] at hr
          exact ⟨spec, hspells, hr ▸ hselect⟩
      · rintro ⟨spec', hspells', hselect⟩
        have hsame : answer size (spec.select size) = answer size (spec'.select size) :=
          (parseSelected_spells hspells size).symm.trans (parseSelected_spells hspells' size)
        rw [hsame, hselect]
        rfl
    · constructor
      · intro hr
        split at hr
        · simp at hr
        · rw [parseSelected_error (fun spec h => hspells ⟨spec, h⟩)] at hr
          simp [Except.map] at hr
      · rintro ⟨spec, h, -⟩
        exact absurd ⟨spec, h⟩ hspells
  · obtain ⟨spec, -, hselect⟩ := (names_iff hheader size r).1 hr
    exact select_bounds hselect
  · rw [hparse]
    split
    · rfl
    · by_cases hspells : ∃ spec, Spells text spec
      · obtain ⟨spec, hspells⟩ := hspells
        have hselect : spec.select size = none := by
          cases hs : spec.select size with
          | none => rfl
          | some r => exact absurd ((names_iff hheader size r).2 ⟨spec, hspells, hs⟩) (hnone r)
        rw [parseSelected_spells hspells, hselect]
        rfl
      · rw [parseSelected_error (fun spec h => hspells ⟨spec, h⟩)]
        rfl

end Prefixed

theorem parse_other_unit {header : String} (h : ¬ LowerUnit header) (size : ℕ) :
    parseSingleRange (some header) size = .error (.unsatisfiable size) := by
  rw [parseSingleRange_eq, if_pos (.inl (by rwa [List.isPrefixOf_iff_prefix]))]

/-- A header with the unit in lower case is answered with the bytes that its numbers name, every
other header is refused; and texts of digits compare as their numbers do. -/
theorem range_requests_agree (header : String) (size : ℕ) :
    (LowerUnit header → Agrees header size) ∧
    (¬ LowerUnit header → parseSingleRange (some header) size = .error (.unsatisfiable size)) ∧
    ∀ text, Digits text → ∀ bound : ℕ, (exceeds (normalize text) bound = true ↔ bound < number text) ∧
      boundedRangeDecimal text bound size = .ok (min (number text) (bound + 1)) := by
  refine ⟨?_, fun hunit => parse_other_unit hunit size, fun text ht bound =>
    ⟨exceeds_iff ht bound, boundedRangeDecimal_eq ht bound size⟩⟩
  rintro ⟨text, htext⟩
  exact agrees_of_prefixed htext.symm size

/-- A number of six digits, two of them zeros in front, against a bound of three digits. -/
theorem range_requests_agree_sample : Agrees "bytes=007-001234" 300 ∧
    boundedRangeDecimal "001234".toList 300 300 = .ok 301 ∧ parseSingleRange (some "bytes=007-001234") 300 = .ok (some (7, 299)) := by
  obtain ⟨hagrees, -, htexts⟩ := range_requests_agree "bytes=007-001234" 300
  have hdigits : Digits "001234".toList := ⟨by decide, List.all_eq_true.1 rfl⟩
  refine ⟨hagrees ⟨"007-001234".toList, by decide⟩, ?_, by decide +kernel⟩
  rw [(htexts _ hdigits 300).2]
  decide

/-- `Bytes=0-1` of ten bytes. -/
theorem range_requests_fail : Names "Bytes=0-1" 10 (0, 1) ∧ ¬ Agrees "Bytes=0-1" 10 := by
  have hnames : Names "Bytes=0-1" 10 (0, 1) :=
    ⟨"Bytes".toList, "0-1".toList, .firstLast 0 1, by decide, by decide,
      Spells.firstLast (f := ['0']) (l := ['1']) (by simp [Digits, isDigit]) (by simp [Digits, isDigit]), by decide⟩
  refine ⟨hnames, fun hagrees => ?_⟩
  have hparse := (hagrees.1 (0, 1)).2 hnames
  have herror : parseSingleRange (some "Bytes=0-1") 10 = .error (.unsatisfiable 10) := by decide +kernel
  rw [show ((10 : ℕ) : ℤ) = 10 from rfl, herror] at hparse
  cases hparse

end Conductor.Artifact.Ranges
