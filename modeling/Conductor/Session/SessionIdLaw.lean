import Conductor.Session.SessionId
import Mathlib.Data.Nat.Bitwise
import Mathlib.Data.String.Basic
import Mathlib.Tactic.Linarith

/-! One call moves the pair of millisecond and counter forward, whatever the clock says. The value
holds that pair in its leading bits, and the text is ordered as the value is. -/

namespace Conductor.Session.Id

open Digits Api

/-- Millisecond and counter as one number. -/
def State.key (s : State) : ℕ := s.millisecond * 2 ^ 12 + s.counter

theorem and_mask (n : ℕ) : n &&& 0xFFF = n % 2 ^ 12 := Nat.and_two_pow_sub_one_eq_mod n 12

variable {s : State}

theorem advance_of_later {c : Call} (h : (s.millisecond : ℤ) < c.current) :
    ((advance s c).millisecond : ℤ) = c.current ∧ (advance s c).counter = c.counter := by
  rw [advance, if_pos h]
  refine ⟨?_, rfl⟩
  show (c.current.toNat : ℤ) = c.current
  omega

theorem advance_of_not_later {c : Call} (h : ¬ (s.millisecond : ℤ) < c.current) :
    (advance s c).key = s.key + 1 := by
  have hlt := s.counter_lt
  rw [advance, if_neg h]
  simp only [State.key, and_mask]
  by_cases hwrap : (s.counter + 1) % 2 ^ 12 = 0
  · rw [if_pos hwrap]
    omega
  · rw [if_neg hwrap]
    omega

theorem key_lt_advance (s : State) (c : Call) : s.key < (advance s c).key := by
  by_cases h : (s.millisecond : ℤ) < c.current
  · obtain ⟨hms, -⟩ := advance_of_later h
    have hlt := s.counter_lt
    have hmul : (s.millisecond + 1) * 2 ^ 12 ≤ (advance s c).millisecond * 2 ^ 12 :=
      Nat.mul_le_mul_right _ (by omega)
    simp only [State.key]
    omega
  · rw [advance_of_not_later h]
    omega

theorem millisecond_le_of_key {t : State} (h : s.key ≤ t.key) : s.millisecond ≤ t.millisecond := by
  have hs := s.counter_lt
  have ht := t.counter_lt
  simp only [State.key] at h
  omega

/-! ### The value -/

theorem value_eq (tail : Fin (2 ^ 62)) (h : s.millisecond < 2 ^ 48) :
    value s tail = (((s.millisecond * 2 ^ 4 + 7) * 2 ^ 12 + s.counter) * 2 ^ 2 + 2) * 2 ^ 62 + tail := by
  have hcounter := s.counter_lt
  have htail := tail.isLt
  have hmask : s.millisecond &&& (1 <<< 48 - 1) = s.millisecond := by
    rw [Nat.one_shiftLeft, Nat.and_two_pow_sub_one_eq_mod, Nat.mod_eq_of_lt h]
  have h1 : s.millisecond <<< 80 ||| 0x7 <<< 76 = (s.millisecond * 2 ^ 4 + 7) <<< 76 := by
    rw [← Nat.shiftLeft_add_eq_or_of_lt (by decide)]
    simp only [Nat.shiftLeft_eq]
    ring
  have h2 : (s.millisecond * 2 ^ 4 + 7) <<< 76 ||| s.counter <<< 64 =
      ((s.millisecond * 2 ^ 4 + 7) * 2 ^ 12 + s.counter) <<< 64 := by
    rw [← Nat.shiftLeft_add_eq_or_of_lt (by rw [Nat.shiftLeft_eq]; omega)]
    simp only [Nat.shiftLeft_eq]
    ring
  have h3 : ((s.millisecond * 2 ^ 4 + 7) * 2 ^ 12 + s.counter) <<< 64 ||| 0b10 <<< 62 =
      (((s.millisecond * 2 ^ 4 + 7) * 2 ^ 12 + s.counter) * 2 ^ 2 + 2) <<< 62 := by
    rw [← Nat.shiftLeft_add_eq_or_of_lt (by decide)]
    simp only [Nat.shiftLeft_eq]
    ring
  rw [value, hmask, h1, h2, h3, ← Nat.shiftLeft_add_eq_or_of_lt htail, Nat.shiftLeft_eq]

/-- The leading 64 bits: the millisecond, the version and the counter. -/
theorem value_leading (tail : Fin (2 ^ 62)) (h : s.millisecond < 2 ^ 48) :
    value s tail / 2 ^ 64 = (s.millisecond * 2 ^ 4 + 7) * 2 ^ 12 + s.counter := by
  have htail := tail.isLt
  rw [value_eq tail h]
  omega

theorem value_lt (tail : Fin (2 ^ 62)) (h : s.millisecond < 2 ^ 48) : value s tail < 2 ^ 128 := by
  have htail := tail.isLt
  have hcounter := s.counter_lt
  rw [value_eq tail h]
  omega

/-! ### The text -/

/-- The symbols of `%x`. -/
def HexDigit (c : Char) : Prop := ∃ d < 16, c = Nat.digitChar d

def hexValue (c : Char) : ℕ := if c.toNat < 58 then c.toNat - 48 else c.toNat - 87

theorem hexAlphabet : Alphabet 16 HexDigit hexValue where
  lt_base := by
    rintro _ ⟨d, hd, rfl⟩
    revert d
    decide
  lt_iff := by
    rintro _ _ ⟨d, hd, rfl⟩ ⟨e, he, rfl⟩
    revert d e
    decide
  inj := by
    rintro _ _ ⟨d, hd, rfl⟩ ⟨e, he, rfl⟩
    revert d e
    decide

theorem hexValue_digitChar : ∀ d < 16, hexValue (Nat.digitChar d) = d := by decide

theorem HexDigit.isHex {c : Char} (h : HexDigit c) : isHex c = true := by
  obtain ⟨d, hd, rfl⟩ := h
  revert d
  decide

abbrev hex (w n : ℕ) : List Char := fixed 16 Nat.digitChar w n

variable {n v : ℕ} {calls : List Call}

theorem hexDigit_of_mem {w : ℕ} (hn : n < 16 ^ w) : ∀ c ∈ hex w n, HexDigit c :=
  fixed_forall (fun d hd => ⟨d, hd, rfl⟩) hn

theorem hex_lt_iff {w m : ℕ} (hn : n < 16 ^ w) (hm : m < 16 ^ w) : hex w n < hex w m ↔ n < m := by
  rw [lt_iff_value_lt hexAlphabet (hexDigit_of_mem hn) (hexDigit_of_mem hm) (by simp),
    value_fixed hexValue_digitChar hn, value_fixed hexValue_digitChar hm]

/-- The five groups of an identifier. -/
def groups (v : ℕ) : List Char × List Char × List Char × List Char × List Char :=
  (hex 8 (v / 16 ^ 24), hex 4 (v / 16 ^ 20 % 16 ^ 4), hex 4 (v / 16 ^ 16 % 16 ^ 4), hex 4 (v / 16 ^ 12 % 16 ^ 4),
    hex 12 (v % 16 ^ 12))

theorem hex_groups (hv : v < 16 ^ 32) : hex 32 v = (groups v).1 ++ ((groups v).2.1 ++
    ((groups v).2.2.1 ++ ((groups v).2.2.2.1 ++ (groups v).2.2.2.2))) := by
  have h1 : hex 32 v = hex 8 (v / 16 ^ 24) ++ hex 24 (v % 16 ^ 24) := fixed_add _ (w := 8) (v := 24) hv
  have h2 : hex 24 (v % 16 ^ 24) = hex 4 (v / 16 ^ 20 % 16 ^ 4) ++ hex 20 (v % 16 ^ 20) := by
    rw [show hex 24 (v % 16 ^ 24) = hex 4 (v % 16 ^ 24 / 16 ^ 20) ++ hex 20 (v % 16 ^ 24 % 16 ^ 20) from
      fixed_add _ (w := 4) (v := 20) (by omega)]
    congr 2 <;> omega
  have h3 : hex 20 (v % 16 ^ 20) = hex 4 (v / 16 ^ 16 % 16 ^ 4) ++ hex 16 (v % 16 ^ 16) := by
    rw [show hex 20 (v % 16 ^ 20) = hex 4 (v % 16 ^ 20 / 16 ^ 16) ++ hex 16 (v % 16 ^ 20 % 16 ^ 16) from
      fixed_add _ (w := 4) (v := 16) (by omega)]
    congr 2 <;> omega
  have h4 : hex 16 (v % 16 ^ 16) = hex 4 (v / 16 ^ 12 % 16 ^ 4) ++ hex 12 (v % 16 ^ 12) := by
    rw [show hex 16 (v % 16 ^ 16) = hex 4 (v % 16 ^ 16 / 16 ^ 12) ++ hex 12 (v % 16 ^ 16 % 16 ^ 12) from
      fixed_add _ (w := 4) (v := 12) (by omega)]
    congr 2 <;> omega
  rw [h1, h2, h3, h4]
  rfl

/-- The slices of `text` are the groups. -/
theorem slices {a b c d e : List Char} (ha : a.length = 8) (hb : b.length = 4) (hc : c.length = 4)
    (hd : d.length = 4) :
    let l := a ++ (b ++ (c ++ (d ++ e)))
    l.take 8 = a ∧ (l.drop 8).take 4 = b ∧ (l.drop 12).take 4 = c ∧ (l.drop 16).take 4 = d ∧ l.drop 20 = e := by
  intro l
  have h8 : l.drop 8 = b ++ (c ++ (d ++ e)) := List.drop_left' ha
  have h12 : l.drop 12 = c ++ (d ++ e) := by
    rw [show l.drop 12 = (l.drop 8).drop 4 by rw [List.drop_drop], h8, List.drop_left' hb]
  have h16 : l.drop 16 = d ++ e := by
    rw [show l.drop 16 = (l.drop 12).drop 4 by rw [List.drop_drop], h12, List.drop_left' hc]
  have h20 : l.drop 20 = e := by
    rw [show l.drop 20 = (l.drop 16).drop 4 by rw [List.drop_drop], h16, List.drop_left' hd]
  rw [h8, h12, h16]
  exact ⟨List.take_left' ha, List.take_left' hb, List.take_left' hc, List.take_left' hd, h20⟩

theorem text_groups (hv : v < 16 ^ 32) : (text v).toList = (groups v).1 ++ '-' :: ((groups v).2.1 ++
    '-' :: ((groups v).2.2.1 ++ '-' :: ((groups v).2.2.2.1 ++ '-' :: (groups v).2.2.2.2))) := by
  obtain ⟨h1, h2, h3, h4, h5⟩ := slices (e := (groups v).2.2.2.2) (length_fixed Nat.digitChar 8 (v / 16 ^ 24))
    (length_fixed Nat.digitChar 4 (v / 16 ^ 20 % 16 ^ 4)) (length_fixed Nat.digitChar 4 (v / 16 ^ 16 % 16 ^ 4))
    (length_fixed Nat.digitChar 4 (v / 16 ^ 12 % 16 ^ 4))
  rw [text, String.toList_ofList, show fixed 16 Nat.digitChar 32 v = _ from hex_groups hv]
  simp only [groups] at h1 h2 h3 h4 h5 ⊢
  rw [h1, h2, h3, h4, h5]
  simp

/-- Texts are ordered as the values are. -/
theorem text_lt_iff {u : ℕ} (hv : v < 16 ^ 32) (hu : u < 16 ^ 32) : text v < text u ↔ v < u := by
  rw [← hex_lt_iff hv hu, String.lt_iff_toList_lt, text_groups hv, text_groups hu, hex_groups hv, hex_groups hu]
  iterate 4 rw [append_lt_append_iff (by simp [groups]), append_lt_append_iff (by simp [groups]),
    List.cons_lt_cons_self]

theorem hex_match (w : ℕ) (hn : n < 16 ^ w) : fullmatch (List.replicate w isHex) (hex w n) = true := by
  rw [fullmatch_replicate, Bool.and_eq_true]
  exact ⟨by simp, List.all_eq_true.2 fun c hc => (hexDigit_of_mem hn c hc).isHex⟩

/-- A group of four whose first digit is known. -/
theorem group_match {p : Char → Bool} (hp : p (Nat.digitChar (n / 16 ^ 3)) = true) :
    fullmatch ([p] ++ List.replicate 3 isHex) (hex 4 n) = true := by
  rw [show hex 4 n = [Nat.digitChar (n / 16 ^ 3)] ++ hex 3 (n % 16 ^ 3) from rfl]
  have hone : fullmatch [p] [Nat.digitChar (n / 16 ^ 3)] = true := by simp only [fullmatch]; simpa using hp
  exact fullmatch_append hone (hex_match 3 (Nat.mod_lt _ (by decide)))

theorem dash_match {q : List (Char → Bool)} {t : List Char} (h : fullmatch q t = true) :
    fullmatch (isChar '-' :: q) ('-' :: t) = true :=
  fullmatch_append (p := [isChar '-']) (s := ['-']) (by decide) h

/-- A value with the version and the variant of `uuid7` has the text of such an identifier. -/
theorem uuidV7_text (hv : v < 16 ^ 32) (hversion : v / 2 ^ 76 % 2 ^ 4 = 7) (hvariant : v / 2 ^ 62 % 4 = 2) :
    uuidV7 (text v) = true := by
  have hpattern : uuidPattern '7' = List.replicate 8 isHex ++ isChar '-' :: (List.replicate 4 isHex ++
      isChar '-' :: (([isChar '7'] ++ List.replicate 3 isHex) ++ isChar '-' ::
        (([isOneOf ['8', '9', 'a', 'b']] ++ List.replicate 3 isHex) ++ isChar '-' :: List.replicate 12 isHex))) := by
    simp [uuidPattern]
  have h3 : v / 16 ^ 16 % 16 ^ 4 / 16 ^ 3 = 7 := by omega
  have h4 : isOneOf ['8', '9', 'a', 'b'] (Nat.digitChar (v / 16 ^ 12 % 16 ^ 4 / 16 ^ 3)) = true := by
    have hnibble : v / 16 ^ 12 % 16 ^ 4 / 16 ^ 3 = 8 ∨ v / 16 ^ 12 % 16 ^ 4 / 16 ^ 3 = 9 ∨
        v / 16 ^ 12 % 16 ^ 4 / 16 ^ 3 = 10 ∨ v / 16 ^ 12 % 16 ^ 4 / 16 ^ 3 = 11 := by omega
    rcases hnibble with h | h | h | h <;> rw [h] <;> decide
  rw [uuidV7, text_groups hv, hpattern]
  refine fullmatch_append (hex_match 8 (by omega)) (dash_match ?_)
  refine fullmatch_append (hex_match 4 (Nat.mod_lt _ (by decide))) (dash_match ?_)
  refine fullmatch_append (group_match (by rw [h3]; decide)) (dash_match ?_)
  refine fullmatch_append (group_match h4) (dash_match ?_)
  exact hex_match 12 (Nat.mod_lt _ (by decide))

/-! ### The calls of one process -/

theorem value_text (tail : Fin (2 ^ 62)) (h : s.millisecond < 2 ^ 48) : uuidV7 (text (value s tail)) = true := by
  have htail := tail.isLt
  have hcounter := s.counter_lt
  have hvalue := value_eq tail h
  refine uuidV7_text ?_ ?_ ?_
  · have := value_lt tail h
    omega
  · omega
  · omega

theorem key_le_run (s : State) (calls : List Call) : s.key ≤ (run s calls).2.key := by
  induction calls generalizing s with
  | nil => exact le_rfl
  | cons c calls ih => exact (key_lt_advance s c).le.trans (ih _)

/-- The leading bits of every later value are above the pair that the state holds. -/
theorem key_lt_run (h : (run s calls).2.millisecond < 2 ^ 48) :
    ∀ v ∈ (run s calls).1, ∃ t tail, v = value t tail ∧ s.key < t.key ∧ t.millisecond < 2 ^ 48 := by
  induction calls generalizing s with
  | nil => simp [run]
  | cons c calls ih =>
    have hstep := key_lt_advance s c
    have hrest := key_le_run (advance s c) calls
    refine List.forall_mem_cons.2 ⟨⟨_, _, rfl, hstep, ?_⟩, fun v hv => ?_⟩
    · exact (millisecond_le_of_key hrest).trans_lt h
    · obtain ⟨t, tail, hvalue, hkey, hms⟩ := ih h v hv
      exact ⟨t, tail, hvalue, hstep.trans hkey, hms⟩

theorem leading_lt {t : State} {a b : Fin (2 ^ 62)} (hs : s.millisecond < 2 ^ 48) (ht : t.millisecond < 2 ^ 48)
    (h : s.key < t.key) : value s a / 2 ^ 64 < value t b / 2 ^ 64 := by
  have hmul : s.millisecond * 2 ^ 12 ≤ t.millisecond * 2 ^ 12 :=
    Nat.mul_le_mul_right _ (millisecond_le_of_key h.le)
  rw [value_leading a hs, value_leading b ht]
  simp only [State.key] at h
  linarith

theorem run_increasing (h : (run s calls).2.millisecond < 2 ^ 48) :
    (run s calls).1.Pairwise fun v u => v / 2 ^ 64 < u / 2 ^ 64 := by
  induction calls generalizing s with
  | nil => exact .nil
  | cons c calls ih =>
    refine List.pairwise_cons.2 ⟨fun u hu => ?_, ih h⟩
    have hrest : (run (advance s c) calls).2.millisecond < 2 ^ 48 := h
    obtain ⟨t, tail, rfl, hkey, hms⟩ := key_lt_run hrest u hu
    exact leading_lt ((millisecond_le_of_key hkey.le).trans_lt hms) hms hkey

/-- The identifiers of one process: all of the version and variant, increasing in their leading 76
bits and as texts; and a call whose clock is past the last millisecond used takes its millisecond. -/
theorem session_ids_ordered (calls : List Call) (h : (run start calls).2.millisecond < 2 ^ 48) :
    (∀ id ∈ uuid7s calls, uuidV7 id = true) ∧
    ((run start calls).1.Pairwise fun v u => v / 2 ^ 64 < u / 2 ^ 64 ∧ v / 2 ^ 52 < u / 2 ^ 52) ∧
    (uuid7s calls).Pairwise (· < ·) ∧ (uuid7s calls).Nodup ∧
    ∀ c : Call, ((run start calls).2.millisecond : ℤ) < c.current → c.current < 2 ^ 48 →
      (value (advance (run start calls).2 c) c.tail / 2 ^ 80 : ℤ) = c.current := by
  have hincreasing := run_increasing h
  have hvalues := key_lt_run h
  have hordered : (uuid7s calls).Pairwise (· < ·) := by
    refine List.pairwise_map.2 (hincreasing.imp_of_mem fun {v u} hv hu hlt => ?_)
    obtain ⟨s, a, rfl, -, hs⟩ := hvalues v hv
    obtain ⟨t, b, rfl, -, ht⟩ := hvalues u hu
    have h1 := value_lt a hs
    have h2 := value_lt b ht
    exact (text_lt_iff (by omega) (by omega)).2 (by omega)
  refine ⟨fun id hid => ?_, hincreasing.imp fun hlt => ⟨hlt, by omega⟩, hordered, hordered.imp fun hlt => hlt.ne, ?_⟩
  · obtain ⟨v, hv, rfl⟩ := List.mem_map.1 hid
    obtain ⟨t, tail, rfl, -, hms⟩ := hvalues v hv
    exact value_text tail hms
  · intro c hlater hsmall
    obtain ⟨hms, -⟩ := advance_of_later hlater
    have hlt : (advance (run start calls).2 c).millisecond < 2 ^ 48 := by omega
    have htail := c.tail.isLt
    have hcounter := (advance (run start calls).2 c).counter_lt
    rw [value_eq c.tail hlt]
    omega

/-- A wrap of the counter, a clock that goes back, and one that is ahead again. -/
def sampleCalls : List Call := [⟨5000000, 4095, 9⟩, ⟨5000000, 1, 3⟩, ⟨2000000, 1, 0⟩, ⟨9000000, 7, 1⟩]

theorem session_ids_ordered_sample : (uuid7s sampleCalls).Pairwise (· < ·) ∧ uuid7s sampleCalls =
    ["00000000-0005-7fff-8000-000000000009", "00000000-0006-7000-8000-000000000003",
      "00000000-0006-7001-8000-000000000000", "00000000-0009-7007-8000-000000000001"] := by
  have hsmall : (run start sampleCalls).2.millisecond < 2 ^ 48 := by decide +kernel
  obtain ⟨-, -, hordered, -⟩ := session_ids_ordered sampleCalls hsmall
  exact ⟨hordered, by decide +kernel⟩

end Conductor.Session.Id
