import Mathlib.Data.List.Basic

/-! The UTF-8 bytes of a text and what a scan over the bytes says about the characters: an
ASCII character is its own byte and every byte of another character is at least 128. A test
that only ASCII bytes pass holds of all bytes exactly if it holds of all characters. -/

namespace Conductor.Utf8

/-- The bytes of one character. -/
def encode (c : Char) : List ℕ := (String.utf8EncodeChar c).map UInt8.toNat

def bytes (text : List Char) : List ℕ := text.flatMap encode

@[simp] theorem bytes_nil : bytes [] = [] := rfl

@[simp] theorem bytes_cons (c : Char) (text : List Char) : bytes (c :: text) = encode c ++ bytes text := rfl

theorem mem_bytes {b : ℕ} {text : List Char} : b ∈ bytes text ↔ ∃ c ∈ text, b ∈ encode c := List.mem_flatMap

theorem encode_eq (c : Char) :
    encode c =
      if c.toNat ≤ 127 then [c.toNat]
      else if c.toNat ≤ 2047 then [c.toNat / 64 % 32 + 192, c.toNat % 64 + 128]
      else if c.toNat ≤ 65535 then [c.toNat / 4096 % 16 + 224, c.toNat / 64 % 64 + 128, c.toNat % 64 + 128]
      else [c.toNat / 262144 % 8 + 240, c.toNat / 4096 % 64 + 128, c.toNat / 64 % 64 + 128, c.toNat % 64 + 128] := by
  unfold encode String.utf8EncodeChar
  simp only [show c.val.toNat = c.toNat from rfl]
  split_ifs <;> simp <;> omega

theorem encode_ascii {c : Char} (h : c.toNat < 128) : encode c = [c.toNat] := by
  rw [encode_eq, if_pos (by omega)]

theorem encode_ne_nil (c : Char) : encode c ≠ [] := by
  rw [encode_eq]
  split_ifs <;> simp

/-- A byte of a character outside ASCII. -/
theorem high_of_mem_encode {c : Char} (h : 128 ≤ c.toNat) {b : ℕ} (hb : b ∈ encode c) : 128 ≤ b := by
  rw [encode_eq] at hb
  split_ifs at hb <;> simp only [List.mem_cons, List.not_mem_nil, or_false] at hb <;> omega

/-- A C1 control character ends in a byte of the same range. -/
theorem control_mem_encode {c : Char} (low : 128 ≤ c.toNat) (high : c.toNat ≤ 159) :
    c.toNat ∈ encode c := by
  rw [encode_eq, if_neg (by omega), if_pos (by omega)]
  simp only [List.mem_cons, List.not_mem_nil, or_false]
  omega

theorem length_le_bytes (text : List Char) : text.length ≤ (bytes text).length := by
  induction text with
  | nil => simp
  | cons c text ih =>
    have : 0 < (encode c).length := List.length_pos_iff.mpr (encode_ne_nil c)
    simp only [bytes_cons, List.length_append, List.length_cons]
    omega

/-- On ASCII the bytes are the characters. -/
theorem length_bytes_ascii {text : List Char} (h : ∀ c ∈ text, c.toNat < 128) :
    (bytes text).length = text.length := by
  induction text with
  | nil => rfl
  | cons c text ih =>
    rw [bytes_cons, encode_ascii (h c List.mem_cons_self)]
    simp [ih fun d hd => h d (List.mem_cons_of_mem c hd)]

section AsciiTest

variable {p : ℕ → Bool} (ascii : ∀ b, p b → b < 128)
include ascii

theorem all_encode (c : Char) : (encode c).all p = p c.toNat := by
  rcases Nat.lt_or_ge c.toNat 128 with h | h
  · simp [encode_ascii h]
  · have hc : p c.toNat = false := by
      by_contra hp
      exact absurd (ascii _ (by simpa using hp)) (by omega)
    obtain ⟨b, hb⟩ := List.exists_mem_of_ne_nil _ (encode_ne_nil c)
    have hbad : ¬p b := fun hp => absurd (ascii b hp) (by have := high_of_mem_encode h hb; omega)
    rw [hc, List.all_eq_false]
    exact ⟨b, hb, hbad⟩

/-- A scan of the bytes for a test that only ASCII passes. -/
theorem all_bytes (text : List Char) : (bytes text).all p = text.all fun c => p c.toNat := by
  induction text with
  | nil => rfl
  | cons c text ih => simp [all_encode ascii, ih]

theorem ascii_of_all {text : List Char} (h : (bytes text).all p) : ∀ c ∈ text, c.toNat < 128 := by
  rw [all_bytes ascii] at h
  intro c hc
  exact ascii _ (List.all_eq_true.mp h c hc)

end AsciiTest

end Conductor.Utf8
