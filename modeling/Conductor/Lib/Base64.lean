import Mathlib.Data.List.Basic

/-! Base64 with the letters for URLs, without padding. The reading takes the two letters of the plain
alphabet too, and padding where it belongs. -/

namespace Conductor.Base64

/-- The letter of a number below 64. -/
def letter (n : ℕ) : Char :=
  if n < 26 then Char.ofNat ('A'.toNat + n)
  else if n < 52 then Char.ofNat ('a'.toNat + (n - 26))
  else if n < 62 then Char.ofNat ('0'.toNat + (n - 52))
  else if n = 62 then '-' else '_'

def number (c : Char) : Option ℕ :=
  if 'A'.toNat ≤ c.toNat ∧ c.toNat ≤ 'Z'.toNat then some (c.toNat - 'A'.toNat)
  else if 'a'.toNat ≤ c.toNat ∧ c.toNat ≤ 'z'.toNat then some (c.toNat - 'a'.toNat + 26)
  else if '0'.toNat ≤ c.toNat ∧ c.toNat ≤ '9'.toNat then some (c.toNat - '0'.toNat + 52)
  else if c = '-' ∨ c = '+' then some 62
  else if c = '_' ∨ c = '/' then some 63
  else none

theorem number_letter {n : ℕ} (h : n < 64) : number (letter n) = some n := by
  revert h
  revert n
  decide

theorem letter_ne_pad {n : ℕ} (h : n < 64) : letter n ≠ '=' := by
  revert h
  revert n
  decide

/-! ### Groups of three bytes -/

/-- The numbers of the letters. -/
def sextets : List UInt8 → List ℕ
  | a :: b :: c :: rest =>
    (a.toNat / 4) :: (a.toNat % 4 * 16 + b.toNat / 16) :: (b.toNat % 16 * 4 + c.toNat / 64) ::
      (c.toNat % 64) :: sextets rest
  | [a, b] => [a.toNat / 4, a.toNat % 4 * 16 + b.toNat / 16, b.toNat % 16 * 4]
  | [a] => [a.toNat / 4, a.toNat % 4 * 16]
  | [] => []

/-- Bits that no byte takes are dropped; one letter alone is no group. -/
def octets : List ℕ → Option (List UInt8)
  | p :: q :: r :: s :: rest => (octets rest).map fun bytes =>
    UInt8.ofNat (p * 4 + q / 16) :: UInt8.ofNat (q % 16 * 16 + r / 4) :: UInt8.ofNat (r % 4 * 64 + s) :: bytes
  | [p, q, r] => some [UInt8.ofNat (p * 4 + q / 16), UInt8.ofNat (q % 16 * 16 + r / 4)]
  | [p, q] => some [UInt8.ofNat (p * 4 + q / 16)]
  | [_] => none
  | [] => some []

theorem sextets_lt (bytes : List UInt8) : ∀ n ∈ sextets bytes, n < 64 := by
  fun_induction sextets bytes with
  | case1 a b c rest ih =>
    have ha := a.toNat_lt
    have hb := b.toNat_lt
    have hc := c.toNat_lt
    simp only [List.forall_mem_cons]
    exact ⟨by omega, by omega, by omega, by omega, ih⟩
  | case2 a b =>
    have ha := a.toNat_lt
    have hb := b.toNat_lt
    simp only [List.forall_mem_cons, List.not_mem_nil, false_imp_iff, implies_true, and_true]
    omega
  | case3 a =>
    have ha := a.toNat_lt
    simp only [List.forall_mem_cons, List.not_mem_nil, false_imp_iff, implies_true, and_true]
    omega
  | case4 => simp

theorem octets_sextets (bytes : List UInt8) : octets (sextets bytes) = some bytes := by
  have hbyte (a : UInt8) {n : ℕ} (h : n = a.toNat) : UInt8.ofNat n = a := by rw [h, UInt8.ofNat_toNat]
  fun_induction sextets bytes with
  | case1 a b c rest ih =>
    have ha := a.toNat_lt
    have hb := b.toNat_lt
    have hc := c.toNat_lt
    rw [octets, ih, Option.map_some, hbyte a (by omega), hbyte b (by omega), hbyte c (by omega)]
  | case2 a b =>
    have ha := a.toNat_lt
    have hb := b.toNat_lt
    rw [octets, hbyte a (by omega), hbyte b (by omega)]
  | case3 a =>
    have ha := a.toNat_lt
    rw [octets, hbyte a (by omega)]
  | case4 => rfl

theorem length_sextets (bytes : List UInt8) : (sextets bytes).length = (4 * bytes.length + 2) / 3 := by
  fun_induction sextets bytes with
  | case1 a b c rest ih =>
    simp only [List.length_cons, ih]
    omega
  | case2 => simp
  | case3 => simp
  | case4 => rfl

/-! ### Texts -/

/-- `urlsafe_b64encode` with its padding stripped. -/
def encode (bytes : List UInt8) : List Char := (sextets bytes).map letter

/-- The padding that a text still lacks. -/
def padding (text : List Char) : List Char := List.replicate ((4 - text.length % 4) % 4) '='

/-- `b64decode` of a padded text: letters, then at most two `=`, in groups of four. -/
def decodePadded (text : List Char) : Option (List UInt8) :=
  let letters := text.takeWhile (· ≠ '=')
  let pad := text.drop letters.length
  if text.length % 4 = 0 ∧ pad.length ≤ 2 ∧ pad.all (· = '=') then
    (letters.mapM number).bind octets
  else none

def decode (text : List Char) : Option (List UInt8) := decodePadded (text ++ padding text)

theorem length_encode (bytes : List UInt8) : (encode bytes).length = (4 * bytes.length + 2) / 3 := by
  rw [encode, List.length_map, length_sextets]

theorem mapM_number {ns : List ℕ} (h : ∀ n ∈ ns, n < 64) : (ns.map letter).mapM number = some ns := by
  induction ns with
  | nil => rfl
  | cons n ns ih =>
    obtain ⟨hn, hns⟩ := List.forall_mem_cons.1 h
    rw [List.map_cons, List.mapM_cons, number_letter hn, ih hns]
    rfl

theorem takeWhile_encode (bytes : List UInt8) (n : ℕ) :
    (encode bytes ++ List.replicate n '=').takeWhile (· ≠ '=') = encode bytes := by
  rw [List.takeWhile_append_of_pos]
  · cases n with
    | zero => exact List.append_nil _
    | succ n => exact List.append_nil _
  · intro c hc
    obtain ⟨m, hm, rfl⟩ := List.mem_map.1 hc
    simpa using letter_ne_pad (sextets_lt bytes m hm)

/-- What was encoded is read back. -/
theorem decode_encode (bytes : List UInt8) : decode (encode bytes) = some bytes := by
  unfold decode decodePadded padding
  simp only [takeWhile_encode, List.drop_left]
  have hlength := length_encode bytes
  rw [if_pos]
  · rw [encode, mapM_number (sextets_lt bytes), Option.bind_some, octets_sextets]
  · rw [List.length_append, List.length_replicate]
    refine ⟨by omega, by omega, ?_⟩
    simp

end Conductor.Base64
