import Mathlib.Data.List.Basic
import Mathlib.Data.Char

/-! Compact JSON objects whose values are texts, integers or null, written without ASCII escapes for
what needs none. The reading takes what the writing gives: blanks, fractions and nested values are left
out, since a text with them is not in this form. -/

namespace Conductor.FlatJson

inductive Value where
  | null
  | int (n : ℤ)
  | text (s : List Char)
  deriving DecidableEq

/-! ### Texts -/

def hexDigit (n : ℕ) : Char := if n < 10 then Char.ofNat ('0'.toNat + n) else Char.ofNat ('a'.toNat + (n - 10))

def hexValue (c : Char) : Option ℕ :=
  if '0'.toNat ≤ c.toNat ∧ c.toNat ≤ '9'.toNat then some (c.toNat - '0'.toNat)
  else if 'a'.toNat ≤ c.toNat ∧ c.toNat ≤ 'f'.toNat then some (c.toNat - 'a'.toNat + 10)
  else if 'A'.toNat ≤ c.toNat ∧ c.toNat ≤ 'F'.toNat then some (c.toNat - 'A'.toNat + 10)
  else none

/-- One character between quotes. -/
def escape (c : Char) : List Char :=
  if c = '"' then ['\\', '"']
  else if c = '\\' then ['\\', '\\']
  else if c = '\n' then ['\\', 'n']
  else if c = '\r' then ['\\', 'r']
  else if c = '\t' then ['\\', 't']
  else if c = '\x08' then ['\\', 'b']
  else if c = '\x0c' then ['\\', 'f']
  else if c.toNat < 32 then ['\\', 'u', '0', '0', hexDigit (c.toNat / 16), hexDigit (c.toNat % 16)]
  else [c]

def writeText (s : List Char) : List Char := '"' :: s.flatMap escape ++ ['"']

/-- The character after a backslash, other than `u`. -/
def unescape (c : Char) : Option Char :=
  match c with
  | '"' => some '"'
  | '\\' => some '\\'
  | '/' => some '/'
  | 'n' => some '\n'
  | 'r' => some '\r'
  | 't' => some '\t'
  | 'b' => some '\x08'
  | 'f' => some '\x0c'
  | _ => none

/-- Reads up to the closing quote. An escape above the control characters is not in this form. -/
def readText : List Char → Option (List Char × List Char)
  | '"' :: rest => some ([], rest)
  | '\\' :: 'u' :: '0' :: '0' :: p :: q :: rest =>
    match hexValue p, hexValue q, readText rest with
    | some p, some q, some (s, rest) => some (Char.ofNat (p * 16 + q) :: s, rest)
    | _, _, _ => none
  | '\\' :: c :: rest =>
    match unescape c, readText rest with
    | some c, some (s, rest) => some (c :: s, rest)
    | _, _ => none
  | c :: rest =>
    if c.toNat < 32 then none
    else
      match readText rest with
      | some (s, rest) => some (c :: s, rest)
      | none => none
  | [] => none

theorem hexValue_hexDigit {n : ℕ} (h : n < 16) : hexValue (hexDigit n) = some n := by
  revert h
  revert n
  decide

theorem readText_escape (c : Char) (rest : List Char) :
    readText (escape c ++ rest) = (readText rest).map fun p => (c :: p.1, p.2) := by
  have hmap (c : Char) : (match some c, readText rest with
      | some c, some (s, rest) => some (c :: s, rest)
      | _, _ => none) = (readText rest).map fun p => (c :: p.1, p.2) := by
    cases readText rest <;> rfl
  by_cases hquote : c = '"'
  · subst hquote
    exact hmap '"'
  by_cases hslash : c = '\\'
  · subst hslash
    exact hmap '\\'
  by_cases hnewline : c = '\n'
  · subst hnewline
    exact hmap '\n'
  by_cases hreturn : c = '\r'
  · subst hreturn
    exact hmap '\r'
  by_cases htab : c = '\t'
  · subst htab
    exact hmap '\t'
  by_cases hback : c = '\x08'
  · subst hback
    exact hmap '\x08'
  by_cases hfeed : c = '\x0c'
  · subst hfeed
    exact hmap '\x0c'
  rw [escape, if_neg hquote, if_neg hslash, if_neg hnewline, if_neg hreturn, if_neg htab, if_neg hback,
    if_neg hfeed]
  split
  · next hcontrol =>
    have hc : Char.ofNat (c.toNat / 16 * 16 + c.toNat % 16) = c := by
      rw [Nat.div_add_mod' c.toNat 16, Char.ofNat_toNat]
    simp only [List.cons_append, List.nil_append, readText,
      hexValue_hexDigit (show c.toNat / 16 < 16 by omega), hexValue_hexDigit (Nat.mod_lt c.toNat (by decide))]
    rw [← hmap c]
    cases readText rest with
    | none => rfl
    | some p =>
      show some (Char.ofNat (c.toNat / 16 * 16 + c.toNat % 16) :: p.1, p.2) = some (c :: p.1, p.2)
      rw [hc]
  · next hplain =>
    rw [List.singleton_append, readText.eq_def]
    split
    · simp_all
    · simp_all
    · simp_all
    · next heq =>
      obtain ⟨rfl, rfl⟩ := List.cons.inj heq
      rw [if_neg hplain]
      cases readText rest <;> rfl
    · simp_all

theorem readText_writeText (s rest : List Char) :
    readText (s.flatMap escape ++ '"' :: rest) = some (s, rest) := by
  induction s with
  | nil => rfl
  | cons c s ih => rw [List.flatMap_cons, List.append_assoc, readText_escape, ih, Option.map_some]

/-! ### Values and objects -/

def writeNat (n : ℕ) : List Char := Nat.toDigits 10 n

def writeValue : Value → List Char
  | .null => ['n', 'u', 'l', 'l']
  | .int (.ofNat n) => writeNat n
  | .int (.negSucc n) => '-' :: writeNat (n + 1)
  | .text s => writeText s

def writeEntry (entry : List Char × Value) : List Char := writeText entry.1 ++ ':' :: writeValue entry.2

/-- The entries with commas between them. -/
def writeEntries : List (List Char × Value) → List Char
  | [] => []
  | [entry] => writeEntry entry
  | entry :: entries => writeEntry entry ++ ',' :: writeEntries entries

def writeObject (entries : List (List Char × Value)) : List Char := '{' :: writeEntries entries ++ ['}']

/-- The digits at the head, one at least. -/
def readNat (text : List Char) : Option (ℕ × List Char) :=
  let digits := text.takeWhile Char.isDigit
  if digits = [] then none else some (Nat.ofDigitChars 10 digits 0, text.drop digits.length)

def readValue : List Char → Option (Value × List Char)
  | 'n' :: 'u' :: 'l' :: 'l' :: rest => some (.null, rest)
  | '"' :: rest => (readText rest).map fun p => (.text p.1, p.2)
  | '-' :: rest => (readNat rest).map fun p => (.int (-p.1), p.2)
  | text => (readNat text).map fun p => (.int p.1, p.2)

def readEntry : List Char → Option ((List Char × Value) × List Char)
  | '"' :: rest =>
    match readText rest with
    | some (key, ':' :: rest) => (readValue rest).map fun p => ((key, p.1), p.2)
    | _ => none
  | _ => none

/-- Each pass reads an entry and the comma or the brace after it. -/
def readEntries : ℕ → List Char → Option (List (List Char × Value) × List Char)
  | 0, _ => none
  | fuel + 1, text =>
    match readEntry text with
    | some (entry, ',' :: rest) => (readEntries fuel rest).map fun p => (entry :: p.1, p.2)
    | some (entry, '}' :: rest) => some ([entry], rest)
    | _ => none

/-- An object and nothing after it. A key that comes twice would be lost. -/
def readObject : List Char → Option (List (List Char × Value))
  | ['{', '}'] => some []
  | '{' :: rest =>
    match readEntries rest.length rest with
    | some (entries, []) => if (entries.map (·.1)).Nodup then some entries else none
    | _ => none
  | _ => none

/-- What follows a number does not continue it. -/
def Ends (rest : List Char) : Prop := ∀ c ∈ rest.head?, c.isDigit = false

variable {rest : List Char}

theorem readNat_writeNat (n : ℕ) (h : Ends rest) : readNat (writeNat n ++ rest) = some (n, rest) := by
  have hdigits : (writeNat n ++ rest).takeWhile Char.isDigit = writeNat n := by
    have hall : ∀ c ∈ writeNat n, c.isDigit = true :=
      fun c hc => Nat.isDigit_of_mem_toDigits (show 0 < 10 by decide) (le_refl 10) hc
    rw [List.takeWhile_append_of_pos hall]
    cases rest with
    | nil => exact List.append_nil _
    | cons c rest => rw [List.takeWhile_cons_of_neg (by simp [h c rfl]), List.append_nil]
  have hne : writeNat n ≠ [] := List.ne_nil_of_length_pos Nat.length_toDigits_pos
  unfold readNat
  simp only [hdigits, if_neg hne, List.drop_left]
  rw [writeNat, Nat.ofDigitChars_ten_toDigits]

theorem readValue_writeValue (v : Value) (h : Ends rest) : readValue (writeValue v ++ rest) = some (v, rest) := by
  cases v with
  | null => rfl
  | text s =>
    show (readText (s.flatMap escape ++ ['"'] ++ rest)).map _ = _
    rw [List.append_assoc, List.singleton_append, readText_writeText]
    rfl
  | int n =>
    cases n with
    | negSucc n =>
      show (readNat (writeNat (n + 1) ++ rest)).map _ = _
      rw [readNat_writeNat _ h]
      rfl
    | ofNat n =>
      show readValue (writeNat n ++ rest) = _
      have hread := readNat_writeNat n h
      obtain ⟨c, cs, hcs⟩ := List.exists_cons_of_ne_nil
        (List.ne_nil_of_length_pos (Nat.length_toDigits_pos (b := 10) (n := n)))
      have hc : c.isDigit = true :=
        Nat.isDigit_of_mem_toDigits (by decide) (by decide) (hcs ▸ List.mem_cons_self : c ∈ Nat.toDigits 10 n)
      rw [writeNat, hcs] at hread ⊢
      rw [readValue.eq_def]
      split
      · simp_all
      · simp_all
      · simp_all
      · rw [hread]
        rfl

theorem readEntry_writeEntry (entry : List Char × Value) (h : Ends rest) :
    readEntry (writeEntry entry ++ rest) = some (entry, rest) := by
  have hread : readText (entry.1.flatMap escape ++ ['"'] ++ ':' :: writeValue entry.2 ++ rest) =
      some (entry.1, ':' :: (writeValue entry.2 ++ rest)) := by
    rw [List.append_assoc, List.append_assoc, List.singleton_append, readText_writeText]
    rfl
  have hentry : writeEntry entry ++ rest =
      '"' :: (entry.1.flatMap escape ++ ['"'] ++ ':' :: writeValue entry.2 ++ rest) := rfl
  rw [hentry, readEntry, hread]
  show (readValue (writeValue entry.2 ++ rest)).map _ = _
  rw [readValue_writeValue _ h]
  rfl

theorem readEntries_writeEntries (rest : List Char) : ∀ (entries : List (List Char × Value)) (fuel : ℕ),
    entries ≠ [] → entries.length ≤ fuel →
    readEntries fuel (writeEntries entries ++ '}' :: rest) = some (entries, rest) := by
  intro entries
  induction entries with
  | nil => exact fun _ h => absurd rfl h
  | cons entry entries ih =>
    intro fuel _ hfuel
    obtain ⟨fuel, rfl⟩ : ∃ n, fuel = n + 1 := ⟨fuel - 1, by simp at hfuel; omega⟩
    rw [readEntries]
    cases entries with
    | nil =>
      rw [writeEntries, readEntry_writeEntry entry (by simp [Ends])]
      rfl
    | cons next entries =>
      rw [writeEntries, List.append_assoc, List.cons_append, readEntry_writeEntry entry (by simp [Ends])]
      show (readEntries fuel _).map _ = _
      rw [ih fuel (List.cons_ne_nil _ _) (by simpa using hfuel)]
      rfl
      simp

theorem length_writeEntries (entries : List (List Char × Value)) : entries.length ≤ (writeEntries entries).length := by
  induction entries with
  | nil => exact Nat.zero_le _
  | cons entry entries ih =>
    cases entries with
    | nil => simp [writeEntries, writeEntry, writeText]
    | cons next entries =>
      rw [writeEntries]
      · simp only [List.length_append, List.length_cons] at ih ⊢
        omega
      · simp

/-- What was written is read back. -/
theorem readObject_writeObject {entries : List (List Char × Value)} (h : (entries.map (·.1)).Nodup) :
    readObject (writeObject entries) = some entries := by
  cases entries with
  | nil => rfl
  | cons entry entries =>
    have hread := readEntries_writeEntries [] (entry :: entries) (writeEntries (entry :: entries) ++ ['}']).length
      (List.cons_ne_nil _ _) (by
        have := length_writeEntries (entry :: entries)
        rw [List.length_append]
        omega)
    unfold writeObject
    rw [List.cons_append, readObject.eq_def]
    split
    · next heq =>
      have hbrace := congrArg List.length (List.cons.inj heq).2
      have hlength := length_writeEntries (entry :: entries)
      rw [List.length_append] at hbrace
      change (writeEntries (entry :: entries)).length + 1 = 1 at hbrace
      change entries.length + 1 ≤ _ at hlength
      omega
    · next heq =>
      obtain rfl := (List.cons.inj heq).2
      rw [hread]
      exact if_pos h
    · next hne => exact absurd rfl (hne _)

end Conductor.FlatJson
