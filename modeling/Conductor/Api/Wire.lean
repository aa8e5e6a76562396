import Mathlib.Data.List.Basic

/-! The texts of the wire format: identifiers, digests and date-times, as the patterns of
`api/events.py` accept them. -/

namespace Conductor.Api

/-- `SUPPORTED_DEVICE_API_VERSIONS`. -/
inductive Version where
  | v2
  | v3
  | v4
  deriving DecidableEq

/-- A pattern that is a sequence of character classes, and `fullmatch`. -/
def fullmatch (pattern : List (Char → Bool)) (text : List Char) : Bool :=
  pattern.length = text.length && (pattern.zip text).all fun p => p.1 p.2

/-- Patterns that follow one another. -/
theorem fullmatch_append {p q : List (Char → Bool)} {s t : List Char} (hs : fullmatch p s = true)
    (ht : fullmatch q t = true) : fullmatch (p ++ q) (s ++ t) = true := by
  simp only [fullmatch, Bool.and_eq_true, decide_eq_true_eq] at hs ht ⊢
  refine ⟨by rw [List.length_append, List.length_append, hs.1, ht.1], ?_⟩
  rw [List.zip_append hs.1, List.all_append, hs.2, ht.2]
  rfl

theorem fullmatch_replicate (n : ℕ) (p : Char → Bool) (text : List Char) :
    fullmatch (List.replicate n p) text = (decide (text.length = n) && text.all p) := by
  induction n generalizing text with
  | zero => cases text <;> simp [fullmatch]
  | succ n ih =>
    cases text with
    | nil => simp [fullmatch]
    | cons c text =>
      have := ih text
      simp only [fullmatch, List.length_replicate] at this
      rw [Bool.eq_iff_iff] at this ⊢
      simp only [Bool.and_eq_true, decide_eq_true_eq] at this
      simp only [fullmatch, List.replicate_succ, List.length_cons, List.length_replicate, List.zip_cons_cons,
        List.all_cons, Bool.and_eq_true, decide_eq_true_eq, Nat.succ_inj]
      tauto

def isDigit (c : Char) : Bool := '0'.toNat ≤ c.toNat && c.toNat ≤ '9'.toNat

/-- `[0-9a-f]`. -/
def isHex (c : Char) : Bool := isDigit c || 'a'.toNat ≤ c.toNat && c.toNat ≤ 'f'.toNat

def isUpperHex (c : Char) : Bool := isDigit c || 'A'.toNat ≤ c.toNat && c.toNat ≤ 'F'.toNat

def isChar (c : Char) (d : Char) : Bool := c = d

def isOneOf (cs : List Char) (d : Char) : Bool := d ∈ cs

/-- The identifiers of one version. -/
def uuidPattern (version : Char) : List (Char → Bool) :=
  List.replicate 8 isHex ++ [isChar '-'] ++ List.replicate 4 isHex ++ [isChar '-', isChar version] ++
    List.replicate 3 isHex ++ [isChar '-', isOneOf ['8', '9', 'a', 'b']] ++ List.replicate 3 isHex ++ [isChar '-'] ++
    List.replicate 12 isHex

/-- `UUID_V4`. -/
def uuidV4 (text : String) : Bool := fullmatch (uuidPattern '4') text.toList

/-- `UUID_V7`. -/
def uuidV7 (text : String) : Bool := fullmatch (uuidPattern '7') text.toList

/-- `SHA256`. -/
def sha256 (text : String) : Bool := fullmatch (List.replicate 64 isHex) text.toList

/-- `_bounded_string`: the length is in code points. -/
def boundedString (text : String) (maxLength : ℕ) : Bool := 1 ≤ text.length && text.length ≤ maxLength

/-- The part of a date-time up to the seconds. -/
def secondsPattern : List (Char → Bool) :=
  List.replicate 4 isDigit ++ [isChar '-'] ++ List.replicate 2 isDigit ++ [isChar '-'] ++ List.replicate 2 isDigit ++
    [isOneOf ['T', 't']] ++ List.replicate 2 isDigit ++ [isChar ':'] ++ List.replicate 2 isDigit ++ [isChar ':'] ++
    List.replicate 2 isDigit

/-- `Z`, or an offset in hours and minutes. -/
def isZone (text : List Char) : Bool :=
  fullmatch [isOneOf ['Z', 'z']] text ||
    fullmatch ([isOneOf ['+', '-']] ++ List.replicate 2 isDigit ++ [isChar ':'] ++ List.replicate 2 isDigit) text

/-- `RFC3339_DATE_TIME`. -/
def rfc3339DateTime (text : String) : Bool :=
  let rest := text.toList.drop 19
  fullmatch secondsPattern (text.toList.take 19) &&
    match rest with
    | '.' :: fraction =>
      let digits := fraction.takeWhile isDigit
      !digits.isEmpty && isZone (fraction.dropWhile isDigit)
    | rest => isZone rest

end Conductor.Api
