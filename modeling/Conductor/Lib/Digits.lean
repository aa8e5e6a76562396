import Mathlib.Data.Nat.Log
import Mathlib.Data.List.Basic
import Mathlib.Tactic.Ring

/-! Numbers written with the symbols of an ordered alphabet, the most significant one first. Texts
of one length are ordered as their numbers are, and a text without a leading zero is the larger
the longer it is. -/

namespace Conductor.Digits

variable {α : Type} [LT α] {b : ℕ} {P : α → Prop} {val : α → ℕ}

/-- The symbols of a base, ordered as their values are. -/
structure Alphabet (b : ℕ) (P : α → Prop) (val : α → ℕ) : Prop where
  lt_base : ∀ c, P c → val c < b
  lt_iff : ∀ c d, P c → P d → (c < d ↔ val c < val d)
  inj : ∀ c d, P c → P d → val c = val d → c = d

/-- The number that a text denotes. -/
def value (b : ℕ) (val : α → ℕ) : List α → ℕ
  | [] => 0
  | c :: cs => val c * b ^ cs.length + value b val cs

variable {cs l : List α}

omit [LT α] in
theorem value_zero_cons {c : α} (h : val c = 0) : value b val (c :: cs) = value b val cs := by
  simp [value, h]

theorem value_lt (h : Alphabet b P val) (hl : ∀ c ∈ l, P c) : value b val l < b ^ l.length := by
  induction l with
  | nil => simp [value]
  | cons c cs ih =>
    obtain ⟨hc, hcs⟩ := List.forall_mem_cons.1 hl
    have hlow := ih hcs
    have hhigh : (val c + 1) * b ^ cs.length ≤ b * b ^ cs.length :=
      Nat.mul_le_mul_right _ (h.lt_base c hc)
    rw [value, List.length_cons, pow_succ']
    rw [add_mul, one_mul] at hhigh
    omega

omit [LT α] in
/-- A text that does not begin with a zero fills its width. -/
theorem le_value {c : α} (h : 0 < val c) : b ^ cs.length ≤ value b val (c :: cs) := by
  have hmul : 1 * b ^ cs.length ≤ val c * b ^ cs.length := Nat.mul_le_mul_right _ h
  rw [value]
  omega

/-- The order of two texts of one length is that of their numbers. -/
theorem lt_iff_value_lt (h : Alphabet b P val) {l' : List α} (hl : ∀ c ∈ l, P c) (hl' : ∀ c ∈ l', P c)
    (hlen : l.length = l'.length) : l < l' ↔ value b val l < value b val l' := by
  induction l generalizing l' with
  | nil =>
    cases l' with
    | nil => simp
    | cons d ds => simp at hlen
  | cons c cs ih =>
    cases l' with
    | nil => simp at hlen
    | cons d ds =>
      obtain ⟨hc, hcs⟩ := List.forall_mem_cons.1 hl
      obtain ⟨hd, hds⟩ := List.forall_mem_cons.1 hl'
      have hlen : cs.length = ds.length := by simpa using hlen
      have hlow := value_lt h hcs
      have hlow' := value_lt h hds
      rw [List.cons_lt_cons_iff, ih hcs hds hlen, value, value, h.lt_iff c d hc hd, hlen]
      rw [hlen] at hlow
      rcases lt_trichotomy (val c) (val d) with hv | hv | hv
      · have hmul : (val c + 1) * b ^ ds.length ≤ val d * b ^ ds.length := Nat.mul_le_mul_right _ hv
        rw [add_mul, one_mul] at hmul
        simp only [hv, true_or, true_iff]
        omega
      · obtain rfl := h.inj c d hc hd hv
        simp
      · have hmul : (val d + 1) * b ^ ds.length ≤ val c * b ^ ds.length := Nat.mul_le_mul_right _ hv
        rw [add_mul, one_mul] at hmul
        have hne : c ≠ d := fun hcd => by
          subst hcd
          omega
        simp only [hne, false_and, or_false]
        constructor
        · intro hlt
          omega
        · intro hlt
          omega

/-- The longer of two texts is the larger when it does not begin with a zero. -/
theorem value_lt_of_length (h : Alphabet b P val) {c : α} (hc : P c) (hpos : 0 < val c)
    (hl : ∀ d ∈ l, P d) (hlen : l.length ≤ cs.length) : value b val l < value b val (c :: cs) := by
  have hb : 0 < b := (Nat.zero_le _).trans_lt (h.lt_base c hc)
  calc value b val l < b ^ l.length := value_lt h hl
    _ ≤ b ^ cs.length := Nat.pow_le_pow_right hb hlen
    _ ≤ value b val (c :: cs) := le_value hpos

/-- The last digits of a number, a fixed count of them. -/
def fixed (b : ℕ) (symbol : ℕ → α) : ℕ → ℕ → List α
  | 0, _ => []
  | w + 1, n => symbol (n / b ^ w) :: fixed b symbol w (n % b ^ w)

omit [LT α] in
@[simp] theorem length_fixed (symbol : ℕ → α) (w n : ℕ) : (fixed b symbol w n).length = w := by
  induction w generalizing n with
  | zero => rfl
  | succ w ih => rw [fixed, List.length_cons, ih]

omit [LT α] in
theorem fixed_forall {symbol : ℕ → α} (hsymbol : ∀ d < b, P (symbol d)) {w n : ℕ} (hn : n < b ^ w) :
    ∀ c ∈ fixed b symbol w n, P c := by
  induction w generalizing n with
  | zero => simp [fixed]
  | succ w ih =>
    have hpos : 0 < b ^ w := Nat.pos_of_ne_zero fun h => by simp [pow_succ, h] at hn
    refine List.forall_mem_cons.2 ⟨hsymbol _ ?_, ih (Nat.mod_lt _ hpos)⟩
    rw [Nat.div_lt_iff_lt_mul hpos, ← pow_succ']
    exact hn

omit [LT α] in
theorem value_fixed {symbol : ℕ → α} (hsymbol : ∀ d < b, val (symbol d) = d) {w n : ℕ} (hn : n < b ^ w) :
    value b val (fixed b symbol w n) = n := by
  induction w generalizing n with
  | zero =>
    rw [pow_zero, Nat.lt_one_iff] at hn
    rw [hn]
    rfl
  | succ w ih =>
    have hpos : 0 < b ^ w := Nat.pos_of_ne_zero fun h => by simp [pow_succ, h] at hn
    have hdigit : n / b ^ w < b := by
      rw [Nat.div_lt_iff_lt_mul hpos, ← pow_succ']
      exact hn
    rw [fixed, value, hsymbol _ hdigit, length_fixed, ih (Nat.mod_lt _ hpos), mul_comm, Nat.div_add_mod]

omit [LT α] in
/-- The leading and the remaining digits. -/
theorem fixed_add (symbol : ℕ → α) {w v n : ℕ} (hn : n < b ^ (w + v)) :
    fixed b symbol (w + v) n = fixed b symbol w (n / b ^ v) ++ fixed b symbol v (n % b ^ v) := by
  induction w generalizing n with
  | zero =>
    rw [Nat.zero_add] at hn
    rw [Nat.zero_add, Nat.mod_eq_of_lt hn]
    rfl
  | succ w ih =>
    have hpos : 0 < b ^ (w + v) := Nat.pos_of_ne_zero fun h => by
      rw [Nat.add_right_comm, pow_succ, h] at hn
      omega
    have hhead : n / b ^ (w + v) = n / b ^ v / b ^ w := by rw [Nat.div_div_eq_div_mul, pow_add, mul_comm]
    have hhigh : n % b ^ (w + v) / b ^ v = n / b ^ v % b ^ w := by
      rw [pow_add, mul_comm, Nat.mod_mul_right_div_self]
    have hlow : n % b ^ (w + v) % b ^ v = n % b ^ v :=
      Nat.mod_mod_of_dvd _ (pow_dvd_pow b (Nat.le_add_left v w))
    rw [Nat.add_right_comm, fixed, ih (Nat.mod_lt _ hpos), fixed, hhead, hhigh, hlow, List.cons_append]

/-- Texts with a first part of one length are ordered by it, and then by the rest. -/
theorem append_lt_append_iff [Std.Irrefl (· < · : α → α → Prop)] {l' m m' : List α} (hlen : l.length = l'.length) :
    l ++ m < l' ++ m' ↔ l < l' ∨ l = l' ∧ m < m' := by
  induction l generalizing l' with
  | nil =>
    obtain rfl := List.length_eq_zero_iff.1 hlen.symm
    simp
  | cons c cs ih =>
    cases l' with
    | nil => simp at hlen
    | cons d ds =>
      have hlen : cs.length = ds.length := by simpa using hlen
      rw [List.cons_append, List.cons_append, List.cons_lt_cons_iff, List.cons_lt_cons_iff, ih hlen,
        List.cons_eq_cons]
      tauto

end Conductor.Digits
