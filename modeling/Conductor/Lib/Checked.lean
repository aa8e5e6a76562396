import Mathlib.Data.Rat.Defs
import Mathlib.Algebra.Order.Group.Nat

/-! Computations that may reject their input and whose operations may leave their
domain. A `rejected` result is an answer of the program; a `fault` is an operation that
has no value: a subtraction below zero, a division by zero, an index out of bounds.
`Decides r P v` says that `r` accepts exactly when `P` holds, with the value `v`, and
that it never faults. -/

namespace Conductor.Checked

inductive Failure (ε : Type*) where
  | rejected (error : ε)
  | fault
  deriving DecidableEq

variable {ε ε' α β : Type}

abbrev Result (ε α : Type) := Except (Failure ε) α

def reject (c : Prop) [Decidable c] (e : ε) : Result ε Unit := if c then .error (.rejected e) else .ok ()

def ofOption : Option α → Result ε α
  | some a => .ok a
  | none => .error .fault

variable {f : α → Except ε β} {l : List α} {r : Result ε α} {v : α} {g : α → β}

theorem bind_eq_ok {r : Except ε α} {b : β} : r >>= f = .ok b ↔ ∃ a, r = .ok a ∧ f a = .ok b := by
  cases r <;> simp [bind, Except.bind]

theorem pure_eq_ok {a b : α} : (pure a : Except ε α) = .ok b ↔ b = a := by
  simp [pure, Except.pure, eq_comm]

/-- A check at the head of a computation. -/
theorem unless_eq_ok {p : Prop} [Decidable p] {e : ε} {k : β → Except ε α} {r : Except ε α} {a : α} :
    (if p then Except.error e >>= k else r) = .ok a ↔ ¬ p ∧ r = .ok a := by
  split <;> simp [bind, Except.bind, *]

theorem forM_eq_ok {f : α → Except ε Unit} (h : ∀ a ∈ l, f a = .ok ()) : l.forM f = .ok () := by
  induction l with
  | nil => rfl
  | cons a l ih =>
    obtain ⟨ha, hl⟩ := List.forall_mem_cons.1 h
    exact bind_eq_ok.2 ⟨(), ha, ih hl⟩

theorem forM_eq_ok_iff {f : α → Except ε Unit} {u : Unit} : l.forM f = .ok u ↔ ∀ a ∈ l, f a = .ok () := by
  cases u
  induction l with
  | nil => simp [pure, Except.pure]
  | cons a l ih =>
    rw [show (a :: l).forM f = f a >>= fun _ => l.forM f from rfl, bind_eq_ok, List.forall_mem_cons, ← ih]
    exact ⟨fun ⟨_, ha, hl⟩ => ⟨ha, hl⟩, fun ⟨ha, hl⟩ => ⟨(), ha, hl⟩⟩

theorem exists_mapM_eq_ok : (∃ r, l.mapM f = .ok r) ↔ ∀ a ∈ l, ∃ b, f a = .ok b := by
  induction l with
  | nil => simp [pure, Except.pure]
  | cons a l ih =>
    simp only [List.mapM_cons, bind_eq_ok, pure_eq_ok, List.forall_mem_cons, ← ih]
    constructor
    · rintro ⟨_, b, hb, r, hr, -⟩
      exact ⟨⟨b, hb⟩, r, hr⟩
    · rintro ⟨⟨b, hb⟩, r, hr⟩
      exact ⟨b :: r, b, hb, r, hr, rfl⟩

theorem mapError_eq_ok {r : Except ε α} {f : ε → ε'} {a : α} : r.mapError f = .ok a ↔ r = .ok a := by
  cases r <;> simp [Except.mapError]

/-- Subtraction of unsigned numbers. -/
def sub (a b : ℕ) : Result ε ℕ := if b ≤ a then .ok (a - b) else .error .fault

def div (a b : ℚ) : Result ε ℚ := if b = 0 then .error .fault else .ok (a / b)

/-- Accepts when `P` holds, with the value `v`; rejects otherwise. -/
def Decides (r : Result ε α) (P : Prop) (v : α) : Prop :=
  (P ∧ r = .ok v) ∨ (¬ P ∧ ∃ e, r = .error (.rejected e))

variable {P Q : Prop}

theorem Decides.ok_iff {w : α} (h : Decides r P v) : r = .ok w ↔ P ∧ w = v := by
  rcases h with ⟨hp, rfl⟩ | ⟨hp, e, rfl⟩
  · simp [hp, eq_comm]
  · simp [hp]

theorem Decides.no_fault (h : Decides r P v) : r ≠ .error .fault := by
  rcases h with ⟨-, rfl⟩ | ⟨-, e, rfl⟩ <;> simp

theorem decides_ok (v : α) : Decides (.ok v : Result ε α) True v := .inl ⟨trivial, rfl⟩

theorem decides_reject (c : Prop) [Decidable c] (e : ε) : Decides (reject c e) (¬ c) () := by
  unfold reject
  split
  · next h => exact .inr ⟨not_not.2 h, e, rfl⟩
  · next h => exact .inl ⟨h, rfl⟩

theorem Decides.bind {f : α → Result ε β} {w : β}
    (h : Decides r P v) (hf : P → Decides (f v) Q w) : Decides (r >>= f) (P ∧ Q) w := by
  rcases h with ⟨hp, rfl⟩ | ⟨hp, e, rfl⟩
  · rcases hf hp with ⟨hq, heq⟩ | ⟨hq, e, heq⟩
    · exact .inl ⟨⟨hp, hq⟩, heq⟩
    · exact .inr ⟨fun h => hq h.2, e, heq⟩
  · exact .inr ⟨fun h => hp h.1, e, rfl⟩

theorem Decides.congr (h : Decides r P v) (hpq : P ↔ Q) : Decides r Q v := by
  rwa [← propext hpq]

/-- An operation inside its domain has a value. -/
theorem Decides.of_ok {f : α → Result ε β} {w : β}
    (hr : r = .ok v) (hf : Decides (f v) Q w) : Decides (r >>= f) Q w := by
  rw [hr]
  exact hf

theorem sub_eq {a b : ℕ} (h : b ≤ a) : (sub a b : Result ε ℕ) = .ok (a - b) := if_pos h

theorem div_eq {a b : ℚ} (h : b ≠ 0) : (div a b : Result ε ℚ) = .ok (a / b) := if_neg h

/-- A check of the image of every element, from the first on. -/
theorem decides_forM {l : List β} {g : β → α} {f : α → Result ε Unit} {P : β → Prop}
    (hf : ∀ b ∈ l, Decides (f (g b)) (P b) ()) : Decides ((l.map g).forM f) (∀ b ∈ l, P b) () := by
  induction l with
  | nil => exact .inl ⟨by simp, rfl⟩
  | cons b l ih =>
    obtain ⟨hb, hl⟩ := List.forall_mem_cons.1 hf
    have hbind : ((b :: l).map g).forM f = f (g b) >>= fun _ => (l.map g).forM f := rfl
    rw [hbind]
    exact (hb.bind fun _ => ih hl).congr (List.forall_mem_cons).symm

theorem decides_mapM {f : α → Result ε β} {P : α → Prop}
    (hf : ∀ a ∈ l, Decides (f a) (P a) (g a)) : Decides (l.mapM f) (∀ a ∈ l, P a) (l.map g) := by
  induction l with
  | nil => exact .inl ⟨by simp, rfl⟩
  | cons a l ih =>
    obtain ⟨ha, hl⟩ := List.forall_mem_cons.1 hf
    rw [List.mapM_cons]
    refine (ha.bind (Q := ∀ b ∈ l, P b) fun _ => ?_).congr (List.forall_mem_cons).symm
    exact ((ih hl).bind fun _ => decides_ok (g a :: l.map g)).congr (iff_of_eq (and_true _))

theorem mapM_eq (hf : ∀ a ∈ l, f a = .ok (g a)) : l.mapM f = .ok (l.map g) := by
  induction l with
  | nil => rfl
  | cons a l ih =>
    obtain ⟨ha, hl⟩ := List.forall_mem_cons.1 hf
    rw [List.mapM_cons, ha, ih hl]
    rfl

/-- A function that answers `g` exactly under `P`, on a list. -/
theorem mapM_eq_ok_iff {P : α → Prop} {r : List β}
    (hf : ∀ a ∈ l, ∀ b, f a = .ok b ↔ P a ∧ b = g a) : l.mapM f = .ok r ↔ (∀ a ∈ l, P a) ∧ r = l.map g := by
  induction l generalizing r with
  | nil =>
    rw [List.mapM_nil, pure_eq_ok]
    simp
  | cons a l ih =>
    obtain ⟨ha, hl⟩ := List.forall_mem_cons.1 hf
    simp only [List.mapM_cons, bind_eq_ok, ha, ih hl, pure_eq_ok, List.forall_mem_cons, List.map_cons]
    constructor
    · rintro ⟨b, ⟨hP, rfl⟩, r', ⟨hall, rfl⟩, rfl⟩
      exact ⟨⟨hP, hall⟩, rfl⟩
    · rintro ⟨⟨hP, hall⟩, rfl⟩
      exact ⟨g a, ⟨hP, rfl⟩, l.map g, ⟨hall, rfl⟩, rfl⟩

theorem ite_error_eq_ok {c : Prop} [Decidable c] {e : ε} {x : Except ε β} {b : β} :
    (if c then .error e else x) = .ok b ↔ ¬c ∧ x = .ok b := by
  by_cases h : c
  · simp [h]
  · simp [h]

/-- A function that answers `g` or an error answers `g` on a list, when it does. -/
theorem mapM_ok_eq_map {r : List β}
    (hf : ∀ a b, f a = .ok b → b = g a) (h : l.mapM f = .ok r) : r = l.map g ∧ ∀ a ∈ l, f a = .ok (g a) := by
  induction l generalizing r with
  | nil =>
    obtain rfl := pure_eq_ok.1 h
    exact ⟨rfl, by simp⟩
  | cons a l ih =>
    rw [List.mapM_cons] at h
    obtain ⟨b, hb, h⟩ := bind_eq_ok.1 h
    obtain ⟨r', hr', h⟩ := bind_eq_ok.1 h
    obtain rfl := pure_eq_ok.1 h
    obtain ⟨rfl, hall⟩ := ih hr'
    obtain rfl := hf a b hb
    exact ⟨rfl, List.forall_mem_cons.2 ⟨hb, hall⟩⟩

end Conductor.Checked
