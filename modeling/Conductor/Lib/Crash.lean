import Mathlib.Tactic.Common

/-! Statements on what a process leaves behind. Each one is done, raises with nothing done, or is where the
process dies. `Ends x Q R D` says what a run leaves: `Q` where it returns, `R` where it raises and `D` where
the process died; the rules execute a block statement by statement. -/

namespace Conductor.Crash

inductive Fault where
  | none
  | raises
  | dies

inductive Ending where
  | returns
  | raises
  | dies

variable {σ α : Type}

abbrev Proc (σ : Type) := σ → Ending × σ

namespace Proc

def skip : Proc σ := fun s => (.returns, s)

def raise : Proc σ := fun s => (.raises, s)

def atomic (f : Fault) (g : σ → σ) : Proc σ := fun s =>
  match f with
  | .none => (.returns, g s)
  | .raises => (.raises, s)
  | .dies => (.dies, s)

def check (b : σ → Bool) : Proc σ := fun s => (if b s then .returns else .raises, s)

def seq (p q : Proc σ) : Proc σ := fun s =>
  match p s with
  | (.returns, s) => q s
  | r => r

def block : List (Proc σ) → Proc σ
  | [] => skip
  | p :: ps => p.seq (block ps)

/-- `except` of everything, with a handler that raises again. -/
def guarded (p handler : Proc σ) : Proc σ := fun s =>
  match p s with
  | (.raises, s) =>
    match handler s with
    | (.dies, s) => (.dies, s)
    | (_, s) => (.raises, s)
  | r => r

def reading (get : σ → α) (k : α → Proc σ) : Proc σ := fun s => k (get s) s

end Proc

open Proc

def Ends (x : Ending × σ) (Q R D : σ → Prop) : Prop :=
  match x.1 with
  | .returns => Q x.2
  | .raises => R x.2
  | .dies => D x.2

section Rules

variable {Q Q' M R R' N D D' : σ → Prop} {s : σ}

theorem Ends.mono {x : Ending × σ} (h : Ends x Q R D) (hQ : ∀ s, Q s → Q' s) (hR : ∀ s, R s → R' s)
    (hD : ∀ s, D s → D' s) : Ends x Q' R' D' := by
  obtain ⟨ending, s⟩ := x
  cases ending with
  | returns => exact hQ s h
  | raises => exact hR s h
  | dies => exact hD s h

theorem Ends.skip (h : Q s) : Ends (skip s) Q R D := h

theorem Ends.atomic {f : Fault} {g : σ → σ} (hQ : f = .none → Q (g s)) (hR : f = .raises → R s)
    (hD : f = .dies → D s) : Ends (Proc.atomic f g s) Q R D := by
  cases f with
  | none => exact hQ rfl
  | raises => exact hR rfl
  | dies => exact hD rfl

theorem Ends.check {b : σ → Bool} (hQ : b s = true → Q s) (hR : b s = false → R s) : Ends (Proc.check b s) Q R D := by
  unfold Proc.check
  cases hb : b s with
  | true => exact hQ hb
  | false => exact hR hb

theorem Ends.seq {p q : Proc σ} (hp : Ends (p s) M R D) (hq : ∀ s', M s' → Ends (q s') Q R D) :
    Ends (p.seq q s) Q R D := by
  unfold Proc.seq
  generalize p s = x at hp
  obtain ⟨ending, s'⟩ := x
  cases ending with
  | returns => exact hq s' hp
  | raises => exact hp
  | dies => exact hp

variable {ps : List (Proc σ)}

theorem Ends.block_cons {p : Proc σ} (hp : Ends (p s) M R D)
    (hps : ∀ s', M s' → Ends (block ps s') Q R D) : Ends (block (p :: ps) s) Q R D := hp.seq hps

/-- The next statement is atomic. -/
theorem Ends.step {f : Fault} {g : σ → σ} (hQ : f = .none → Ends (block ps (g s)) Q R D)
    (hR : f = .raises → R s) (hD : f = .dies → D s) : Ends (block (Proc.atomic f g :: ps) s) Q R D :=
  Ends.block_cons (M := fun s' => Ends (block ps s') Q R D) (Ends.atomic hQ hR hD) fun _ h => h

/-- The next statement is a check. -/
theorem Ends.checked {b : σ → Bool} (hQ : b s = true → Ends (block ps s) Q R D)
    (hR : b s = false → R s) : Ends (block (Proc.check b :: ps) s) Q R D :=
  Ends.block_cons (M := fun s' => Ends (block ps s') Q R D) (Ends.check hQ hR) fun _ h => h

theorem Ends.guarded {p handler : Proc σ} (hp : Ends (p s) Q N D) (hh : ∀ s', N s' → Ends (handler s') R R D) :
    Ends (p.guarded handler s) Q R D := by
  unfold Proc.guarded
  generalize p s = x at hp
  obtain ⟨ending, s'⟩ := x
  cases ending with
  | returns => exact hp
  | dies => exact hp
  | raises =>
    have h := hh s' hp
    dsimp only
    generalize handler s' = y at h
    obtain ⟨ending, s''⟩ := y
    cases ending with
    | returns => exact h
    | raises => exact h
    | dies => exact h

theorem Ends.reading {get : σ → α} {k : α → Proc σ} (h : Ends (k (get s) s) Q R D) : Ends (Proc.reading get k s) Q R D := h

/-- A run that cannot raise or die returns. -/
theorem Ends.returned {x : Ending × σ} (h : Ends x Q (fun _ => False) fun _ => False) : x.1 = .returns ∧ Q x.2 := by
  obtain ⟨ending, s⟩ := x
  cases ending with
  | returns => exact ⟨rfl, h⟩
  | raises => exact h.elim
  | dies => exact h.elim

end Rules

end Conductor.Crash
