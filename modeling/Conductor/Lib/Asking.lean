import Mathlib.Tactic.Common

/-! Programs that ask an environment and may fail. The environment answers the calls of a run one by one, so it
is a function that the program gets beside its state; an error keeps the state that was reached. `Wp p ρ Q E s`
says of the run of `p` from `s` that its value satisfies `Q` or its error `E`, each with the state behind it. -/

namespace Conductor.Asking

def Prog (ρ σ ε α : Type) : Type := ρ → σ → Except ε α × σ

namespace Prog

variable {ρ σ ε α β : Type}

instance : Monad (Prog ρ σ ε) where
  pure a := fun _ s => (.ok a, s)
  bind p f := fun ρ s =>
    match p ρ s with
    | (.ok a, t) => f a ρ t
    | (.error e, t) => (.error e, t)

def fail (e : ε) : Prog ρ σ ε α := fun _ s => (.error e, s)

def get : Prog ρ σ ε σ := fun _ s => (.ok s, s)

def modify (f : σ → σ) : Prog ρ σ ε Unit := fun _ s => (.ok (), f s)

/-- One call: what the environment answers, and what the state notes of it. -/
def ask (f : ρ → σ → α × σ) : Prog ρ σ ε α := fun ρ s => (.ok (f ρ s).1, (f ρ s).2)

def settle : Except ε α → Prog ρ σ ε α
  | .ok a => pure a
  | .error e => fail e

/-- The result of a program as a value. -/
def attempt (p : Prog ρ σ ε α) : Prog ρ σ ε (Except ε α) := fun ρ s => (.ok (p ρ s).1, (p ρ s).2)

/-- A loop over a list; the first error ends it. -/
def each (f : β → Prog ρ σ ε Unit) : List β → Prog ρ σ ε Unit
  | [] => pure ()
  | b :: bs => do
    f b
    each f bs

end Prog

open Prog

variable {ρ σ ε α β : Type} {r : ρ} {s : σ} {Q M : α → σ → Prop} {E F : ε → σ → Prop}

def Wp (p : Prog ρ σ ε α) (r : ρ) (Q : α → σ → Prop) (E : ε → σ → Prop) (s : σ) : Prop :=
  match p r s with
  | (.ok a, t) => Q a t
  | (.error e, t) => E e t

@[simp] theorem wp_pure (a : α) : Wp (pure a) r Q E s ↔ Q a s := Iff.rfl

@[simp] theorem wp_fail (e : ε) : Wp (fail e) r Q E s ↔ E e s := Iff.rfl

@[simp] theorem wp_get {Q : σ → σ → Prop} : Wp get r Q E s ↔ Q s s := Iff.rfl

@[simp] theorem wp_modify (f : σ → σ) {Q : Unit → σ → Prop} : Wp (modify f) r Q E s ↔ Q () (f s) := Iff.rfl

@[simp] theorem wp_ask (f : ρ → σ → α × σ) : Wp (ask f) r Q E s ↔ Q (f r s).1 (f r s).2 := Iff.rfl

@[simp] theorem wp_bind (p : Prog ρ σ ε β) (f : β → Prog ρ σ ε α) :
    Wp (p >>= f) r Q E s ↔ Wp p r (fun b => Wp (f b) r Q E) E s := by
  simp only [Wp, bind]
  cases p r s with
  | mk result t => cases result <;> rfl

@[simp] theorem wp_attempt (p : Prog ρ σ ε α) {Q : Except ε α → σ → Prop} :
    Wp (attempt p) r Q E s ↔ Wp p r (fun a => Q (.ok a)) (fun e => Q (.error e)) s := by
  simp only [Wp, attempt]
  cases p r s with
  | mk result t => cases result <;> rfl

theorem wp_settle (x : Except ε α) :
    Wp (settle x) r Q E s ↔ (∀ a, x = .ok a → Q a s) ∧ ∀ e, x = .error e → E e s := by
  cases x <;> simp [settle]

variable {p : Prog ρ σ ε α}

theorem Wp.mono (h : Wp p r Q E s) (hQ : ∀ a t, Q a t → M a t) (hE : ∀ e t, E e t → F e t) : Wp p r M F s := by
  unfold Wp at h ⊢
  split at h
  · exact hQ _ _ h
  · exact hE _ _ h

theorem Wp.result (h : Wp p r Q E s) :
    (∀ a, (p r s).1 = .ok a → Q a (p r s).2) ∧ ∀ e, (p r s).1 = .error e → E e (p r s).2 := by
  unfold Wp at h
  cases hp : p r s with
  | mk result t =>
    rw [hp] at h
    cases result <;> simp_all

theorem Wp.fails (h : Wp p r (fun _ _ => False) E s) : ∃ e, (p r s).1 = .error e ∧ E e (p r s).2 := by
  unfold Wp at h
  split at h
  · exact h.elim
  · rename_i e t heq
    exact ⟨e, by rw [heq], by rw [heq]; exact h⟩

/-- What holds of the state behind a run whether it fails or not. -/
theorem Wp.state {I : σ → Prop} (h : Wp p r (fun _ => I) (fun _ => I) s) : I (p r s).2 := by
  unfold Wp at h
  split at h
  · rename_i heq
    rw [heq]
    exact h
  · rename_i heq
    rw [heq]
    exact h

/-- What every pass of a loop keeps. -/
theorem wp_each {f : β → Prog ρ σ ε Unit} {I : σ → Prop} (hf : ∀ b t, I t → Wp (f b) r (fun _ => I) E t)
    (bs : List β) (hs : I s) : Wp (each f bs) r (fun _ => I) E s := by
  induction bs generalizing s with
  | nil => exact hs
  | cons b bs ih =>
    rw [each, wp_bind]
    exact (hf b s hs).mono (fun _ _ ht => ih ht) fun _ _ he => he

end Conductor.Asking
