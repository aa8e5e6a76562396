import Mathlib.Data.List.Basic

/-! Programs whose steps may fail. A program answers, for a state, the list of all its
outcomes: it returns a value, it raises, or it stops for good. A handler sees what was raised
and never what stopped. `Spec p s Q R C` says of all outcomes from `s`: a value satisfies `Q`, a
raise `R` and a stop `C`. -/

namespace Conductor.Outcomes

inductive Outcome (α : Type) where
  | value (a : α)
  | raised
  | stopped

def Prog (σ α : Type) := σ → List (Outcome α × σ)

namespace Prog

variable {σ α β : Type}

def next (f : α → Prog σ β) : Outcome α × σ → List (Outcome β × σ)
  | (.value a, t) => f a t
  | (.raised, t) => [(.raised, t)]
  | (.stopped, t) => [(.stopped, t)]

instance : Monad (Prog σ) where
  pure a := fun s => [(.value a, s)]
  bind p f := fun s => (p s).flatMap (next f)

def get : Prog σ σ := fun s => [(.value s, s)]

def raise : Prog σ α := fun s => [(.raised, s)]

/-- `except`: the handler goes on where the program raised. -/
def handle (h : Prog σ α) : Outcome α × σ → List (Outcome α × σ)
  | (.raised, t) => h t
  | r => [r]

def attempt (p h : Prog σ α) : Prog σ α := fun s => (p s).flatMap (handle h)

/-- `with suppress(…)`. -/
def suppress (p : Prog σ Unit) : Prog σ Unit := attempt p (pure ())

/-- `finally`: the cleanup runs after a value and after a raise. -/
def cleanup (c : Prog σ Unit) : Outcome α × σ → List (Outcome α × σ)
  | (.value a, t) => (do c; pure a : Prog σ α) t
  | (.raised, t) => (do c; raise : Prog σ α) t
  | (.stopped, t) => [(.stopped, t)]

def ensure (p : Prog σ α) (c : Prog σ Unit) : Prog σ α := fun s => (p s).flatMap (cleanup c)

end Prog

open Prog

variable {σ α β : Type} {p : Prog σ α} {s : σ} {Q M : α → σ → Prop} {R R' C C' : σ → Prop}

/-- What is asked of one outcome. -/
def Holds (Q : α → σ → Prop) (R C : σ → Prop) : Outcome α × σ → Prop
  | (.value a, t) => Q a t
  | (.raised, t) => R t
  | (.stopped, t) => C t

def Spec (p : Prog σ α) (s : σ) (Q : α → σ → Prop) (R C : σ → Prop) : Prop := ∀ r ∈ p s, Holds Q R C r

theorem Spec.mono (h : Spec p s Q R C) (hQ : ∀ a t, Q a t → M a t) (hR : ∀ t, R t → R' t)
    (hC : ∀ t, C t → C' t) : Spec p s M R' C' := by
  intro r hr
  obtain ⟨o, t⟩ := r
  have h := h _ hr
  cases o with
  | value a => exact hQ a t h
  | raised => exact hR t h
  | stopped => exact hC t h

theorem spec_pure {a : α} (h : Q a s) : Spec (pure a) s Q R C := by
  intro r hr
  rw [List.mem_singleton.1 hr]
  exact h

theorem spec_raise (h : R s) : Spec raise s Q R C := by
  intro r hr
  rw [List.mem_singleton.1 hr]
  exact h

theorem spec_get {Q : σ → σ → Prop} (h : Q s s) : Spec get s Q R C := by
  intro r hr
  rw [List.mem_singleton.1 hr]
  exact h

theorem spec_bind {f : α → Prog σ β} {Q : β → σ → Prop} (h : Spec p s (fun a t => Spec (f a) t Q R C) R C) :
    Spec (p >>= f) s Q R C := by
  intro r hr
  obtain ⟨⟨o, t⟩, ho, hr⟩ := List.mem_flatMap.1 hr
  have h := h _ ho
  cases o with
  | value a => exact h r hr
  | raised =>
    rw [List.mem_singleton.1 hr]
    exact h
  | stopped =>
    rw [List.mem_singleton.1 hr]
    exact h

theorem spec_attempt {h : Prog σ α} (hp : Spec p s Q (fun t => Spec h t Q R C) C) :
    Spec (attempt p h) s Q R C := by
  intro r hr
  obtain ⟨⟨o, t⟩, ho, hr⟩ := List.mem_flatMap.1 hr
  have hp := hp _ ho
  cases o with
  | value a =>
    rw [List.mem_singleton.1 hr]
    exact hp
  | raised => exact hp r hr
  | stopped =>
    rw [List.mem_singleton.1 hr]
    exact hp

theorem spec_suppress {p : Prog σ Unit} {Q : Unit → σ → Prop} (h : Spec p s Q (Q ()) C) :
    Spec (suppress p) s Q R C :=
  spec_attempt (h.mono (fun _ _ h => h) (fun _ h => spec_pure h) fun _ h => h)

theorem spec_ensure {c : Prog σ Unit}
    (h : Spec p s (fun a t => Spec c t (fun _ => Q a) R C) (fun t => Spec c t (fun _ => R) R C) C) :
    Spec (ensure p c) s Q R C := by
  intro r hr
  obtain ⟨⟨o, t⟩, ho, hr⟩ := List.mem_flatMap.1 hr
  have h := h _ ho
  cases o with
  | value a =>
    have hvalue : Spec (do c; pure a : Prog σ α) t Q R C :=
      spec_bind (Spec.mono h (fun _ _ h => spec_pure h) (fun _ h => h) fun _ h => h)
    exact hvalue r hr
  | raised =>
    have hraise : Spec (do c; raise : Prog σ α) t Q R C :=
      spec_bind (Spec.mono h (fun _ _ h => spec_raise h) (fun _ h => h) fun _ h => h)
    exact hraise r hr
  | stopped =>
    rw [List.mem_singleton.1 hr]
    exact h

/-- What comes next is executed from what the first program leaves. -/
theorem Spec.bind {f : α → Prog σ β} {Q : β → σ → Prop} (hp : Spec p s M R C)
    (hf : ∀ a t, M a t → Spec (f a) t Q R C) : Spec (p >>= f) s Q R C :=
  spec_bind (hp.mono hf (fun _ h => h) fun _ h => h)

theorem Spec.attempt {h : Prog σ α} (hp : Spec p s Q R' C) (hh : ∀ t, R' t → Spec h t Q R C) :
    Spec (attempt p h) s Q R C :=
  spec_attempt (hp.mono (fun _ _ h => h) hh fun _ h => h)

/-- A loop: `I` says what holds while the given passes remain. -/
theorem spec_forM {l : List β} {f : β → Prog σ Unit} {I : List β → σ → Prop} (hs : I l s)
    (hf : ∀ b l t, I (b :: l) t → Spec (f b) t (fun _ => I l) R C) :
    Spec (l.forM f) s (fun _ => I []) R C := by
  induction l generalizing s with
  | nil => exact spec_pure hs
  | cons b l ih =>
    refine spec_bind ((hf b l s hs).mono ?_ (fun _ h => h) fun _ h => h)
    intro _ t ht
    exact ih ht

/-! ### Programs that have an outcome -/

namespace Prog

structure Total (p : Prog σ α) : Prop where
  outcome : ∀ s, p s ≠ []

theorem total_pure (a : α) : Total (pure a : Prog σ α) := ⟨fun _ => List.cons_ne_nil _ _⟩

theorem total_raise : Total (raise : Prog σ α) := ⟨fun _ => List.cons_ne_nil _ _⟩

theorem total_get : Total (get : Prog σ σ) := ⟨fun _ => List.cons_ne_nil _ _⟩

theorem flatMap_ne_nil {γ δ : Type} {l : List γ} {g : γ → List δ} (hl : l ≠ []) (hg : ∀ c, g c ≠ []) :
    l.flatMap g ≠ [] := by
  obtain ⟨c, l, rfl⟩ := List.exists_cons_of_ne_nil hl
  rw [List.flatMap_cons]
  exact List.append_ne_nil_of_left_ne_nil (hg c) _

theorem Total.bind {f : α → Prog σ β} (hp : Total p) (hf : ∀ a, Total (f a)) : Total (p >>= f) := by
  refine ⟨fun s => flatMap_ne_nil (hp.outcome s) ?_⟩
  rintro ⟨o, t⟩
  cases o with
  | value a => exact (hf a).outcome t
  | raised => exact List.cons_ne_nil _ _
  | stopped => exact List.cons_ne_nil _ _

theorem Total.attempt {h : Prog σ α} (hp : Total p) (hh : Total h) : Total (attempt p h) := by
  refine ⟨fun s => flatMap_ne_nil (hp.outcome s) ?_⟩
  rintro ⟨o, t⟩
  cases o with
  | value a => exact List.cons_ne_nil _ _
  | raised => exact hh.outcome t
  | stopped => exact List.cons_ne_nil _ _

theorem Total.suppress {p : Prog σ Unit} (hp : Total p) : Total (suppress p) := hp.attempt (total_pure ())

theorem Total.ensure {c : Prog σ Unit} (hp : Total p) (hc : Total c) : Total (ensure p c) := by
  refine ⟨fun s => flatMap_ne_nil (hp.outcome s) ?_⟩
  rintro ⟨o, t⟩
  cases o with
  | value a => exact (hc.bind fun _ => total_pure a).outcome t
  | raised => exact (hc.bind fun _ => total_raise).outcome t
  | stopped => exact List.cons_ne_nil _ _

theorem total_forM {f : β → Prog σ Unit} (hf : ∀ b, Total (f b)) : ∀ l : List β, Total (l.forM f)
  | [] => total_pure ()
  | b :: l => (hf b).bind fun _ => total_forM hf l

end Prog

/-! ### Outcomes that there are -/

section Members

variable {f : α → Prog σ β} {t : σ}

theorem mem_bind {a : α} {r : Outcome β × σ} (hp : (.value a, t) ∈ p s) (hf : r ∈ f a t) :
    r ∈ (p >>= f) s := List.mem_flatMap.2 ⟨_, hp, hf⟩

theorem mem_bind_raised (hp : (.raised, t) ∈ p s) : (.raised, t) ∈ (p >>= f) s :=
  List.mem_flatMap.2 ⟨_, hp, List.mem_singleton_self _⟩

theorem mem_bind_stopped (hp : (.stopped, t) ∈ p s) : (.stopped, t) ∈ (p >>= f) s :=
  List.mem_flatMap.2 ⟨_, hp, List.mem_singleton_self _⟩

theorem mem_attempt {h : Prog σ α} {r : Outcome α × σ} (hp : (.raised, t) ∈ p s) (hh : r ∈ h t) :
    r ∈ attempt p h s := List.mem_flatMap.2 ⟨_, hp, hh⟩

theorem mem_attempt_stopped {h : Prog σ α} (hp : (.stopped, t) ∈ p s) : (.stopped, t) ∈ attempt p h s :=
  List.mem_flatMap.2 ⟨_, hp, List.mem_singleton_self _⟩

/-- A program that has an outcome has one of the specified kind. -/
theorem Spec.exists (hp : Spec p s Q R C) (htotal : Total p) : ∃ r ∈ p s, Holds Q R C r := by
  obtain ⟨r, l, h⟩ := List.exists_cons_of_ne_nil (htotal.outcome s)
  have hr : r ∈ p s := h ▸ List.mem_cons_self
  exact ⟨r, hr, hp r hr⟩

/-- Every outcome of one program is one of the other. -/
def Sub (p q : Prog σ α) : Prop := ∀ s, p s ⊆ q s

theorem Sub.refl (p : Prog σ α) : Sub p p := fun _ => List.Subset.refl _

theorem Sub.bind {q : Prog σ α} {g : α → Prog σ β} (hp : Sub p q) (hf : ∀ a, Sub (f a) (g a)) :
    Sub (p >>= f) (q >>= g) := by
  intro s r hr
  obtain ⟨⟨o, t⟩, ho, hr⟩ := List.mem_flatMap.1 hr
  refine List.mem_flatMap.2 ⟨(o, t), hp s ho, ?_⟩
  cases o with
  | value a => exact hf a t hr
  | raised => exact hr
  | stopped => exact hr

theorem Sub.attempt {q h k : Prog σ α} (hp : Sub p q) (hh : Sub h k) : Sub (Prog.attempt p h) (Prog.attempt q k) := by
  intro s r hr
  obtain ⟨⟨o, t⟩, ho, hr⟩ := List.mem_flatMap.1 hr
  refine List.mem_flatMap.2 ⟨(o, t), hp s ho, ?_⟩
  cases o with
  | value a => exact hr
  | raised => exact hh t hr
  | stopped => exact hr

theorem Sub.forM {f g : β → Prog σ Unit} (hf : ∀ b, Sub (f b) (g b)) : ∀ l : List β, Sub (l.forM f) (l.forM g)
  | [] => Sub.refl _
  | b :: l => (hf b).bind fun _ => Sub.forM hf l

end Members

end Conductor.Outcomes
