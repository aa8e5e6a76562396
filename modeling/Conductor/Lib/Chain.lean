import Conductor.Lib.Outcomes
import Mathlib.Logic.Relation

/-! Programs that change their state by moves only. `Leads Move p s Q` says that every outcome of the
program, wherever it ends, is reached from `s` by moves, and that a value satisfies `Q`. An invariant
of the moves is then one of all programs that are built from them. -/

namespace Conductor.Outcomes

open Prog Relation

variable {σ α β : Type} {Move : σ → σ → Prop} {p : Prog σ α} {s t : σ} {Q M : α → σ → Prop}

def Leads (Move : σ → σ → Prop) (p : Prog σ α) (s : σ) (Q : α → σ → Prop) : Prop :=
  Spec p s (fun a t => ReflTransGen Move s t ∧ Q a t) (ReflTransGen Move s) (ReflTransGen Move s)

theorem leads_pure {a : α} (h : Q a s) : Leads Move (pure a) s Q := spec_pure ⟨.refl, h⟩

theorem leads_raise : Leads Move (raise : Prog σ α) s Q := spec_raise .refl

theorem leads_get {Q : σ → σ → Prop} (h : Q s s) : Leads Move get s Q := spec_get ⟨.refl, h⟩

/-- A program that goes on from a state that moves have reached. -/
theorem Leads.trans (h : Leads Move p t Q) (hs : ReflTransGen Move s t) :
    Spec p t (fun a u => ReflTransGen Move s u ∧ Q a u) (ReflTransGen Move s) (ReflTransGen Move s) := by
  apply Spec.mono h
  · intro a u hu
    exact ⟨hs.trans hu.1, hu.2⟩
  · intro u hu
    exact hs.trans hu
  · intro u hu
    exact hs.trans hu

theorem Leads.bind {f : α → Prog σ β} {Q : β → σ → Prop} (hp : Leads Move p s M)
    (hf : ∀ a t, M a t → Leads Move (f a) t Q) : Leads Move (p >>= f) s Q := by
  apply Spec.bind hp
  intro a t ht
  exact (hf a t ht.2).trans ht.1

theorem Leads.mono (h : Leads Move p s Q) (hQ : ∀ a t, Q a t → M a t) : Leads Move p s M := by
  apply Spec.mono h
  · intro a t ht
    exact ⟨ht.1, hQ a t ht.2⟩
  · exact fun _ ht => ht
  · exact fun _ ht => ht

/-- The handler starts from any state that moves have reached. -/
theorem Leads.attempt {h : Prog σ α} (hp : Leads Move p s Q) (hh : ∀ t, Leads Move h t Q) :
    Leads Move (attempt p h) s Q := by
  apply Spec.attempt hp
  intro t ht
  exact (hh t).trans ht

theorem Leads.suppress {p : Prog σ Unit} {Q : Unit → σ → Prop} (hp : Leads Move p s Q) (hQ : ∀ t, Q () t) :
    Leads Move (suppress p) s Q :=
  hp.attempt fun t => leads_pure (hQ t)

/-- A loop: `I` says what holds while the given passes remain. -/
theorem leads_forM {l : List β} {f : β → Prog σ Unit} {I : List β → σ → Prop} (hs : I l s)
    (hf : ∀ b l t, I (b :: l) t → Leads Move (f b) t (fun _ => I l)) :
    Leads Move (l.forM f) s (fun _ => I []) := by
  induction l generalizing s with
  | nil => exact leads_pure hs
  | cons b l ih => exact (hf b l s hs).bind fun _ _ ht => ih ht

theorem Leads.reached (h : Leads Move p s Q) {r : Outcome α × σ} (hr : r ∈ p s) : ReflTransGen Move s r.2 := by
  obtain ⟨o, t⟩ := r
  have hr := h _ hr
  cases o with
  | value a => exact hr.1
  | raised => exact hr
  | stopped => exact hr

end Conductor.Outcomes
