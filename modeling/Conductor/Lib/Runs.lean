import Mathlib.Data.Option.Basic
import Mathlib.Tactic.Common

/-! Runs of a partial step function. A system is a state type, an action type and
`step : S → A → Option S`, where `none` says that the action is not enabled. A run
is a list of actions; interleavings of several threads are such lists, with the
thread in the action. `Along` says that a relation holds at every step of a run,
which is how a condition on the schedule is stated. -/

namespace Conductor.Runs

variable {S A : Type*} (step : S → A → Option S)

def run : S → List A → Option S
  | s, [] => some s
  | s, a :: as => (step s a).bind fun t => run t as

/-- `P` holds of every step that the run takes. -/
def Along (P : S → A → S → Prop) : S → List A → Prop
  | _, [] => True
  | s, a :: as => ∀ t, step s a = some t → P s a t ∧ Along P t as

/-- On a given run the relation can be checked. -/
instance Along.decidable (P : S → A → S → Prop) [∀ s a t, Decidable (P s a t)] :
    ∀ (s : S) (as : List A), Decidable (Along step P s as)
  | _, [] => isTrue trivial
  | s, a :: as =>
    match h : step s a with
    | none => isTrue fun t ht => by simp [h] at ht
    | some u =>
      have := Along.decidable P u as
      decidable_of_iff (P s a u ∧ Along step P u as) (by simp [Along, h])

@[simp] theorem run_nil (s : S) : run step s [] = some s := rfl

theorem run_cons (s : S) (a : A) (as : List A) :
    run step s (a :: as) = (step s a).bind fun t => run step t as := rfl

theorem run_append (s : S) (as bs : List A) :
    run step s (as ++ bs) = (run step s as).bind fun t => run step t bs := by
  induction as generalizing s with
  | nil => rfl
  | cons a as ih =>
    simp only [List.cons_append, run_cons, Option.bind_assoc]
    congr 1
    funext t
    exact ih t

variable {step}

variable {as : List A} {s : S} {P G : S → A → S → Prop} {I : S → Prop}

theorem run_cons_eq_some {u : S} {a : A} :
    run step s (a :: as) = some u ↔ ∃ t, step s a = some t ∧ run step t as = some u := by
  rw [run_cons, Option.bind_eq_some_iff]

theorem run_append_eq_some {u : S} {bs : List A} :
    run step s (as ++ bs) = some u ↔ ∃ t, run step s as = some t ∧ run step t bs = some u := by
  rw [run_append, Option.bind_eq_some_iff]

theorem Along.append {t : S} {bs : List A} (h : Along step P s (as ++ bs))
    (hr : run step s as = some t) : Along step P s as ∧ Along step P t bs := by
  induction as generalizing s with
  | nil => exact ⟨trivial, by cases hr; exact h⟩
  | cons a as ih =>
    obtain ⟨u, hu, hrest⟩ := run_cons_eq_some.1 hr
    obtain ⟨hp, htail⟩ := h u hu
    obtain ⟨h1, h2⟩ := ih htail hrest
    refine ⟨fun v hv => ?_, h2⟩
    obtain rfl : u = v := by rw [hu] at hv; exact Option.some.inj hv
    exact ⟨hp, h1⟩

theorem Along.and {Q : S → A → S → Prop} (h : Along step P s as) (h' : Along step Q s as) :
    Along step (fun s a t => P s a t ∧ Q s a t) s as := by
  induction as generalizing s with
  | nil => trivial
  | cons a as ih =>
    intro t ht
    obtain ⟨hp, hrest⟩ := h t ht
    obtain ⟨hq, hrest'⟩ := h' t ht
    exact ⟨⟨hp, hq⟩, ih hrest hrest'⟩

/-- A step that meets `G` preserves `I`; so does a run all of whose steps meet it. -/
theorem run_invariant_of_along (hstep : ∀ s a t, I s → step s a = some t → G s a t → I t) :
    ∀ {as : List A} {s t : S}, I s → Along step G s as → run step s as = some t → I t
  | [], s, t, hs, _, hr => by cases hr; exact hs
  | a :: as, s, t, hs, hg, hr => by
    obtain ⟨u, hu, hrest⟩ := run_cons_eq_some.1 hr
    obtain ⟨hga, htail⟩ := hg u hu
    exact run_invariant_of_along hstep (hstep s a u hs hu hga) htail hrest

theorem run_invariant (hstep : ∀ s a t, I s → step s a = some t → I t)
    {t : S} (hs : I s) (hr : run step s as = some t) : I t := by
  induction as generalizing s with
  | nil => cases hr; exact hs
  | cons a as ih =>
    obtain ⟨u, hu, hrest⟩ := run_cons_eq_some.1 hr
    exact ih (hstep s a u hs hu) hrest

/-- A run whose steps all lower a measure is no longer than the measure. -/
theorem run_length_le {m : S → ℕ} (hstep : ∀ s a t, I s → step s a = some t → I t ∧ m t < m s)
    {t : S} (hs : I s) (hr : run step s as = some t) : as.length ≤ m s := by
  induction as generalizing s with
  | nil => exact Nat.zero_le _
  | cons a as ih =>
    obtain ⟨u, hu, hrest⟩ := run_cons_eq_some.1 hr
    obtain ⟨hi, hlt⟩ := hstep s a u hs hu
    exact Nat.succ_le_of_lt (Nat.lt_of_le_of_lt (ih hi hrest) hlt)

/-- An invariant gives a relation at every step of the run. -/
theorem along_of_invariant (hstep : ∀ s a t, I s → step s a = some t → I t ∧ P s a t) :
    ∀ {as : List A} {s : S}, I s → Along step P s as
  | [], _, _ => trivial
  | _ :: _, s, hs => fun t ht => by
    obtain ⟨hi, hp⟩ := hstep s _ t hs ht
    exact ⟨hp, along_of_invariant hstep hi⟩

/-- An invariant and a guard give a relation at every step of the run. -/
theorem along_of_guard (hstep : ∀ s a t, I s → step s a = some t → G s a t → I t ∧ P s a t) :
    ∀ {as : List A} {s : S}, I s → Along step G s as → Along step P s as
  | [], _, _, _ => trivial
  | _ :: _, s, hs, hg => fun t ht => by
    obtain ⟨hga, htail⟩ := hg t ht
    obtain ⟨hi, hp⟩ := hstep s _ t hs ht hga
    exact ⟨hp, along_of_guard hstep hi htail⟩

/-- Under an invariant that the guard keeps, a guard that says at each step what a relation
says is the relation along the run. -/
theorem along_iff_of_invariant
    (hstep : ∀ s a t, I s → step s a = some t → (G s a t → I t ∧ P s a t) ∧ (P s a t → G s a t)) :
    ∀ {as : List A} {s : S}, I s → (Along step G s as ↔ Along step P s as)
  | [], _, _ => Iff.rfl
  | a :: as, s, hs => by
    refine forall_congr' fun t => forall_congr' fun ht => ?_
    obtain ⟨hgp, hpg⟩ := hstep s a t hs ht
    constructor
    · rintro ⟨hg, htail⟩
      obtain ⟨hi, hp⟩ := hgp hg
      exact ⟨hp, (along_iff_of_invariant hstep hi).1 htail⟩
    · rintro ⟨hp, htail⟩
      have hg := hpg hp
      exact ⟨hg, (along_iff_of_invariant hstep (hgp hg).1).2 htail⟩

end Conductor.Runs
