import Conductor.Lib.Checked

/-! Computations that do not fault, two side by side: both are rejected with the same error, or both give
values that are related. -/

namespace Conductor.Checked

variable {ε α α' β β' : Type}

def Related (R : α → α' → Prop) (r : Result ε α) (r' : Result ε α') : Prop :=
  (∃ e, r = .error (.rejected e) ∧ r' = .error (.rejected e)) ∨ ∃ a a', R a a' ∧ r = .ok a ∧ r' = .ok a'

variable {R : α → α' → Prop} {S : β → β' → Prop} {r : Result ε α} {r' : Result ε α'}

theorem related_ok {a : α} {a' : α'} (h : R a a') : Related R (.ok a : Result ε α) (.ok a') :=
  .inr ⟨a, a', h, rfl, rfl⟩

theorem related_rejected (e : ε) : Related R (.error (.rejected e)) (.error (.rejected e)) := .inl ⟨e, rfl, rfl⟩

theorem Related.bind {f : α → Result ε β} {f' : α' → Result ε β'} (h : Related R r r')
    (hf : ∀ a a', R a a' → Related S (f a) (f' a')) : Related S (r >>= f) (r' >>= f') := by
  rcases h with ⟨e, rfl, rfl⟩ | ⟨a, a', ha, rfl, rfl⟩
  · exact related_rejected e
  · exact hf a a' ha

/-- A check that both make. -/
theorem Related.unless {p : Prop} [Decidable p] {e : ε} {k : Unit → Result ε β} {k' : Unit → Result ε β'}
    (h : ¬ p → Related S (k ()) (k' ())) :
    Related S (if p then throw (.rejected e) >>= k else pure () >>= k)
      (if p then throw (.rejected e) >>= k' else pure () >>= k') := by
  by_cases hp : p
  · rw [if_pos hp, if_pos hp]
    exact related_rejected e
  · rw [if_neg hp, if_neg hp]
    exact h hp

end Conductor.Checked
