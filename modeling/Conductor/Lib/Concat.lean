import Mathlib.Data.List.Nodup

/-! Lists that grow at the end, one item at a time. -/

namespace Conductor

variable {α : Type*} {l : List α} {a b : α}

theorem mem_concat : a ∈ l ++ [b] ↔ a ∈ l ∨ a = b := by
  rw [List.mem_append, List.mem_singleton]

theorem forall_mem_concat {P : α → Prop} (h : ∀ x ∈ l, P x) (hb : P b) : ∀ x ∈ l ++ [b], P x := by
  intro x hx
  rcases mem_concat.1 hx with hx | rfl
  · exact h x hx
  · exact hb

theorem pairwise_concat {R : α → α → Prop} (h : l.Pairwise R) (hb : ∀ x ∈ l, R x b) : (l ++ [b]).Pairwise R := by
  refine List.pairwise_append.2 ⟨h, List.pairwise_singleton R b, fun x hx y hy => ?_⟩
  rw [List.mem_singleton.1 hy]
  exact hb x hx

theorem nodup_concat (h : l.Nodup) (hb : b ∉ l) : (l ++ [b]).Nodup :=
  pairwise_concat h fun _ hx heq => hb (heq ▸ hx)

theorem getElem?_concat {i : ℕ} (h : l[i]? = some a) : (l ++ [b])[i]? = some a := by
  rw [List.getElem?_append_left (List.getElem?_eq_some_iff.1 h).1, h]

end Conductor
