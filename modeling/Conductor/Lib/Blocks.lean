import Mathlib.Algebra.Order.Group.Nat
import Conductor.Lib.Concat

/-! A sequence cut into blocks of one size. `Cut n blocks rest content` says that the full
blocks and then the rest are the content, and that the rest is short of a block. There is one
such cut, so two ways of reading the same content have written the same blocks. -/

namespace Conductor.Blocks

variable {α : Type*} {n : ℕ} {blocks blocks' : List (List α)} {rest rest' content data : List α}

structure Cut (n : ℕ) (blocks : List (List α)) (rest content : List α) : Prop where
  full : ∀ b ∈ blocks, b.length = n
  short : rest.length < n
  content : content = blocks.flatten ++ rest

theorem Cut.nil (hn : 0 < n) : Cut n ([] : List (List α)) [] [] :=
  ⟨by simp, by simpa using hn, rfl⟩

/-- More data that leaves the rest short. -/
theorem Cut.extend (h : Cut n blocks rest content) (hlt : (rest ++ data).length < n) :
    Cut n blocks (rest ++ data) (content ++ data) :=
  ⟨h.full, hlt, by rw [h.content, List.append_assoc]⟩

/-- More data that makes the rest a block. -/
theorem Cut.close (h : Cut n blocks rest content) (hn : 0 < n) (hlen : (rest ++ data).length = n) :
    Cut n (blocks ++ [rest ++ data]) [] (content ++ data) := by
  refine ⟨fun b hb => ?_, by simpa using hn, ?_⟩
  · rcases mem_concat.1 hb with hb | rfl
    · exact h.full b hb
    · rw [hlen]
  · rw [h.content]
    simp

theorem Cut.unique (h : Cut n blocks rest content) (h' : Cut n blocks' rest' content) :
    blocks = blocks' ∧ rest = rest' := by
  induction blocks generalizing blocks' content with
  | nil =>
    have heq : rest = blocks'.flatten ++ rest' := by rw [← h'.content, h.content]; rfl
    cases blocks' with
    | nil => exact ⟨rfl, heq⟩
    | cons b bs =>
      have hb := h'.full b (List.mem_cons_self ..)
      have hshort := h.short
      rw [heq] at hshort
      simp only [List.flatten_cons, List.length_append] at hshort
      omega
  | cons b bs ih =>
    have heq : b ++ (bs.flatten ++ rest) = blocks'.flatten ++ rest' := by
      rw [← h'.content, h.content, List.flatten_cons, List.append_assoc]
    have hb := h.full b (List.mem_cons_self ..)
    cases blocks' with
    | nil =>
      have hshort := h'.short
      rw [List.flatten_nil, List.nil_append] at heq
      rw [← heq, List.length_append] at hshort
      omega
    | cons b' bs' =>
      have hb' := h'.full b' (List.mem_cons_self ..)
      rw [List.flatten_cons, List.append_assoc] at heq
      obtain ⟨rfl, htail⟩ := List.append_inj heq (by rw [hb, hb'])
      have hcut : Cut n bs rest (bs.flatten ++ rest) :=
        ⟨fun c hc => h.full c (List.mem_cons_of_mem _ hc), h.short, rfl⟩
      have hcut' : Cut n bs' rest' (bs.flatten ++ rest) :=
        ⟨fun c hc => h'.full c (List.mem_cons_of_mem _ hc), h'.short, htail⟩
      obtain ⟨rfl, rfl⟩ := ih hcut hcut'
      exact ⟨rfl, rfl⟩

/-- The blocks and then the rest, when there is one. -/
def closed (blocks : List (List α)) (rest : List α) : List (List α) :=
  if rest = [] then blocks else blocks ++ [rest]

theorem Cut.flatten_closed (h : Cut n blocks rest content) : (closed blocks rest).flatten = content := by
  unfold closed
  split
  · next hrest => rw [h.content, hrest, List.append_nil]
  · rw [h.content, List.flatten_append, List.flatten_singleton]

theorem Cut.length_le (h : Cut n blocks rest content) : ∀ b ∈ closed blocks rest, b.length ≤ n := by
  intro b hb
  unfold closed at hb
  split at hb
  · exact (h.full b hb).le
  · rcases mem_concat.1 hb with hb | rfl
    · exact (h.full b hb).le
    · exact h.short.le

theorem Cut.closed_of_nil (h : Cut n blocks rest []) (hn : 0 < n) : closed blocks rest = [] := by
  obtain ⟨rfl, rfl⟩ := h.unique (Cut.nil hn)
  rfl

end Conductor.Blocks
