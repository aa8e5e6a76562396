import Mathlib.Data.List.TakeWhile
import Mathlib.Algebra.Order.Group.Nat

/-! The position of a key in an ordered list, as a binary search finds it and as the
length of the prefix below the key. `above a` says that the key is below the element
`a`; in an ordered list it holds from some position on. -/

namespace Conductor.Bisect

variable {α : Type*} (above : α → Bool)

/-- The loop of `bisect_right` between two positions. -/
def bisect (l : List α) (lo hi : ℕ) : ℕ :=
  if _h : lo < hi then
    match l[(lo + hi) / 2]? with
    | none => lo
    | some a => if above a then bisect l lo ((lo + hi) / 2) else bisect l ((lo + hi) / 2 + 1) hi
  else lo
termination_by hi - lo

def bisectRight (l : List α) : ℕ := bisect above l 0 l.length

/-- The index of the first element above the key. -/
def partitionPoint (l : List α) : ℕ := (l.takeWhile (!above ·)).length

/-- Once an element is above the key, so are all that follow it. -/
def Partitioned (l : List α) : Prop := l.Pairwise fun a b => above a = true → above b = true

variable {above}

theorem partitionPoint_le (l : List α) : partitionPoint above l ≤ l.length :=
  (List.takeWhile_prefix _).length_le

variable {l : List α}

theorem below_partitionPoint {i : ℕ} {a : α} (hi : l[i]? = some a)
    (hlt : i < partitionPoint above l) : above a = false := by
  obtain ⟨h, rfl⟩ := List.getElem?_eq_some_iff.1 hi
  have hmem : l[i] ∈ l.takeWhile (!above ·) := by
    rw [(List.takeWhile_prefix (l := l) (!above ·)).getElem hlt |>.symm]
    exact List.getElem_mem hlt
  simpa using List.mem_takeWhile_imp hmem

theorem above_partitionPoint (hl : Partitioned above l) {i : ℕ} {a : α}
    (hi : l[i]? = some a) (hle : partitionPoint above l ≤ i) : above a = true := by
  induction l generalizing i with
  | nil => simp at hi
  | cons b l ih =>
    obtain ⟨hhead, htail⟩ := List.pairwise_cons.1 hl
    by_cases hb : above b = true
    · cases i with
      | zero => simpa [← Option.some.inj hi] using hb
      | succ i =>
        rw [List.getElem?_cons_succ] at hi
        exact hhead a (List.mem_of_getElem? hi) hb
    · have hp : partitionPoint above (b :: l) = partitionPoint above l + 1 := by
        simp [partitionPoint, hb]
      cases i with
      | zero => omega
      | succ i =>
        rw [List.getElem?_cons_succ] at hi
        exact ih htail hi (by omega)

theorem bisect_eq (hl : Partitioned above l) {lo hi : ℕ}
    (hlo : lo ≤ partitionPoint above l) (hhi : partitionPoint above l ≤ hi) (hlen : hi ≤ l.length) :
    bisect above l lo hi = partitionPoint above l := by
  unfold bisect
  split
  · next hlt =>
    obtain ⟨a, ha⟩ : ∃ a, l[(lo + hi) / 2]? = some a :=
      ⟨_, List.getElem?_eq_getElem (by omega : (lo + hi) / 2 < l.length)⟩
    simp only [ha]
    split
    · next habove =>
      have hmid : partitionPoint above l ≤ (lo + hi) / 2 := by
        by_contra hmid
        have hbelow : above a = false := below_partitionPoint ha (by omega)
        rw [hbelow] at habove
        cases habove
      exact bisect_eq hl hlo hmid (by omega)
    · next hbelow =>
      have hmid : (lo + hi) / 2 < partitionPoint above l := by
        by_contra hmid
        exact hbelow (above_partitionPoint hl ha (by omega))
      exact bisect_eq hl hmid hhi hlen
  · omega
termination_by hi - lo

theorem bisectRight_eq (hl : Partitioned above l) : bisectRight above l = partitionPoint above l :=
  bisect_eq hl (Nat.zero_le _) (partitionPoint_le l) le_rfl

theorem partitionPoint_map {β : Type*} (f : β → α) (l : List β) :
    partitionPoint above (l.map f) = partitionPoint (above ∘ f) l := by
  simp only [partitionPoint, List.takeWhile_map, List.length_map]
  rfl

end Conductor.Bisect
