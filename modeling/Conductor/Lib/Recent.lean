import Mathlib.Data.List.Basic

/-! The last entries of a list that only grows: what a queue of bounded length keeps of what was
put into it. -/

namespace Conductor.Recent

variable {α : Type*}

/-- The last `capacity` entries. -/
def recent (capacity : ℕ) (l : List α) : List α := l.drop (l.length - capacity)

/-- What a queue of bounded length does with a new entry. -/
def pushBounded (capacity : ℕ) (l : List α) (x : α) : List α := (l ++ [x]).drop (l.length + 1 - capacity)

theorem recent_nil (capacity : ℕ) : recent capacity ([] : List α) = [] := by simp [recent]

theorem length_recent (capacity : ℕ) (l : List α) : (recent capacity l).length = min capacity l.length := by
  rw [recent, List.length_drop]
  omega

theorem recent_push (capacity : ℕ) (l : List α) (x : α) :
    pushBounded capacity (recent capacity l) x = recent capacity (l ++ [x]) := by
  have hlength := length_recent capacity l
  rw [pushBounded, hlength, recent, recent]
  have happend : l.drop (l.length - capacity) ++ [x] = (l ++ [x]).drop (l.length - capacity) :=
    (List.drop_append_of_le_length (by omega)).symm
  rw [happend, List.drop_drop, List.length_append, List.length_singleton]
  congr 1
  omega

/-- Where an entry of the list is found in what is kept of it. -/
theorem getElem?_recent (capacity : ℕ) (l : List α) (i : ℕ) :
    (recent capacity l)[i]? = l[l.length - capacity + i]? := by
  rw [recent, List.getElem?_drop]

end Conductor.Recent
