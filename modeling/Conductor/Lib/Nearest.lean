import Mathlib.Algebra.Order.Group.Abs
import Mathlib.Data.List.Pairwise
import Mathlib.Tactic.Common

/-! One pass over a list in time order that finds, for each of a growing sequence of
times, an element of the list nearest to it. A cursor holds the last element before the
time and the first one not before it. -/

namespace Conductor.Nearest

variable {α β : Type*} [LinearOrder α] (time : β → α)

structure Cursor (β : Type*) where
  before : Option β
  after : Option β
  rest : List β

def start : List β → Cursor β
  | [] => ⟨none, none, []⟩
  | b :: rest => ⟨none, some b, rest⟩

def advance (t : α) : Option β → Option β → List β → Cursor β
  | before, none, rest => ⟨before, none, rest⟩
  | before, some a, [] => if time a < t then ⟨some a, none, []⟩ else ⟨before, some a, []⟩
  | before, some a, b :: rest =>
    if time a < t then advance t (some a) (some b) rest else ⟨before, some a, b :: rest⟩

def Cursor.advance (c : Cursor β) (t : α) : Cursor β := Nearest.advance time t c.before c.after c.rest

/-- The cursor stands inside the list. -/
structure Placed (l : List β) (c : Cursor β) : Prop where
  split : ∃ passed, l = passed ++ c.before.toList ++ c.after.toList ++ c.rest ∧
    (c.before = none → passed = [])
  rest : c.after = none → c.rest = []

/-- The cursor surrounds a time. -/
structure Around (c : Cursor β) (t : α) : Prop where
  before : ∀ b, c.before = some b → time b < t
  after : ∀ a, c.after = some a → t ≤ time a

variable {time}

theorem placed_start (l : List β) : Placed l (start l) := by
  cases l with
  | nil => exact ⟨⟨[], rfl, fun _ => rfl⟩, fun _ => rfl⟩
  | cons b rest => exact ⟨⟨[], rfl, fun _ => rfl⟩, nofun⟩

theorem placed_advance {l : List β} (t : α) {before after : Option β} {rest : List β}
    (h : Placed l ⟨before, after, rest⟩) : Placed l (advance time t before after rest) := by
  induction before, after, rest using advance.induct time t with
  | case1 before rest => simpa [advance] using h
  | case2 before a ht =>
    obtain ⟨passed, hl, -⟩ := h.split
    simp only [advance, ht, ↓reduceIte]
    exact ⟨⟨passed ++ before.toList, by simpa using hl, nofun⟩, fun _ => rfl⟩
  | case3 before a ht => simpa [advance, ht] using h
  | case4 before a b rest ht ih =>
    simp only [advance, ht, ↓reduceIte]
    refine ih ?_
    obtain ⟨passed, hl, -⟩ := h.split
    exact ⟨⟨passed ++ before.toList, by simpa using hl, nofun⟩, nofun⟩
  | case5 before a b rest ht => simpa [advance, ht] using h

theorem around_advance {t : α} {before after : Option β} {rest : List β}
    (h : ∀ b, before = some b → time b < t) : Around time (advance time t before after rest) t := by
  induction before, after, rest using advance.induct time t with
  | case1 before rest => exact ⟨by simpa [advance] using h, by simp [advance]⟩
  | case2 before a ht =>
    simp only [advance, ht, ↓reduceIte]
    exact ⟨by simpa using ht, nofun⟩
  | case3 before a ht =>
    simp only [advance, ht, ↓reduceIte]
    exact ⟨h, by simpa using ht⟩
  | case4 before a b rest ht ih =>
    simp only [advance, ht, ↓reduceIte]
    exact ih (by simpa using ht)
  | case5 before a b rest ht =>
    simp only [advance, ht, ↓reduceIte]
    exact ⟨h, by simpa using ht⟩

variable [AddCommGroup α]

variable (time) in
/-- The nearer of the two elements, and the earlier one when they are equally near. -/
def Cursor.choose (c : Cursor β) (t : α) : Option β :=
  match c.before, c.after with
  | none, after => after
  | some b, none => some b
  | some b, some a => if |time b - t| ≤ |time a - t| then some b else some a

variable [IsOrderedAddMonoid α]

/-- The last element before a time and the first one after it are nearer than all others. -/
theorem choose_nearest {l : List β} (hl : l.Pairwise fun a b => time a ≤ time b) {c : Cursor β} {t : α}
    (hp : Placed l c) (ha : Around time c t) (hne : l ≠ []) :
    ∃ s ∈ l, c.choose time t = some s ∧ ∀ s' ∈ l, |time s - t| ≤ |time s' - t| := by
  obtain ⟨before, after, rest⟩ := c
  obtain ⟨⟨passed, rfl, hpassed⟩, hrest⟩ := hp
  have hbefore : ∀ b, before = some b → ∀ s' ∈ passed ++ before.toList, |time b - t| ≤ |time s' - t| := by
    rintro b rfl s' hs'
    have hb := ha.before b rfl
    have hle : time s' ≤ time b := by
      rcases List.mem_append.1 hs' with hs' | hs'
      · simp only [Option.toList_some, List.append_assoc] at hl
        exact (List.pairwise_append.1 hl).2.2 s' hs' b (by simp)
      · simp only [Option.toList_some, List.mem_singleton] at hs'
        rw [hs']
    rw [abs_of_nonpos (sub_nonpos.2 hb.le), abs_of_nonpos (sub_nonpos.2 (hle.trans hb.le)), neg_sub, neg_sub]
    exact sub_le_sub_left hle t
  have hafter : ∀ a, after = some a → ∀ s' ∈ after.toList ++ rest, |time a - t| ≤ |time s' - t| := by
    rintro a rfl s' hs'
    have ht := ha.after a rfl
    have hle : time a ≤ time s' := by
      rcases List.mem_append.1 hs' with hs' | hs'
      · simp only [Option.toList_some, List.mem_singleton] at hs'
        rw [hs']
      · exact (List.pairwise_append.1 hl).2.2 a (by simp) s' hs'
    rw [abs_of_nonneg (sub_nonneg.2 ht), abs_of_nonneg (sub_nonneg.2 (ht.trans hle))]
    exact sub_le_sub_right hle t
  have hsides : ∀ s' ∈ passed ++ before.toList ++ after.toList ++ rest,
      s' ∈ passed ++ before.toList ∨ s' ∈ after.toList ++ rest := by
    intro s' hs'
    simpa only [List.append_assoc, List.mem_append, or_assoc] using hs'
  cases before with
  | none =>
    obtain rfl := hpassed rfl
    cases after with
    | none =>
      obtain rfl : rest = [] := hrest rfl
      simp at hne
    | some a =>
      refine ⟨a, by simp, rfl, fun s' hs' => ?_⟩
      exact hafter a rfl s' (by simpa using hs')
  | some b =>
    cases after with
    | none =>
      obtain rfl : rest = [] := hrest rfl
      refine ⟨b, by simp, rfl, fun s' hs' => ?_⟩
      exact hbefore b rfl s' (by simpa using hs')
    | some a =>
      by_cases hnear : |time b - t| ≤ |time a - t|
      · refine ⟨b, by simp, by simp [Cursor.choose, hnear], fun s' hs' => ?_⟩
        rcases hsides s' hs' with hs' | hs'
        · exact hbefore b rfl s' hs'
        · exact hnear.trans (hafter a rfl s' hs')
      · refine ⟨a, by simp, by simp [Cursor.choose, hnear], fun s' hs' => ?_⟩
        rcases hsides s' hs' with hs' | hs'
        · exact (not_le.1 hnear).le.trans (hbefore b rfl s' hs')
        · exact hafter a rfl s' hs'

end Conductor.Nearest
