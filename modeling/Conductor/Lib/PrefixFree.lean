import Mathlib.Data.List.Basic

/-! Words of which none goes on where another one ends. A text is a sequence of such words in one way
only, and a text that is cut inside a word is no sequence of them. -/

namespace Conductor.Words

variable {α : Type} {W : List α → Prop}

/-- At the beginning of one text stand two things that are equal if one is the beginning of the other. -/
theorem eq_of_append {E : Type} {f : E → List α} {a b : E} {r s : List α} (h : f a <+: f b → a = b) (h' : f b <+: f a → b = a)
    (heq : f a ++ r = f b ++ s) : a = b ∧ r = s := by
  have hab : a = b := by
    rcases List.prefix_or_prefix_of_prefix (List.prefix_append (f a) r) (heq ▸ List.prefix_append (f b) s) with hp | hp
    · exact h hp
    · exact (h' hp).symm
  subst hab
  exact ⟨rfl, List.append_cancel_left heq⟩

/-- Texts that go on behind a separator, up to an end without one. -/
theorem separated_injective {E : Type} {f : E → List α} {x : α} {r : List α} (hr : r.head? ≠ some x) :
    ∀ {as bs : List E}, (∀ a ∈ as, ∀ b ∈ bs, (f a <+: f b → a = b) ∧ (f b <+: f a → b = a)) →
      as.flatMap (fun a => x :: f a) ++ r = bs.flatMap (fun b => x :: f b) ++ r → as = bs := by
  intro as
  induction as with
  | nil =>
    intro bs _ heq
    cases bs with
    | nil => rfl
    | cons b bs =>
      have heq : r = x :: (f b ++ bs.flatMap (fun b => x :: f b) ++ r) := heq
      exact absurd (congrArg List.head? heq) hr
  | cons a as ih =>
    intro bs h heq
    cases bs with
    | nil =>
      have heq : x :: (f a ++ as.flatMap (fun a => x :: f a) ++ r) = r := heq
      exact absurd (congrArg List.head? heq).symm hr
    | cons b bs =>
      have heq : f a ++ (as.flatMap (fun a => x :: f a) ++ r) = f b ++ (bs.flatMap (fun b => x :: f b) ++ r) := by simpa using heq
      obtain ⟨hab, hba⟩ := h a List.mem_cons_self b List.mem_cons_self
      obtain ⟨rfl, hrest⟩ := eq_of_append hab hba heq
      exact congrArg _ (ih (fun a ha b hb => h a (List.mem_cons_of_mem _ ha) b (List.mem_cons_of_mem _ hb)) hrest)

/-- No word is the beginning of another one, and none is empty. -/
structure PrefixFree (W : List α → Prop) : Prop where
  eq_of_prefix : ∀ {a b}, W a → W b → a <+: b → a = b
  ne_nil : ∀ {a}, W a → a ≠ []

/-- Two words at the beginning of one text are the same. -/
theorem PrefixFree.head (h : PrefixFree W) {a b r s : List α} (ha : W a) (hb : W b) (heq : a ++ r = b ++ s) :
    a = b ∧ r = s :=
  eq_of_append (f := id) (h.eq_of_prefix ha hb) (h.eq_of_prefix hb ha) heq

/-- Words at the beginning of a sequence of words are its first ones. -/
theorem PrefixFree.split (h : PrefixFree W) {rest : List α} : ∀ {as bs : List (List α)}, (∀ a ∈ as, W a) →
    (∀ b ∈ bs, W b) → as.flatten ++ rest = bs.flatten → ∃ cs, bs = as ++ cs ∧ cs.flatten = rest := by
  intro as
  induction as with
  | nil =>
    intro bs _ _ heq
    exact ⟨bs, rfl, heq.symm⟩
  | cons a as ih =>
    intro bs has hbs heq
    obtain ⟨ha, has⟩ := List.forall_mem_cons.1 has
    cases bs with
    | nil =>
      rw [List.flatten_cons, List.flatten_nil, List.append_assoc] at heq
      exact absurd (List.append_eq_nil_iff.1 heq).1 (h.ne_nil ha)
    | cons b bs =>
      obtain ⟨hb, hrest⟩ := List.forall_mem_cons.1 hbs
      rw [List.flatten_cons, List.flatten_cons, List.append_assoc] at heq
      obtain ⟨rfl, htail⟩ := h.head ha hb heq
      obtain ⟨cs, rfl, hcs⟩ := ih has hrest htail
      exact ⟨cs, rfl, hcs⟩

/-- A sequence of words that is cut inside its last word. -/
theorem PrefixFree.cut (h : PrefixFree W) {as bs : List (List α)} {w p : List α} (has : ∀ a ∈ as, W a)
    (hbs : ∀ b ∈ bs, W b) (hw : W w) (hp : p <+: w) (hne : p ≠ w) (hpos : p ≠ []) :
    as.flatten ++ p ≠ bs.flatten := by
  intro heq
  obtain ⟨cs, rfl, rfl⟩ := h.split has hbs heq
  cases cs with
  | nil => exact hpos rfl
  | cons c cs =>
    have hc : W c := hbs c (by simp)
    have hcw : c = w := h.eq_of_prefix hc hw ((List.prefix_append c cs.flatten).trans hp)
    subst hcw
    exact hne (hp.eq_of_length_le (List.prefix_append c cs.flatten).length_le)

end Conductor.Words
