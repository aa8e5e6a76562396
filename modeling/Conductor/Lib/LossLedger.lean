import Mathlib.Order.Interval.Finset.Nat
import Conductor.Lib.Concat

/-! A lossy channel that reports its losses in band. Numbered items are offered one
after another; an offer is accepted or rejected, and an accepted item carries the
number of offers rejected since the accepted item before it. On a ledger of
increasing numbers the count that an item carries is the number of rejected offers
between it and its predecessor, and what is left of the gap between the two numbers
was never offered. -/

namespace Conductor.LossLedger

structure Offer (α : Type*) where
  item : α
  accepted : Bool

variable {α : Type*} (number : α → ℕ)

def taken (offers : List (Offer α)) : List α := (offers.filter (·.accepted)).map (·.item)

/-- The rejections since the last accepted offer. -/
def pending (offers : List (Offer α)) : ℕ := (offers.reverse.takeWhile (!·.accepted)).length

def Increasing (offers : List (Offer α)) : Prop :=
  offers.Pairwise fun a b => number a.item < number b.item

/-- The rejected offers with a number below `n` and above `last`. -/
def rejectedBetween (offers : List (Offer α)) (last : Option ℕ) (n : ℕ) : ℕ :=
  offers.countP fun o => !o.accepted && last.all (· < number o.item) && decide (number o.item < n)

/-- The numbers strictly between `last` and `n` that were not offered. -/
def skippedBetween (offers : List (Offer α)) (last n : ℕ) : Finset ℕ :=
  (Finset.Ioo last n).filter (· ∉ offers.map fun o => number o.item)

/-- Every item carries the rejections pending when it was offered. -/
inductive Carries (carried : α → ℕ) : List (Offer α) → Prop
  | nil : Carries carried []
  | snoc {offers : List (Offer α)} {o : Offer α} (h : Carries carried offers)
      (ho : carried o.item = pending offers) : Carries carried (offers ++ [o])

@[simp] theorem taken_append (xs ys : List (Offer α)) : taken (xs ++ ys) = taken xs ++ taken ys := by
  simp [taken]

@[simp] theorem taken_accepted (x : α) : taken [⟨x, true⟩] = [x] := rfl

@[simp] theorem taken_rejected (x : α) : taken [⟨x, false⟩] = [] := rfl

@[simp] theorem pending_accepted (offers : List (Offer α)) (x : α) : pending (offers ++ [⟨x, true⟩]) = 0 := by
  simp [pending]

@[simp] theorem pending_rejected (offers : List (Offer α)) (x : α) :
    pending (offers ++ [⟨x, false⟩]) = pending offers + 1 := by
  simp [pending]

variable {offers : List (Offer α)} {x : α} {xs ys : List α}

theorem mem_of_mem_taken (h : x ∈ taken offers) : ⟨x, true⟩ ∈ offers := by
  obtain ⟨o, ho, rfl⟩ := List.mem_map.1 h
  obtain ⟨hmem, hacc⟩ := List.mem_filter.1 ho
  rwa [← hacc]

variable {number}

variable {o : Offer α}

theorem Increasing.append (h : Increasing number offers)
    (ho : ∀ p ∈ offers, number p.item < number o.item) : Increasing number (offers ++ [o]) :=
  List.pairwise_append.2 ⟨h, List.pairwise_singleton _ _, by simpa using ho⟩

theorem Increasing.of_append (h : Increasing number (offers ++ [o])) :
    Increasing number offers ∧ ∀ p ∈ offers, number p.item < number o.item := by
  obtain ⟨hl, -, hlt⟩ := List.pairwise_append.1 h
  exact ⟨hl, fun p hp => hlt p hp o List.mem_cons_self⟩

theorem Increasing.taken (h : Increasing number offers) : (taken offers).Pairwise fun a b => number a < number b :=
  List.pairwise_map.2 (h.filter _)

/-! ### Offers made later -/

theorem rejectedBetween_append_of_le {last : Option ℕ} {n : ℕ}
    (h : n ≤ number o.item) : rejectedBetween number (offers ++ [o]) last n = rejectedBetween number offers last n := by
  have ho : decide (number o.item < n) = false := by simpa using h
  simp [rejectedBetween, List.countP_append, ho]

theorem skippedBetween_append_of_le {last n : ℕ}
    (h : n ≤ number o.item) : skippedBetween number (offers ++ [o]) last n = skippedBetween number offers last n := by
  refine Finset.filter_congr fun m hm => ?_
  have hmn : m < n := (Finset.mem_Ioo.1 hm).2
  have hne : m ≠ number o.item := by omega
  simp [hne]

/-! ### What an item carries -/

/-- The pending count is the number of rejections after the last accepted item. -/
theorem pending_eq_rejectedBetween (h : Increasing number offers) {n : ℕ} (hn : ∀ o ∈ offers, number o.item < n) :
    pending offers = rejectedBetween number offers ((taken offers).getLast?.map number) n := by
  induction offers using List.reverseRecOn with
  | nil => rfl
  | append_singleton offers o ih =>
    obtain ⟨hinc, hlt⟩ := h.of_append
    have hnum : ∀ p ∈ offers, number p.item < n := fun p hp => hn p (List.mem_append_left _ hp)
    have hon : number o.item < n := hn o (by simp)
    obtain ⟨x, accepted⟩ := o
    cases accepted with
    | true =>
      simp only [pending_accepted, taken_append, taken_accepted, List.getLast?_concat, Option.map_some]
      symm
      rw [rejectedBetween, List.countP_eq_zero]
      intro p hp
      have hp' : ¬number x < number p.item ∨ p.accepted = true := by
        rcases mem_concat.1 hp with hp | hp
        · exact Or.inl (Nat.lt_asymm (hlt p hp))
        · exact Or.inr (by rw [hp])
      rcases hp' with hp' | hp' <;> simp [hp']
    | false =>
      have hlast : ((taken offers).getLast?.map number).all (· < number x) = true := by
        rw [Option.all_eq_true]
        intro m hm
        obtain ⟨y, hy, rfl⟩ := Option.map_eq_some_iff.1 hm
        simpa using hlt _ (mem_of_mem_taken (List.mem_of_getLast? hy))
      simp only [pending_rejected, taken_append, taken_rejected, List.append_nil]
      rw [ih hinc hnum, rejectedBetween, rejectedBetween, List.countP_append]
      simp [hlast, hon]

/-- What an accepted item carries is the number of rejected offers between it and the
accepted item before it. -/
theorem carried_eq_rejectedBetween {carried : α → ℕ} (hc : Carries carried offers)
    (h : Increasing number offers) (hsplit : taken offers = xs ++ x :: ys) :
    carried x = rejectedBetween number offers (xs.getLast?.map number) (number x) := by
  induction hc generalizing ys with
  | nil => simp [taken] at hsplit
  | @snoc offers o hc ho ih =>
    obtain ⟨hinc, hlt⟩ := h.of_append
    have hkeep : x ∈ taken offers → rejectedBetween number (offers ++ [o]) (xs.getLast?.map number) (number x) =
        rejectedBetween number offers (xs.getLast?.map number) (number x) := fun hx =>
      rejectedBetween_append_of_le (Nat.le_of_lt (hlt _ (mem_of_mem_taken hx)))
    obtain ⟨y, accepted⟩ := o
    cases accepted with
    | false =>
      rw [taken_append, taken_rejected, List.append_nil] at hsplit
      rw [hkeep (by simp [hsplit])]
      exact ih hinc hsplit
    | true =>
      rw [taken_append, taken_accepted] at hsplit
      rcases List.eq_nil_or_concat ys with rfl | ⟨zs, z, rfl⟩
      · -- the item is the new offer: nothing was accepted after its predecessor
        obtain ⟨rfl, hx⟩ := List.append_inj' hsplit rfl
        obtain rfl : y = x := by simpa using hx
        rw [rejectedBetween_append_of_le (Nat.le_refl _)]
        exact ho.trans (pending_eq_rejectedBetween hinc hlt)
      · rw [List.concat_eq_append, ← List.cons_append, ← List.append_assoc] at hsplit
        obtain ⟨hold, -⟩ := List.append_inj' hsplit rfl
        rw [hkeep (by simp [hold])]
        exact ih hinc hold

/-! ### The gap -/

/-- The numbers offered strictly between two successive accepted items. -/
theorem offered_between (h : Increasing number offers) {l : α}
    (hsplit : taken offers = xs ++ x :: ys) (hl : xs.getLast? = some l) :
    ((Finset.Ioo (number l) (number x)).filter (· ∈ offers.map fun o => number o.item)).card =
      rejectedBetween number offers (some (number l)) (number x) := by
  have hsorted := hsplit ▸ h.taken
  obtain ⟨hxs, hys, hlt⟩ := List.pairwise_append.1 hsorted
  -- an accepted offer lies at or below `l`, or at or above `x`
  have hout : ∀ o ∈ offers, o.accepted = true → number l < number o.item → ¬number o.item < number x := by
    intro o ho hacc hlo hox
    have hmem : o.item ∈ xs ++ x :: ys := hsplit ▸ List.mem_map_of_mem (List.mem_filter.2 ⟨ho, hacc⟩)
    rcases List.mem_append.1 hmem with hm | hm
    · obtain ⟨zs, rfl⟩ := List.getLast?_eq_some_iff.1 hl
      rcases mem_concat.1 hm with hm | hm
      · exact Nat.lt_asymm hlo ((List.pairwise_append.1 hxs).2.2 _ hm l List.mem_cons_self)
      · exact Nat.lt_irrefl _ (by rwa [hm] at hlo)
    · rcases List.mem_cons.1 hm with hm | hm
      · exact Nat.lt_irrefl _ (by rwa [hm] at hox)
      · exact Nat.lt_asymm hox (List.rel_of_pairwise_cons hys hm)
  have hnodup : ((offers.filter fun o => !o.accepted && decide (number l < number o.item) &&
      decide (number o.item < number x)).map fun o => number o.item).Nodup :=
    List.pairwise_map.2 ((h.filter _).imp fun hab => Nat.ne_of_lt hab)
  rw [rejectedBetween, List.countP_eq_length_filter]
  simp only [Option.all_some]
  rw [← List.length_map (fun o : Offer α => number o.item), ← List.toFinset_card_of_nodup hnodup]
  congr 1
  ext m
  simp only [Finset.mem_filter, Finset.mem_Ioo, List.mem_toFinset, List.mem_map, List.mem_filter,
    Bool.and_eq_true, Bool.not_eq_true', decide_eq_true_eq]
  constructor
  · rintro ⟨⟨h1, h2⟩, o, ho, rfl⟩
    have hrej : o.accepted = false := by
      by_contra hacc
      exact hout o ho (by simpa using hacc) h1 h2
    exact ⟨o, ⟨ho, ⟨hrej, h1⟩, h2⟩, rfl⟩
  · rintro ⟨o, ⟨ho, ⟨-, h1⟩, h2⟩, rfl⟩
    exact ⟨⟨h1, h2⟩, o, ho, rfl⟩

/-- The gap between two successive accepted items is made of rejected and skipped numbers. -/
theorem gap_eq (h : Increasing number offers) {l : α}
    (hsplit : taken offers = xs ++ x :: ys) (hl : xs.getLast? = some l) :
    number l < number x ∧ number x - number l - 1 = rejectedBetween number offers (some (number l)) (number x) +
        (skippedBetween number offers (number l) (number x)).card := by
  have hsorted := hsplit ▸ h.taken
  have hlt : number l < number x :=
    (List.pairwise_append.1 hsorted).2.2 l (List.mem_of_getLast? hl) x List.mem_cons_self
  refine ⟨hlt, ?_⟩
  rw [← offered_between h hsplit hl, skippedBetween, Finset.card_filter_add_card_filter_not]
  simp [Nat.card_Ioo]

/-- Fewer than `n` numbers lie below `n`. -/
theorem rejectedBetween_le (h : Increasing number offers) (last : Option ℕ) (n : ℕ) :
    rejectedBetween number offers last n ≤ n := by
  have hnodup : ((offers.filter fun o => !o.accepted && last.all (· < number o.item) &&
      decide (number o.item < n)).map fun o => number o.item).Nodup :=
    List.pairwise_map.2 ((h.filter _).imp fun hab => Nat.ne_of_lt hab)
  rw [rejectedBetween, List.countP_eq_length_filter, ← List.length_map (fun o : Offer α => number o.item),
    ← List.toFinset_card_of_nodup hnodup]
  refine (Finset.card_le_card fun m hm => ?_).trans_eq (Finset.card_range n)
  simp only [List.mem_toFinset, List.mem_map, List.mem_filter, Bool.and_eq_true, decide_eq_true_eq] at hm
  obtain ⟨o, ⟨-, -, ho⟩, rfl⟩ := hm
  exact Finset.mem_range.2 ho

end Conductor.LossLedger
