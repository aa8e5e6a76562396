import Conductor.Capture.Cadence
import Mathlib.Algebra.Order.Archimedean.Basic

/-! One accepted timestamp takes the batch statistics of a list to those of the list with the
timestamp behind it; a rejected one changes nothing. -/

namespace Conductor.Capture.Cadence

open Recent Moments

/-! ### Intervals and rates of a list with one more timestamp -/

variable {a : ℤ} {l : List ℤ}

theorem intervals_append (h : l.getLast? = some a) (b : ℤ) : intervals (l ++ [b]) = intervals l ++ [b - a] := by
  induction l with
  | nil => simp at h
  | cons x xs ih =>
    cases xs with
    | nil =>
      obtain rfl : x = a := by simpa using h
      rfl
    | cons y ys =>
      rw [List.getLast?_cons_cons] at h
      rw [List.cons_append, List.cons_append, intervals, ← List.cons_append, ih h]
      rfl

theorem length_intervals (h : l ≠ []) : (intervals l).length + 1 = l.length := by
  induction l with
  | nil => exact absurd rfl h
  | cons x xs ih =>
    cases xs with
    | nil => rfl
    | cons y ys =>
      have := ih (by simp)
      rw [intervals, List.length_cons, this]
      rfl

/-- Short of a full window there is no rate. -/
theorem rates_nil {w : ℕ} (h : l.length ≤ w) : rates w l = [] := by
  rw [rates, List.drop_eq_nil_of_le h, List.zipWith_nil_right]

/-- One more element of the shorter list meets the next one of the longer. -/
theorem zipWith_snoc {α β γ : Type} (f : α → β → γ) {l : List α} {m : List β} {a : α} (h : l[m.length]? = some a)
    (tail : List α) (b : β) : List.zipWith f (l ++ tail) (m ++ [b]) = List.zipWith f l m ++ [f a b] := by
  induction m generalizing l with
  | nil =>
    cases l with
    | nil => simp at h
    | cons x xs =>
      obtain rfl : x = a := by simpa using h
      simp
  | cons y ys ih =>
    cases l with
    | nil => simp at h
    | cons x xs =>
      rw [List.length_cons, List.getElem?_cons_succ] at h
      simp only [List.cons_append, List.zipWith_cons_cons, ih h]

theorem rates_append {w : ℕ} (hle : w ≤ l.length) (h : l[l.length - w]? = some a) (b : ℤ) :
    rates w (l ++ [b]) = rates w l ++ [w * 1000000000 / ((b - a : ℤ) : ℚ)] := by
  rw [rates, rates, List.drop_append_of_le_length hle]
  exact zipWith_snoc _ (by rwa [List.length_drop]) [b] b

/-! ### One timestamp -/

theorem extreme_min {α : Type} [LinearOrder α] (l : List α) (x : α) : extreme min l.min? x = (l ++ [x]).min? := by
  rw [min?_append]
  cases l.min? <;> rfl

theorem extreme_max {α : Type} [LinearOrder α] (l : List α) (x : α) : extreme max l.max? x = (l ++ [x]).max? := by
  rw [max?_append]
  cases l.max? <;> rfl

theorem spans_append (h : l.getLast? = some a) (b : ℤ) : spans (l ++ [b]) = spans l ++ [((b - a : ℤ) : ℚ)] := by
  rw [spans, intervals_append h, List.map_append]
  rfl

theorem over_append (fps limit : ℚ) (h : l.getLast? = some a) (b : ℤ) : overBy fps limit (l ++ [b]) =
      overBy fps limit l + (decide (limit < |((b - a : ℤ) : ℚ) - 1000000000 / fps|)).toNat := by
  rw [overBy, intervals_append h, List.countP_append, overBy, List.countP_singleton]
  by_cases hlt : limit < |((b - a : ℤ) : ℚ) - 1000000000 / fps|
  · rw [if_pos (decide_eq_true hlt), decide_eq_true hlt]
    rfl
  · rw [if_neg (by simpa using hlt), decide_eq_false hlt]
    rfl

/-- The state between the two halves of `observe`: the intervals count the new timestamp, the
window and the ends do not. -/
def measured (fps : ℚ) (l : List ℤ) (b : ℤ) : Cadence :=
  { batch fps (l ++ [b]) with
    count := l.length
    first := l.head?
    last := l.getLast?
    window := recent (⌈fps⌉₊ + 1) l
    windowMin := (rates ⌈fps⌉₊ l).min?
    windowMax := (rates ⌈fps⌉₊ l).max? }

theorem measure_batch (fps : ℚ) (h : l.getLast? = some a) (b : ℤ) :
    (batch fps l).measure (b - a) = measured fps l b := by
  have hne : l ≠ [] := by
    rintro rfl
    simp at h
  have hcount : l.length = (spans l).length + 1 := by rw [spans, List.length_map, length_intervals hne]
  have hspans := spans_append h b
  have hmean : Moments.mean (spans (l ++ [b])) =
      Moments.mean (spans l) + (((b - a : ℤ) : ℚ) - Moments.mean (spans l)) / l.length := by
    rw [hspans, mean_append, hcount]
  have hm2 := deviation_append (spans l) ((b - a : ℤ) : ℚ)
  rw [← hspans, hmean] at hm2
  have herror : ((spans (l ++ [b])).map fun span => |span - 1000000000 / fps|).foldl max 0 =
      max (((spans l).map fun span => |span - 1000000000 / fps|).foldl max 0) |((b - a : ℤ) : ℚ) - 1000000000 / fps| := by
    rw [hspans, List.map_append, List.foldl_append]
    rfl
  unfold measure measured batch
  simp only [hmean, hm2, herror, extreme_min, extreme_max, over_append fps _ h b, intervals_append h]

theorem append_measured {fps : ℚ} (hfps : 0 < fps) (l : List ℤ) (b : ℤ) {first : Option ℤ}
    (hfirst : first = (l ++ [b]).head?) : { measured fps l b with first := first }.append b = batch fps (l ++ [b]) := by
  have hw : 0 < ⌈fps⌉₊ := Nat.ceil_pos.2 hfps
  have hwindow : pushBounded (⌈fps⌉₊ + 1) (recent (⌈fps⌉₊ + 1) l) b = recent (⌈fps⌉₊ + 1) (l ++ [b]) :=
    recent_push _ _ _
  have hlength : (recent (⌈fps⌉₊ + 1) (l ++ [b])).length = min (⌈fps⌉₊ + 1) (l.length + 1) := by
    rw [length_recent, List.length_append, List.length_singleton]
  unfold append
  simp only [measured, batch, hwindow, hlength]
  by_cases hfull : ⌈fps⌉₊ ≤ l.length
  · have ha : ∃ a, l[l.length - ⌈fps⌉₊]? = some a := ⟨_, List.getElem?_eq_getElem (by omega)⟩
    obtain ⟨a, ha⟩ := ha
    have hhead : (recent (⌈fps⌉₊ + 1) (l ++ [b])).head? = some a := by
      rw [List.head?_eq_getElem?, getElem?_recent, List.length_append, List.length_singleton,
        List.getElem?_append_left (by omega), show l.length + 1 - (⌈fps⌉₊ + 1) + 0 = l.length - ⌈fps⌉₊ by omega, ha]
    have hlast : (recent (⌈fps⌉₊ + 1) (l ++ [b])).getLast? = some b := by
      rw [recent, List.getLast?_drop, if_neg (by rw [List.length_append, List.length_singleton]; omega)]
      exact List.getLast?_concat
    have hrate : rates ⌈fps⌉₊ (l ++ [b]) = rates ⌈fps⌉₊ l ++ [⌈fps⌉₊ * 1000000000 / ((b - a : ℤ) : ℚ)] :=
      rates_append hfull ha b
    rw [if_pos (by omega)]
    simp only [windowRate, hhead, hlast, extreme_min, extreme_max, hrate]
    simp [hfirst]
  · have hshort : ¬ min (⌈fps⌉₊ + 1) (l.length + 1) = ⌈fps⌉₊ + 1 := by omega
    have hold : rates ⌈fps⌉₊ l = [] := rates_nil (by omega)
    have hnew : rates ⌈fps⌉₊ (l ++ [b]) = [] := rates_nil (by simp; omega)
    rw [if_neg hshort]
    simp [hold, hnew, hfirst]

/-- One accepted timestamp. -/
theorem observe_batch {fps : ℚ} (hfps : 0 < fps) {b : ℤ} (hb : 0 ≤ b) (hlast : ∀ a ∈ l.getLast?, a < b) :
    (batch fps l).observe (.int b) = (.ok (), batch fps (l ++ [b])) := by
  have hstate : (batch fps l).last = l.getLast? := rfl
  rw [observe, if_neg (by omega), hstate]
  cases h : l.getLast? with
  | none =>
    obtain rfl := List.getLast?_eq_none_iff.1 h
    have hmeasured : batch fps [] = { measured fps [] b with first := none } := by
      simp [batch, measured, overBy, intervals, spans, rates]
    rw [hmeasured]
    exact congrArg (fun c => (Except.ok (), c)) (append_measured hfps [] b rfl)
  | some a =>
    have hlt := hlast a h
    have hhead : l.head? = (l ++ [b]).head? := by
      cases l with
      | nil => simp at h
      | cons x xs => rfl
    simp only [measure_batch fps h]
    rw [if_neg (by omega)]
    exact congrArg (fun c => (Except.ok (), c)) (append_measured hfps l b hhead)

/-- What is refused, in any state. -/
def Refuses (c : Cadence) (value : PyValue) : Prop :=
  ∀ t, value = .int t → t < 0 ∨ ∃ last, c.last = some last ∧ t ≤ last

/-- A call that raises is one of a refused value, and it changes nothing. -/
theorem observe_error (c : Cadence) (value : PyValue) :
    ((∃ message, (c.observe value).1 = .error message) ↔ Refuses c value) ∧
      (Refuses c value → (c.observe value).2 = c) := by
  unfold observe
  cases value with
  | int t =>
    simp only [Refuses, PyValue.int.injEq, forall_eq']
    by_cases hneg : t < 0
    · simp [hneg]
    · rw [if_neg hneg]
      cases hl : c.last with
      | none => simp [hneg]
      | some last =>
        by_cases hle : t - last ≤ 0
        · simp [hle]
          omega
        · simp [hle, hneg]
          omega
  | _ => simp [Refuses]

/-- The values that a run accepts: the integers above all before them, none of them negative. -/
def accepted : Option ℤ → List PyValue → List ℤ
  | _, [] => []
  | last, value :: values =>
    match value with
    | .int t => if 0 ≤ t ∧ ∀ a ∈ last, a < t then t :: accepted (some t) values else accepted last values
    | _ => accepted last values

theorem observeAll_batch {fps : ℚ} (hfps : 0 < fps) (l : List ℤ) (values : List PyValue) :
    (batch fps l).observeAll values = batch fps (l ++ accepted l.getLast? values) := by
  induction values generalizing l with
  | nil => simp [observeAll, accepted]
  | cons value values ih =>
    have hunfold : (batch fps l).observeAll (value :: values) = ((batch fps l).observe value).2.observeAll values := rfl
    rw [hunfold]
    by_cases hrefuses : Refuses (batch fps l) value
    · have hskip : accepted l.getLast? (value :: values) = accepted l.getLast? values := by
        cases value with
        | int t =>
          rw [accepted, if_neg]
          rintro ⟨hpos, hlast⟩
          rcases hrefuses t rfl with hneg | ⟨last, heq, hle⟩
          · omega
          · have := hlast last heq
            omega
        | _ => rfl
      rw [(observe_error _ _).2 hrefuses, ih, hskip]
    · obtain ⟨t, rfl, ht⟩ : ∃ t, value = .int t ∧ ¬ (t < 0 ∨ ∃ last, (batch fps l).last = some last ∧ t ≤ last) := by
        simpa [Refuses] using hrefuses
      have hpos : 0 ≤ t := by
        by_contra hneg
        exact ht (.inl (by omega))
      have hlast : ∀ a ∈ l.getLast?, a < t := by
        intro a ha
        by_contra hge
        exact ht (.inr ⟨a, ha, by omega⟩)
      have htake : accepted l.getLast? (.int t :: values) = t :: accepted (some t) values := by
        rw [accepted, if_pos ⟨hpos, hlast⟩]
      rw [observe_batch hfps hpos hlast, ih, htake, List.getLast?_append]
      simp

/-- What is accepted is in order, so no rate divides by zero. -/
theorem accepted_increasing (last : Option ℤ) (values : List PyValue) :
    (accepted last values).Pairwise (· < ·) ∧ ∀ t ∈ accepted last values, 0 ≤ t ∧ ∀ a ∈ last, a < t := by
  induction values generalizing last with
  | nil => simp [accepted]
  | cons value values ih =>
    cases value with
    | int t =>
      rw [accepted]
      split
      · next h =>
        obtain ⟨hpair, hall⟩ := ih (some t)
        refine ⟨List.pairwise_cons.2 ⟨fun u hu => (hall u hu).2 t rfl, hpair⟩, List.forall_mem_cons.2 ⟨h, fun u hu => ?_⟩⟩
        obtain ⟨hpos, hlt⟩ := hall u hu
        exact ⟨hpos, fun a ha => (h.2 a ha).trans (hlt t rfl)⟩
      · exact ih last
    | _ => exact ih last

theorem accepted_of_increasing {last : Option ℤ} (hl : l.Pairwise (· < ·))
    (hall : ∀ t ∈ l, 0 ≤ t ∧ ∀ a ∈ last, a < t) : accepted last (l.map .int) = l := by
  induction l generalizing last with
  | nil => rfl
  | cons t ts ih =>
    obtain ⟨ht, hts⟩ := List.forall_mem_cons.1 hall
    obtain ⟨hlt, hpair⟩ := List.pairwise_cons.1 hl
    rw [List.map_cons, accepted, if_pos ht, ih hpair fun u hu => ⟨(hts u hu).1, fun a ha => ?_⟩]
    obtain rfl : t = a := Option.some.inj ha
    exact hlt u hu

/-- The statistics of increasing timestamps are those of the whole list, and of any sequence of
values those of the accepted ones; a value that is not accepted changes nothing. -/
theorem cadence_equals_batch (fps : ℚ) (h : 0 < fps ∧ fps ≤ 1000) : ∃ c, new fps = .ok c ∧
    (∀ timestamps : List ℤ, timestamps.Pairwise (· < ·) → (∀ t ∈ timestamps, 0 ≤ t) →
      c.observeAll (timestamps.map .int) = batch fps timestamps) ∧
    ∀ values : List PyValue, c.observeAll values = batch fps (accepted none values) ∧
      (accepted none values).Pairwise (· < ·) ∧ ∀ value, ((∃ message, ((c.observeAll values).observe value).1 = .error message) ↔
          Refuses (c.observeAll values) value) ∧
        (Refuses (c.observeAll values) value → ((c.observeAll values).observe value).2 = c.observeAll values) := by
  have hstart : start fps = batch fps [] := by
    simp [start, batch, Moments.mean, deviation, overBy, intervals, spans, rates, recent]
  refine ⟨start fps, if_pos h, fun timestamps hpair hall => ?_, fun values => ⟨?_, (accepted_increasing none values).1, fun value => observe_error _ _⟩⟩
  · rw [hstart, observeAll_batch h.1, List.nil_append]
    exact congrArg _ (accepted_of_increasing hpair fun t ht => ⟨hall t ht, by simp⟩)
  · rw [hstart, observeAll_batch h.1]
    rfl

/-- Two frames a second, a repeated timestamp and one below zero. -/
theorem cadence_equals_batch_sample : ∃ c, new 2 = .ok c ∧
    c.observeAll [.int 0, .int 500000000, .int 500000000, .int (-1), .int 1100000000] =
      batch 2 [0, 500000000, 1100000000] ∧ (batch 2 [0, 500000000, 1100000000]).over1ms = 1 := by
  obtain ⟨c, hc, -, hvalues⟩ := cadence_equals_batch 2 (by norm_num)
  refine ⟨c, hc, (hvalues _).1.trans ?_, by decide +kernel⟩
  exact congrArg _ (by decide)

end Conductor.Capture.Cadence
