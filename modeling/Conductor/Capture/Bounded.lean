import Mathlib.Algebra.BigOperators.Group.List.Basic
import Mathlib.Algebra.Order.Ring.Nat
import Conductor.Lib.Concat

/-! The bounded queue between the camera producer and the capture runtime: at most
`capacity` values and at most `byteCapacity` of their weights. Each function is one
section under the mutex; the condition variable is the action that is not enabled. -/

namespace Conductor.Capture.Bounded

variable {α : Type*}

structure State (α : Type*) where
  queue : List (α × ℕ) := []
  bytes : ℕ := 0
  closed : Bool := false
  peak : ℕ := 0

structure Shared (α : Type*) where
  capacity : ℕ
  byteCapacity : ℕ
  weight : α → ℕ

inductive RecvTimeoutError
  | timeout
  | disconnected

/-- A refused value is handed back. -/
def State.tryPush (shared : Shared α) (s : State α) (value : α) : Except α Unit × State α :=
  let bytes := shared.weight value
  if s.closed || s.queue.length == shared.capacity || decide (bytes > shared.byteCapacity - s.bytes) then
    (.error value, s)
  else
    (.ok (), { s with
      bytes := s.bytes + bytes
      queue := s.queue ++ [(value, bytes)]
      peak := max s.peak (s.queue.length + 1) })

/-- What `receive` does after its wait, which an empty open queue ends by the timeout only. -/
def State.receive (s : State α) (timedOut : Bool) : Option (Except RecvTimeoutError α × State α) :=
  match s.queue with
  | (value, bytes) :: queue => some (.ok value, { s with queue, bytes := s.bytes - bytes })
  | [] =>
    if s.closed then some (.error .disconnected, s)
    else if timedOut then some (.error .timeout, s)
    else none

def State.closeAndClear (s : State α) : State α := { s with closed := true, queue := [], bytes := 0 }

def State.reopen (s : State α) : State α := { s with closed := false, peak := 0 }

def State.values (s : State α) : List α := s.queue.map (·.1)

/-- Both bounds hold, and the byte counter is the weight of what is queued. -/
structure State.Within (shared : Shared α) (s : State α) : Prop where
  length : s.queue.length ≤ shared.capacity
  weights : ∀ p ∈ s.queue, p.2 = shared.weight p.1
  bytes : s.bytes = (s.queue.map (·.2)).sum
  budget : s.bytes ≤ shared.byteCapacity

theorem State.Within.empty (shared : Shared α) : State.Within shared ({} : State α) :=
  ⟨Nat.zero_le _, by simp, rfl, Nat.zero_le _⟩

/-- A push either changes nothing or appends the value within both bounds. -/
theorem State.tryPush_cases (shared : Shared α) (s : State α) (value : α) :
    s.tryPush shared value = (.error value, s) ∨
    (s.closed = false ∧ s.queue.length ≠ shared.capacity ∧
      shared.weight value ≤ shared.byteCapacity - s.bytes ∧
      s.tryPush shared value = (.ok (), { s with
        bytes := s.bytes + shared.weight value
        queue := s.queue ++ [(value, shared.weight value)]
        peak := max s.peak (s.queue.length + 1) })) := by
  simp only [State.tryPush]
  split_ifs with h
  · exact Or.inl rfl
  · right
    simp only [Bool.or_eq_true, beq_iff_eq, decide_eq_true_eq, not_or, Bool.not_eq_true] at h
    obtain ⟨⟨hclosed, hlength⟩, hweight⟩ := h
    exact ⟨hclosed, hlength, by omega, rfl⟩

variable {shared : Shared α} {r : Except RecvTimeoutError α}

theorem State.Within.tryPush {s : State α} (h : s.Within shared) (value : α) :
    (s.tryPush shared value).2.Within shared := by
  rcases s.tryPush_cases shared value with he | ⟨-, hlength, hweight, he⟩
  · rw [he]
    exact h
  · rw [he]
    have hb := h.budget
    have hl := h.length
    refine ⟨?_, ?_, ?_, ?_⟩
    · simp only [List.length_append, List.length_singleton]
      omega
    · intro p hp
      rcases mem_concat.1 hp with hp | hp
      · exact h.weights p hp
      · rw [hp]
    · simp [h.bytes]
    · simp only
      omega

/-- What a receive can do; the wait is over or it is not enabled. -/
theorem State.receive_cases {s t : State α} {timedOut : Bool} (h : s.receive timedOut = some (r, t)) :
    (∃ value bytes queue, s.queue = (value, bytes) :: queue ∧ r = .ok value ∧
      t = { s with queue, bytes := s.bytes - bytes }) ∨ (s.queue = [] ∧ (∃ e, r = .error e) ∧ t = s) := by
  unfold State.receive at h
  split at h
  · next value bytes queue hq =>
    cases h
    exact Or.inl ⟨value, bytes, queue, hq, rfl, rfl⟩
  · next hq =>
    split_ifs at h <;> cases h <;> exact Or.inr ⟨hq, ⟨_, rfl⟩, rfl⟩

theorem State.Within.receive {s t : State α} {timedOut : Bool}
    (h : s.Within shared) (hr : s.receive timedOut = some (r, t)) : t.Within shared := by
  rcases State.receive_cases hr with ⟨value, bytes, queue, hq, -, rfl⟩ | ⟨-, -, rfl⟩
  · obtain ⟨hlength, hweights, hbytes, hbudget⟩ := h
    rw [hq] at hlength hweights hbytes
    simp only [List.length_cons] at hlength
    simp only [List.map_cons, List.sum_cons] at hbytes
    refine ⟨?_, fun p hp => hweights p (List.mem_cons_of_mem _ hp), ?_, ?_⟩ <;> simp only <;> omega
  · exact h

theorem State.Within.closeAndClear (shared : Shared α) (s : State α) : s.closeAndClear.Within shared :=
  ⟨Nat.zero_le _, by simp [State.closeAndClear], rfl, Nat.zero_le _⟩

theorem State.Within.reopen {s : State α} (h : s.Within shared) : s.reopen.Within shared :=
  ⟨h.length, h.weights, h.bytes, h.budget⟩

end Conductor.Capture.Bounded
