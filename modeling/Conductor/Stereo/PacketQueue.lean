import Conductor.Lib.Wrap
import Mathlib.Algebra.BigOperators.Group.List.Basic

/-! `ylx_packet_queue`: the queue of compressed packets between an encoder thread and its writer.
Its limits include the packet that the writer has taken out and not given back. -/

namespace Conductor.Stereo

/-- `ylx_packet_t`. -/
structure Packet where
  data : List UInt8
  keyFrame : Bool
  deriving DecidableEq

namespace Packet

def size (p : Packet) : ℕ := p.data.length

def sizes (packets : List Packet) : ℕ := (packets.map size).sum

@[simp] theorem sizes_nil : sizes [] = 0 := rfl

@[simp] theorem sizes_cons (p : Packet) (rest : List Packet) : sizes (p :: rest) = p.size + sizes rest := List.sum_cons

@[simp] theorem sizes_append (l rest : List Packet) : sizes (l ++ rest) = sizes l + sizes rest := by
  simp [sizes]

end Packet

/-- `ylx_packet_queue_t`; the counters are of the type `size_t`. -/
structure PacketQueue where
  packets : List Packet := []
  bytes : ℕ := 0
  frames : ℕ := 0
  maxBytes : ℕ
  maxFrames : ℕ
  peakBytes : ℕ := 0
  peakFrames : ℕ := 0
  rejected : ℕ := 0
  closed : Bool := false

namespace PacketQueue

open Wrap

/-- `ylx_packet_queue_push`, with the answer of `malloc`; it says whether the packet was taken. -/
def push (q : PacketQueue) (p : Packet) (allocated : Bool) : Bool × PacketQueue :=
  if q.closed ∨ p.size = 0 ∨ sub 64 q.maxBytes q.bytes < p.size ∨ q.maxFrames ≤ q.frames then
    (false, { q with rejected := q.rejected + 1 })
  else if !allocated then (false, { q with rejected := q.rejected + 1 })
  else
    let bytes := add 64 q.bytes p.size
    let frames := add 64 q.frames 1
    (true, { q with
      packets := q.packets ++ [p]
      bytes := bytes
      frames := frames
      peakBytes := max q.peakBytes bytes
      peakFrames := max q.peakFrames frames })

/-- `ylx_packet_queue_pop`; it waits while the queue is open and empty, and answers `NULL` at the end. -/
def pop (q : PacketQueue) : Option (Option Packet × PacketQueue) :=
  match q.packets with
  | p :: rest => some (some p, { q with packets := rest })
  | [] => if q.closed then some (none, q) else none

/-- `ylx_packet_queue_done`. -/
def done (q : PacketQueue) (p : Packet) : PacketQueue :=
  { q with bytes := sub 64 q.bytes p.size, frames := sub 64 q.frames 1 }

def close (q : PacketQueue) : PacketQueue := { q with closed := true }

/-! ### Accounting -/

/-- The counters are those of the packets in the queue and of those taken out. -/
structure Accounts (q : PacketQueue) (taken : List Packet) : Prop where
  bytes : q.bytes = Packet.sizes (taken ++ q.packets)
  frames : q.frames = (taken ++ q.packets).length
  roomBytes : q.bytes ≤ q.maxBytes
  roomFrames : q.frames ≤ q.maxFrames
  peakBytes : q.bytes ≤ q.peakBytes ∧ q.peakBytes ≤ q.maxBytes
  peakFrames : q.frames ≤ q.peakFrames ∧ q.peakFrames ≤ q.maxFrames
  word : q.maxBytes < 2 ^ 64 ∧ q.maxFrames < 2 ^ 64

variable {q r : PacketQueue} {p : Packet} {taken : List Packet} {allocated ok : Bool}

theorem Accounts.init {maxBytes maxFrames : ℕ} (hbytes : maxBytes < 2 ^ 64) (hframes : maxFrames < 2 ^ 64) :
    Accounts { maxBytes := maxBytes, maxFrames := maxFrames } [] := by
  constructor <;> simp_all

theorem push_kept (hpush : q.push p allocated = (ok, r)) :
    r.maxBytes = q.maxBytes ∧ r.maxFrames = q.maxFrames ∧ r.closed = q.closed := by
  unfold push at hpush
  split_ifs at hpush <;> cases hpush <;> exact ⟨rfl, rfl, rfl⟩

/-- The end of the packets. -/
theorem pop_none (hpop : q.pop = some (none, r)) : r.closed = true ∧ r.packets = [] := by
  unfold PacketQueue.pop at hpop
  split at hpop
  · cases hpop
  · rename_i hpackets
    obtain ⟨hclosed, hpop⟩ := Option.ite_none_right_eq_some.1 hpop
    cases hpop
    exact ⟨hclosed, hpackets⟩

/-- A push that takes the packet keeps the accounts; one that does not leaves all but the count. -/
theorem push_cases (h : q.Accounts taken) (hpush : q.push p allocated = (ok, r)) :
    (ok = true ∧ r.packets = q.packets ++ [p] ∧ r.Accounts taken) ∨
      (ok = false ∧ r = { q with rejected := q.rejected + 1 }) := by
  have hroom : sub 64 q.maxBytes q.bytes = q.maxBytes - q.bytes := sub_of_le h.roomBytes h.word.1
  unfold push at hpush
  rw [hroom] at hpush
  split at hpush
  · cases hpush
    exact .inr ⟨rfl, rfl⟩
  · rename_i hfits
    rw [not_or, not_or, not_or, not_lt, not_le] at hfits
    obtain ⟨-, -, hbytes, hframes⟩ := hfits
    split at hpush
    · cases hpush
      exact .inr ⟨rfl, rfl⟩
    · have hword := h.word
      have hroomBytes := h.roomBytes
      have haddBytes : add 64 q.bytes p.size = q.bytes + p.size := add_of_lt (by omega)
      have haddFrames : add 64 q.frames 1 = q.frames + 1 := add_of_lt (by omega)
      dsimp only at hpush
      rw [haddBytes, haddFrames, Prod.mk.injEq] at hpush
      obtain ⟨rfl, rfl⟩ := hpush
      have hpeakBytes := h.peakBytes
      have hpeakFrames := h.peakFrames
      refine .inl ⟨rfl, rfl, ?_⟩
      constructor
      · simp [h.bytes]
        omega
      · simp [h.frames]
        omega
      · show q.bytes + p.size ≤ q.maxBytes
        omega
      · exact hframes
      · simp only [le_max_iff, max_le_iff]
        omega
      · simp only [le_max_iff, max_le_iff]
        omega
      · exact hword

theorem Accounts.pop {answer : Option Packet} (h : q.Accounts []) (hpop : q.pop = some (answer, r)) :
    r.Accounts answer.toList ∧ q.packets = answer.toList ++ r.packets ∧
      r.maxBytes = q.maxBytes ∧ r.maxFrames = q.maxFrames ∧ r.closed = q.closed := by
  unfold PacketQueue.pop at hpop
  split at hpop
  · rename_i p rest hpackets
    cases hpop
    refine ⟨⟨?_, ?_, h.roomBytes, h.roomFrames, h.peakBytes, h.peakFrames, h.word⟩, hpackets, rfl, rfl, rfl⟩
    · simp [h.bytes, hpackets]
    · simp [h.frames, hpackets]
  · rename_i hpackets
    split at hpop
    · cases hpop
      exact ⟨h, by simp, rfl, rfl, rfl⟩
    · cases hpop

/-- A packet given back leaves no counter below zero. -/
theorem Accounts.done (h : q.Accounts [p]) : (q.done p).Accounts [] := by
  have hbytes : q.bytes = p.size + Packet.sizes q.packets := by simpa using h.bytes
  have hframes : q.frames = q.packets.length + 1 := by simpa using h.frames
  have hword := h.word
  have hroomBytes := h.roomBytes
  have hroomFrames := h.roomFrames
  have hpeakBytes := h.peakBytes
  have hpeakFrames := h.peakFrames
  have hsubBytes : sub 64 q.bytes p.size = q.bytes - p.size := sub_of_le (by omega) (by omega)
  have hsubFrames : sub 64 q.frames 1 = q.frames - 1 := sub_of_le (by omega) (by omega)
  unfold PacketQueue.done
  rw [hsubBytes, hsubFrames]
  constructor
  · simp [hbytes]
  · simp [hframes]
  all_goals
    dsimp only
    omega

theorem Accounts.close (h : q.Accounts taken) : q.close.Accounts taken :=
  ⟨h.bytes, h.frames, h.roomBytes, h.roomFrames, h.peakBytes, h.peakFrames, h.word⟩

theorem Accounts.reject (h : q.Accounts taken) : ({ q with rejected := q.rejected + 1 } : PacketQueue).Accounts taken :=
  ⟨h.bytes, h.frames, h.roomBytes, h.roomFrames, h.peakBytes, h.peakFrames, h.word⟩

end PacketQueue

end Conductor.Stereo
