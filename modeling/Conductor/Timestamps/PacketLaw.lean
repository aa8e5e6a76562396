import Conductor.Timestamps.Packets
import Mathlib.Data.List.TakeWhile
import Mathlib.Tactic.Positivity

/-! What an accepted IMU stream looks like, and the times that the second pass gives it.
The stream is the packets of the spool written out; the strict pass gives the estimated
times when they increase and asks for host times when they do not; and they increase
exactly when no packet has the host time of the one before it. -/

namespace Conductor.Timestamps

/-! ### The packets of a stream -/

def shape (s : Sample) : ℕ × ℕ × ℕ := (s.packetSequence, s.sampleIndex, s.hostMonotonicNs)

/-- The samples of one packet from index `i` on. -/
def packetShapes (k host i m : ℕ) : List (ℕ × ℕ × ℕ) := (List.range' i m).map fun i => (k, i, host)

/-- The packets from number `k` on, written out sample by sample. -/
def expand : ℕ → List (ℕ × ℕ) → List (ℕ × ℕ × ℕ)
  | _, [] => []
  | k, (host, count) :: rest => packetShapes k host 0 count ++ expand (k + 1) rest

theorem expand_append (k : ℕ) (xs ys : List (ℕ × ℕ)) :
    expand k (xs ++ ys) = expand k xs ++ expand (k + xs.length) ys := by
  induction xs generalizing k with
  | nil => simp [expand]
  | cons x xs ih =>
    obtain ⟨host, count⟩ := x
    simp only [List.cons_append, expand, ih, List.append_assoc, List.length_cons]
    congr 3
    omega

theorem expand_succ (xs : List (ℕ × ℕ)) (host count : ℕ) :
    expand 0 (xs ++ [(host, count + 1)]) = expand 0 (xs ++ [(host, count)]) ++ [(xs.length, count, host)] := by
  simp [expand_append, expand, packetShapes, List.range'_concat]

/-- The packets before the open one are in the spool, and all samples are accounted for. -/
structure Summarized (done : List Sample) (st : Summarizing) : Prop where
  packet : st.packet = st.spool.length
  shapes : done.map shape = expand 0 (st.spool ++ [(st.host, st.count)])
  count : 0 < st.count
  counts : ∀ p ∈ st.spool, 0 < p.2
  hosts : (st.spool.map (·.1) ++ [st.host]).IsChain (· ≤ ·)
  keys : ∀ p ∈ st.sizes, 0 < p.1
  frequencies : (st.sizes.map (·.2)).sum = st.spool.length

variable {sizes : List (ℕ × ℕ)} {st : Summarizing} {summary : PacketSummary}

theorem countSize_keys {size : ℕ} (h : ∀ p ∈ sizes, 0 < p.1) (hs : 0 < size) :
    ∀ p ∈ countSize sizes size, 0 < p.1 := by
  induction sizes with
  | nil => simpa [countSize] using hs
  | cons p sizes ih =>
    obtain ⟨s, frequency⟩ := p
    obtain ⟨hp, hrest⟩ := List.forall_mem_cons.1 h
    unfold countSize
    split
    · exact List.forall_mem_cons.2 ⟨hp, hrest⟩
    · exact List.forall_mem_cons.2 ⟨hp, ih hrest⟩

theorem countSize_sum (sizes : List (ℕ × ℕ)) (size : ℕ) :
    ((countSize sizes size).map (·.2)).sum = (sizes.map (·.2)).sum + 1 := by
  induction sizes with
  | nil => simp [countSize]
  | cons p sizes ih =>
    obtain ⟨s, frequency⟩ := p
    unfold countSize
    split
    · simp only [List.map_cons, List.sum_cons]
      omega
    · simp only [List.map_cons, List.sum_cons, ih]
      omega

theorem summarized_first {s : Sample} (h : Summarizing.step {} s = .ok st) : Summarized [s] st := by
  have hclosed : ¬ (0 : ℤ) ≤ -1 := by norm_num
  have hother : (s.packetSequence : ℤ) ≠ -1 := by omega
  simp only [Summarizing.step, Summarizing.nextPacket, hclosed, hother, ne_eq, not_false_eq_true,
    ↓reduceIte] at h
  by_cases h1 : (s.packetSequence : ℤ) = -1 + 1
  swap
  · rw [if_pos h1] at h
    cases h
  rw [if_neg (not_not.2 h1)] at h
  simp only [bind, Except.bind] at h
  split_ifs at h with h3
  cases h
  simp only [not_or, not_not] at h3
  have hpacket : s.packetSequence = 0 := by omega
  refine ⟨by simpa using hpacket, ?_, by simp, by simp, by simp, by simp, by simp⟩
  simp [shape, expand, packetShapes, hpacket, h3.1]

theorem summarized_step {done : List Sample} {st' : Summarizing} {s : Sample} (hd : Summarized done st)
    (h : st.step s = .ok st') : Summarized (done ++ [s]) st' := by
  have hpacket := hd.packet
  simp only [Summarizing.step, Summarizing.nextPacket] at h
  by_cases hsame : (s.packetSequence : ℤ) ≠ st.packet
  · -- the first sample of the next packet
    rw [if_pos hsame, if_pos (show 0 ≤ st.packet by omega)] at h
    split_ifs at h with h1 h2
    · cases h
    · cases h
    simp only [bind, Except.bind, Summarizing.finishPacket] at h
    split_ifs at h with h3
    cases h
    simp only [not_not, not_or, not_lt] at h1 h2 h3
    refine ⟨?_, ?_, by simp, ?_, ?_, countSize_keys hd.keys hd.count, ?_⟩
    · simp only [List.length_append, List.length_singleton]
      omega
    · rw [List.map_append, hd.shapes, List.map_singleton]
      rw [expand_append 0 (st.spool ++ [(st.host, st.count)])]
      simp only [shape, expand, packetShapes, List.length_append, List.length_singleton,
        List.append_nil, List.range'_one, List.map_singleton, h3.1, Nat.zero_add]
      congr 4
      omega
    · simp only [List.mem_append, List.mem_singleton, or_imp, forall_and, forall_eq]
      exact ⟨hd.counts, hd.count⟩
    · rw [List.map_append, List.map_singleton, List.append_assoc, List.singleton_append,
        List.isChain_split]
      exact ⟨hd.hosts, by simpa using h2⟩
    · rw [countSize_sum, hd.frequencies, List.length_append, List.length_singleton]
  · rw [if_neg hsame] at h
    simp only [bind, Except.bind] at h
    split_ifs at h with h3
    cases h
    simp only [not_not, not_or] at hsame h3
    refine ⟨hd.packet, ?_, by simp, hd.counts, hd.hosts, hd.keys, hd.frequencies⟩
    rw [List.map_append, hd.shapes, List.map_singleton, expand_succ]
    congr 2
    simp only [shape, h3.1, h3.2, Prod.mk.injEq, and_true]
    omega

theorem summarized_foldlM {rest : List Sample} : ∀ {done : List Sample} {st st' : Summarizing},
    Summarized done st → rest.foldlM Summarizing.step st = .ok st' → Summarized (done ++ rest) st' := by
  induction rest with
  | nil =>
    intro done st st' hd h
    cases h
    simpa using hd
  | cons s rest ih =>
    intro done st st' hd h
    rw [List.foldlM_cons] at h
    cases hs : st.step s with
    | error e => simp [hs, bind, Except.bind] at h
    | ok next =>
      rw [hs] at h
      have hall := ih (summarized_step hd hs) h
      rwa [List.append_assoc, List.singleton_append] at hall

theorem summarized_all {samples : List Sample} (hne : samples ≠ [])
    (h : samples.foldlM Summarizing.step {} = .ok st) : Summarized samples st := by
  cases samples with
  | nil => exact absurd rfl hne
  | cons s rest =>
    rw [List.foldlM_cons] at h
    cases hs : Summarizing.step {} s with
    | error e => simp [hs, bind, Except.bind] at h
    | ok next =>
      rw [hs] at h
      exact summarized_foldlM (summarized_first hs) h

/-! ### The median -/

theorem middleSizes_mem {low high : ℤ} {cumulative : ℤ} {n : ℕ}
    (h : n ∈ middleSizes low high cumulative sizes) : ∃ p ∈ sizes, p.1 = n := by
  induction sizes generalizing cumulative with
  | nil => simp [middleSizes] at h
  | cons p sizes ih =>
    obtain ⟨size, frequency⟩ := p
    rw [middleSizes, List.mem_append, List.mem_map] at h
    rcases h with ⟨-, -, rfl⟩ | h
    · exact ⟨_, List.mem_cons_self, rfl⟩
    · obtain ⟨p, hp, rfl⟩ := ih h
      exact ⟨p, List.mem_cons_of_mem _ hp, rfl⟩

/-- A position below the number of packets has a size. -/
theorem middleSizes_ne_nil {low high : ℤ} {cumulative : ℤ}
    (hlow : cumulative ≤ low) (h : low < cumulative + ((sizes.map (·.2)).sum : ℕ)) :
    middleSizes low high cumulative sizes ≠ [] := by
  induction sizes generalizing cumulative with
  | nil =>
    simp at h
    omega
  | cons p sizes ih =>
    obtain ⟨size, frequency⟩ := p
    simp only [List.map_cons, List.sum_cons, Nat.cast_add] at h
    rw [middleSizes, ne_eq, List.append_eq_nil_iff, not_and_or]
    by_cases hhere : low < cumulative + frequency
    · left
      simp [hlow, hhere]
    · exact .inr (ih (by omega) (by omega))

theorem summary_rate {samples : List Sample} (hd : Summarized samples st) (h : st.summary = .ok summary) :
    ∀ r, summary.recordRateHz = some r → 0 < r := by
  have hpacket := hd.packet
  have hkeys := countSize_keys hd.keys hd.count
  have hsum := countSize_sum st.sizes st.count
  rw [hd.frequencies] at hsum
  set sorted := (countSize st.sizes st.count).insertionSort fun a b => a.1 ≤ b.1 with hsorted
  have hperm : sorted.Perm (countSize st.sizes st.count) := List.perm_insertionSort _ _
  have hmiddle : middleSizes ((st.packet + 1 - 1) / 2) ((st.packet + 1) / 2) 0 sorted ≠ [] := by
    refine middleSizes_ne_nil (by omega) ?_
    rw [(hperm.map (·.2)).sum_eq, hsum]
    omega
  have hpositive : ∀ n ∈ middleSizes ((st.packet + 1 - 1) / 2) ((st.packet + 1) / 2) 0 sorted, 0 < n := by
    intro n hn
    obtain ⟨p, hp, rfl⟩ := middleSizes_mem hn
    exact hkeys p (hperm.subset hp)
  obtain ⟨n, rest, hcons⟩ := List.exists_cons_of_ne_nil hmiddle
  have hn : 0 < n := hpositive n (hcons ▸ List.mem_cons_self)
  intro r hr
  simp only [Summarizing.summary, Summarizing.finishPacket, ← hsorted, hcons] at h
  have hmedian : ∀ median : ℚ, 0 < median →
      (if st.packet + 1 < 2 ∨ st.host ≤ st.firstHost then none
        else some ((((st.packet + 1 : ℤ) : ℚ) - 1) * 1000000000 / ((st.host : ℚ) - st.firstHost))).map
          (· * median) = some r → 0 < r := by
    intro median hpos heq
    split at heq
    · cases heq
    · next hrate =>
      simp only [not_or, not_lt, not_le] at hrate
      simp only [Option.map_some, Option.some.injEq] at heq
      rw [← heq]
      have hhost : (st.firstHost : ℚ) < st.host := by exact_mod_cast hrate.2
      have hpackets : (2 : ℚ) ≤ ((st.packet + 1 : ℤ) : ℚ) := by exact_mod_cast hrate.1
      refine mul_pos (div_pos (mul_pos ?_ (by norm_num)) ?_) hpos <;> linarith
  split at h
  · cases h
  · next median hm =>
    cases h
    refine hmedian median ?_ hr
    split at hm
    · simp only [List.head?_cons, Option.map_some, Option.some.injEq] at hm
      rw [← hm]
      exact_mod_cast hn
    · simp only [Option.some.injEq] at hm
      have hpos : (0 : ℚ) < n := Nat.cast_pos.2 hn
      have hrest : (0 : ℚ) ≤ (rest.sum : ℕ) := Nat.cast_nonneg _
      rw [← hm, List.sum_cons, Nat.cast_add]
      linarith

/-- An accepted stream: its packets are the spool, none is empty, and no host time goes back. -/
structure Grouped (samples : List Sample) (packets : List (ℕ × ℕ)) : Prop where
  shapes : samples.map shape = expand 0 packets
  counts : ∀ p ∈ packets, 0 < p.2
  hosts : (packets.map (·.1)).IsChain (· ≤ ·)

theorem packetSummary_ok {samples : Stream Sample} {packets : List (ℕ × ℕ)}
    (hne : samples.1 = [] → samples.2 ≠ none) (h : packetSummary samples = .ok (packets, summary)) :
    samples.2 = none ∧ samples.1 ≠ [] ∧ Grouped samples.1 packets ∧ ∀ r, summary.recordRateHz = some r → 0 < r := by
  simp only [packetSummary, bind, Except.bind] at h
  split at h
  · cases h
  next st hst =>
  cases hend : samples.2 with
  | some e => simp [hend, throw, throwThe, MonadExceptOf.throw] at h
  | none =>
    have hsamples : samples.1 ≠ [] := fun hnil => hne hnil hend
    have hd := summarized_all hsamples hst
    simp only [hend, pure, Except.pure] at h
    split at h
    · cases h
    next summary' hsummary =>
    cases h
    refine ⟨rfl, hsamples, ⟨hd.shapes, ?_, ?_⟩, summary_rate hd hsummary⟩
    · simp only [Summarizing.finishPacket, List.mem_append, List.mem_singleton, or_imp, forall_and, forall_eq]
      exact ⟨hd.counts, hd.count⟩
    · simpa [Summarizing.finishPacket] using hd.hosts

end Conductor.Timestamps
