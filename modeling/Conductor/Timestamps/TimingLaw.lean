import Conductor.Timestamps.PacketLaw

/-! The times that the second pass gives to an accepted stream. Without the strict check
they are `times`, packet by packet; with it they are the same if they increase, and the
pass asks for host times if not. -/

namespace Conductor.Timestamps

/-! ### The times of the packets -/

def timeOf (rate : Option ℚ) (previousHost : Option ℕ) (host count i : ℕ) : ℚ :=
  match rate with
  | none => host
  | some r => host - ((count : ℚ) - 1 - i) * clippedPeriod r previousHost host count

def packetTimes (rate : Option ℚ) (previousHost : Option ℕ) (host count i m : ℕ) : List ℚ :=
  (List.range' i m).map (timeOf rate previousHost host count)

def times (rate : Option ℚ) : Option ℕ → List (ℕ × ℕ) → List ℚ
  | _, [] => []
  | previousHost, (host, count) :: rest =>
    packetTimes rate previousHost host count 0 count ++ times rate (some host) rest

/-- The estimated times of a whole stream. -/
def estimate (rate : ℚ) (packets : List (ℕ × ℕ)) : List ℚ := times (some rate) none packets

def prepend (xs : List (Sample × ℚ)) (s : Stream (Sample × ℚ)) : Stream (Sample × ℚ) := (xs ++ s.1, s.2)

variable {rate : Option ℚ} {s : Sample} {st : Timing} {samples : List Sample}

theorem step_lax (hpacket : (s.packetSequence : ℤ) = st.packet)
    (hindex : s.sampleIndex = st.seen) (hhost : s.hostMonotonicNs = st.host) (hseen : st.seen < st.count) :
    st.step rate false s = .ok ((s, st.when rate),
      { st with seen := st.seen + 1, previousTime := some (st.when rate) }) := by
  simp [Timing.step, Timing.emit, hpacket, hindex, hhost, not_le.2 hseen, bind, Except.bind]

/-- The samples of one packet from `st.seen` on. -/
theorem timedFrom_packet (rate : Option ℚ) (ending : Option TimestampError) (previousHost : Option ℕ)
    (k host count : ℕ) (rest : List Sample) : ∀ (m : ℕ) (samples : List Sample) (st : Timing),
    st.packet = k → st.host = host → st.count = count → st.seen + m = count →
    (∀ r, rate = some r → st.period = clippedPeriod r previousHost host count) →
    samples.map shape = packetShapes k host st.seen m →
    ∃ t, timedFrom rate false ending st (samples ++ rest) =
      prepend (samples.zip (packetTimes rate previousHost host count st.seen m))
        (timedFrom rate false ending { st with seen := count, previousTime := t } rest) := by
  intro m
  induction m with
  | zero =>
    intro samples st _ _ _ hm _ hshape
    obtain rfl : samples = [] := by simpa [packetShapes] using hshape
    refine ⟨st.previousTime, ?_⟩
    simp [prepend, ← hm]
  | succ m ih =>
    intro samples st hpacket hhost hcount hm hperiod hshape
    cases samples with
    | nil => simp [packetShapes, List.range'_succ] at hshape
    | cons s samples =>
      rw [packetShapes, List.range'_succ, List.map_cons, List.map_cons, List.cons.injEq] at hshape
      obtain ⟨hs, hrest⟩ := hshape
      simp only [shape, Prod.mk.injEq] at hs
      obtain ⟨h1, h2, h3⟩ := hs
      have hstep : st.step rate false s = _ := step_lax (by rw [h1, hpacket]) h2 (h3.trans hhost.symm)
        (by omega : st.seen < st.count)
      have hwhen : st.when rate = timeOf rate previousHost host count st.seen := by
        cases rate with
        | none => simp [Timing.when, timeOf, hhost]
        | some r => simp [Timing.when, timeOf, hhost, hcount, hperiod r rfl]
      rw [hwhen] at hstep
      obtain ⟨t, ht⟩ := ih samples
        { st with seen := st.seen + 1, previousTime := some (timeOf rate previousHost host count st.seen) }
        hpacket hhost hcount (by simp only; omega) hperiod hrest
      refine ⟨t, ?_⟩
      rw [List.cons_append, timedFrom, hstep]
      simp only [ht, prepend, packetTimes, List.range'_succ, List.map_cons, List.zip_cons_cons,
        List.cons_append]

/-- The first sample of a packet opens it. -/
theorem step_nextPacket (rate : Option ℚ) {host count : ℕ}
    {spool : List (ℕ × ℕ)} (hclosed : st.seen = st.count) (hpacket : (s.packetSequence : ℤ) = st.packet + 1)
    (hspool : st.spool = (host, count) :: spool) :
    ∃ next, st.nextPacket rate s = .ok next ∧ st.step rate false s = next.step rate false s ∧
      next.packet = s.packetSequence ∧ next.host = host ∧ next.count = count ∧ next.seen = 0 ∧
      next.spool = spool ∧ next.previousHost = some host ∧
      ∀ r, rate = some r → next.period = clippedPeriod r st.previousHost host count := by
  have hne : (s.packetSequence : ℤ) ≠ st.packet := by omega
  have hnext : st.nextPacket rate s = .ok { st with
      host, count, spool
      packet := st.packet + 1
      seen := 0
      period := (rate.map (clippedPeriod · st.previousHost host count)).getD st.period
      previousHost := some host } := by
    simp [Timing.nextPacket, hclosed, hpacket, hspool]
  refine ⟨_, hnext, ?_, hpacket.symm, rfl, rfl, rfl, rfl, rfl, ?_⟩
  · rw [Timing.step, Timing.step, if_pos hne, hnext, if_neg (not_not.2 hpacket)]
  · rintro r rfl
    rfl

/-- The lax pass over an accepted stream. -/
theorem timedFrom_lax (rate : Option ℚ) : ∀ (packets : List (ℕ × ℕ)) (k : ℕ) (samples : List Sample)
    (st : Timing), st.seen = st.count → st.packet = (k : ℤ) - 1 → st.spool = packets →
    (∀ p ∈ packets, 0 < p.2) → samples.map shape = expand k packets →
    timedFrom rate false none st samples = (samples.zip (times rate st.previousHost packets), none) := by
  intro packets
  induction packets with
  | nil =>
    intro k samples st hclosed _ hspool _ hshape
    obtain rfl : samples = [] := by simpa [expand] using hshape
    simp [timedFrom, hclosed, hspool]
  | cons p packets ih =>
    obtain ⟨host, count⟩ := p
    intro k samples st hclosed hpacket hspool hcounts hshape
    obtain ⟨hcount, hcounts⟩ := List.forall_mem_cons.1 hcounts
    rw [expand, List.map_eq_append_iff] at hshape
    obtain ⟨opened, rest, rfl, hopened, hrest⟩ := hshape
    have hlength : opened.length = count := by
      have := congrArg List.length hopened
      simpa [packetShapes] using this
    obtain ⟨s, opened', rfl⟩ := List.exists_cons_of_length_pos (hlength ▸ hcount)
    have hs : s.packetSequence = k := by
      obtain ⟨m, rfl⟩ : ∃ m, count = m + 1 := ⟨count - 1, by simp only at hcount; omega⟩
      simp only [List.map_cons, packetShapes, List.range'_succ, shape, List.cons.injEq, Prod.mk.injEq] at hopened
      exact hopened.1.1
    have hopens : (s.packetSequence : ℤ) = st.packet + 1 := by
      rw [hs]
      omega
    obtain ⟨next, -, hstep, h1, h2, h3, h4, h5, h6, h7⟩ := step_nextPacket rate hclosed hopens hspool
    have hfirst : timedFrom rate false none st (s :: opened' ++ rest) =
        timedFrom rate false none next (s :: opened' ++ rest) := by
      rw [List.cons_append, timedFrom, timedFrom, hstep]
    obtain ⟨t, ht⟩ := timedFrom_packet rate none st.previousHost k host count rest count (s :: opened') next
      (by rw [h1, hs]) h2 h3 (by omega) h7 (by rw [h4]; exact hopened)
    have hzip : (s :: opened' ++ rest).zip (packetTimes rate st.previousHost host count 0 count ++
        times rate (some host) packets) =
        (s :: opened').zip (packetTimes rate st.previousHost host count 0 count) ++
          rest.zip (times rate (some host) packets) :=
      List.zip_append (by simpa [packetTimes] using hlength)
    rw [hfirst, ht, h4, ih (k + 1) rest { next with seen := count, previousTime := t } h3.symm
      (by simp only [h1, hs]; omega) h5 hcounts hrest, times, hzip]
    simp [prepend, h6]

/-! ### The strict pass -/

/-- Each time is later than the one before it. -/
def Later (previous : Option ℚ) (ts : List (Sample × ℚ)) : Prop :=
  (previous.toList ++ ts.map (·.2)).IsChain (· < ·)

theorem emit_strict (rate : Option ℚ) (st : Timing) (s : Sample) :
    st.emit rate true s = (st.emit rate false s).bind fun result =>
      if st.previousTime.any (result.1.2 ≤ ·) then .error .useHostTimes else .ok result := by
  unfold Timing.emit
  split <;> simp [Except.bind]

variable {next : Timing} {timed : Sample × ℚ}

theorem emit_previousTime {strict : Bool}
    (h : st.emit rate strict s = .ok (timed, next)) : next.previousTime = some timed.2 := by
  unfold Timing.emit at h
  split at h
  · cases h
  · split at h
    · cases h
    · cases h
      rfl

theorem nextPacket_previousTime (h : st.nextPacket rate s = .ok next) : next.previousTime = st.previousTime := by
  unfold Timing.nextPacket at h
  split at h
  · cases h
  · split at h
    · cases h
    · cases h
      rfl

/-- The strict step is the lax one with a check of the time. -/
theorem step_strict (rate : Option ℚ) (st : Timing) (s : Sample) :
    st.step rate true s = (st.step rate false s).bind fun result =>
      if st.previousTime.any (result.1.2 ≤ ·) then .error .useHostTimes else .ok result := by
  unfold Timing.step
  split
  · cases hn : st.nextPacket rate s with
    | error e => rfl
    | ok next =>
      rw [← nextPacket_previousTime hn]
      exact emit_strict rate next s
  · exact emit_strict rate st s

theorem step_previousTime {strict : Bool}
    (h : st.step rate strict s = .ok (timed, next)) : next.previousTime = some timed.2 := by
  unfold Timing.step at h
  split at h
  · cases hn : st.nextPacket rate s with
    | error e => simp [hn, bind, Except.bind] at h
    | ok opened =>
      rw [hn] at h
      exact emit_previousTime h
  · exact emit_previousTime h

theorem timedFrom_strict (rate : Option ℚ) {ts : List (Sample × ℚ)}
    (h : timedFrom rate false none st samples = (ts, none)) :
    (Later st.previousTime ts → timedFrom rate true none st samples = (ts, none)) ∧
      (¬ Later st.previousTime ts → (timedFrom rate true none st samples).2 = some .useHostTimes) := by
  induction samples generalizing st ts with
  | nil =>
    rw [timedFrom] at h
    simp only [Prod.mk.injEq] at h
    obtain ⟨rfl, h⟩ := h
    refine ⟨fun _ => by rw [timedFrom, h], fun hlater => absurd ?_ hlater⟩
    cases hp : st.previousTime <;> simp [Later]
  | cons s samples ih =>
    rw [timedFrom] at h
    cases hs : st.step rate false s with
    | error e => simp [hs] at h
    | ok result =>
      obtain ⟨timed, next⟩ := result
      simp only [hs, Prod.mk.injEq] at h
      obtain ⟨rfl, hend⟩ := h
      have hnext : timedFrom rate false none next samples = (_, none) := Prod.ext rfl hend
      obtain ⟨hkeep, hraise⟩ := ih hnext
      have hprevious := step_previousTime hs
      have hlater : Later st.previousTime (timed :: (timedFrom rate false none next samples).1) ↔
          ¬ st.previousTime.any (timed.2 ≤ ·) = true ∧
            Later next.previousTime (timedFrom rate false none next samples).1 := by
        rw [hprevious]
        cases st.previousTime with
        | none => simp [Later]
        | some t => simp [Later, List.isChain_cons_cons]
      rw [timedFrom, step_strict, hs]
      simp only [Except.bind]
      by_cases hany : st.previousTime.any (timed.2 ≤ ·) = true
      · rw [if_pos hany]
        exact ⟨fun hl => absurd hany (hlater.1 hl).1, fun _ => rfl⟩
      · rw [if_neg hany]
        refine ⟨fun hl => ?_, fun hl => ?_⟩
        · simp only [hkeep (hlater.1 hl).2]
        · exact hraise fun hn => hl (hlater.2 ⟨hany, hn⟩)

/-! ### When the estimate increases -/

section Estimate

variable {r : ℚ} {host count : ℕ}

theorem timeOf_last (rate : Option ℚ) (previousHost : Option ℕ) (host m : ℕ) :
    timeOf rate previousHost host (m + 1) m = host := by
  cases rate with
  | none => rfl
  | some r => simp [timeOf]

theorem packetTimes_concat (rate : Option ℚ) (previousHost : Option ℕ) (host m : ℕ) :
    packetTimes rate previousHost host (m + 1) 0 (m + 1) =
      packetTimes rate previousHost host (m + 1) 0 m ++ [(host : ℚ)] := by
  simp [packetTimes, List.range'_concat, timeOf_last]

variable {previousHost : Option ℕ}

theorem clippedPeriod_pos (hr : 0 < r) (hcount : 0 < count)
    (h : ∀ p ∈ previousHost, p < host) : 0 < clippedPeriod r previousHost host count := by
  have hmean : 0 < 1000000000 / r := by positivity
  cases previousHost with
  | none => exact hmean
  | some p =>
    have hp : (p : ℚ) < host := by exact_mod_cast h p rfl
    have hc : (0 : ℚ) < count := by exact_mod_cast hcount
    exact lt_min hmean (div_pos (by linarith) hc)

/-- A positive period spreads the samples of a packet. -/
theorem packetTimes_increase (h : 0 < clippedPeriod r previousHost host count)
    (i m : ℕ) : (packetTimes (some r) previousHost host count i m).IsChain (· < ·) := by
  apply List.isChain_map_of_isChain (R := fun a b => b = a + 1) _ _ (List.isChain_range' i m 1)
  rintro a _ rfl
  simp only [timeOf]
  push_cast
  linarith

/-- The first sample of a packet is later than the packet before it. -/
theorem timeOf_first {p m : ℕ} (h : p < host) : (p : ℚ) < timeOf (some r) (some p) host (m + 1) 0 := by
  have hlt : (p : ℚ) < host := by exact_mod_cast h
  have hclip : clippedPeriod r (some p) host (m + 1) ≤ ((host : ℚ) - p) / (m + 1 : ℕ) := min_le_right _ _
  have hm : (0 : ℚ) < (m + 1 : ℕ) := by positivity
  rw [le_div_iff₀ hm] at hclip
  simp only [timeOf]
  push_cast at hclip ⊢
  have hm' : (0 : ℚ) ≤ m := by positivity
  have hsmall : (m : ℚ) * clippedPeriod r (some p) host (m + 1) < host - p := by
    by_cases hneg : clippedPeriod r (some p) host (m + 1) ≤ 0
    · have := mul_nonpos_of_nonneg_of_nonpos hm' hneg
      linarith
    · linarith
  linarith

/-- One packet after the packet before it. -/
theorem packet_later (hr : 0 < r) (hcount : 0 < count) (hle : ∀ p ∈ previousHost, p ≤ host) :
    ((previousHost.map (Nat.cast (R := ℚ))).toList ++ packetTimes (some r) previousHost host count 0 count).IsChain (· < ·) ↔
      ∀ p ∈ previousHost, p < host := by
  obtain ⟨m, rfl⟩ : ∃ m, count = m + 1 := ⟨count - 1, by omega⟩
  constructor
  · rintro h p rfl
    by_contra hp
    obtain rfl : p = host := le_antisymm (hle p rfl) (not_lt.1 hp)
    -- the period is zero, so the first sample has the time of the packet before
    have hzero : clippedPeriod r (some p) p (m + 1) = 0 := by
      have : 0 < 1000000000 / r := by positivity
      simp [clippedPeriod, this.le]
    simp [packetTimes, List.range'_succ, timeOf, hzero] at h
  · intro h
    have hspread := packetTimes_increase (clippedPeriod_pos hr hcount h) 0 (m + 1)
    cases previousHost with
    | none => exact hspread
    | some p =>
      rw [packetTimes, List.range'_succ, List.map_cons] at hspread ⊢
      exact List.isChain_cons_cons.2 ⟨timeOf_first (h p rfl), hspread⟩

theorem times_later (hr : 0 < r) : ∀ (packets : List (ℕ × ℕ)) (previousHost : Option ℕ),
    (∀ p ∈ packets, 0 < p.2) → (previousHost.toList ++ packets.map (·.1)).IsChain (· ≤ ·) →
    (((previousHost.map (Nat.cast (R := ℚ))).toList ++ times (some r) previousHost packets).IsChain (· < ·) ↔
      (previousHost.toList ++ packets.map (·.1)).IsChain (· < ·)) := by
  intro packets
  induction packets with
  | nil =>
    intro previousHost _ _
    cases previousHost <;> simp [times]
  | cons p packets ih =>
    obtain ⟨host, count⟩ := p
    intro previousHost hcounts hhosts
    obtain ⟨hcount, hcounts⟩ := List.forall_mem_cons.1 hcounts
    rw [List.map_cons, List.isChain_split] at hhosts
    obtain ⟨hhead, htail⟩ := hhosts
    have hle : ∀ p ∈ previousHost, p ≤ host := by
      rintro p rfl
      simpa using hhead
    have hfirst := packet_later hr hcount hle
    have hrest := ih (some host) hcounts htail
    obtain ⟨m, rfl⟩ : ∃ m, count = m + 1 := ⟨count - 1, by simp only at hcount; omega⟩
    rw [packetTimes_concat, ← List.append_assoc] at hfirst
    rw [times, packetTimes_concat, List.append_assoc, List.singleton_append, ← List.append_assoc,
      List.isChain_split, hfirst, List.map_cons, List.isChain_split]
    simp only [Option.map_some, Option.toList_some, List.singleton_append] at hrest
    rw [hrest]
    refine and_congr_left' ?_
    cases previousHost <;> simp

end Estimate

theorem isChain_lt_iff_ne {l : List ℕ} (h : l.IsChain (· ≤ ·)) : l.IsChain (· < ·) ↔ l.IsChain (· ≠ ·) := by
  induction l with
  | nil => simp
  | cons a l ih =>
    cases l with
    | nil => simp
    | cons b l =>
      rw [List.isChain_cons_cons] at h ⊢
      rw [List.isChain_cons_cons, ih h.2, h.1.lt_iff_ne]

variable {packets : List (ℕ × ℕ)}

/-- The estimate increases exactly when no packet has the host time of the one before it. -/
theorem estimate_increases (hg : Grouped samples packets) {r : ℚ} (hr : 0 < r) :
    (estimate r packets).IsChain (· < ·) ↔ (packets.map (·.1)).IsChain (· ≠ ·) := by
  rw [← isChain_lt_iff_ne hg.hosts]
  exact times_later hr packets none hg.counts hg.hosts

/-! ### The host times -/

theorem times_none (previousHost : Option ℕ) (k : ℕ) (packets : List (ℕ × ℕ)) :
    times none previousHost packets = (expand k packets).map fun s => (s.2.2 : ℚ) := by
  induction packets generalizing previousHost k with
  | nil => rfl
  | cons p packets ih =>
    obtain ⟨host, count⟩ := p
    rw [times, expand, List.map_append, ih (some host) (k + 1)]
    simp [packetTimes, packetShapes, timeOf]

theorem hosts_times (hg : Grouped samples packets) :
    times none none packets = samples.map fun s => (s.hostMonotonicNs : ℚ) := by
  rw [times_none none 0, ← hg.shapes, List.map_map]
  rfl

theorem expand_hosts_mem {k : ℕ} {s : ℕ × ℕ × ℕ} (h : s ∈ expand k packets) : s.2.2 ∈ packets.map (·.1) := by
  induction packets generalizing k with
  | nil => simp [expand] at h
  | cons p packets ih =>
    rw [expand, List.mem_append] at h
    rcases h with h | h
    · simp only [packetShapes, List.mem_map] at h
      obtain ⟨-, -, rfl⟩ := h
      simp
    · exact List.mem_cons_of_mem _ (ih h)

theorem expand_hosts (k : ℕ) (h : (packets.map (·.1)).Pairwise (· ≤ ·)) :
    (expand k packets).Pairwise fun a b => a.2.2 ≤ b.2.2 := by
  induction packets generalizing k with
  | nil => simp [expand]
  | cons p packets ih =>
    obtain ⟨host, count⟩ := p
    rw [List.map_cons, List.pairwise_cons] at h
    rw [expand, List.pairwise_append]
    refine ⟨?_, ih (k + 1) h.2, ?_⟩
    · rw [packetShapes, List.pairwise_map]
      exact List.pairwise_of_forall fun _ _ => le_rfl
    · intro a ha b hb
      simp only [packetShapes, List.mem_map] at ha
      obtain ⟨-, -, rfl⟩ := ha
      exact h.1 _ (expand_hosts_mem hb)

theorem hosts_sorted (hg : Grouped samples packets) :
    (samples.map fun s => (s.hostMonotonicNs : ℚ)).Pairwise (· ≤ ·) := by
  have h := expand_hosts 0 hg.hosts.pairwise
  rw [← hg.shapes, List.pairwise_map] at h
  rw [List.pairwise_map]
  exact h.imp fun hle => Nat.cast_le.2 hle

end Conductor.Timestamps
