import Conductor.Timestamps.Alignment
import Conductor.Timestamps.TimingLaw

/-! The export of an accepted session: one row for each frame, in order, with a sample
nearest to it; and one time base for all rows. -/

namespace Conductor.Timestamps

open Nearest

/-! ### The frames -/

variable {expectedCount : ℕ} {frames : List Frame}

theorem loadFrom_increase {ending : Option TimestampError} {records : List Frame}
    {index : ℕ} {previousHost : ℤ} (h : loadFrom ending expectedCount index previousHost records = .ok frames) :
    frames = records ∧ (previousHost :: records.map fun f => (f.hostMonotonicNs : ℤ)).IsChain (· < ·) := by
  induction records generalizing index previousHost frames with
  | nil =>
    unfold loadFrom at h
    split at h
    · cases h
    · split_ifs at h
      cases h
      simp
  | cons record records ih =>
    unfold loadFrom at h
    split_ifs at h with hbad
    simp only [not_or, not_le] at hbad
    cases hrest : loadFrom ending expectedCount (index + 1) record.hostMonotonicNs records with
    | error e => simp [hrest, Except.map] at h
    | ok rest =>
      rw [hrest] at h
      cases h
      obtain ⟨rfl, hchain⟩ := ih hrest
      exact ⟨rfl, List.isChain_cons_cons.2 ⟨hbad.2, hchain⟩⟩

theorem loadFrames_increase {records : Stream Frame} (h : loadFrames records expectedCount = .ok frames) :
    frames.Pairwise fun a b => a.hostMonotonicNs < b.hostMonotonicNs := by
  obtain ⟨rfl, hchain⟩ := loadFrom_increase h
  have hpairwise := (List.pairwise_cons.1 hchain.pairwise).2
  rw [List.pairwise_map] at hpairwise
  exact hpairwise.imp fun hlt => Nat.cast_lt.1 hlt

/-! ### The samples -/

theorem iterImu_nonempty {records : Stream ImuRecord}
    (h : (iterImu records expectedCount).1 = []) : (iterImu records expectedCount).2 ≠ none := by
  unfold iterImu at h ⊢
  split
  · nofun
  next hne =>
  rw [if_neg hne] at h
  obtain ⟨samples, ending⟩ := records
  cases samples with
  | nil =>
    cases ending with
    | none => simp at hne
    | some e => simp [iterImuFrom]
  | cons r rest =>
    unfold iterImuFrom at h ⊢
    split
    · nofun
    · next hok =>
      rw [if_neg hok] at h
      cases h

theorem times_length (rate : Option ℚ) (k : ℕ) (packets : List (ℕ × ℕ)) (previousHost : Option ℕ) :
    (times rate previousHost packets).length = (expand k packets).length := by
  induction packets generalizing previousHost k with
  | nil => rfl
  | cons p packets ih =>
    rw [times, expand, List.length_append, List.length_append, ih (k + 1)]
    simp [packetTimes, packetShapes]

/-- One time base for a whole export: the estimate if it increases, else the host times. -/
def timeBase (rate : Option ℚ) (samples : List Sample) (packets : List (ℕ × ℕ)) : List ℚ :=
  let hosts := samples.map fun s => (s.hostMonotonicNs : ℚ)
  match rate with
  | none => hosts
  | some r => if (estimate r packets).IsChain (· < ·) then estimate r packets else hosts

section Timed

variable {samples : List Sample} {packets : List (ℕ × ℕ)}

theorem estimate_length (hg : Grouped samples packets) (rate : Option ℚ) :
    samples.length = (times rate none packets).length := by
  rw [times_length rate 0, ← hg.shapes, List.length_map]

theorem timeBase_length (hg : Grouped samples packets) (rate : Option ℚ) :
    samples.length = (timeBase rate samples packets).length := by
  unfold timeBase
  split
  · simp
  · split
    · exact estimate_length hg _
    · simp

theorem timeBase_sorted (hg : Grouped samples packets) (rate : Option ℚ) :
    (timeBase rate samples packets).Pairwise (· ≤ ·) := by
  unfold timeBase
  split
  · exact hosts_sorted hg
  · split
    · next hchain => exact hchain.pairwise.imp le_of_lt
    · exact hosts_sorted hg

theorem timedFrom_start (hg : Grouped samples packets) (rate : Option ℚ) :
    timedFrom rate false none { spool := packets } samples = (samples.zip (times rate none packets), none) :=
  timedFrom_lax rate packets 0 samples { spool := packets } rfl rfl rfl hg.counts hg.shapes

/-- The pass in host times. -/
theorem timedSamples_hosts (hg : Grouped samples packets) (rate : Option ℚ) :
    timedSamples (samples, none) packets rate true =
      (samples.zip (samples.map fun s => (s.hostMonotonicNs : ℚ)), none) := by
  rw [← hosts_times hg]
  exact timedFrom_start hg none

theorem timedSamples_raw (hg : Grouped samples packets) (raw : Bool) :
    timedSamples (samples, none) packets none raw =
      (samples.zip (samples.map fun s => (s.hostMonotonicNs : ℚ)), none) := by
  rw [← timedSamples_hosts hg none]
  cases raw <;> rfl

/-- The pass that estimates. -/
theorem timedSamples_estimate (hg : Grouped samples packets) (r : ℚ) :
    ((estimate r packets).IsChain (· < ·) →
      timedSamples (samples, none) packets (some r) false = (samples.zip (estimate r packets), none)) ∧
    (¬ (estimate r packets).IsChain (· < ·) →
      (timedSamples (samples, none) packets (some r) false).2 = some .useHostTimes) := by
  have hlater : Later none (samples.zip (estimate r packets)) ↔ (estimate r packets).IsChain (· < ·) := by
    have hzip : (samples.zip (estimate r packets)).map (·.2) = estimate r packets :=
      List.map_snd_zip (estimate_length hg (some r)).ge
    rw [Later, hzip]
    rfl
  have hstrict := timedFrom_strict (some r) (timedFrom_start hg (some r))
  rw [← hlater]
  exact hstrict

end Timed

/-! ### The merge -/

/-- A stream that ends in an error ends the merge in it. -/
theorem alignFrom_error (e : TimestampError) : ∀ (frames : List Frame) (c : Cursor (Sample × ℚ)),
    c.after.isSome = true → (alignFrom (some e) c frames).2 = some e := by
  intro frames
  induction frames with
  | nil =>
    intro c _
    rfl
  | cons frame frames ih =>
    intro c hc
    simp only [alignFrom, hc, and_true]
    cases hafter : (c.advance sampleTime frame.hostMonotonicNs).after with
    | none => simp
    | some a =>
      simp only [Option.isNone_some, Bool.false_eq_true, ↓reduceIte]
      have hchoose : ∃ chosen, (c.advance sampleTime (frame.hostMonotonicNs : ℚ)).choose sampleTime
          frame.hostMonotonicNs = some chosen := by
        unfold Cursor.choose
        rw [hafter]
        cases (c.advance sampleTime (frame.hostMonotonicNs : ℚ)).before with
        | none => exact ⟨a, rfl⟩
        | some b =>
          simp only
          split
          · exact ⟨b, rfl⟩
          · exact ⟨a, rfl⟩
      obtain ⟨chosen, hchosen⟩ := hchoose
      rw [hchosen]
      exact ih _ (by rw [hafter]; rfl)

/-- The row says which frame it is of and which sample was chosen, at what time. -/
structure Describes (row : Row) (frame : Frame) (s : Sample × ℚ) : Prop where
  source : row.frameIndex = frame.frameIndex ∧ row.sourceSequence = frame.sourceSequence
  eyes : row.leftEyeHostMonotonicNs = frame.hostMonotonicNs ∧ row.rightEyeHostMonotonicNs = frame.hostMonotonicNs
  sample : row.nearestImuSampleNumber = s.1.sampleNumber ∧ row.nearestImuHostMonotonicNs = s.1.hostMonotonicNs
  time : row.nearestImuEstimatedMonotonicNs = roundHalfEven s.2 ∧
    row.nearestImuDeltaMs * 1000000 = s.2 - frame.hostMonotonicNs
  device : row.imuDeviceTimestampRaw = s.1.deviceTimestampRaw ∧ row.imuDeviceTicks = s.1.deviceTicks
  packet : row.imuPacketSequence = s.1.packetSequence ∧ row.imuSampleIndex = s.1.sampleIndex
  quality : row.imuSyncQuality = s.1.syncQuality

theorem alignmentRow_describes (frame : Frame) (s : Sample × ℚ) : Describes (alignmentRow frame s) frame s where
  source := ⟨rfl, rfl⟩
  eyes := ⟨rfl, rfl⟩
  sample := ⟨rfl, rfl⟩
  time := ⟨rfl, div_mul_cancel₀ _ (by decide)⟩
  device := ⟨rfl, rfl⟩
  packet := ⟨rfl, rfl⟩
  quality := rfl

/-- The row of a frame: a sample of the stream, nearest to the frame. -/
def NearestRow (timed : List (Sample × ℚ)) (frame : Frame) (row : Row) : Prop :=
  ∃ s ∈ timed, Describes row frame s ∧
    ∀ s' ∈ timed, |s.2 - frame.hostMonotonicNs| ≤ |s'.2 - frame.hostMonotonicNs|

variable {timed : List (Sample × ℚ)} {attempt : Bool → Stream Row}

theorem alignFrom_nearest (hne : timed ≠ []) (hsorted : timed.Pairwise fun a b => sampleTime a ≤ sampleTime b) :
    ∀ (frames : List Frame) (c : Cursor (Sample × ℚ)), Placed timed c →
    (∀ b ∈ c.before, ∀ f ∈ frames, sampleTime b < f.hostMonotonicNs) →
    frames.Pairwise (fun a b => a.hostMonotonicNs < b.hostMonotonicNs) →
    ∃ rows, alignFrom none c frames = (rows, none) ∧ List.Forall₂ (NearestRow timed) frames rows := by
  intro frames
  induction frames with
  | nil =>
    intro c _ _ _
    exact ⟨[], rfl, .nil⟩
  | cons frame frames ih =>
    intro c hplaced hbefore hframes
    rw [List.pairwise_cons] at hframes
    have hplaced' : Placed timed (c.advance sampleTime frame.hostMonotonicNs) := placed_advance _ hplaced
    have haround : Around sampleTime (c.advance sampleTime frame.hostMonotonicNs) frame.hostMonotonicNs :=
      around_advance fun b hb => hbefore b hb frame List.mem_cons_self
    obtain ⟨s, hs, hchoose, hnearest⟩ := choose_nearest hsorted hplaced' haround hne
    obtain ⟨rows, hrows, hall⟩ := ih _ hplaced' (fun b hb f hf =>
      (haround.before b hb).trans (by exact_mod_cast hframes.1 f hf)) hframes.2
    refine ⟨alignmentRow frame s :: rows, ?_, .cons ⟨s, hs, alignmentRow_describes frame s, hnearest⟩ hall⟩
    simp [alignFrom, hchoose, hrows]

theorem alignmentRows_error {samples : Stream (Sample × ℚ)} {e : TimestampError}
    (h : samples.2 = some e) : (alignmentRows frames samples).2 = some e := by
  unfold alignmentRows
  split
  · simp [h]
  · next s rest hs =>
    rw [h, hs]
    exact alignFrom_error e frames _ rfl

theorem alignmentRows_nearest (hne : timed ≠ []) (hsorted : timed.Pairwise fun a b => sampleTime a ≤ sampleTime b)
    (hframes : frames.Pairwise fun a b => a.hostMonotonicNs < b.hostMonotonicNs) :
    ∃ rows, alignmentRows frames (timed, none) = (rows, none) ∧ List.Forall₂ (NearestRow timed) frames rows := by
  have h := alignFrom_nearest hne hsorted frames (start timed) (placed_start timed)
  cases timed with
  | nil => exact absurd rfl hne
  | cons s rest =>
    exact h (by simp [start]) hframes

/-! ### The export -/

theorem exportRows_kept {raw : Bool} {rest : List Bool} {file rows : List Row}
    (h : attempt raw = (rows, none)) : exportRows attempt (raw :: rest) file = .ok rows := by
  simp [exportRows, writeRows, h]

theorem exportRows_abandoned {raw : Bool} {rest : List Bool} {file : List Row}
    (h : (attempt raw).2 = some .useHostTimes) :
    exportRows attempt (raw :: rest) file = exportRows attempt rest (attempt raw).1 := by
  simp [exportRows, writeRows, h]

/-- The export of an accepted session: one row for each frame, nearest in one time base, and
the estimate is that base exactly when no packet has the host time of the one before it. -/
theorem report_aligned {frameRecords : Stream Frame} {imuRecords : Stream ImuRecord}
    {frameCount sampleCount : ℕ} {frames : List Frame} {spool : List (ℕ × ℕ)} {imu : PacketSummary}
    (hframes : loadFrames frameRecords frameCount = .ok frames)
    (himu : packetSummary (iterImu imuRecords sampleCount) = .ok (spool, imu)) :
    let samples := (iterImu imuRecords sampleCount).1
    Grouped samples spool ∧
    (∃ rows, buildSessionTimestampReport frameRecords imuRecords frameCount sampleCount = .ok rows ∧
      List.Forall₂ (NearestRow (samples.zip (timeBase imu.recordRateHz samples spool))) frames rows) ∧
    ∀ r, imu.recordRateHz = some r →
      ((estimate r spool).IsChain (· < ·) ↔ (spool.map (·.1)).IsChain (· ≠ ·)) := by
  intro samples
  obtain ⟨hend, hsamples, hg, hrate⟩ := packetSummary_ok iterImu_nonempty himu
  refine ⟨hg, ?_, fun r hr => estimate_increases hg (hrate r hr)⟩
  have hstream : iterImu imuRecords sampleCount = (samples, none) := Prod.ext rfl hend
  rw [hstream] at himu
  have hlength := timeBase_length hg imu.recordRateHz
  have hne : samples.zip (timeBase imu.recordRateHz samples spool) ≠ [] := by
    intro hnil
    have := congrArg List.length hnil
    rw [List.length_zip, ← hlength, min_self] at this
    exact hsamples (List.eq_nil_of_length_eq_zero this)
  have hsorted : (samples.zip (timeBase imu.recordRateHz samples spool)).Pairwise
      fun a b => sampleTime a ≤ sampleTime b := by
    have h := timeBase_sorted hg imu.recordRateHz
    rwa [← List.map_snd_zip hlength.ge, List.pairwise_map] at h
  obtain ⟨rows, hrows, hall⟩ := alignmentRows_nearest hne hsorted (loadFrames_increase hframes)
  refine ⟨rows, ?_, hall⟩
  simp only [buildSessionTimestampReport, hframes, himu, bind, Except.bind, hstream]
  cases hrec : imu.recordRateHz with
  | none =>
    apply exportRows_kept
    rw [timedSamples_raw hg, ← hrows, hrec]
    rfl
  | some r =>
    rw [hrec] at hrows
    obtain ⟨hkeep, habandon⟩ := timedSamples_estimate hg r
    by_cases hchain : (estimate r spool).IsChain (· < ·)
    · apply exportRows_kept
      rw [hkeep hchain, ← hrows, timeBase, if_pos hchain]
    · rw [exportRows_abandoned (alignmentRows_error (habandon hchain))]
      apply exportRows_kept
      rw [timedSamples_hosts hg, ← hrows, timeBase, if_neg hchain]

/-- Two packets with the same host time: the estimate is abandoned. -/
def sampleImu : List ImuRecord :=
  [⟨0, 0, 0, 7, 7, 0, 100, 100, .good⟩, ⟨1, 0, 1, 8, 8, 0, 100, 100, .good⟩,
    ⟨2, 1, 0, 9, 9, 0, 100, 100, .good⟩, ⟨3, 2, 0, 11, 11, 0, 160, 160, .good⟩]

def sampleFrames : List Frame := [⟨0, 0, 90⟩, ⟨1, 3, 150⟩]

def sampleRows : List Row :=
  [⟨0, 0, 90, 90, 0, 100, 100, 1 / 100000, 7, 7, 0, 0, .good⟩, ⟨1, 3, 150, 150, 3, 160, 160, 1 / 100000, 11, 11, 2, 0, .good⟩]

theorem report_aligned_sample :
    buildSessionTimestampReport (sampleFrames, none) (sampleImu, none) 2 4 = .ok sampleRows ∧
    List.Forall₂ (NearestRow ((iterImu (sampleImu, none) 4).1.zip
      (timeBase (some (100000000 / 3)) (iterImu (sampleImu, none) 4).1 [(100, 2), (100, 1), (160, 1)])))
      sampleFrames sampleRows := by
  obtain ⟨-, ⟨rows, hrows, hall⟩, -⟩ := report_aligned
    (show loadFrames (sampleFrames, none) 2 = .ok sampleFrames by decide +kernel)
    (show packetSummary (iterImu (sampleImu, none) 4) =
      .ok ([(100, 2), (100, 1), (160, 1)], ⟨4, 3, 1, some (100000000 / 3), some (100000000 / 3)⟩) by decide +kernel)
  have hsame : buildSessionTimestampReport (sampleFrames, none) (sampleImu, none) 2 4 = .ok sampleRows := by
    decide +kernel
  cases hrows.symm.trans hsame
  exact ⟨hsame, hall⟩

end Conductor.Timestamps
