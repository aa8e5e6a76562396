import Mathlib.Data.List.Sort
import Mathlib.Data.Rat.Floor

/-! The inputs of a timestamp export and its two passes over the IMU stream. A generator
is the list of what it yields with the error that ends it, if any; floats are exact
rationals. The JSON records are taken as parsed: their closed form, their encoding and
their digests are checked before these functions see them, and an error of that part is
the error that ends the record stream. -/

namespace Conductor.Timestamps

inductive TimestampError where
  | session (code message : String)
  /-- `_UseHostTimes`. -/
  | useHostTimes
  /-- A failed assertion or an index out of range. -/
  | fault
  deriving DecidableEq

def invalid (message : String) : TimestampError := .session "session_timestamps_invalid" message

def empty (message : String) : TimestampError := .session "session_timestamps_empty" message

abbrev Stream (α : Type) := List α × Option TimestampError

/-! ### Frames -/

structure Frame where
  frameIndex : ℕ
  sourceSequence : ℕ
  hostMonotonicNs : ℕ
  deriving DecidableEq

/-- The loop of `_load_frames`. -/
def loadFrom (ending : Option TimestampError) (expectedCount : ℕ) :
    ℕ → ℤ → List Frame → Except TimestampError (List Frame)
  | index, _, [] =>
    match ending with
    | some e => .error e
    | none => if index ≠ expectedCount then .error (invalid "frames.count 与文件行数不一致") else .ok []
  | index, previousHost, record :: rest =>
    if record.frameIndex ≠ index ∨ (record.hostMonotonicNs : ℤ) ≤ previousHost then
      .error (invalid s!"frames:{index + 1} 帧号或主机时间不递增")
    else (loadFrom ending expectedCount (index + 1) record.hostMonotonicNs rest).map (record :: ·)

def loadFrames (records : Stream Frame) (expectedCount : ℕ) : Except TimestampError (List Frame) :=
  loadFrom records.2 expectedCount 0 (-1) records.1

/-! ### IMU samples -/

inductive SyncQuality where
  | insufficient | degraded | good
  deriving DecidableEq

structure ImuRecord where
  sequence : ℕ
  packetSequence : ℕ
  sampleIndex : ℕ
  deviceTimestampRaw : ℕ
  deviceTicks : ℕ
  hostReadStartNs : ℕ
  hostReadEndNs : ℕ
  hostMonotonicNs : ℕ
  syncQuality : SyncQuality

structure Sample where
  sampleNumber : ℕ
  sequence : ℕ
  packetSequence : ℕ
  sampleIndex : ℕ
  deviceTimestampRaw : ℕ
  deviceTicks : ℕ
  hostMonotonicNs : ℕ
  syncQuality : SyncQuality

/-- The loop of `_iter_imu`; `previousSequence` is the sequence of the last record. -/
def iterImuFrom (ending : Option TimestampError) (expectedCount : ℕ) :
    ℕ → ℤ → List ImuRecord → Stream Sample
  | count, _, [] =>
    ([], ending.or (if count ≠ expectedCount then some (invalid "imu.sample_count 与文件行数不一致") else none))
  | index, previousSequence, r :: rest =>
    if (r.sequence : ℤ) ≠ previousSequence + 1 ∨ r.hostMonotonicNs < r.hostReadStartNs ∨
        r.hostReadEndNs < r.hostMonotonicNs then
      ([], some (invalid s!"imu:{index + 1} 序号或主机读取区间无效"))
    else
      let tail := iterImuFrom ending expectedCount (index + 1) r.sequence rest
      (⟨index, r.sequence, r.packetSequence, r.sampleIndex, r.deviceTimestampRaw, r.deviceTicks,
        r.hostMonotonicNs, r.syncQuality⟩ :: tail.1, tail.2)

/-- An empty file is an error of the record stream. -/
def iterImu (records : Stream ImuRecord) (expectedCount : ℕ) : Stream Sample :=
  if records.1 = [] ∧ records.2 = none then ([], some (empty "imu 为空"))
  else iterImuFrom records.2 expectedCount 0 (-1) records.1

/-! ### The first pass -/

/-- `sizes[count] += 1`. -/
def countSize : List (ℕ × ℕ) → ℕ → List (ℕ × ℕ)
  | [], size => [(size, 1)]
  | (s, frequency) :: rest, size =>
    if s = size then (s, frequency + 1) :: rest else (s, frequency) :: countSize rest size

structure Summarizing where
  packet : ℤ := -1
  host : ℕ := 0
  firstHost : ℕ := 0
  count : ℕ := 0
  total : ℕ := 0
  spool : List (ℕ × ℕ) := []
  sizes : List (ℕ × ℕ) := []

/-- Host time and size of a packet go to the spool. -/
def Summarizing.finishPacket (st : Summarizing) : Summarizing :=
  { st with spool := st.spool ++ [(st.host, st.count)], sizes := countSize st.sizes st.count }

/-- The part of the loop that a sample of another packet runs. -/
def Summarizing.nextPacket (st : Summarizing) (sample : Sample) : Except TimestampError Summarizing :=
  if (sample.packetSequence : ℤ) ≠ st.packet + 1 then
    .error (invalid "IMU packet_sequence 不连续")
  else if 0 ≤ st.packet then
    if sample.hostMonotonicNs < st.host then .error (invalid "IMU packet 主机时间倒退")
    else .ok { st.finishPacket with
      host := sample.hostMonotonicNs, count := 0, packet := sample.packetSequence }
  else .ok { st with
    firstHost := sample.hostMonotonicNs
    host := sample.hostMonotonicNs, count := 0, packet := sample.packetSequence }

def Summarizing.step (st : Summarizing) (sample : Sample) : Except TimestampError Summarizing := do
  let st ← if (sample.packetSequence : ℤ) ≠ st.packet then st.nextPacket sample else .ok st
  if sample.sampleIndex ≠ st.count ∨ sample.hostMonotonicNs ≠ st.host then
    .error (invalid "IMU packet 内索引或主机时间无效")
  else .ok { st with count := st.count + 1, total := st.total + 1 }

/-- The middle sizes: one entry for each of the two positions. -/
def middleSizes (low high : ℤ) : ℤ → List (ℕ × ℕ) → List ℕ
  | _, [] => []
  | cumulative, (size, frequency) :: rest =>
    ([low, high].filter fun position => cumulative ≤ position ∧ position < cumulative + frequency).map
      (fun _ => size) ++ middleSizes low high (cumulative + frequency) rest

structure PacketSummary where
  samples : ℕ
  packets : ℤ
  medianSamplesPerPacket : ℚ
  packetRateHz : Option ℚ
  recordRateHz : Option ℚ
  deriving DecidableEq

def Summarizing.summary (st : Summarizing) : Except TimestampError PacketSummary :=
  let st := st.finishPacket
  let packets := st.packet + 1
  let middle := middleSizes ((packets - 1) / 2) (packets / 2) 0
    (st.sizes.insertionSort fun a b => a.1 ≤ b.1)
  let perPacket : Option ℚ :=
    if packets % 2 ≠ 0 then middle.head?.map (↑) else some ((middle.sum : ℚ) / 2)
  let rate : Option ℚ :=
    if packets < 2 ∨ st.host ≤ st.firstHost then none
    else some ((packets - 1) * 1000000000 / (st.host - st.firstHost))
  match perPacket with
  | none => .error .fault
  | some perPacket => .ok ⟨st.total, packets, perPacket, rate, rate.map (· * perPacket)⟩

/-- The spool and the summary. -/
def packetSummary (samples : Stream Sample) : Except TimestampError (List (ℕ × ℕ) × PacketSummary) := do
  let st ← samples.1.foldlM Summarizing.step {}
  if let some e := samples.2 then throw e
  let summary ← st.summary
  return (st.finishPacket.spool, summary)

/-! ### The second pass -/

structure Timing where
  packet : ℤ := -1
  host : ℕ := 0
  count : ℕ := 0
  seen : ℕ := 0
  previousHost : Option ℕ := none
  previousTime : Option ℚ := none
  period : ℚ := 0
  spool : List (ℕ × ℕ)

/-- The period of a packet: the mean one, clipped to the time since the packet before it. -/
def clippedPeriod (rate : ℚ) (previousHost : Option ℕ) (host count : ℕ) : ℚ :=
  match previousHost with
  | none => 1000000000 / rate
  | some previous => min (1000000000 / rate) (((host : ℚ) - previous) / count)

/-- The part of the loop that a sample of another packet runs. -/
def Timing.nextPacket (rate : Option ℚ) (st : Timing) (sample : Sample) : Except TimestampError Timing :=
  if st.seen ≠ st.count ∨ (sample.packetSequence : ℤ) ≠ st.packet + 1 then
    .error (invalid "IMU packet 在读取间改变")
  else
    match st.spool with
    | [] => .error (invalid "IMU packet 在读取间增加")
    | (host, count) :: spool => .ok { st with
        host, count, spool
        packet := st.packet + 1
        seen := 0
        period := (rate.map (clippedPeriod · st.previousHost host count)).getD st.period
        previousHost := some host }

/-- The time of a sample: its host time when there is no rate, else counted back from it. -/
def Timing.when (rate : Option ℚ) (st : Timing) : ℚ :=
  match rate with
  | none => st.host
  | some _ => st.host - ((st.count : ℚ) - 1 - st.seen) * st.period

/-- The part of the loop that every sample runs. `strict` says whether its time must be later
than the one before it. -/
def Timing.emit (rate : Option ℚ) (strict : Bool) (st : Timing) (sample : Sample) :
    Except TimestampError ((Sample × ℚ) × Timing) :=
  if sample.sampleIndex ≠ st.seen ∨ sample.hostMonotonicNs ≠ st.host ∨ st.count ≤ st.seen then
    .error (invalid "IMU packet 在读取间改变")
  else if strict = true ∧ st.previousTime.any (st.when rate ≤ ·) then .error .useHostTimes
  else .ok ((sample, st.when rate), { st with seen := st.seen + 1, previousTime := some (st.when rate) })

def Timing.step (rate : Option ℚ) (strict : Bool) (st : Timing) (sample : Sample) :
    Except TimestampError ((Sample × ℚ) × Timing) := do
  let st ← if (sample.packetSequence : ℤ) ≠ st.packet then st.nextPacket rate sample else .ok st
  st.emit rate strict sample

def timedFrom (rate : Option ℚ) (strict : Bool) (ending : Option TimestampError) :
    Timing → List Sample → Stream (Sample × ℚ)
  | st, [] => ([], ending.or (if st.seen ≠ st.count ∨ st.spool ≠ [] then
      some (invalid "IMU packet 在读取间减少") else none))
  | st, sample :: rest =>
    match st.step rate strict sample with
    | .error e => ([], some e)
    | .ok (timed, st) =>
      let tail := timedFrom rate strict ending st rest
      (timed :: tail.1, tail.2)

/-- The rate counts only in the pass that estimates, and that pass is strict. -/
def timedSamples (samples : Stream Sample) (spool : List (ℕ × ℕ)) (rate : Option ℚ) (raw : Bool) :
    Stream (Sample × ℚ) :=
  let rate := if raw then none else rate
  timedFrom rate rate.isSome samples.2 { spool } samples.1

end Conductor.Timestamps
