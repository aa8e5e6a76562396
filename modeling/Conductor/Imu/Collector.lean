import Conductor.Imu.ClockFit
import Conductor.Lib.Double

/-! The two collectors of IMU packets: `State::observe_packet` of `imu.rs`, whose integers have the widths of the
release build, and `ImuCollector.read` of `collector.py` with `time_sync.py` and `protocol.py`, whose integers have
none. The floats of both are rationals. -/

namespace Conductor.Imu

/-- A packet without losses, read in an interval of the host clock. -/
structure PacketRead where
  payload : List UInt8
  hostReadStartNs : UInt64
  hostReadEndNs : UInt64
  length_payload : payload.length = 27
  ordered : hostReadStartNs ≤ hostReadEndNs
  bounded : hostReadEndNs.toNat < 2 ^ 63

structure RawVector3 where
  x : ℤ
  y : ℤ
  z : ℤ
  deriving DecidableEq

structure ImuSample where
  sequence : ℕ
  packetSequence : ℕ
  sampleIndex : ℕ
  deviceTimestampRaw : ℕ
  deviceTicks : ℕ
  hostReadStartNs : ℕ
  hostReadEndNs : ℕ
  hostMonotonicNs : ℕ
  accelerometer : RawVector3
  gyroscope : RawVector3
  syncOffsetNs : Option ℤ
  syncResidualNs : Option ℕ
  syncQuality : Quality
  deriving DecidableEq

structure ImuObservation where
  samples : List ImuSample
  droppedSamples : ℕ
  deriving DecidableEq

def modulus : ℕ := 2 ^ 24

def byte (payload : List UInt8) (i : ℕ) : UInt8 := payload.getD i 0

/-! ### imu.rs -/

namespace Native

def deviceTimestamp (payload : List UInt8) : UInt32 :=
  (byte payload 0).toUInt32 <<< 16 ||| (byte payload 1).toUInt32 <<< 8 ||| (byte payload 2).toUInt32

/-- `i16::from_be_bytes`. -/
def fromBeBytes (high low : UInt8) : Int16 := Int16.ofBitVec (high.toBitVec ++ low.toBitVec)

/-- The chunk of two bytes with this index. -/
def axis (payload : List UInt8) (index : ℕ) : Int16 :=
  fromBeBytes (byte payload (3 + 2 * index)) (byte payload (3 + 2 * index + 1))

structure DecodedRawSample where
  sampleIndex : ℕ
  accelerometer : RawVector3
  gyroscope : RawVector3

structure DecodedPacket where
  deviceTimestampRaw : UInt32
  samples : List DecodedRawSample

def decodePacket (payload : List UInt8) : DecodedPacket :=
  let sample := fun index : ℕ =>
    let value := fun i => (axis payload (index * 6 + i)).toInt
    ⟨index, ⟨value 0, value 1, value 2⟩, ⟨value 3, value 4, value 5⟩⟩
  ⟨deviceTimestamp payload, [sample 0, sample 1]⟩

def invalidTimestamp : ImuError := ⟨"invalid_timestamp", "device time exceeds 24-bit range", false⟩

def timestampRegression : ImuError := ⟨"timestamp_regression", "device time regressed", true⟩

def saturatingAdd (a b : UInt64) : UInt64 := if a.toNat + b.toNat < 2 ^ 64 then a + b else UInt64.ofNat (2 ^ 64 - 1)

structure TimestampUnwrapper where
  raw : Option UInt64
  unwrapped : Option UInt64

def TimestampUnwrapper.update (u : TimestampUnwrapper) (raw : UInt64) :
    Except ImuError (UInt64 × TimestampUnwrapper) :=
  if modulus ≤ raw.toNat then .error invalidTimestamp
  else
    match u.raw with
    | none => .ok (raw, ⟨some raw, some raw⟩)
    | some previousRaw =>
      let delta := (raw + .ofNat modulus - previousRaw) % .ofNat modulus
      if delta = 0 then .ok (u.unwrapped.getD raw, u)
      else if .ofNat (modulus / 2) < delta then .error timestampRegression
      else
        let current := saturatingAdd (u.unwrapped.getD raw) delta
        .ok (current, ⟨some raw, some current⟩)

def add (s : TimeSynchronizer) (deviceTicks hostReadStartNs hostReadEndNs : UInt64) :
    Except ImuError (SyncEstimate × TimeSynchronizer) :=
  if hostReadEndNs < hostReadStartNs then .error invalidTimeEvidence
  else
    let hostNs := midpointNs hostReadStartNs hostReadEndNs
    let anchored := fun _ : Unit =>
      let kept := if s.points.length = windowPoints then s.points.tail else s.points
      let points := kept ++ [⟨deviceTicks, hostNs, (hostReadEndNs - hostReadStartNs) / 2⟩]
      (estimate points).map (·, ⟨points, some hostNs⟩)
    match s.points.getLast? with
    | none => anchored ()
    | some previous =>
      if deviceTicks < previous.deviceTicks ∨ ∃ last ∈ s.lastHostNs, hostNs ≤ last then .error nonMonotonicTime
      else if deviceTicks = previous.deviceTicks then .ok (insufficient, { s with lastHostNs := some hostNs })
      else anchored ()

structure State where
  unwrapper : TimestampUnwrapper
  synchronizer : TimeSynchronizer
  packetSequence : UInt64
  sampleSequence : UInt64

def State.open : State := ⟨⟨none, none⟩, .default, 0, 0⟩

/-- The state behind an error is not kept: `Collector::read` closes it. -/
def State.observePacket (s : State) (read : PacketRead) : Except ImuError (ImuObservation × State) := do
  let packet := decodePacket read.payload
  let (deviceTicks, unwrapper) ← s.unwrapper.update packet.deviceTimestampRaw.toUInt64
  let (estimate, synchronizer) ← add s.synchronizer deviceTicks read.hostReadStartNs read.hostReadEndNs
  let hostNs := midpointNs read.hostReadStartNs read.hostReadEndNs
  let samples := packet.samples.map fun raw => {
    sequence := (s.sampleSequence + .ofNat raw.sampleIndex).toNat
    packetSequence := s.packetSequence.toNat
    sampleIndex := raw.sampleIndex
    deviceTimestampRaw := packet.deviceTimestampRaw.toNat
    deviceTicks := deviceTicks.toNat
    hostReadStartNs := read.hostReadStartNs.toNat
    hostReadEndNs := read.hostReadEndNs.toNat
    hostMonotonicNs := hostNs.toNat
    accelerometer := raw.accelerometer
    gyroscope := raw.gyroscope
    syncOffsetNs := estimate.offsetNs
    syncResidualNs := estimate.residualNs
    syncQuality := estimate.quality }
  return (⟨samples, 0⟩, ⟨unwrapper, synchronizer, s.packetSequence + 1, s.sampleSequence + 2⟩)

end Native

/-! ### collector.py -/

namespace Python

/-- A big-endian `h`. -/
def short (high low : UInt8) : ℤ :=
  let word : ℤ := high.toNat * 256 + low.toNat
  if word < 32768 then word else word - 65536

def unpack : List UInt8 → List ℤ
  | high :: low :: rest => short high low :: unpack rest
  | _ => []

def invalidPacketLength (length : ℕ) : ImuError :=
  ⟨"invalid_packet_length", "XU IMU 包必须正好 27 字节，实际为 " ++ toString length, false⟩

/-- `int.from_bytes(..., "big")`. -/
def fromBytes (bytes : List UInt8) : ℕ := bytes.foldl (fun n b => n * 256 + b.toNat) 0

/-- `RawVector3(*axes)` of three; an `h` passes its check. -/
def rawVector3 (axes : List ℤ) : RawVector3 := ⟨axes.getD 0 0, axes.getD 1 0, axes.getD 2 0⟩

structure DecodedPacket where
  deviceTimestampRaw : ℕ
  samples : List Native.DecodedRawSample

def decodePacket (payload : List UInt8) : Except ImuError DecodedPacket :=
  if payload.length ≠ 27 then .error (invalidPacketLength payload.length)
  else
    let axes := unpack (payload.drop 3)
    let sample := fun index : ℕ =>
      let start := index * 6
      ⟨index, rawVector3 ((axes.drop start).take 3), rawVector3 ((axes.drop (start + 3)).take 3)⟩
    .ok ⟨fromBytes (payload.take 3), [sample 0, sample 1]⟩

def invalidTimestamp : ImuError := ⟨"invalid_timestamp", "设备时间超出 24-bit 范围", false⟩

def timestampStalled : ImuError := ⟨"timestamp_stalled", "设备时间没有更新", true⟩

def timestampRegression : ImuError := ⟨"timestamp_regression", "设备时间发生回退", true⟩

def invalidTimeEvidence : ImuError := ⟨"invalid_time_evidence", "设备时间或主机读取区间无效", false⟩

def nonMonotonicTime : ImuError := ⟨"non_monotonic_time", "同步证据必须严格前进", true⟩

def invalidClockFit : ImuError := ⟨"invalid_clock_fit", "设备时钟拟合斜率无效", false⟩

/-- `unwrapped` is not read before `raw` is set. -/
structure TimestampUnwrapper where
  raw : Option ℕ
  unwrapped : ℕ

def TimestampUnwrapper.update (u : TimestampUnwrapper) (raw : ℕ) (allowRepeated : Bool) :
    Except ImuError (ℕ × TimestampUnwrapper) :=
  if modulus ≤ raw then .error invalidTimestamp
  else
    match u.raw with
    | none => .ok (raw, ⟨some raw, raw⟩)
    | some previousRaw =>
      let delta := (((raw : ℤ) - previousRaw) % modulus).toNat
      if delta = 0 then if allowRepeated then .ok (u.unwrapped, u) else .error timestampStalled
      else if modulus / 2 < delta then .error timestampRegression
      else .ok (u.unwrapped + delta, ⟨some raw, u.unwrapped + delta⟩)

structure Point where
  deviceTicks : ℕ
  hostNs : ℕ
  uncertaintyNs : ℕ

def meanX (points : List Point) : ℚ := (points.map fun p => (p.deviceTicks : ℚ)).sum / points.length

def meanY (points : List Point) : ℚ := (points.map fun p => (p.hostNs : ℚ)).sum / points.length

def denominator (points : List Point) : ℚ := (points.map fun p => (p.deviceTicks - meanX points) ^ 2).sum

def scale (points : List Point) : ℚ :=
  (points.map fun p => (p.deviceTicks - meanX points) * (p.hostNs - meanY points)).sum / denominator points

def offset (points : List Point) : ℚ := meanY points - scale points * meanX points

def fitResidual (points : List Point) : ℚ :=
  (points.map fun p => |p.hostNs - (offset points + scale points * p.deviceTicks)|).foldl max 0

def uncertainty (points : List Point) : ℕ := (points.map (·.uncertaintyNs)).foldl max 0

/-- `estimate`; the tick rate and the drift, for which no rate is expected, are left out. -/
def estimate (points : List Point) : Except ImuError SyncEstimate :=
  if points.length < 3 then .ok insufficient
  else if denominator points = 0 then .ok insufficient
  else if scale points ≤ 0 then .error invalidClockFit
  else
    let residual := ⌈fitResidual points + uncertainty points⌉₊
    .ok ⟨some (roundHalfEven (offset points)), some residual, if 1000000 < residual then .degraded else .good⟩

structure TimeSynchronizer where
  points : List Point
  lastHostNs : Option ℕ

/-- `append` of a deque with `maxlen`. -/
def append (points : List Point) (point : Point) : List Point := (points ++ [point]).drop (points.length + 1 - 64)

def TimeSynchronizer.add (s : TimeSynchronizer) (deviceTicks hostReadStartNs hostReadEndNs : ℕ) :
    Except ImuError (SyncEstimate × TimeSynchronizer) :=
  if hostReadEndNs < hostReadStartNs then .error invalidTimeEvidence
  else
    let hostNs := (hostReadStartNs + hostReadEndNs) / 2
    let last := s.points.getLast?
    if ∃ previous ∈ last, deviceTicks < previous.deviceTicks ∨ ∃ l ∈ s.lastHostNs, hostNs ≤ l then
      .error nonMonotonicTime
    else if ∃ previous ∈ last, deviceTicks = previous.deviceTicks then
      .ok (insufficient, { s with lastHostNs := some hostNs })
    else
      let points := append s.points ⟨deviceTicks, hostNs, (hostReadEndNs - hostReadStartNs) / 2⟩
      (estimate points).map (·, ⟨points, some hostNs⟩)

structure ImuCollector where
  unwrapper : TimestampUnwrapper
  synchronizer : TimeSynchronizer
  packetSequence : ℕ
  sampleSequence : ℕ

def ImuCollector.new : ImuCollector := ⟨⟨none, 0⟩, ⟨[], none⟩, 0, 0⟩

/-- The collector is closed behind an error. -/
def ImuCollector.read (c : ImuCollector) (read : PacketRead) : Except ImuError (ImuObservation × ImuCollector) := do
  let packet ← decodePacket read.payload
  let (deviceTicks, unwrapper) ← c.unwrapper.update packet.deviceTimestampRaw true
  let (estimate, synchronizer) ←
    c.synchronizer.add deviceTicks read.hostReadStartNs.toNat read.hostReadEndNs.toNat
  let hostNs := (read.hostReadStartNs.toNat + read.hostReadEndNs.toNat) / 2
  let samples := packet.samples.mapIdx fun i raw => {
    sequence := c.sampleSequence + i
    packetSequence := c.packetSequence
    sampleIndex := raw.sampleIndex
    deviceTimestampRaw := packet.deviceTimestampRaw
    deviceTicks
    hostReadStartNs := read.hostReadStartNs.toNat
    hostReadEndNs := read.hostReadEndNs.toNat
    hostMonotonicNs := hostNs
    accelerometer := raw.accelerometer
    gyroscope := raw.gyroscope
    syncOffsetNs := estimate.offsetNs
    syncResidualNs := estimate.residualNs
    syncQuality := estimate.quality }
  return (⟨samples, 0⟩, ⟨unwrapper, synchronizer, c.packetSequence + 1, c.sampleSequence + samples.length⟩)

end Python

/-! ### A sequence of reads -/

/-- The observations, and the code of the error that ends them. -/
def collect {S : Type} (read : S → PacketRead → Except ImuError (ImuObservation × S)) :
    S → List PacketRead → List ImuObservation × Option String
  | _, [] => ([], none)
  | s, packet :: rest =>
    match read s packet with
    | .error e => ([], some e.code)
    | .ok (observation, t) =>
      let later := collect read t rest
      (observation :: later.1, later.2)

end Conductor.Imu
