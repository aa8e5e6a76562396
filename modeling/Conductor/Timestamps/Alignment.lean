import Conductor.Timestamps.Packets
import Conductor.Lib.Double
import Conductor.Lib.Nearest

/-! The merge of frames with timed samples, and the export around it. The file of the
export is the list of its rows; each of the two attempts truncates it first. The interval
statistics and the summary of the deltas are left out. -/

namespace Conductor.Timestamps

open Nearest

structure Row where
  frameIndex : ℕ
  sourceSequence : ℕ
  leftEyeHostMonotonicNs : ℕ
  rightEyeHostMonotonicNs : ℕ
  nearestImuSampleNumber : ℕ
  nearestImuHostMonotonicNs : ℕ
  nearestImuEstimatedMonotonicNs : ℤ
  nearestImuDeltaMs : ℚ
  imuDeviceTimestampRaw : ℕ
  imuDeviceTicks : ℕ
  imuPacketSequence : ℕ
  imuSampleIndex : ℕ
  imuSyncQuality : SyncQuality
  deriving DecidableEq

def alignmentRow (frame : Frame) (chosen : Sample × ℚ) : Row :=
  let imu := chosen.1
  ⟨frame.frameIndex, frame.sourceSequence, frame.hostMonotonicNs, frame.hostMonotonicNs,
    imu.sampleNumber, imu.hostMonotonicNs, roundHalfEven chosen.2,
    (chosen.2 - frame.hostMonotonicNs) / 1000000, imu.deviceTimestampRaw, imu.deviceTicks,
    imu.packetSequence, imu.sampleIndex, imu.syncQuality⟩

def sampleTime (timed : Sample × ℚ) : ℚ := timed.2

/-- The loop over the frames. The samples end when the cursor moves past the last one;
after the last frame the rest of them is read. -/
def alignFrom (ending : Option TimestampError) : Cursor (Sample × ℚ) → List Frame → Stream Row
  | _, [] => ([], ending)
  | c, frame :: rest =>
    let next := c.advance sampleTime frame.hostMonotonicNs
    match if next.after.isNone ∧ c.after.isSome then ending else none with
    | some e => ([], some e)
    | none =>
      match next.choose sampleTime frame.hostMonotonicNs with
      | none => ([], some .fault)
      | some chosen =>
        let tail := alignFrom ending next rest
        (alignmentRow frame chosen :: tail.1, tail.2)

def alignmentRows (frames : List Frame) (samples : Stream (Sample × ℚ)) : Stream Row :=
  match samples.1 with
  | [] => ([], samples.2.or (some (empty "会话没有可对齐的 IMU 样本")))
  | _ :: _ => alignFrom samples.2 (start samples.1) frames

/-- One attempt: truncate the file, write the rows, and tell how the attempt ended. -/
def writeRows (_file : List Row) (rows : Stream Row) : List Row × Option TimestampError :=
  let file : List Row := []
  (file ++ rows.1, rows.2)

/-- The loop `for raw in (False, True)`: the file, or the error that the export raises. -/
def exportRows (attempt : Bool → Stream Row) : List Bool → List Row → Except TimestampError (List Row)
  | [], file => .ok file
  | raw :: rest, file =>
    match writeRows file (attempt raw) with
    | (file, some .useHostTimes) => exportRows attempt rest file
    | (_, some e) => .error e
    | (file, none) => .ok file

/-- The rows of the report on one session: its frame and IMU records, and the counts that
the manifest gives for them. -/
def buildSessionTimestampReport (frameRecords : Stream Frame) (imuRecords : Stream ImuRecord)
    (frameCount sampleCount : ℕ) : Except TimestampError (List Row) := do
  let frames ← loadFrames frameRecords frameCount
  let (spool, imu) ← packetSummary (iterImu imuRecords sampleCount)
  exportRows (fun raw => alignmentRows frames
    (timedSamples (iterImu imuRecords sampleCount) spool imu.recordRateHz raw)) [false, true] []

end Conductor.Timestamps
