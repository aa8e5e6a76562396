import Conductor.Lib.Asking
import Conductor.Lib.Runs
import Mathlib.Data.List.Basic
import Mathlib.Algebra.Order.Ring.Int

/-! The V4L2 capture of `v4l2.rs`. The driver answers every call of a run by its place among all the calls, so a
`Driver` is any behaviour of it. A mapping is its length, and the frame that a callback receives is a slice of one.
`u64` additions wrap, as they do in a release build. -/

namespace Conductor.Camera.V4l2

open Asking Asking.Prog

/-! ### The calls -/

/-- An `io::Error`. -/
structure OsError where
  raw : Option ℤ
  text : String

def eagain : ℤ := 11

def einval : ℤ := 22

def enotty : ℤ := 25

structure CaptureError where
  code : String
  message : String
  deriving DecidableEq

/-- `CaptureError::io`. -/
def CaptureError.io (code operation : String) (error : OsError) : CaptureError := ⟨code, s!"{operation}: {error.text}"⟩

def invalidState (message : String) : CaptureError := ⟨"invalid_state", message⟩

inductive Request where
  | queryCap
  | setFormat (width height format : UInt32)
  | setParm (fps : UInt32)
  | getParm
  | requestBuffers (count : UInt32)
  | queryBuffer (index : UInt32)
  | queueBuffer (index : UInt32)
  | dequeueBuffer
  | streamOn
  | streamOff
  | queryControl (id : UInt32)
  | getControl (id : UInt32)
  | setControl (id : UInt32) (value : Int32)
  deriving DecidableEq

/-- A dequeued `v4l2_buffer`. The driver numbers the frames by a counter of which the buffer has 32 bits. -/
structure Dequeued where
  index : UInt32
  bytesUsed : UInt32
  flags : UInt32
  seconds : Int64
  micros : Int64
  counter : ℕ

def Dequeued.raw (buffer : Dequeued) : UInt32 := .ofNat buffer.counter

/-- A `v4l2_queryctrl`. -/
structure ControlReply where
  type : UInt32
  flags : UInt32
  minimum : Int32
  maximum : Int32
  step : Int32
  default : Int32

/-- What the driver writes into the payload of a call that succeeds. -/
def Request.Reply : Request → Type
  | queryCap => UInt32 × UInt32
  | setFormat .. => UInt32 × UInt32 × UInt32
  | setParm _ | getParm => UInt32 × UInt32
  | requestBuffers _ => UInt32
  | queryBuffer _ => UInt32 × UInt32
  | dequeueBuffer => Dequeued
  | queryControl _ => ControlReply
  | getControl _ => Int32
  | queueBuffer _ | streamOn | streamOff | setControl .. => Unit

/-- The answers to the call with a number. -/
structure Driver where
  open_ : ℕ → Except OsError ℤ
  ioctl : ℕ → (request : Request) → Except OsError request.Reply
  mmap : ℕ → (length offset : ℕ) → Except OsError Unit
  poll : ℕ → Except OsError Bool
  clock : ℕ → Except OsError UInt64

/-- What a callback receives: the first `length` bytes of a mapping. -/
structure Frame where
  sequence : UInt64
  hostNs : UInt64
  index : ℕ
  length : ℕ
  counter : ℕ
  deriving DecidableEq

/-- The calls of a run in their order, with the mappings that are dropped and the frames that are delivered. -/
inductive Event where
  | opened (fd : Option ℤ)
  | asked (fd : ℤ) (request : Request)
  | queued (fd : ℤ) (index : ℕ) (ok : Bool)
  | dequeued (fd : ℤ) (index : Option ℕ)
  | streamOn (fd : ℤ) (ok : Bool)
  | streamOff (fd : ℤ) (ok : Bool)
  | mapped (fd : ℤ) (length : Option ℕ)
  | unmapped
  | polled (fd : ℤ)
  | clock
  | delivered (frame : Frame)
  | closed (fd : ℤ)
  deriving DecidableEq

structure Capture where
  fd : Option ℤ := none
  buffers : List ℕ := []
  streaming : Bool := false
  lastRawSequence : Option UInt32 := none
  sequenceEpoch : UInt64 := 0
  lastTimestampNs : Option UInt64 := none
  lastBufferFlags : UInt32 := 0
  lastDequeueMonotonicNs : UInt64 := 0
  deriving DecidableEq

structure Machine where
  capture : Capture := {}
  events : List Event := []
  deriving DecidableEq

def Machine.note (m : Machine) (event : Event) : Machine := { m with events := m.events ++ [event] }

abbrev Io (α : Type) : Type := Prog Driver Machine CaptureError α

def setCapture (f : Capture → Capture) : Io Unit := modify fun m => { m with capture := f m.capture }

def note (event : Event) : Io Unit := modify fun m => m.note event

def isOk {ε α : Type} : Except ε α → Bool
  | .ok _ => true
  | .error _ => false

/-- An `ioctl` as a run notes it. -/
def Event.ofIoctl (fd : ℤ) : (request : Request) → Except OsError request.Reply → Event
  | .queueBuffer index, reply => .queued fd index.toNat (isOk reply)
  | .dequeueBuffer, .ok (buffer : Dequeued) => .dequeued fd buffer.index.toNat
  | .dequeueBuffer, .error _ => .dequeued fd none
  | .streamOn, reply => .streamOn fd (isOk reply)
  | .streamOff, reply => .streamOff fd (isOk reply)
  | request, _ => .asked fd request

/-- `io.ioctl`, whose error is for the caller. -/
def ioctl (fd : ℤ) (request : Request) : Io (Except OsError request.Reply) :=
  ask fun driver m =>
    let reply := driver.ioctl m.events.length request
    (reply, m.note (.ofIoctl fd request reply))

def mmap (fd : ℤ) (length offset : ℕ) : Io (Except OsError Unit) :=
  ask fun driver m =>
    let reply := driver.mmap m.events.length length offset
    (reply, m.note (.mapped fd (if isOk reply then some length else none)))

def poll (fd : ℤ) : Io (Except OsError Bool) :=
  ask fun driver m => (driver.poll m.events.length, m.note (.polled fd))

def monotonicNs : Io (Except OsError UInt64) :=
  ask fun driver m => (driver.clock m.events.length, m.note .clock)

/-- `map_err` with `CaptureError::io`, and `?`. -/
def orFail {α : Type} (code operation : String) : Except OsError α → Io α
  | .ok a => pure a
  | .error e => fail (.io code operation e)

/-! ### The controls -/

def controlTypeInteger : UInt32 := 1

def controlTypeBoolean : UInt32 := 2

def controlFlagDisabled : UInt32 := 1

def cidFocusAbsolute : UInt32 := 0x009a090a

def cidFocusAuto : UInt32 := 0x009a090c

structure QueryControl where
  minimum : Int32
  maximum : Int32
  step : Int32
  default : Int32

structure FocusStatus where
  value : Int32
  minimum : Int32
  maximum : Int32
  step : Int32
  default : Int32
  autoSupported : Bool
  autoEnabled : Option Bool

/-- `EINVAL` or `ENOTTY`. -/
def OsError.unsupported (error : OsError) : Bool := error.raw == some einval || error.raw == some enotty

def queryControl (fd : ℤ) (id expectedType : UInt32) : Io (Option QueryControl) := do
  match ← ioctl fd (.queryControl id) with
  | .error e =>
    if e.unsupported then return none
    else fail (.io "camera_focus_query_failed" "VIDIOC_QUERYCTRL" e)
  | .ok (reply : ControlReply) =>
    if reply.flags &&& controlFlagDisabled ≠ 0 || reply.type ≠ expectedType then return none
    else return some ⟨reply.minimum, reply.maximum, max reply.step 1, reply.default⟩

def getControl (fd : ℤ) (id : UInt32) : Io Int32 := do
  let reply ← ioctl fd (.getControl id)
  orFail "camera_focus_get_failed" "VIDIOC_G_CTRL" reply

def setControl (fd : ℤ) (id : UInt32) (value : Int32) : Io Unit := do
  let reply ← ioctl fd (.setControl id value)
  orFail "camera_focus_set_failed" "VIDIOC_S_CTRL" reply

/-- `ControlDevice::focus_status`. -/
def controlFocusStatus (fd : ℤ) : Io (Option FocusStatus) := do
  match ← queryControl fd cidFocusAbsolute controlTypeInteger with
  | none => return none
  | some focus =>
    let value ← getControl fd cidFocusAbsolute
    match ← queryControl fd cidFocusAuto controlTypeBoolean with
    | none => return some ⟨value, focus.minimum, focus.maximum, focus.step, focus.default, false, none⟩
    | some _ =>
      let enabled ← getControl fd cidFocusAuto
      return some ⟨value, focus.minimum, focus.maximum, focus.step, focus.default, true, some (enabled ≠ 0)⟩

/-- `if let Some(enabled) = auto_enabled`. -/
def requestAuto (fd : ℤ) (supported : Bool) : Option Bool → Io Unit
  | none => pure ()
  | some enabled =>
    if supported then setControl fd cidFocusAuto (if enabled then 1 else 0)
    else fail ⟨"camera_focus_auto_unsupported", "V4L2 device does not expose focus_auto"⟩

/-- `if let Some(next) = value`. -/
def requestValue (fd : ℤ) (focus : QueryControl) (supported : Bool) (autoEnabled : Option Bool) : Option Int32 → Io Unit
  | none => pure ()
  | some next =>
    if next < focus.minimum || focus.maximum < next || (next - focus.minimum) % focus.step ≠ 0 then
      fail ⟨"invalid_camera_focus",
        s!"focus value must be between {focus.minimum} and {focus.maximum} with step {focus.step}"⟩
    else do
      if supported && autoEnabled ≠ some false then setControl fd cidFocusAuto 0
      setControl fd cidFocusAbsolute next

/-- `ControlDevice::set_focus`. -/
def controlSetFocus (fd : ℤ) (value : Option Int32) (autoEnabled : Option Bool) : Io FocusStatus := do
  match ← queryControl fd cidFocusAbsolute controlTypeInteger with
  | none => fail ⟨"camera_focus_unsupported", "V4L2 device does not expose focus_absolute"⟩
  | some focus =>
    let auto ← queryControl fd cidFocusAuto controlTypeBoolean
    requestAuto fd auto.isSome autoEnabled
    requestValue fd focus auto.isSome autoEnabled value
    match ← controlFocusStatus fd with
    | none => fail ⟨"camera_focus_unsupported", "focus control disappeared"⟩
    | some status => return status

/-! ### Capture -/

/-- `self.fd()`. -/
def getFd : Io ℤ := do
  match (← get).capture.fd with
  | some fd => return fd
  | none => fail (invalidState "V4L2 capture is closed")

/-- `self.call`. -/
def call (request : Request) (operation : String) : Io request.Reply := do
  let fd ← getFd
  let reply ← ioctl fd request
  orFail "v4l2_ioctl_failed" operation reply

def focusStatus : Io (Option FocusStatus) := getFd >>= controlFocusStatus

def setFocus (value : Option Int32) (autoEnabled : Option Bool) : Io FocusStatus := do
  let fd ← getFd
  controlSetFocus fd value autoEnabled

/-- The head of `close`. -/
def switchOff : Io Unit := do
  if (← get).capture.streaming then
    let _ ← attempt (call .streamOff "VIDIOC_STREAMOFF")
    setCapture fun c => { c with streaming := false }
  else return

/-- The mappings are dropped, and the descriptor that is taken is closed. -/
def release : Io Unit := do
  setCapture fun c => { c with buffers := [] }
  note .unmapped
  match (← get).capture.fd with
  | some fd =>
    setCapture fun c => { c with fd := none }
    note (.closed fd)
  | none => return

def close : Io Unit := do
  switchOff
  release

def capVideoCapture : UInt32 := 1

def capStreaming : UInt32 := 0x04000000

def capDeviceCaps : UInt32 := 0x80000000

structure Config where
  width : UInt32
  height : UInt32
  fps : UInt32
  format : UInt32
  bufferCount : UInt32

def checkCapabilities : Io Unit := do
  let (capability, deviceCaps) ← call .queryCap "VIDIOC_QUERYCAP"
  let effective := if capability &&& capDeviceCaps ≠ 0 then deviceCaps else capability
  if effective &&& capVideoCapture = 0 || effective &&& capStreaming = 0 then
    fail ⟨"unsupported_device", "V4L2 node must support capture and streaming"⟩

def selectFormat (config : Config) : Io Unit := do
  let (width, height, format) ← call (.setFormat config.width config.height config.format) "VIDIOC_S_FMT"
  if (width, height, format) ≠ (config.width, config.height, config.format) then
    fail ⟨"unsupported_mode", "driver did not accept the exact capture format"⟩

/-- A driver of a fixed rate has no `VIDIOC_S_PARM`; its interval is read. -/
def selectParameters (fps : UInt32) : Io (UInt32 × UInt32) := do
  match ← ioctl (← getFd) (.setParm fps) with
  | .ok parameters => return parameters
  | .error e =>
    if e.unsupported then
      let parameters ← ioctl (← getFd) .getParm
      orFail "unsupported_mode" "cannot verify frame rate with VIDIOC_G_PARM" parameters
    else fail (.io "v4l2_ioctl_failed" "VIDIOC_S_PARM" e)

def checkInterval (fps : UInt32) (parameters : UInt32 × UInt32) : Io Unit :=
  let (numerator, denominator) := parameters
  if numerator = 0 || denominator = 0 || denominator.toUInt64 ≠ numerator.toUInt64 * fps.toUInt64 then
    fail ⟨"unsupported_mode", s!"driver returned frame interval {numerator}/{denominator}s, expected 1/{fps}s"⟩
  else pure ()

def mapBuffer (index : UInt32) : Io Unit := do
  let (offset, length) ← call (.queryBuffer index) "VIDIOC_QUERYBUF"
  if length = 0 then fail ⟨"buffer_setup_failed", "empty mmap buffer"⟩
  else
    let mapping ← mmap (← getFd) length.toNat offset.toNat
    orFail "buffer_setup_failed" "mmap" mapping
    setCapture fun c => { c with buffers := c.buffers ++ [length.toNat] }

def configure (config : Config) : Io Unit := do
  checkCapabilities
  selectFormat config
  let parameters ← selectParameters config.fps
  checkInterval config.fps parameters
  let (actual : UInt32) ← call (.requestBuffers config.bufferCount) "VIDIOC_REQBUFS"
  if actual < 2 then fail ⟨"buffer_setup_failed", "driver returned fewer than two mmap buffers"⟩
  else each (fun index => mapBuffer (.ofNat index)) (List.range actual.toNat)

def fourccMjpg : UInt32 := 0x47504a4d

def fourccJpeg : UInt32 := 0x4745504a

/-- The encodings; their letters may be of either case. -/
def fourcc (encoding : String) : Option UInt32 :=
  let letters := encoding.toList.map Char.toLower
  if letters = "mjpg".toList ∨ letters = "mjpeg".toList ∨ letters = "motionjpeg".toList then some fourccMjpg
  else if letters = "jpeg".toList then some fourccJpeg
  else none

structure Params where
  device : String
  width : UInt32
  height : UInt32
  fps : UInt32
  encoding : String
  bufferCount : UInt32

/-- `io.open`. -/
def openDevice : Io (Except OsError ℤ) :=
  ask fun driver m => (driver.open_ m.events.length, m.note (.opened (driver.open_ m.events.length).toOption))

/-- `with_io`; after an error there is no capture. -/
def withIo (params : Params) : Io Unit :=
  if params.width = 0 || params.height = 0 || params.fps = 0 || params.bufferCount < 2 then
    fail ⟨"unsupported_mode", "invalid capture configuration"⟩
  else
    match fourcc params.encoding with
    | none => fail ⟨"unsupported_mode", "unsupported V4L2 encoding"⟩
    | some format =>
      if '\x00' ∈ params.device.toList then fail ⟨"open_failed", "device path contains NUL"⟩
      else do
        let fd ← openDevice
        let fd ← orFail "open_failed" "open" fd
        setCapture fun _ => { fd := some fd }
        match ← attempt (configure ⟨params.width, params.height, params.fps, format, params.bufferCount⟩) with
        | .ok () => return
        | .error e =>
          close
          fail e

def startInner : Io Unit := do
  each (fun index => call (.queueBuffer (.ofNat index)) "VIDIOC_QBUF") (List.range (← get).capture.buffers.length)
  let _ ← call .streamOn "VIDIOC_STREAMON"
  setCapture fun c => { c with streaming := true }

def start : Io Unit := do
  if (← get).capture.streaming then fail (invalidState "V4L2 capture already started")
  else
    match ← attempt startInner with
    | .ok () => return
    | .error e =>
      close
      fail e

/-- `source_sequence` of a capture: the sequence with the epoch. -/
def Capture.sourceSequence (self : Capture) (raw : UInt32) : Except CaptureError UInt64 :=
  match self.lastRawSequence with
  | none => .ok self.sequenceEpoch
  | some previous =>
    if raw < previous then
      if 0x80000000 < previous - raw then .ok (self.sequenceEpoch + 0x100000000)
      else .error ⟨"sequence_regression", "V4L2 source sequence regressed"⟩
    else .ok self.sequenceEpoch

def sourceSequence (raw : UInt32) : Io UInt64 := do
  let epoch ← settle ((← get).capture.sourceSequence raw)
  setCapture fun c => { c with sequenceEpoch := epoch, lastRawSequence := some raw }
  return epoch + raw.toUInt64

def bufFlagError : UInt32 := 0x40

def bufFlagTimestampMonotonic : UInt32 := 0x2000

def Dequeued.driverMonotonic (buffer : Dequeued) : Bool := buffer.flags &&& bufFlagTimestampMonotonic ≠ 0

/-- The time that the driver gave, or zero. -/
def Dequeued.driverNs (buffer : Dequeued) : UInt64 :=
  if buffer.driverMonotonic && 0 ≤ buffer.seconds && 0 ≤ buffer.micros then
    buffer.seconds.toUInt64 * 1000000000 + buffer.micros.toUInt64 * 1000
  else 0

/-- The repair of a time that is not behind the last one. -/
def hostTime (previous : Option UInt64) (driverMonotonic : Bool) (value : UInt64) : Except CaptureError UInt64 :=
  match previous with
  | none => .ok value
  | some previous =>
    if value ≤ previous then
      if driverMonotonic then .error ⟨"timestamp_regression", "V4L2 monotonic timestamp repeated or regressed"⟩
      else .ok (max value (previous + 1))
    else .ok value

def clockFallback (value : UInt64) : Io UInt64 := do
  if value = 0 then
    let ns ← monotonicNs
    orFail "clock_failed" "clock_gettime" ns
  else return value

def timestamp (buffer : Dequeued) : Io UInt64 := do
  let value ← clockFallback buffer.driverNs
  let value ← settle (hostTime (← get).capture.lastTimestampNs buffer.driverMonotonic value)
  setCapture fun c => { c with lastTimestampNs := some value }
  return value

/-- A timeout is in nanoseconds. -/
def wait (timeout : ℕ) : Io Unit := do
  if !(← get).capture.streaming then fail (invalidState "V4L2 capture is not started")
  else if timeout = 0 then fail ⟨"invalid_argument", "timeout must be positive"⟩
  else
    match ← poll (← getFd) with
    | .error e =>
      close
      fail (.io "poll_failed" "poll" e)
    | .ok readable => if readable then return else fail ⟨"frame_timeout", "V4L2 frame timed out"⟩

section Read

variable {T : Type} (process : Frame → Except CaptureError T)

/-- The closure of `read_ready_with`. -/
def readFrame (buffer : Dequeued) (length : ℕ) : Io T := do
  if buffer.flags &&& bufFlagError ≠ 0 then fail ⟨"bad_frame", "V4L2 marked the buffer damaged"⟩
  else if buffer.bytesUsed = 0 || length < buffer.bytesUsed.toNat then
    fail ⟨"bad_frame", "invalid V4L2 payload length"⟩
  else
    let sequence ← sourceSequence buffer.raw
    let hostNs ← timestamp buffer
    let frame : Frame := ⟨sequence, hostNs, buffer.index.toNat, buffer.bytesUsed.toNat, buffer.counter⟩
    note (.delivered frame)
    settle (process frame)

/-- What `read_ready_with` does with a buffer whose index is one of the mappings. -/
def readBuffer (buffer : Dequeued) (length : ℕ) : Io T := do
  let result ← attempt (readFrame process buffer length)
  match ← attempt (call (.queueBuffer buffer.index) "VIDIOC_QBUF") with
  | .error e =>
    close
    fail e
  | .ok _ =>
    match result with
    | .error e =>
      close
      fail e
    | .ok value => return value

/-- `read_ready_with` behind the dequeue. -/
def readDequeued (buffer : Dequeued) : Io T := do
  setCapture fun c => { c with lastBufferFlags := buffer.flags }
  let ns ← monotonicNs
  let ns ← orFail "clock_failed" "clock_gettime" ns
  setCapture fun c => { c with lastDequeueMonotonicNs := ns }
  match (← get).capture.buffers[buffer.index.toNat]? with
  | none =>
    close
    fail ⟨"bad_frame", "invalid V4L2 buffer index"⟩
  | some length => readBuffer process buffer length

def readReadyWith : Io T := do
  if !(← get).capture.streaming then fail (invalidState "V4L2 capture is not started")
  else
    match ← ioctl (← getFd) .dequeueBuffer with
    | .error e =>
      if e.raw = some eagain then fail ⟨"frame_timeout", "V4L2 frame was no longer ready"⟩
      else
        close
        fail (.io "v4l2_ioctl_failed" "VIDIOC_DQBUF" e)
    | .ok buffer => readDequeued process buffer

end Read

def stop : Io Unit := do
  if !(← get).capture.streaming then return
  else
    match ← attempt (call .streamOff "VIDIOC_STREAMOFF") with
    | .ok _ => setCapture fun c => { c with streaming := false }
    | .error e =>
      close
      fail e

/-! ### Runs -/

inductive Phase where
  | unopened
  | live
  | gone
  deriving DecidableEq

structure World where
  phase : Phase := .unopened
  machine : Machine := {}
  deriving DecidableEq

inductive Op where
  | open_ (params : Params)
  | start
  | wait (timeout : ℕ)
  | read (process : Frame → Except CaptureError Unit)
  | focusStatus
  | setFocus (value : Option Int32) (autoEnabled : Option Bool)
  | stop
  | close
  | drop

def Op.program : Op → Io Unit
  | .open_ params => withIo params
  | .start => V4l2.start
  | .wait timeout => V4l2.wait timeout
  | .read process => readReadyWith process
  | .focusStatus => do let _ ← V4l2.focusStatus
  | .setFocus value autoEnabled => do let _ ← V4l2.setFocus value autoEnabled
  | .stop => V4l2.stop
  | .close | .drop => V4l2.close

/-- A capture lives from the open that succeeds to its drop. -/
def Op.after (driver : Driver) (m : Machine) : Op → Phase
  | .open_ params => if isOk (withIo params driver m).1 then .live else .gone
  | .drop => .gone
  | _ => .live

def Op.enabled (op : Op) (phase : Phase) : Bool :=
  match op, phase with
  | .open_ _, .unopened => true
  | .open_ _, _ => false
  | _, .live => true
  | _, _ => false

def step (driver : Driver) (w : World) (op : Op) : Option World :=
  if op.enabled w.phase then some ⟨op.after driver w.machine, (op.program driver w.machine).2⟩ else none

end Conductor.Camera.V4l2
