import Mathlib.Algebra.Order.Ring.Int

/-! The focus controls of a camera: `ControlDevice` of v4l2.rs as far as `focus_status` and `set_focus`
go. Every ioctl of a call may fail, by its place in the call; one that fails leaves the controls. -/

namespace Conductor.Camera

structure QueryControl where
  minimum : ℤ
  maximum : ℤ
  step : ℤ
  defaultValue : ℤ

/-- What the camera declares; a control that is disabled or has another type is not declared. -/
structure Device where
  focus : Option QueryControl
  auto : Bool

/-- `CID_FOCUS_ABSOLUTE` and `CID_FOCUS_AUTO`. -/
structure Controls where
  focus : ℤ
  auto : Bool
  deriving DecidableEq

inductive Fault where
  /-- `EINVAL` or `ENOTTY`. -/
  | unsupported
  | failed

abbrev Faults := ℕ → Option Fault

/-- The controls, and how many ioctls the call has made. -/
structure Io where
  controls : Controls
  calls : ℕ := 0

/-- An error is its code. -/
def Control (α : Type) : Type := Faults → Io → Except String α × Io

namespace Control

variable {α β : Type}

protected def pure (a : α) : Control α := fun _ io => (.ok a, io)

def fail (code : String) : Control α := fun _ io => (.error code, io)

protected def bind (m : Control α) (k : α → Control β) : Control β := fun faults io =>
  match m faults io with
  | (.ok a, io) => k a faults io
  | (.error code, io) => (.error code, io)

instance : Monad Control where
  pure := Control.pure
  bind := Control.bind

end Control

variable {α : Type}

def ioctl (onFault : Fault → Except String α) (f : Controls → α × Controls) : Control α := fun faults io =>
  match faults io.calls with
  | some fault => (onFault fault, { io with calls := io.calls + 1 })
  | none => (.ok (f io.controls).1, ⟨(f io.controls).2, io.calls + 1⟩)

def queryControl (declared : Option α) : Control (Option α) :=
  ioctl (fun
    | .unsupported => .ok none
    | .failed => .error "camera_focus_query_failed") fun c => (declared, c)

def getControl (read : Controls → α) : Control α :=
  ioctl (fun _ => .error "camera_focus_get_failed") fun c => (read c, c)

def setControl (write : Controls → Controls) : Control Unit :=
  ioctl (fun _ => .error "camera_focus_set_failed") fun c => ((), write c)

/-- The step is at least one. -/
def Device.queryFocus (d : Device) : Control (Option QueryControl) :=
  queryControl (d.focus.map fun q => { q with step := max q.step 1 })

def Device.queryAuto (d : Device) : Control (Option Unit) := queryControl (if d.auto then some () else none)

structure FocusStatus where
  value : ℤ
  minimum : ℤ
  maximum : ℤ
  step : ℤ
  default : ℤ
  autoSupported : Bool
  autoEnabled : Option Bool

def Device.focusStatus (d : Device) : Control (Option FocusStatus) := do
  match ← d.queryFocus with
  | none => pure none
  | some focus => do
    let value ← getControl Controls.focus
    match ← d.queryAuto with
    | none => pure (some ⟨value, focus.minimum, focus.maximum, focus.step, focus.defaultValue, false, none⟩)
    | some _ => do
      let auto ← getControl Controls.auto
      pure (some ⟨value, focus.minimum, focus.maximum, focus.step, focus.defaultValue, true, some auto⟩)

/-- The check of a value in 32-bit arithmetic. -/
def QueryControl.accepts (q : QueryControl) (next : ℤ) : Bool :=
  q.minimum ≤ next && next ≤ q.maximum && ((next - q.minimum).bmod (2 ^ 32)).tmod q.step == 0

def setAuto (enabled : Bool) : Control Unit := setControl fun c => { c with auto := enabled }

def requestAuto (supported : Bool) : Option Bool → Control Unit
  | none => pure ()
  | some enabled => if supported then setAuto enabled else .fail "camera_focus_auto_unsupported"

def requestValue (focus : QueryControl) (supported : Bool) (autoEnabled : Option Bool) : Option ℤ → Control Unit
  | none => pure ()
  | some next =>
    if focus.accepts next then do
      (if supported && autoEnabled != some false then setAuto false else pure ())
      setControl fun c => { c with focus := next }
    else .fail "invalid_camera_focus"

/-- The auto focus that is asked for is set before the value is looked at. -/
def Device.setFocus (d : Device) (value : Option ℤ) (autoEnabled : Option Bool) : Control FocusStatus := do
  match ← d.queryFocus with
  | none => .fail "camera_focus_unsupported"
  | some focus => do
    let auto ← d.queryAuto
    requestAuto auto.isSome autoEnabled
    requestValue focus auto.isSome autoEnabled value
    match ← d.focusStatus with
    | none => .fail "camera_focus_unsupported"
    | some status => pure status

/-- `valid_camera_focus_status`, of what `focus_status_dict` makes. -/
def validCameraFocusStatus (s : FocusStatus) : Bool :=
  !(s.minimum > s.maximum || s.step ≤ 0 || !(s.minimum ≤ s.value && s.value ≤ s.maximum) ||
    (s.value - s.minimum).fmod s.step ≠ 0 || !(s.minimum ≤ s.default && s.default ≤ s.maximum) ||
    (!s.autoSupported && s.autoEnabled.isSome))

end Conductor.Camera
