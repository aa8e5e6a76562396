import Conductor.Camera.V4l2
import Mathlib.Data.List.Induction

/-! What a capture asks of its driver, for every behaviour of the driver. A monitor reads the calls of a run:
nothing is called on a closed descriptor, no mapping is dropped while the stream is on, no buffer is taken while
another one is held, and every frame is a slice of its mapping that follows the last one. -/

namespace Conductor.Camera.V4l2

open Asking Asking.Prog Runs

/-! ### The monitor -/

structure Device where
  fd : Option ℤ := none
  closed : Bool := false
  streaming : Bool := false
  mapped : List ℕ := []
  held : Option ℕ := none
  last : Option Frame := none

/-- A frame is later than the last one, and its number is further by what the counter is. -/
def Follows (last : Option Frame) (frame : Frame) : Prop :=
  ∀ before ∈ last, before.hostNs < frame.hostNs ∧
    (before.counter ≤ frame.counter → frame.counter - before.counter < 2 ^ 31 →
      frame.sequence = before.sequence + UInt64.ofNat (frame.counter - before.counter))

instance (last : Option Frame) (frame : Frame) : Decidable (Follows last frame) :=
  inferInstanceAs (Decidable (∀ before ∈ last, _))

/-- The slice lies in a mapping. -/
def Within (mapped : List ℕ) (frame : Frame) : Prop := ∃ length ∈ mapped[frame.index]?, frame.length ≤ length

instance (mapped : List ℕ) (frame : Frame) : Decidable (Within mapped frame) :=
  match h : mapped[frame.index]? with
  | none => isFalse fun ⟨length, hlength, _⟩ => by simp [h] at hlength
  | some length => decidable_of_iff (frame.length ≤ length) (by simp [Within, h])

namespace Device

def giveBack (d : Device) (index : ℕ) (ok : Bool) : Device :=
  if ok ∧ d.held = some index then { d with held := none } else d

/-- What may be done next; a stream counts as off once that was asked for. -/
def step (d : Device) : Event → Option Device
  | .opened fd => if d.fd = none ∧ d.closed = false then some { d with fd } else none
  | .asked fd _ | .polled fd => if d.fd = some fd then some d else none
  | .mapped fd length => if d.fd = some fd then some { d with mapped := d.mapped ++ length.toList } else none
  | .queued fd index ok =>
    if d.fd = some fd ∧ (d.streaming = false ∨ d.held = some index) then some (d.giveBack index ok) else none
  | .dequeued fd none => if d.fd = some fd then some d else none
  | .dequeued fd (some index) => if d.fd = some fd ∧ d.held = none then some { d with held := some index } else none
  | .streamOn fd ok => if d.fd = some fd then some { d with streaming := d.streaming || ok } else none
  | .streamOff fd _ => if d.fd = some fd then some { d with streaming := false } else none
  | .unmapped => if d.streaming = false then some { d with mapped := [] } else none
  | .clock => some d
  | .delivered frame =>
    if d.held = some frame.index ∧ Within d.mapped frame ∧ Follows d.last frame then some { d with last := some frame }
    else none
  | .closed fd => if d.fd = some fd then some { d with fd := none, closed := true } else none

end Device

def Event.opens : Event → Bool
  | .opened (some _) => true
  | _ => false

def Event.closes : Event → Bool
  | .closed _ => true
  | _ => false

/-- What every operation has to keep. -/
structure Safe (driver : Driver) (w : World) (op : Op) (t : World) : Prop where
  /-- The calls are allowed, and every buffer was given back or the capture is closed. -/
  calls : ∃ d, run Device.step {} t.machine.events = some d ∧ d.fd = t.machine.capture.fd ∧
    (d.held = none ∨ t.machine.capture.fd = none)
  /-- The descriptor is closed once, and at the drop at the latest. -/
  descriptor : t.machine.events.countP Event.opens ≤ 1 ∧
    t.machine.events.countP Event.closes ≤ t.machine.events.countP Event.opens ∧
    (t.phase = .gone → t.machine.events.countP Event.closes = t.machine.events.countP Event.opens)
  failedRead : ∀ process, op = .read process → ∀ e, (readReadyWith process driver w.machine).1 = .error e →
    e.code ≠ "frame_timeout" → t.machine.capture.fd = none

/-- A dequeued buffer that comes to the question of its time, which the clock has to answer. -/
structure AsksClock (driver : Driver) (m : Machine) (buffer : Dequeued) (ns : UInt64) : Prop where
  index : ∃ length ∈ m.capture.buffers[buffer.index.toNat]?, buffer.bytesUsed.toNat ≤ length
  intact : buffer.flags &&& bufFlagError = 0
  payload : buffer.bytesUsed ≠ 0
  sequence : isOk (m.capture.sourceSequence buffer.raw) = true
  monotonic : buffer.driverMonotonic = false
  clock : driver.clock (m.events.length + 2) = .ok ns

/-- A read is made of a capture that has started or is closed, the clock answers behind a dequeue, and it is not
asked for a time behind the last one there is. -/
structure Sound (driver : Driver) (m : Machine) : Prop where
  started : m.capture.fd ≠ none → m.capture.streaming = true
  clock : m.capture.streaming = true → ∀ buffer, driver.ioctl m.events.length .dequeueBuffer = .ok buffer →
    isOk (driver.clock (m.events.length + 1)) = true
  room : m.capture.streaming = true → ∀ buffer, driver.ioctl m.events.length .dequeueBuffer = .ok buffer →
    ∀ ns, AsksClock driver m buffer ns → isOk (driver.clock (m.events.length + 1)) = true →
      m.capture.lastTimestampNs ≠ some (.ofNat (2 ^ 64 - 1))

/-- What the driver, the clock and the caller may not do. -/
def Permitted (driver : Driver) (w : World) : Op → World → Prop
  | .read _, _ => Sound driver w.machine
  | _, _ => True

/-! ### The capture beside the monitor -/

/-- The monitor has accepted the calls so far and sees the capture as it is. -/
structure Core (m : Machine) (d : Device) : Prop where
  run : run Device.step {} m.events = some d
  fd : d.fd = m.capture.fd
  streaming : d.streaming = true → m.capture.streaming = true
  mapped : d.mapped = m.capture.buffers
  started : m.capture.streaming = true → m.capture.fd ≠ none
  closed : m.capture.fd ≠ none → d.closed = false

/-- The counters are those of the last frame. -/
structure Agrees (last : Option Frame) (c : Capture) : Prop where
  raw : c.lastRawSequence = last.map fun frame => .ofNat frame.counter
  time : c.lastTimestampNs = last.map Frame.hostNs
  sequence : ∀ frame ∈ last, frame.sequence = c.sequenceEpoch + (UInt32.ofNat frame.counter).toUInt64

/-- Between two operations. -/
def Inv (m : Machine) : Prop := ∃ d, Core m d ∧ (m.capture.fd ≠ none → Agrees d.last m.capture ∧ d.held = none)

/-- The capture is closed. -/
def Shut (m : Machine) : Prop := (∃ d, Core m d) ∧ m.capture.fd = none

theorem Shut.inv {m : Machine} (h : Shut m) : Inv m := by
  obtain ⟨⟨d, hd⟩, hfd⟩ := h
  exact ⟨d, hd, fun hne => absurd hfd hne⟩

section Core

variable {m : Machine} {d t : Device} {fd : ℤ}

/-- A call of which the capture keeps no trace. -/
theorem Core.note (h : Core m d) {event : Event} (hstep : d.step event = some t) (hfd : t.fd = d.fd)
    (hstreaming : t.streaming = d.streaming) (hmapped : t.mapped = d.mapped) (hclosed : t.closed = d.closed) :
    Core (m.note event) t where
  run := run_append_eq_some.2 ⟨d, h.run, by simp [run_cons, hstep]⟩
  fd := hfd.trans h.fd
  streaming hon := h.streaming (hstreaming.symm.trans hon)
  mapped := hmapped.trans h.mapped
  started := h.started
  closed hne := hclosed.trans (h.closed hne)

theorem Core.fd_eq (h : Core m d) (hfd : m.capture.fd = some fd) : d.fd = some fd := h.fd.trans hfd

theorem Core.off (h : Core m d) (hoff : m.capture.streaming = false) : d.streaming = false := by
  cases hd : d.streaming with
  | false => rfl
  | true => rw [h.streaming hd] at hoff; cases hoff

/-- A call that the monitor lets pass with an open descriptor. -/
theorem Core.asked (h : Core m d) (hfd : m.capture.fd = some fd) (request : Request) :
    Core (m.note (.asked fd request)) d :=
  h.note (if_pos (h.fd_eq hfd)) rfl rfl rfl rfl

end Core

variable {E : CaptureError → Machine → Prop} {Q : Unit → Machine → Prop}

@[simp] theorem wp_setCapture {r : Driver} (f : Capture → Capture) {m : Machine} :
    Wp (setCapture f) r Q E m ↔ Q () { m with capture := f m.capture } := Iff.rfl

@[simp] theorem wp_note {r : Driver} (event : Event)
    {m : Machine} : Wp (note event) r Q E m ↔ Q () (m.note event) := Iff.rfl

theorem wp_getFd {r : Driver} {Q : ℤ → Machine → Prop} {m : Machine} : Wp getFd r Q E m ↔
      (∀ fd, m.capture.fd = some fd → Q fd m) ∧ (m.capture.fd = none → E (invalidState "V4L2 capture is closed") m) := by
  simp only [getFd, wp_bind, wp_get]
  cases m.capture.fd <;> simp

variable {operation : String}

theorem wp_orFail {α : Type} {r : Driver} {code : String} {x : Except OsError α} {Q : α → Machine → Prop}
    {m : Machine} : Wp (orFail code operation x) r Q E m ↔
      (∀ a, x = .ok a → Q a m) ∧ ∀ e, x = .error e → E (.io code operation e) m := by
  cases x <;> simp [orFail]

theorem wp_call {r : Driver} {request : Request} {Q : request.Reply → Machine → Prop}
    {m : Machine} : Wp (call request operation) r Q E m ↔ (∀ fd, m.capture.fd = some fd →
        (∀ a, r.ioctl m.events.length request = .ok a → Q a (m.note (.ofIoctl fd request (.ok a)))) ∧
        ∀ e, r.ioctl m.events.length request = .error e →
          E (.io "v4l2_ioctl_failed" operation e) (m.note (.ofIoctl fd request (.error e)))) ∧
      (m.capture.fd = none → E (invalidState "V4L2 capture is closed") m) := by
  simp only [call, wp_bind, wp_getFd, ioctl, wp_ask, wp_orFail]
  refine and_congr_left fun _ => forall_congr' fun fd => imp_congr_right fun _ => ?_
  cases r.ioctl m.events.length request <;> simp

section Close

variable {m : Machine} {d : Device} {fd : ℤ}

theorem Core.streamOff (h : Core m d) (hfd : m.capture.fd = some fd) (ok : Bool) :
    Core { m.note (.streamOff fd ok) with capture := { m.capture with streaming := false } }
      { d with streaming := false } where
  run := run_append_eq_some.2 ⟨d, h.run, by simp [run_cons, Device.step, h.fd_eq hfd]⟩
  fd := h.fd
  streaming := nofun
  mapped := h.mapped
  started := nofun
  closed := h.closed

theorem Core.unmap (h : Core m d) (hstreaming : m.capture.streaming = false) :
    Core (Machine.note { m with capture := { m.capture with buffers := [] } } .unmapped) { d with mapped := [] } where
  run := run_append_eq_some.2 ⟨d, h.run, by simp [run_cons, Device.step, h.off hstreaming]⟩
  fd := h.fd
  streaming := h.streaming
  mapped := rfl
  started := h.started
  closed := h.closed

theorem Core.shut (h : Core m d) (hfd : m.capture.fd = some fd) (hstreaming : m.capture.streaming = false) :
    Core (Machine.note { m with capture := { m.capture with fd := none } } (.closed fd))
      { d with fd := none, closed := true } where
  run := run_append_eq_some.2 ⟨d, h.run, by simp [run_cons, Device.step, h.fd_eq hfd]⟩
  fd := rfl
  streaming := h.streaming
  mapped := h.mapped
  started hon := by simp [Machine.note, hstreaming] at hon
  closed := nofun

end Close

theorem wp_switchOff {r : Driver} {m : Machine} {d : Device} (h : Core m d) :
    Wp switchOff r (fun _ t => (∃ d, Core t d) ∧ t.capture.streaming = false) (fun _ _ => False) m := by
  simp only [switchOff, wp_bind, wp_get]
  split
  · rename_i hon
    simp only [wp_bind, wp_attempt, wp_call, wp_setCapture]
    refine ⟨fun fd hfd => ⟨fun a _ => ?_, fun e _ => ?_⟩, fun hnone => absurd hnone (h.started hon)⟩
    · exact ⟨⟨_, h.streamOff hfd true⟩, trivial⟩
    · exact ⟨⟨_, h.streamOff hfd false⟩, trivial⟩
  · rename_i hoff
    exact ⟨⟨d, h⟩, Bool.not_eq_true _ ▸ hoff⟩

theorem wp_release {r : Driver} {m : Machine} {d : Device} (h : Core m d) (hoff : m.capture.streaming = false) :
    Wp release r (fun _ t => Shut t) (fun _ _ => False) m := by
  simp only [release, wp_bind, wp_get, wp_setCapture, wp_note]
  have hunmapped := h.unmap hoff
  split
  · rename_i fd hfd
    simp only [wp_bind, wp_setCapture, wp_note]
    exact ⟨⟨_, hunmapped.shut hfd hoff⟩, rfl⟩
  · rename_i hfd
    exact ⟨⟨_, hunmapped⟩, hfd⟩

/-- `close` from wherever the capture is. -/
theorem wp_close {r : Driver} {m : Machine} {d : Device} (h : Core m d) :
    Wp close r (fun _ t => Shut t) (fun _ _ => False) m := by
  rw [close, wp_bind]
  exact (wp_switchOff h).mono (fun _ t ⟨⟨_, ht⟩, hoff⟩ => wp_release ht hoff) fun _ _ => id

/-! ### Calls that only ask -/

section Quiet

variable {m : Machine} {fd : ℤ} {α β : Type}

theorem Inv.asked (h : Inv m) (hfd : m.capture.fd = some fd) (request : Request) : Inv (m.note (.asked fd request)) := by
  obtain ⟨d, hd, hrest⟩ := h
  exact ⟨d, hd.asked hfd request, hrest⟩

/-- The program asks the driver and leaves the capture. -/
def Quiet (fd : ℤ) (p : Io α) : Prop :=
  ∀ r m, Inv m → m.capture.fd = some fd →
    Wp p r (fun _ t => Inv t ∧ t.capture = m.capture) (fun _ t => Inv t ∧ t.capture = m.capture) m

theorem quiet_pure (a : α) : Quiet fd (pure a : Io α) := fun _ _ h _ => ⟨h, rfl⟩

theorem quiet_fail (e : CaptureError) : Quiet fd (fail e : Io α) := fun _ _ h _ => ⟨h, rfl⟩

theorem quiet_bind {p : Io α} {f : α → Io β} (hp : Quiet fd p) (hf : ∀ a, Quiet fd (f a)) : Quiet fd (p >>= f) := by
  intro r m h hfd
  rw [wp_bind]
  refine (hp r m h hfd).mono (fun a t ⟨ht, hsame⟩ => ?_) fun _ _ => id
  have := hf a r t ht (by rw [hsame]; exact hfd)
  rwa [hsame] at this

variable {request : Request} {value : Option Int32}

theorem quiet_ioctl (hplain : ∀ reply, Event.ofIoctl fd request reply = .asked fd request) :
    Quiet fd (ioctl fd request) := by
  intro r m h hfd
  simp only [ioctl, wp_ask, hplain]
  exact ⟨h.asked hfd request, rfl⟩

theorem quiet_orFail {code operation : String} {x : Except OsError α} : Quiet fd (orFail code operation x) := by
  cases x with
  | ok a => exact quiet_pure a
  | error e => exact quiet_fail _

theorem quiet_getFd {f : ℤ → Io α} (hf : Quiet fd (f fd)) : Quiet fd (getFd >>= f) := by
  intro r m h hfd
  rw [wp_bind, wp_getFd]
  refine ⟨fun fd' hfd' => ?_, fun _ => ⟨h, rfl⟩⟩
  cases hfd'.symm.trans hfd
  exact hf r m h hfd

theorem quiet_call (operation : String)
    (hplain : ∀ fd reply, Event.ofIoctl fd request reply = .asked fd request) : Quiet fd (call request operation) := by
  intro r m h hfd
  rw [wp_call]
  refine ⟨fun fd' hfd' => ⟨fun a _ => ?_, fun e _ => ?_⟩, fun _ => ⟨h, rfl⟩⟩
  · rw [hplain]
    exact ⟨h.asked hfd' request, rfl⟩
  · rw [hplain]
    exact ⟨h.asked hfd' request, rfl⟩

variable {id : UInt32}

theorem quiet_queryControl {expectedType : UInt32} : Quiet fd (queryControl fd id expectedType) := by
  refine quiet_bind (quiet_ioctl fun _ => rfl) fun reply => ?_
  cases reply with
  | error e =>
    dsimp only
    split
    · exact quiet_pure _
    · exact quiet_fail _
  | ok reply =>
    dsimp only
    split
    · exact quiet_pure _
    · exact quiet_pure _

theorem quiet_getControl : Quiet fd (getControl fd id) :=
  quiet_bind (quiet_ioctl fun _ => rfl) fun _ => quiet_orFail

theorem quiet_setControl {value : Int32} : Quiet fd (setControl fd id value) :=
  quiet_bind (quiet_ioctl fun _ => rfl) fun _ => quiet_orFail

theorem quiet_controlFocusStatus : Quiet fd (controlFocusStatus fd) := by
  refine quiet_bind quiet_queryControl fun focus => ?_
  cases focus with
  | none => exact quiet_pure _
  | some focus =>
    refine quiet_bind quiet_getControl fun value => quiet_bind quiet_queryControl fun auto => ?_
    cases auto with
    | none => exact quiet_pure _
    | some auto => exact quiet_bind quiet_getControl fun _ => quiet_pure _

variable {autoEnabled : Option Bool}

theorem quiet_requestAuto {supported : Bool} : Quiet fd (requestAuto fd supported autoEnabled) := by
  cases autoEnabled with
  | none => exact quiet_pure _
  | some enabled =>
    rw [requestAuto]
    split
    · exact quiet_setControl
    · exact quiet_fail _

theorem quiet_requestValue {focus : QueryControl} {supported : Bool} :
    Quiet fd (requestValue fd focus supported autoEnabled value) := by
  cases value with
  | none => exact quiet_pure _
  | some next =>
    rw [requestValue]
    split
    · exact quiet_fail _
    · dsimp only
      split
      · exact quiet_bind quiet_setControl fun _ => quiet_setControl
      · exact quiet_setControl

theorem quiet_controlSetFocus : Quiet fd (controlSetFocus fd value autoEnabled) := by
  refine quiet_bind quiet_queryControl fun focus => ?_
  cases focus with
  | none => exact quiet_fail _
  | some focus =>
    refine quiet_bind quiet_queryControl fun auto => quiet_bind quiet_requestAuto fun _ =>
      quiet_bind quiet_requestValue fun _ => quiet_bind quiet_controlFocusStatus fun status => ?_
    cases status with
    | none => exact quiet_fail _
    | some status => exact quiet_pure _

/-- An operation on the controls of whatever descriptor there is. -/
theorem wp_control {r : Driver} (h : Inv m) {p : ℤ → Io α} (hp : ∀ fd, Quiet fd (p fd)) :
    Wp (getFd >>= p) r (fun _ t => Inv t) (fun _ t => Inv t) m := by
  rw [wp_bind, wp_getFd]
  exact ⟨fun fd hfd => (hp fd r m h hfd).mono (fun _ _ ht => ht.1) fun _ _ ht => ht.1, fun _ => h⟩

end Quiet

/-! ### Opening -/

section Opening

variable {m : Machine} {fd : ℤ} {r : Driver}

/-- A capture that has not started, with its descriptor. -/
structure Idle (fd : ℤ) (m : Machine) : Prop where
  inv : Inv m
  fd : m.capture.fd = some fd

theorem Quiet.andThen {α β : Type} {p : Io α} {f : α → Io β} {Q : β → Machine → Prop} (hp : Quiet fd p) (h : Idle fd m)
    (hf : ∀ a t, Idle fd t → Wp (f a) r Q (fun _ t => Inv t) t) : Wp (p >>= f) r Q (fun _ t => Inv t) m := by
  rw [wp_bind]
  refine (hp r m h.inv h.fd).mono (fun a t ⟨ht, hsame⟩ => hf a t ⟨ht, ?_⟩) fun _ _ ht => ht.1
  rw [hsame]
  exact h.fd

/-- A mapping is noted by the driver and by the capture. -/
theorem Inv.map (h : Inv m) (hfd : m.capture.fd = some fd) (length : ℕ) :
    Inv { m.note (.mapped fd (some length)) with
      capture := { m.capture with buffers := m.capture.buffers ++ [length] } } := by
  obtain ⟨d, hd, hrest⟩ := h
  refine ⟨{ d with mapped := d.mapped ++ [length] }, ⟨?_, hd.fd, hd.streaming, ?_, hd.started, hd.closed⟩, fun hne => ?_⟩
  · exact run_append_eq_some.2 ⟨d, hd.run, by simp [run_cons, Device.step, hd.fd_eq hfd]⟩
  · simp [hd.mapped]
  · obtain ⟨hagrees, hheld⟩ := hrest hne
    exact ⟨⟨hagrees.raw, hagrees.time, hagrees.sequence⟩, hheld⟩

theorem wp_mapBuffer (index : UInt32) (h : Idle fd m) :
    Wp (mapBuffer index) r (fun _ t => Idle fd t) (fun _ t => Inv t) m := by
  refine (quiet_call _ fun _ _ => rfl).andThen h fun reply t ht => ?_
  obtain ⟨offset, length⟩ := reply
  dsimp only
  split
  · exact ht.inv
  · simp only [wp_bind, wp_getFd, mmap, wp_ask, wp_orFail, wp_setCapture]
    refine ⟨fun fd' hfd' => ?_, fun _ => ht.inv⟩
    obtain rfl := Option.some.inj (hfd'.symm.trans ht.fd)
    cases r.mmap t.events.length length.toNat offset.toNat with
    | ok u => exact ⟨fun _ _ => ⟨ht.inv.map ht.fd _, ht.fd⟩, by simp⟩
    | error e =>
      refine ⟨by simp, fun e' _ => ?_⟩
      obtain ⟨d, hd, hrest⟩ := ht.inv
      have hstep : d.step (.mapped fd' none) = some d := by
        rw [Device.step, if_pos (hd.fd_eq ht.fd), Option.toList_none, List.append_nil]
      exact ⟨d, hd.note hstep rfl rfl rfl rfl, hrest⟩

theorem quiet_checkCapabilities : Quiet fd checkCapabilities := by
  refine quiet_bind (quiet_call _ fun _ _ => rfl) fun reply => ?_
  obtain ⟨capability, deviceCaps⟩ := reply
  dsimp only
  generalize (if capability &&& capDeviceCaps ≠ 0 then deviceCaps else capability) = effective
  split
  · exact quiet_fail _
  · exact quiet_pure _

theorem quiet_selectFormat {config : Config} : Quiet fd (selectFormat config) := by
  refine quiet_bind (quiet_call _ fun _ _ => rfl) fun reply => ?_
  obtain ⟨width, height, format⟩ := reply
  dsimp only
  split
  · exact quiet_fail _
  · exact quiet_pure _

theorem quiet_selectParameters {fps : UInt32} : Quiet fd (selectParameters fps) := by
  refine quiet_getFd (quiet_bind (quiet_ioctl fun _ => rfl) fun reply => ?_)
  cases reply with
  | ok parameters => exact quiet_pure _
  | error e =>
    dsimp only
    split
    · exact quiet_getFd (quiet_bind (quiet_ioctl fun _ => rfl) fun _ => quiet_orFail)
    · exact quiet_fail _

theorem quiet_checkInterval {fps : UInt32} {parameters : UInt32 × UInt32} : Quiet fd (checkInterval fps parameters) := by
  obtain ⟨numerator, denominator⟩ := parameters
  simp only [checkInterval]
  split
  · exact quiet_fail _
  · exact quiet_pure _

theorem wp_configure (config : Config) (h : Idle fd m) :
    Wp (configure config) r (fun _ t => Idle fd t) (fun _ t => Inv t) m := by
  refine quiet_checkCapabilities.andThen h fun _ t ht => ?_
  refine quiet_selectFormat.andThen ht fun _ t ht => ?_
  refine quiet_selectParameters.andThen ht fun _ t ht => ?_
  refine quiet_checkInterval.andThen ht fun _ t ht => ?_
  refine (quiet_call _ fun _ _ => rfl).andThen ht fun actual t ht => ?_
  dsimp only
  split
  · exact ht.inv
  · exact wp_each (fun index t ht => wp_mapBuffer _ ht) _ ht

/-- The failure of an operation that closes the capture. -/
theorem wp_closeFail {α : Type} {d : Device} (hd : Core m d) (e : CaptureError) {Q : α → Machine → Prop} :
    Wp (do close; fail e : Io α) r Q (fun _ t => Shut t) m := by
  rw [wp_bind]
  exact (wp_close hd).mono (fun _ _ ht => ht) fun _ _ => False.elim

theorem core_init : Core {} {} := ⟨rfl, rfl, nofun, rfl, nofun, fun _ => rfl⟩

/-- A descriptor that was opened is the one of the capture. -/
theorem idle_opened (fd : ℤ) : Idle fd { Machine.note {} (.opened (some fd)) with capture := { fd := some fd } } := by
  refine ⟨⟨{ fd := some fd }, ⟨rfl, rfl, nofun, rfl, nofun, fun _ => rfl⟩, fun _ => ⟨⟨rfl, rfl, nofun⟩, rfl⟩⟩, rfl⟩

theorem wp_withIo (params : Params) : Wp (withIo params) r (fun _ t => Inv t) (fun _ t => Shut t) {} := by
  have hshut : Shut {} := ⟨⟨_, core_init⟩, rfl⟩
  rw [withIo]
  split
  · exact hshut
  · split
    · exact hshut
    · split
      · exact hshut
      · simp only [wp_bind, openDevice, wp_ask, wp_orFail, wp_setCapture, wp_attempt]
        refine ⟨fun fd hfd => ?_, fun e he => ?_⟩
        · simp only [hfd, Except.toOption]
          refine (wp_configure _ (idle_opened fd)).mono (fun _ t ht => ht.inv) fun e t ht => ?_
          obtain ⟨_, ht, -⟩ := ht
          exact wp_closeFail ht e
        · simp only [he, Except.toOption]
          exact ⟨⟨{}, rfl, rfl, (fun h => by cases h), rfl, (fun h => by cases h), fun _ => rfl⟩, rfl⟩

end Opening

/-! ### Starting, waiting and stopping -/

section Streaming

variable {m : Machine} {r : Driver}

/-- The buffers are given to the driver before the stream is on. -/
theorem Inv.queue (h : Inv m) {fd : ℤ} (hfd : m.capture.fd = some fd) (hoff : m.capture.streaming = false) (index : ℕ)
    (ok : Bool) : Inv (m.note (.queued fd index ok)) := by
  obtain ⟨d, hd, hrest⟩ := h
  have hheld : d.held = none := (hrest (by rw [hfd]; nofun)).2
  have hstep : d.step (.queued fd index ok) = some d := by
    simp [Device.step, hd.fd_eq hfd, hd.off hoff, Device.giveBack, hheld]
  exact ⟨d, hd.note hstep rfl rfl rfl rfl, hrest⟩

theorem Inv.streamOn (h : Inv m) {fd : ℤ} (hfd : m.capture.fd = some fd) :
    Inv { m.note (.streamOn fd true) with capture := { m.capture with streaming := true } } := by
  obtain ⟨d, hd, hrest⟩ := h
  refine ⟨{ d with streaming := true }, ⟨?_, hd.fd, fun _ => rfl, hd.mapped, fun _ => ?_, hd.closed⟩, fun hne => ?_⟩
  · exact run_append_eq_some.2 ⟨d, hd.run, by simp [run_cons, Device.step, hd.fd_eq hfd]⟩
  · show m.capture.fd ≠ none
    rw [hfd]
    nofun
  · obtain ⟨hagrees, hheld⟩ := hrest hne
    exact ⟨⟨hagrees.raw, hagrees.time, hagrees.sequence⟩, hheld⟩

theorem Inv.streamOn_failed (h : Inv m) {fd : ℤ} (hfd : m.capture.fd = some fd) :
    Inv (m.note (.streamOn fd false)) := by
  obtain ⟨d, hd, hrest⟩ := h
  have hstep : d.step (.streamOn fd false) = some d := by
    rw [Device.step, if_pos (hd.fd_eq hfd), Bool.or_false]
  exact ⟨d, hd.note hstep rfl rfl rfl rfl, hrest⟩

theorem wp_startInner (h : Inv m) (hoff : m.capture.streaming = false) :
    Wp startInner r (fun _ t => Inv t) (fun _ t => Inv t) m := by
  simp only [startInner, wp_bind, wp_get]
  have hqueue : ∀ index t, Inv t ∧ t.capture.streaming = false →
      Wp (call (.queueBuffer (.ofNat index)) "VIDIOC_QBUF") r (fun _ t => Inv t ∧ t.capture.streaming = false)
        (fun _ t => Inv t) t := by
    rintro index t ⟨ht, hoff⟩
    rw [wp_call]
    refine ⟨fun fd hfd => ⟨fun _ _ => ⟨ht.queue hfd hoff _ true, hoff⟩, fun _ _ => ht.queue hfd hoff _ false⟩, fun _ => ht⟩
  refine (wp_each hqueue _ ⟨h, hoff⟩).mono (fun _ t ht => ?_) fun _ _ => id
  obtain ⟨ht, -⟩ := ht
  rw [wp_bind, wp_call]
  exact ⟨fun fd hfd => ⟨fun _ _ => ht.streamOn hfd, fun _ _ => ht.streamOn_failed hfd⟩, fun _ => ht⟩

theorem wp_start (h : Inv m) : Wp start r (fun _ t => Inv t) (fun _ t => Inv t) m := by
  simp only [start, wp_bind, wp_get]
  split
  · exact h
  · rename_i hoff
    simp only [wp_bind, wp_attempt]
    refine (wp_startInner h (Bool.not_eq_true _ ▸ hoff)).mono (fun _ t ht => ht) fun e t ht => ?_
    obtain ⟨_, ht, -⟩ := ht
    exact (wp_closeFail ht e).mono (fun _ _ => id) fun _ _ ht => ht.inv

theorem wp_wait (timeout : ℕ) (h : Inv m) : Wp (wait timeout) r (fun _ t => Inv t) (fun _ t => Inv t) m := by
  simp only [wait, wp_bind, wp_get]
  split
  · exact h
  · split
    · exact h
    · simp only [wp_bind, wp_getFd, poll, wp_ask]
      refine ⟨fun fd hfd => ?_, fun _ => h⟩
      have hpolled : Inv (m.note (.polled fd)) := by
        obtain ⟨d, hd, hrest⟩ := h
        exact ⟨d, hd.note (if_pos (hd.fd_eq hfd)) rfl rfl rfl rfl, hrest⟩
      cases r.poll m.events.length with
      | error e =>
        obtain ⟨d, hd, _⟩ := hpolled
        exact (wp_closeFail hd _).mono (fun _ _ => id) fun _ _ ht => ht.inv
      | ok readable => cases readable <;> exact hpolled

theorem wp_stop (h : Inv m) : Wp stop r (fun _ t => Inv t) (fun _ t => Inv t) m := by
  obtain ⟨d, hd, hrest⟩ := h
  simp only [stop, wp_bind, wp_get]
  split
  · exact ⟨d, hd, hrest⟩
  · simp only [wp_bind, wp_attempt, wp_call, wp_setCapture]
    refine ⟨fun fd hfd => ⟨fun _ _ => ?_, fun e _ => ?_⟩, fun hnone => ?_⟩
    · refine ⟨_, hd.streamOff hfd true, fun hne => ?_⟩
      obtain ⟨hagrees, hheld⟩ := hrest hne
      exact ⟨⟨hagrees.raw, hagrees.time, hagrees.sequence⟩, hheld⟩
    · have hasked : Core (m.note (.streamOff fd false)) { d with streaming := false } :=
        ⟨(hd.streamOff hfd false).run, hd.fd, by simp, hd.mapped, hd.started, hd.closed⟩
      exact (wp_close hasked).mono (fun _ _ ht => ht.inv) fun _ _ => False.elim
    · exact (wp_close hd).mono (fun _ _ ht => ht.inv) fun _ _ => False.elim

end Streaming

/-! ### The numbers and the times of frames -/

variable {counter : ℕ}

theorem add_wrapped (epoch : UInt64) {before : ℕ} (hle : before ≤ counter) (hlt : counter - before < 2 ^ 31)
    (hwrapped : UInt32.ofNat counter < UInt32.ofNat before) :
    epoch + 0x100000000 + (UInt32.ofNat counter).toUInt64 =
      epoch + (UInt32.ofNat before).toUInt64 + UInt64.ofNat (counter - before) := by
  rw [← UInt64.toNat_inj]
  rw [UInt32.lt_iff_toNat_lt] at hwrapped
  simp at *
  omega

theorem add_forward (epoch : UInt64) {before : ℕ} (hle : before ≤ counter) (hlt : counter - before < 2 ^ 31)
    (hforward : ¬ UInt32.ofNat counter < UInt32.ofNat before) :
    epoch + (UInt32.ofNat counter).toUInt64 =
      epoch + (UInt32.ofNat before).toUInt64 + UInt64.ofNat (counter - before) := by
  rw [← UInt64.toNat_inj]
  rw [UInt32.lt_iff_toNat_lt] at hforward
  simp at *
  omega

/-- The counter goes on by less than half of its 32 bits: so does the number, whatever the wraps. -/
theorem sourceSequence_follows {last : Option Frame} {c : Capture} (h : Agrees last c) {epoch : UInt64}
    (hok : c.sourceSequence (.ofNat counter) = .ok epoch) :
    ∀ before ∈ last, before.counter ≤ counter → counter - before.counter < 2 ^ 31 →
      epoch + (UInt32.ofNat counter).toUInt64 = before.sequence + UInt64.ofNat (counter - before.counter) := by
  intro before hbefore hle hlt
  have hraw : c.lastRawSequence = some (.ofNat before.counter) := by
    rw [h.raw, Option.mem_def.1 hbefore]
    rfl
  rw [h.sequence before hbefore]
  simp only [Capture.sourceSequence, hraw] at hok
  split at hok
  · rename_i hwrapped
    split at hok
    · rw [← Except.ok.inj hok]
      exact add_wrapped _ hle hlt hwrapped
    · cases hok
  · rename_i hforward
    rw [← Except.ok.inj hok]
    exact add_forward _ hle hlt hforward

theorem max_succ_gt {value before : UInt64} (hlate : value ≤ before) (hroom : before ≠ .ofNat (2 ^ 64 - 1)) :
    before < max value (before + 1) := by
  have hne : before.toNat ≠ 2 ^ 64 - 1 := fun h => hroom (by rw [← h, UInt64.ofNat_toNat])
  have hbound := before.toNat_lt
  have hsucc : (before + 1).toNat = before.toNat + 1 := by
    rw [UInt64.toNat_add, UInt64.toNat_one]
    omega
  have hle : value ≤ before + 1 := by
    rw [UInt64.le_iff_toNat_le] at hlate ⊢
    omega
  have hmax : max value (before + 1) = before + 1 := if_pos hle
  rw [hmax, UInt64.lt_iff_toNat_lt]
  omega

/-- A time that is given is behind the last one, when that was not the last there is. -/
theorem hostTime_follows {previous : Option UInt64} {driverMonotonic : Bool} {value ns : UInt64}
    (hok : hostTime previous driverMonotonic value = .ok ns)
    (hroom : driverMonotonic = false → previous ≠ some (.ofNat (2 ^ 64 - 1))) : ∀ before ∈ previous, before < ns := by
  intro before hbefore
  obtain rfl := Option.mem_def.1 hbefore
  simp only [hostTime] at hok
  split at hok
  · rename_i hlate
    split at hok
    · cases hok
    · rename_i hclock
      cases hok
      exact max_succ_gt hlate fun hfull => hroom (Bool.not_eq_true _ ▸ hclock) (by rw [hfull])
  · rename_i hlate
    cases hok
    exact UInt64.not_le.1 hlate

/-- Nothing is later than the last time there is. -/
theorem not_later (ns : UInt64) : ¬ UInt64.ofNat (2 ^ 64 - 1) < ns := by
  have hbound := ns.toNat_lt
  rw [UInt64.lt_iff_toNat_lt]
  simp
  omega

theorem hostTime_clock (previous : Option UInt64) (value : UInt64) : ∃ ns, hostTime previous false value = .ok ns := by
  cases previous with
  | none => exact ⟨_, rfl⟩
  | some previous =>
    rw [hostTime]
    split
    · exact ⟨_, rfl⟩
    · exact ⟨_, rfl⟩

/-! ### Reading -/

section Read

variable {m : Machine} {d : Device} {r : Driver}

/-- The time of a frame follows the last one, unless the clock is asked when no later time is left. -/
theorem wp_timestamp (hd : Core m d) (htime : m.capture.lastTimestampNs = d.last.map Frame.hostNs) (buffer : Dequeued)
    (hroom : buffer.driverMonotonic = false → ∀ ns, r.clock m.events.length = .ok ns →
      m.capture.lastTimestampNs ≠ some (.ofNat (2 ^ 64 - 1))) :
    Wp (timestamp buffer) r
      (fun ns t => Core t d ∧ t.capture = { m.capture with lastTimestampNs := some ns } ∧
        ∀ before ∈ d.last, before.hostNs < ns)
      (fun _ t => Core t d ∧ t.capture = m.capture) m := by
  have hsettle : ∀ (t : Machine) (value : UInt64), Core t d → t.capture = m.capture →
      (buffer.driverMonotonic = false → m.capture.lastTimestampNs ≠ some (.ofNat (2 ^ 64 - 1))) →
      Wp (settle (hostTime t.capture.lastTimestampNs buffer.driverMonotonic value) >>= fun value => do
          setCapture fun c => { c with lastTimestampNs := some value }
          return value) r
        (fun ns t => Core t d ∧ t.capture = { m.capture with lastTimestampNs := some ns } ∧
          ∀ before ∈ d.last, before.hostNs < ns)
        (fun _ t => Core t d ∧ t.capture = m.capture) t := by
    intro t value ht hsame hroom
    rw [wp_bind, wp_settle]
    refine ⟨fun ns hns => ?_, fun _ _ => ⟨ht, hsame⟩⟩
    simp only [wp_bind, wp_setCapture, wp_pure]
    refine ⟨⟨ht.run, ht.fd, ht.streaming, ht.mapped, ht.started, ht.closed⟩, by rw [hsame], fun before hbefore => ?_⟩
    refine hostTime_follows hns (by rw [hsame]; exact hroom) before.hostNs ?_
    rw [hsame, htime, Option.mem_def.1 hbefore]
    rfl
  simp only [timestamp, clockFallback, wp_bind]
  split
  · simp only [wp_bind, monotonicNs, wp_ask, wp_orFail]
    have hclock : Core (m.note .clock) d := hd.note rfl rfl rfl rfl rfl
    refine ⟨fun ns hns => ?_, fun _ _ => ⟨hclock, rfl⟩⟩
    exact (wp_bind ..).1 (hsettle _ ns hclock rfl fun hmonotonic => hroom hmonotonic ns hns)
  · rename_i hgiven
    refine (wp_bind ..).1 (hsettle m _ hd rfl fun hmonotonic => absurd ?_ hgiven)
    simp [Dequeued.driverNs, hmonotonic]

/-- What the number of a frame says. -/
structure Numbered (m : Machine) (last : Option Frame) (counter : ℕ) (sequence : UInt64) (t : Machine) : Prop where
  ok : isOk (m.capture.sourceSequence (.ofNat counter)) = true
  events : t.events = m.events
  fd : t.capture.fd = m.capture.fd
  buffers : t.capture.buffers = m.capture.buffers
  time : t.capture.lastTimestampNs = m.capture.lastTimestampNs
  raw : t.capture.lastRawSequence = some (.ofNat counter)
  number : sequence = t.capture.sequenceEpoch + (UInt32.ofNat counter).toUInt64
  follows : ∀ before ∈ last, before.counter ≤ counter → counter - before.counter < 2 ^ 31 →
    sequence = before.sequence + UInt64.ofNat (counter - before.counter)

theorem wp_sourceSequence (hd : Core m d) (hagrees : Agrees d.last m.capture) (counter : ℕ) :
    Wp (sourceSequence (.ofNat counter)) r (fun sequence t => Core t d ∧ Numbered m d.last counter sequence t)
      (fun _ t => t = m) m := by
  rw [sourceSequence, wp_bind, wp_get, wp_bind, wp_settle]
  refine ⟨fun epoch hepoch => ?_, fun _ _ => rfl⟩
  rw [wp_bind, wp_setCapture, wp_pure]
  exact ⟨⟨hd.run, hd.fd, hd.streaming, hd.mapped, hd.started, hd.closed⟩, by rw [hepoch]; rfl, rfl, rfl, rfl, rfl, rfl,
    rfl, sourceSequence_follows hagrees hepoch⟩

variable {T : Type}

/-- Where the clock gives the time of a frame, there is a later one. -/
def HasRoom (r : Driver) (m : Machine) (buffer : Dequeued) (length : ℕ) : Prop :=
  buffer.flags &&& bufFlagError = 0 → buffer.bytesUsed ≠ 0 → buffer.bytesUsed.toNat ≤ length →
    isOk (m.capture.sourceSequence buffer.raw) = true → buffer.driverMonotonic = false →
    ∀ ns, r.clock m.events.length = .ok ns → m.capture.lastTimestampNs ≠ some (.ofNat (2 ^ 64 - 1))

variable {process : Frame → Except CaptureError T} {buffer : Dequeued}

/-- A frame that is read is delivered from the buffer that is held. -/
theorem wp_readFrame {length : ℕ}
    (hd : Core m d) (hagrees : Agrees d.last m.capture) (hheld : d.held = some buffer.index.toNat)
    (hlength : m.capture.buffers[buffer.index.toNat]? = some length)
    (hroom : HasRoom r m buffer length) :
    Wp (readFrame process buffer length) r
      (fun _ t => ∃ e, Core t e ∧ Agrees e.last t.capture ∧ e.held = some buffer.index.toNat ∧
        t.capture.fd = m.capture.fd)
      (fun _ t => ∃ e, Core t e ∧ e.held = some buffer.index.toNat ∧ t.capture.fd = m.capture.fd) m := by
  have hstays : ∃ e, Core m e ∧ e.held = some buffer.index.toNat ∧ m.capture.fd = m.capture.fd := ⟨d, hd, hheld, rfl⟩
  rw [readFrame]
  split
  · exact hstays
  · split
    · exact hstays
    · rename_i hintact hpayload
      simp only [ne_eq, not_not] at hintact
      simp only [Bool.or_eq_true, decide_eq_true_eq, not_or, Nat.not_lt] at hpayload
      rw [wp_bind]
      refine (wp_sourceSequence hd hagrees buffer.counter).mono (fun sequence t ⟨ht, hnumbered⟩ => ?_) ?_
      · rw [wp_bind]
        have htime : t.capture.lastTimestampNs = d.last.map Frame.hostNs := hnumbered.time.trans hagrees.time
        refine (wp_timestamp ht htime buffer fun hmonotonic ns hns => ?_).mono (fun hostNs u ⟨hu, hsame, hlater⟩ => ?_) ?_
        · rw [hnumbered.time]
          rw [hnumbered.events] at hns
          exact hroom hintact hpayload.1 hpayload.2 hnumbered.ok hmonotonic ns hns
        · set frame : Frame := ⟨sequence, hostNs, buffer.index.toNat, buffer.bytesUsed.toNat, buffer.counter⟩
          have hfollows : Follows d.last frame := fun before hbefore =>
            ⟨hlater before hbefore, hnumbered.follows before hbefore⟩
          have hwithin : Within d.mapped frame := ⟨length, by rw [hd.mapped]; exact hlength, hpayload.2⟩
          have hdelivered : Core (u.note (.delivered frame)) { d with last := some frame } :=
            hu.note (if_pos ⟨hheld, hwithin, hfollows⟩) rfl rfl rfl rfl
          have hfd : (u.note (.delivered frame)).capture.fd = m.capture.fd := by
            rw [Machine.note, hsame]
            exact hnumbered.fd
          rw [wp_bind, wp_note, wp_settle]
          refine ⟨fun _ _ => ⟨_, hdelivered, ⟨?_, ?_, ?_⟩, hheld, hfd⟩, fun _ _ => ⟨_, hdelivered, hheld, hfd⟩⟩
          · rw [Machine.note, hsame]
            exact hnumbered.raw
          · rw [Machine.note, hsame]
            rfl
          · rintro _ ⟨⟩
            rw [Machine.note, hsame]
            exact hnumbered.number
        · rintro _ u ⟨hu, hsame⟩
          exact ⟨d, hu, hheld, by rw [hsame, hnumbered.fd]⟩
      · rintro _ t rfl
        exact hstays

theorem Core.requeue (hd : Core m d) {fd : ℤ} (hfd : m.capture.fd = some fd) {index : ℕ} (hheld : d.held = some index)
    (ok : Bool) : Core (m.note (.queued fd index ok)) (d.giveBack index ok) := by
  have hsame : (d.giveBack index ok).fd = d.fd ∧ (d.giveBack index ok).streaming = d.streaming ∧
      (d.giveBack index ok).mapped = d.mapped ∧ (d.giveBack index ok).closed = d.closed := by
    rw [Device.giveBack]
    split <;> exact ⟨rfl, rfl, rfl, rfl⟩
  exact hd.note (if_pos ⟨hd.fd_eq hfd, .inr hheld⟩) hsame.1 hsame.2.1 hsame.2.2.1 hsame.2.2.2

theorem wp_readBuffer {length : ℕ}
    (hd : Core m d) (hagrees : Agrees d.last m.capture) (hheld : d.held = some buffer.index.toNat)
    (hlength : m.capture.buffers[buffer.index.toNat]? = some length)
    (hroom : HasRoom r m buffer length) :
    Wp (readBuffer process buffer length) r (fun _ t => Inv t) (fun _ t => Shut t) m := by
  rw [readBuffer, wp_bind, wp_attempt]
  refine (wp_readFrame hd hagrees hheld hlength hroom).mono (fun value t ⟨e, he, hagrees, hheld, _⟩ => ?_)
    fun error t ⟨e, he, hheld, _⟩ => ?_
  · rw [wp_bind, wp_attempt, wp_call]
    refine ⟨fun fd hfd => ⟨fun _ _ => ?_, fun _ _ => ?_⟩, fun _ => wp_closeFail he _⟩
    · refine ⟨_, he.requeue hfd hheld true, fun _ => ?_⟩
      rw [Device.giveBack, if_pos ⟨rfl, hheld⟩]
      exact ⟨hagrees, rfl⟩
    · exact wp_closeFail (he.requeue hfd hheld false) _
  · rw [wp_bind, wp_attempt, wp_call]
    refine ⟨fun fd hfd => ⟨fun _ _ => ?_, fun _ _ => ?_⟩, fun _ => wp_closeFail he _⟩
    · exact wp_closeFail (he.requeue hfd hheld true) _
    · exact wp_closeFail (he.requeue hfd hheld false) _

/-- A buffer that is taken. -/
theorem Core.dequeue (hd : Core m d) {fd : ℤ} (hfd : m.capture.fd = some fd) (hheld : d.held = none) (index : ℕ) :
    Core (m.note (.dequeued fd (some index))) { d with held := some index } :=
  hd.note (if_pos ⟨hd.fd_eq hfd, hheld⟩) rfl rfl rfl rfl

/-- What is done with a buffer that was taken, when the clock answers. -/
theorem wp_readDequeued (hd : Core m d) {fd : ℤ}
    (hfd : m.capture.fd = some fd) (hagrees : Agrees d.last m.capture) (hheld : d.held = none)
    (hclock : isOk (r.clock (m.events.length + 1)) = true)
    (hroom : isOk (r.clock (m.events.length + 1)) = true → ∀ ns, AsksClock r m buffer ns →
      m.capture.lastTimestampNs ≠ some (.ofNat (2 ^ 64 - 1))) :
    Wp (readDequeued process buffer) r (fun _ t => Inv t)
      (fun e t => Inv t ∧ (e.code ≠ "frame_timeout" → t.capture.fd = none))
      (m.note (.dequeued fd (some buffer.index.toNat))) := by
  have htaken := hd.dequeue hfd hheld buffer.index.toNat
  have hlength : (m.note (.dequeued fd (some buffer.index.toNat))).events.length = m.events.length + 1 := by
    simp [Machine.note]
  unfold readDequeued
  rw [wp_bind, wp_setCapture, wp_bind, monotonicNs, wp_ask, wp_bind, wp_orFail]
  refine ⟨fun ns hns => ?_, fun e he => ?_⟩
  · rw [wp_bind, wp_setCapture, wp_bind, wp_get]
    have hnoted : Core ((m.note (.dequeued fd (some buffer.index.toNat))).note .clock)
        { d with held := some buffer.index.toNat } := htaken.note rfl rfl rfl rfl rfl
    have htimed : Core { (m.note (.dequeued fd (some buffer.index.toNat))).note .clock with
        capture := { m.capture with lastBufferFlags := buffer.flags, lastDequeueMonotonicNs := ns } }
        { d with held := some buffer.index.toNat } :=
      ⟨hnoted.run, hnoted.fd, hnoted.streaming, hnoted.mapped, hnoted.started, hnoted.closed⟩
    split
    · exact (wp_closeFail htimed _).mono (fun _ _ => id) fun _ _ ht => ⟨ht.inv, fun _ => ht.2⟩
    · rename_i length hbuffer
      refine (wp_readBuffer htimed ⟨hagrees.raw, hagrees.time, hagrees.sequence⟩ rfl hbuffer ?_).mono
        (fun _ _ => id) fun _ _ ht => ⟨ht.inv, fun _ => ht.2⟩
      intro hintact hpayload hfits hsequence hmonotonic ns' hns'
      refine hroom hclock ns' ⟨⟨length, hbuffer, hfits⟩, hintact, hpayload, hsequence, hmonotonic, ?_⟩
      rw [← hns']
      simp [Machine.note]
  · have hevents : r.clock (m.events.length + 1) = .error e := by
      rw [← hlength]
      exact he
    rw [hevents] at hclock
    cases hclock

theorem wp_readReadyWith (h : Inv m) (hsound : Sound r m) : Wp (readReadyWith process) r (fun _ t => Inv t)
      (fun e t => Inv t ∧ (e.code ≠ "frame_timeout" → t.capture.fd = none)) m := by
  obtain ⟨d, hd, hrest⟩ := h
  rw [readReadyWith, wp_bind, wp_get]
  split
  · rename_i hoff
    refine ⟨⟨d, hd, hrest⟩, fun _ => ?_⟩
    by_contra hfd
    rw [hsound.started hfd] at hoff
    cases hoff
  · rename_i hon
    simp only [Bool.not_eq_true', Bool.not_eq_false] at hon
    obtain ⟨fd, hfd⟩ := Option.ne_none_iff_exists'.1 (hd.started hon)
    obtain ⟨hagrees, hheld⟩ := hrest (hd.started hon)
    rw [wp_bind, wp_getFd]
    refine ⟨fun fd hfd => ?_, fun hnone => absurd hnone (hd.started hon)⟩
    rw [wp_bind, ioctl, wp_ask]
    dsimp only
    split
    · rename_i e herror
      rw [herror]
      have hasked : Core (m.note (.dequeued fd none)) d := hd.note (if_pos (hd.fd_eq hfd)) rfl rfl rfl rfl
      split
      · exact ⟨⟨d, hasked, hrest⟩, fun hne => absurd rfl hne⟩
      · exact (wp_closeFail hasked _).mono (fun _ _ => id) fun _ _ ht => ⟨ht.inv, fun _ => ht.2⟩
    · rename_i buffer hbuffer
      rw [hbuffer]
      exact wp_readDequeued hd hfd hagrees hheld (hsound.clock hon buffer hbuffer)
        fun hclock ns hasks => hsound.room hon buffer hbuffer ns hasks hclock

end Read

/-! ### The descriptor -/

/-- How often a descriptor was opened and closed. -/
structure Counted (events : List Event) (d : Device) : Prop where
  opens : events.countP Event.opens = events.countP Event.closes + if d.fd = none then 0 else 1
  closes : events.countP Event.closes = if d.closed then 1 else 0
  closed : d.closed = true → d.fd = none

variable {events : List Event}

theorem Counted.same {d t : Device} (h : Counted events d) {event : Event}
    (hopens : event.opens = false) (hcloses : event.closes = false) (hfd : t.fd = d.fd) (hclosed : t.closed = d.closed) :
    Counted (events ++ [event]) t := by
  refine ⟨?_, ?_, ?_⟩
  · simp [List.countP_append, hopens, hcloses, hfd, h.opens]
  · simp [List.countP_append, hcloses, hclosed, h.closes]
  · rw [hfd, hclosed]
    exact h.closed

theorem Counted.step {d t : Device} (h : Counted events d) {event : Event}
    (hstep : d.step event = some t) : Counted (events ++ [event]) t := by
  cases event with
  | opened fd =>
    simp only [Device.step, Option.ite_none_right_eq_some] at hstep
    obtain ⟨⟨hfd, hclosed⟩, hstep⟩ := hstep
    cases hstep
    refine ⟨?_, ?_, ?_⟩
    · rw [List.countP_append, List.countP_append, h.opens, if_pos hfd]
      cases fd <;> simp [Event.opens, Event.closes]
    · rw [List.countP_append, h.closes]
      simp [Event.closes]
    · simp [hclosed]
  | closed fd =>
    simp only [Device.step, Option.ite_none_right_eq_some] at hstep
    obtain ⟨hfd, hstep⟩ := hstep
    cases hstep
    have hclosed : d.closed = false := by
      cases hc : d.closed
      · rfl
      · rw [h.closed hc] at hfd
        cases hfd
    refine ⟨?_, ?_, fun _ => rfl⟩
    · rw [List.countP_append, List.countP_append, h.opens, hfd]
      simp [Event.opens, Event.closes]
    · rw [List.countP_append, h.closes, hclosed]
      simp [Event.closes]
  | clock =>
    cases hstep
    exact h.same rfl rfl rfl rfl
  | dequeued fd index =>
    cases index
    all_goals
      simp only [Device.step, Option.ite_none_right_eq_some] at hstep
      obtain ⟨_, hstep⟩ := hstep
      cases hstep
      exact h.same rfl rfl rfl rfl
  | queued fd index ok =>
    simp only [Device.step, Option.ite_none_right_eq_some] at hstep
    obtain ⟨_, hstep⟩ := hstep
    cases hstep
    refine h.same rfl rfl ?_ ?_
    · rw [Device.giveBack]
      split <;> rfl
    · rw [Device.giveBack]
      split <;> rfl
  | _ =>
    simp only [Device.step, Option.ite_none_right_eq_some] at hstep
    obtain ⟨_, hstep⟩ := hstep
    cases hstep
    exact h.same rfl rfl rfl rfl

theorem counted_run {d : Device} (hrun : run Device.step {} events = some d) : Counted events d := by
  induction events using List.reverseRecOn generalizing d with
  | nil =>
    cases hrun
    exact ⟨rfl, rfl, nofun⟩
  | append_singleton events event ih =>
    obtain ⟨t, ht, hstep⟩ := run_append_eq_some.1 hrun
    obtain ⟨u, hu, hnil⟩ := run_cons_eq_some.1 hstep
    cases hnil
    exact (ih ht).step hu

/-! ### What an unsound read breaks -/

/-- The monitor has rejected a call. -/
def Rejected (m : Machine) : Prop := run Device.step {} m.events = none

theorem Rejected.note {m : Machine} (h : Rejected m) (event : Event) : Rejected (m.note event) := by
  rw [Rejected, Machine.note, run_append, h]
  rfl

section Rejected

variable {m : Machine} {d : Device} {r : Driver} {α β : Type}

/-- What was rejected stays so. -/
def Stays (p : Io α) : Prop := ∀ r m, Rejected m → Wp p r (fun _ => Rejected) (fun _ => Rejected) m

theorem stays_bind {p : Io α} {f : α → Io β} (hp : Stays p) (hf : ∀ a, Stays (f a)) : Stays (p >>= f) := by
  intro r m h
  rw [wp_bind]
  exact (hp r m h).mono (fun a t ht => hf a r t ht) fun _ _ => id

theorem stays_attempt {p : Io α} (hp : Stays p) : Stays (attempt p) := by
  intro r m h
  rw [wp_attempt]
  exact (hp r m h).mono (fun _ _ => id) fun _ _ => id

theorem stays_pure (a : α) : Stays (pure a : Io α) := fun _ _ h => h

theorem stays_fail (e : CaptureError) : Stays (fail e : Io α) := fun _ _ h => h

theorem stays_setCapture (f : Capture → Capture) : Stays (setCapture f) := fun _ _ h => h

theorem stays_note (event : Event) : Stays (note event) := fun _ _ h => h.note event

theorem stays_call {request : Request} {operation : String} : Stays (call request operation) := by
  intro r m h
  rw [wp_call]
  exact ⟨fun fd _ => ⟨fun _ _ => h.note _, fun _ _ => h.note _⟩, fun _ => h⟩

theorem stays_get {f : Machine → Io α} (hf : ∀ m, Stays (f m)) : Stays (get >>= f) := by
  intro r m h
  rw [wp_bind, wp_get]
  exact hf m r m h

theorem stays_close : Stays close := by
  refine stays_bind (stays_get fun m => ?_) fun _ => ?_
  · split
    · exact stays_bind (stays_attempt stays_call) fun _ => stays_setCapture _
    · exact stays_pure _
  · refine stays_bind (stays_setCapture _) fun _ => stays_bind (stays_note _) fun _ => stays_get fun m => ?_
    split
    · exact stays_bind (stays_setCapture _) fun _ => stays_note _
    · exact stays_pure _

theorem stays_closeFail (e : CaptureError) : Stays (do close; fail e : Io α) := stays_bind stays_close fun _ => stays_fail e

variable (process : Frame → Except CaptureError α) {buffer : Dequeued} {fd : ℤ}

theorem wp_read_idle (hoff : m.capture.streaming = false) :
    Wp (readReadyWith process) r (fun _ _ => False) (fun e t => e.code = "invalid_state" ∧ t = m) m := by
  rw [readReadyWith, wp_bind, wp_get, hoff]
  exact ⟨rfl, rfl⟩

/-- A read up to the clock behind its dequeue. -/
theorem wp_read_dequeued {Q : α → Machine → Prop} (hon : m.capture.streaming = true)
    (hfd : m.capture.fd = some fd) (hbuffer : r.ioctl m.events.length .dequeueBuffer = .ok buffer) :
    Wp (readReadyWith process) r Q E m ↔
      Wp (readDequeued process buffer) r Q E (m.note (.dequeued fd (some buffer.index.toNat))) := by
  rw [readReadyWith, wp_bind, wp_get, hon]
  simp only [Bool.not_true, Bool.false_eq_true, if_false, wp_bind, wp_getFd, hfd, Option.some.injEq, forall_eq',
    reduceCtorEq, false_implies, and_true, ioctl, wp_ask, hbuffer]
  rfl

@[simp] theorem length_note (m : Machine) (event : Event) : (m.note event).events.length = m.events.length + 1 := by
  simp [Machine.note]

/-- A clock that fails behind a dequeue leaves the capture open. -/
theorem wp_read_clock {e : OsError} (hon : m.capture.streaming = true) (hfd : m.capture.fd = some fd)
    (hbuffer : r.ioctl m.events.length .dequeueBuffer = .ok buffer) (hclock : r.clock (m.events.length + 1) = .error e) :
    Wp (readReadyWith process) r (fun _ _ => False) (fun e t => e.code = "clock_failed" ∧ t.capture.fd = some fd) m := by
  rw [wp_read_dequeued process hon hfd hbuffer]
  unfold readDequeued
  rw [wp_bind, wp_setCapture, wp_bind, monotonicNs, wp_ask, wp_bind]
  simp only [length_note, hclock, orFail, wp_fail]
  exact ⟨rfl, hfd⟩

variable {ns : UInt64}

/-- A time that does not follow the last one is delivered. -/
theorem wp_timestamp_full (htime : m.capture.lastTimestampNs = some (.ofNat (2 ^ 64 - 1)))
    (hmonotonic : buffer.driverMonotonic = false) (hclock : r.clock m.events.length = .ok ns) :
    Wp (timestamp buffer) r (fun _ t => t.events = m.events ++ [.clock]) (fun _ _ => False) m := by
  have hzero : buffer.driverNs = 0 := by simp [Dequeued.driverNs, hmonotonic]
  obtain ⟨value, hvalue⟩ := hostTime_clock (some (.ofNat (2 ^ 64 - 1))) ns
  simp only [timestamp, clockFallback, hzero, if_true, wp_bind, monotonicNs, wp_ask, hclock, orFail, wp_pure, wp_get,
    Machine.note, htime, hmonotonic, hvalue, settle, wp_setCapture]

/-- A frame without room for its time is delivered against the monitor. -/
theorem wp_readFrame_full {length : ℕ} (hd : Core m d) (htime : d.last.map Frame.hostNs = some (.ofNat (2 ^ 64 - 1)))
    (hlast : m.capture.lastTimestampNs = some (.ofNat (2 ^ 64 - 1))) (hintact : buffer.flags &&& bufFlagError = 0)
    (hpayload : buffer.bytesUsed ≠ 0) (hfits : buffer.bytesUsed.toNat ≤ length)
    (hsequence : isOk (m.capture.sourceSequence buffer.raw) = true) (hmonotonic : buffer.driverMonotonic = false)
    (hclock : r.clock m.events.length = .ok ns) :
    Wp (readFrame process buffer length) r (fun _ => Rejected) (fun _ => Rejected) m := by
  cases hepoch : m.capture.sourceSequence buffer.raw with
  | error e =>
    rw [hepoch] at hsequence
    cases hsequence
  | ok epoch =>
    have hframe : ¬ (buffer.bytesUsed = 0 || length < buffer.bytesUsed.toNat) = true := by
      simp [hpayload, hfits]
    rw [readFrame, if_neg (by simp [hintact]), if_neg hframe]
    rw [wp_bind, sourceSequence, wp_bind, wp_get, wp_bind, hepoch, wp_settle]
    refine ⟨fun _ _ => ?_, nofun⟩
    rw [wp_bind, wp_setCapture, wp_pure, wp_bind]
    refine Wp.mono (wp_timestamp_full hlast hmonotonic hclock) (fun hostNs t ht => ?_) fun _ _ => False.elim
    have hrejected : ∀ frame : Frame, Rejected (t.note (.delivered frame)) := by
      intro frame
      obtain ⟨before, hbefore, hfull⟩ := Option.map_eq_some_iff.1 htime
      have hnot : ¬ Follows d.last frame := fun hfollows => by
        have hlater := (hfollows before hbefore).1
        rw [hfull] at hlater
        exact not_later _ hlater
      have hstep : d.step (.delivered frame) = none := if_neg fun h => hnot h.2.2
      have hrun : run Device.step {} t.events = some d := by
        rw [ht]
        exact run_append_eq_some.2 ⟨d, hd.run, rfl⟩
      rw [Rejected, Machine.note, run_append, hrun]
      simp [run_cons, hstep]
    rw [wp_bind, wp_note, wp_settle]
    exact ⟨fun _ _ => hrejected _, fun _ _ => hrejected _⟩

theorem wp_read_full (hd : Core m d) (hheld : d.held = none) (hagrees : Agrees d.last m.capture)
    (hon : m.capture.streaming = true) (hfd : m.capture.fd = some fd)
    (hbuffer : r.ioctl m.events.length .dequeueBuffer = .ok buffer)
    (hclock : isOk (r.clock (m.events.length + 1)) = true) (hasks : AsksClock r m buffer ns)
    (hfull : m.capture.lastTimestampNs = some (.ofNat (2 ^ 64 - 1))) :
    Wp (readReadyWith process) r (fun _ => Rejected) (fun _ => Rejected) m := by
  obtain ⟨length, hlength, hfits⟩ := hasks.index
  rw [wp_read_dequeued process hon hfd hbuffer]
  unfold readDequeued
  rw [wp_bind, wp_setCapture, wp_bind, monotonicNs, wp_ask, wp_bind, wp_orFail]
  refine ⟨fun ns' hns' => ?_, fun e he => ?_⟩
  · rw [wp_bind, wp_setCapture, wp_bind, wp_get]
    have hnoted : Core ((m.note (.dequeued fd (some buffer.index.toNat))).note .clock)
        { d with held := some buffer.index.toNat } := (hd.dequeue hfd hheld _).note rfl rfl rfl rfl rfl
    have htimed : Core { (m.note (.dequeued fd (some buffer.index.toNat))).note .clock with
        capture := { m.capture with lastBufferFlags := buffer.flags, lastDequeueMonotonicNs := ns' } }
        { d with held := some buffer.index.toNat } :=
      ⟨hnoted.run, hnoted.fd, hnoted.streaming, hnoted.mapped, hnoted.started, hnoted.closed⟩
    split
    · rename_i hnone
      rw [show m.capture.buffers[buffer.index.toNat]? = none from hnone] at hlength
      cases hlength
    · rename_i length' hsame
      cases hsame.symm.trans hlength
      have hframe := wp_readFrame_full (r := r) process htimed (hagrees.time.symm.trans hfull) hfull
        hasks.intact hasks.payload hfits hasks.sequence hasks.monotonic (by simpa using hasks.clock)
      rw [readBuffer, wp_bind, wp_attempt]
      refine hframe.mono (fun value t ht => ?_) fun e t ht => ?_
      · refine stays_bind (stays_attempt stays_call) (fun reply => ?_) r t ht
        cases reply with
        | error e => exact stays_closeFail e
        | ok _ => exact stays_pure _
      · refine stays_bind (stays_attempt stays_call) (fun reply => ?_) r t ht
        cases reply with
        | error e => exact stays_closeFail e
        | ok _ => exact stays_closeFail e
  · simp only [length_note] at he
    rw [he] at hclock
    cases hclock

end Rejected

/-! ### Runs -/

/-- A world between two operations. -/
structure World.Inv (w : World) : Prop where
  inv : V4l2.Inv w.machine
  unopened : w.phase = .unopened → w.machine = {}
  gone : w.phase = .gone → Shut w.machine

theorem inv_init : World.Inv {} :=
  ⟨⟨{}, core_init, fun hne => absurd rfl hne⟩, fun _ => rfl, nofun⟩

section Runs

variable {driver : Driver} {w t : World} {op : Op}

/-- The state behind an operation other than a read. -/
theorem inv_program (hw : w.Inv) (hop : ∀ process, op ≠ .read process) (henabled : op.enabled w.phase = true) :
    V4l2.Inv (op.program driver w.machine).2 := by
  have h := hw.inv
  cases op with
  | open_ params =>
    have hfresh : w.machine = {} := hw.unopened (by cases hphase : w.phase <;> simp_all [Op.enabled])
    rw [hfresh]
    exact ((wp_withIo params).mono (fun _ _ => id) fun _ _ ht => ht.inv).state
  | start => exact (wp_start h).state
  | wait timeout => exact (wp_wait timeout h).state
  | read process => exact absurd rfl (hop process)
  | focusStatus =>
    have hcontrol : Wp (Op.focusStatus.program) driver (fun _ => V4l2.Inv) (fun _ => V4l2.Inv) w.machine :=
      (wp_bind ..).2 (wp_control h fun _ => quiet_controlFocusStatus)
    exact hcontrol.state
  | setFocus value autoEnabled =>
    have hcontrol : Wp (Op.program (.setFocus value autoEnabled)) driver (fun _ => V4l2.Inv) (fun _ => V4l2.Inv)
        w.machine := (wp_bind ..).2 (wp_control h fun _ => quiet_controlSetFocus)
    exact hcontrol.state
  | stop => exact (wp_stop h).state
  | close =>
    obtain ⟨d, hd, _⟩ := h
    exact ((wp_close hd).mono (fun _ _ ht => ht.inv) fun _ _ => False.elim).state
  | drop =>
    obtain ⟨d, hd, _⟩ := h
    exact ((wp_close hd).mono (fun _ _ ht => ht.inv) fun _ _ => False.elim).state

/-- A capture that is gone is closed. -/
theorem shut_program (hw : w.Inv) (henabled : op.enabled w.phase = true) (hgone : op.after driver w.machine = .gone) :
    Shut (op.program driver w.machine).2 := by
  cases op with
  | open_ params =>
    have hfresh : w.machine = {} := hw.unopened (by cases hphase : w.phase <;> simp_all [Op.enabled])
    rw [hfresh] at hgone ⊢
    have hopen := (wp_withIo params (r := driver)).result
    simp only [Op.after] at hgone
    cases hresult : (withIo params driver {}).1 with
    | ok u =>
      rw [hresult] at hgone
      cases hgone
    | error e => exact hopen.2 e hresult
  | drop =>
    obtain ⟨d, hd, _⟩ := hw.inv
    exact ((wp_close hd).mono (fun _ _ => id) fun _ _ => False.elim).state
  | _ => cases hgone

theorem step_eq_some : step driver w op = some t ↔
    op.enabled w.phase = true ∧ t = ⟨op.after driver w.machine, (op.program driver w.machine).2⟩ := by
  rw [step]
  split
  · simp [*, eq_comm]
  · simp [*]

theorem after_ne_unopened : op.after driver w.machine ≠ .unopened := by
  cases op with
  | open_ params =>
    rw [Op.after]
    split <;> nofun
  | _ => nofun

/-- What one operation keeps when a read is sound. -/
theorem inv_step (hw : w.Inv) (hstep : step driver w op = some t)
    (hread : ∀ process, op = .read process → Sound driver w.machine) : t.Inv := by
  obtain ⟨henabled, rfl⟩ := step_eq_some.1 hstep
  refine ⟨?_, fun hphase => absurd hphase after_ne_unopened, shut_program hw henabled⟩
  by_cases hop : ∃ process, op = .read process
  · obtain ⟨process, rfl⟩ := hop
    exact ((wp_readReadyWith hw.inv (hread process rfl)).mono (fun _ _ => id) fun _ _ ht => ht.1).state
  · exact inv_program hw (fun process heq => hop ⟨process, heq⟩) henabled

theorem safe_step (hw : w.Inv) (hstep : step driver w op = some t)
    (hread : ∀ process, op = .read process → Sound driver w.machine) : Safe driver w op t := by
  have ht := inv_step hw hstep hread
  obtain ⟨d, hd, hrest⟩ := ht.inv
  have hcounted := counted_run hd.run
  refine ⟨⟨d, hd.run, hd.fd, ?_⟩, ⟨?_, ?_, fun hgone => ?_⟩, ?_⟩
  · by_cases hfd : t.machine.capture.fd = none
    · exact .inr hfd
    · exact .inl (hrest hfd).2
  · rw [hcounted.opens, hcounted.closes]
    have hclosed := hcounted.closed
    by_cases hc : d.closed = true
    · simp [hc, hclosed hc]
    · rw [if_neg hc]
      split <;> omega
  · rw [hcounted.opens]
    omega
  · rw [hcounted.opens, hd.fd, (ht.gone hgone).2]
    rfl
  · rintro process rfl e he hcode
    obtain ⟨_, rfl⟩ := step_eq_some.1 hstep
    exact ((wp_readReadyWith hw.inv (hread process rfl)).result.2 e he).2 hcode

/-- A read that is safe is sound. -/
theorem sound_of_safe (hw : w.Inv) {process : Frame → Except CaptureError Unit}
    (hstep : step driver w (.read process) = some t) (hsafe : Safe driver w (.read process) t) :
    Sound driver w.machine := by
  obtain ⟨_, rfl⟩ := step_eq_some.1 hstep
  obtain ⟨d, hd, hrest⟩ := hw.inv
  refine ⟨fun hfd => ?_, fun hon buffer hbuffer => ?_, fun hon buffer hbuffer ns hasks hclock hfull => ?_⟩
  · by_contra hoff
    obtain ⟨e, he, hcode, hsame⟩ := (wp_read_idle process (r := driver) (Bool.not_eq_true _ ▸ hoff)).fails
    have hclosed := hsafe.failedRead process rfl e he (by rw [hcode]; decide)
    refine hfd ?_
    rw [← hsame]
    exact hclosed
  · obtain ⟨fd, hfd⟩ := Option.ne_none_iff_exists'.1 (hd.started hon)
    cases hclock : driver.clock (w.machine.events.length + 1) with
    | ok ns => rfl
    | error e =>
      obtain ⟨e', he, hcode, hopen⟩ := (wp_read_clock process hon hfd hbuffer hclock).fails
      have hclosed := hsafe.failedRead process rfl e' he (by rw [hcode]; decide)
      rw [show (readReadyWith process driver w.machine).2.capture.fd = none from hclosed] at hopen
      cases hopen
  · obtain ⟨fd, hfd⟩ := Option.ne_none_iff_exists'.1 (hd.started hon)
    obtain ⟨hagrees, hheld⟩ := hrest (hd.started hon)
    have hrejected := (wp_read_full process hd hheld hagrees hon hfd hbuffer hclock hasks hfull).state
    obtain ⟨d', hrun, _⟩ := hsafe.calls
    have hboth : some d' = none := hrun.symm.trans hrejected
    cases hboth

end Runs

/-- Whatever the driver and the clock answer and whatever is done with a capture: every step is safe if and only if
each read is made of a capture that has started or is closed, with a clock that answers behind the dequeue, and
never asks for a time behind the last one that there is. -/
theorem capture_safe_iff (driver : Driver) (ops : List Op) :
    Along (step driver) (Safe driver) {} ops ↔ Along (step driver) (Permitted driver) {} ops := by
  refine (along_iff_of_invariant (I := World.Inv) (fun w op t hw hstep => ⟨fun hpermitted => ?_, fun hsafe => ?_⟩)
    inv_init).symm
  · have hread : ∀ process, op = .read process → Sound driver w.machine := by
      rintro process rfl
      exact hpermitted
    exact ⟨inv_step hw hstep hread, safe_step hw hstep hread⟩
  · cases op with
    | read process => exact sound_of_safe hw hstep hsafe
    | _ => trivial

/-- A camera whose clock fails once, behind the first dequeue. -/
def brokenClock : Driver where
  open_ _ := .ok 3
  ioctl _ request :=
    match request with
    | .queryCap => .ok (capVideoCapture ||| capStreaming, 0)
    | .setFormat width height format => .ok (width, height, format)
    | .setParm fps => .ok (1, fps)
    | .getParm => .ok (1, 60)
    | .requestBuffers count => .ok count
    | .queryBuffer _ => .ok (0, 16)
    | .dequeueBuffer => .ok ⟨0, 4, 0, 0, 0, 7⟩
    | .queryControl _ => .error ⟨some einval, "Invalid argument"⟩
    | .getControl _ => .ok (0 : Int32)
    | .queueBuffer _ | .streamOn | .streamOff | .setControl .. => .ok ()
  mmap _ _ _ := .ok ()
  poll _ := .ok true
  clock n := if n = 13 then .error ⟨some einval, "Invalid argument"⟩ else .ok 1000

def brokenOps : List Op :=
  [.open_ ⟨"/dev/video0", 3840, 1080, 60, "mjpg", 2⟩, .start, .read fun _ => .ok ()]

/-- The capture before the read. -/
def brokenStarted : World where
  phase := .live
  machine :=
    { capture := { fd := some 3, buffers := [16, 16], streaming := true }
      events := [.opened (some 3), .asked 3 .queryCap, .asked 3 (.setFormat 3840 1080 fourccMjpg), .asked 3 (.setParm 60),
        .asked 3 (.requestBuffers 2), .asked 3 (.queryBuffer 0), .mapped 3 (some 16), .asked 3 (.queryBuffer 1),
        .mapped 3 (some 16), .queued 3 0 true, .queued 3 1 true, .streamOn 3 true] }

/-- The capture stays open with the buffer that was taken. -/
theorem broken_clock_unsafe : run (step brokenClock) {} (brokenOps.take 2) = some brokenStarted ∧
    ¬ Along (step brokenClock) (Safe brokenClock) {} brokenOps := by
  have hstarted : run (step brokenClock) {} (brokenOps.take 2) = some brokenStarted := by decide
  refine ⟨hstarted, fun hsafe => ?_⟩
  have hsplit : Along (step brokenClock) (Safe brokenClock) {} (brokenOps.take 2 ++ brokenOps.drop 2) := hsafe
  obtain ⟨_, hread⟩ := hsplit.append hstarted
  obtain ⟨hread, _⟩ := hread _ rfl
  have hclosed := hread.failedRead _ rfl ⟨"clock_failed", "clock_gettime: Invalid argument"⟩ (by decide) (by decide)
  exact absurd hclosed (by decide)

end Conductor.Camera.V4l2
