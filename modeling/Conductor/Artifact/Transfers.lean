import Conductor.Artifact.Downloads
import Conductor.Lib.Runs
import Mathlib.Algebra.Order.Ring.Int

/-! The transfer receipts of downloads: `LockedBytes` of `api/downloads.py`, `_TrackedRepresentation` and the
opening of `coordinator.py`, the calls that `_send_representation` of `gateway.py` makes, and the `transfers`
table. The file and the socket answer each call through `Io`. -/

namespace Conductor.Artifact.Transfers

open Downloads (ArtifactAccessError notVerified)

/-- `_READ_CHUNK`. -/
def readChunk : ℕ := 1024 * 1024

/-- `_RESPONSE_WRITE_CHUNK`. -/
def responseWriteChunk : ℕ := 16 * 1024

inductive Error where
  | value (message : String)
  | runtime (message : String)
  | access (error : ArtifactAccessError)
  | brokenPipe (message : String)
  | os
  deriving DecidableEq

/-- `native.sendfile`: no native module, an error, or a result, which `none` says is no integer. -/
inductive Sendfile where
  | absent
  | failed
  | returned (value : Option ℤ)

/-- What the system answers during one call; `none` is an `OSError`. -/
structure Io where
  /-- Whether the identity read by the check with this number is the one of the opening. -/
  identity : ℕ → Option Bool := fun _ => some true
  /-- What the file has behind a cursor. -/
  content : ℕ → Option (List UInt8) := fun _ => none
  sendfile : Sendfile := .absent
  /-- How many bytes `os.write` takes when so many are sent. -/
  write : ℕ → Option ℕ := fun _ => none

/-! ### downloads.py -/

structure LockedBytes where
  size : ℕ
  closed : Bool := false

namespace LockedBytes

variable (self : LockedBytes) (io : Io)

/-- `_assert_unchanged`. -/
def assertUnchanged (check : ℕ) : Except Error Unit :=
  if self.closed then .error (.runtime "读取句柄已经关闭")
  else
    match io.identity check with
    | none => .error .os
    | some false => .error (.access (notVerified "读取期间会话对象发生变化"))
    | some true => .ok ()

/-- `min(length, available)`. -/
def selected (offset : ℤ) (length : Option ℤ) : ℕ :=
  match length with
  | none => self.size - offset.toNat
  | some length => min length.toNat (self.size - offset.toNat)

def negative (length : Option ℤ) : Bool := length.any (· < 0)

/-- A block of `os.pread`, which is neither empty nor longer than what was asked for. -/
def Block (count : ℕ) : Type := { block : List UInt8 // 0 < block.length ∧ block.length ≤ count }

/-- `os.pread` and the check behind it. -/
def pread (count cursor : ℕ) : Except Error (Block count) :=
  match io.content cursor with
  | none => .error .os
  | some content =>
    if h : 0 < (content.take count).length then .ok ⟨content.take count, h, List.length_take_le ..⟩
    else .error (.access (notVerified "会话对象在读取期间被截断"))

/-- The loop of `read`. -/
def readLoop (cursor remaining : ℕ) : Except Error (List UInt8) :=
  if remaining = 0 then .ok []
  else
    match pread io (min readChunk remaining) cursor with
    | .error e => .error e
    | .ok ⟨block, _⟩ => (readLoop (cursor + block.length) (remaining - block.length)).map (block ++ ·)
termination_by remaining

def read (offset : ℤ) (length : Option ℤ) : Except Error (List UInt8) := do
  if offset < 0 || negative length then .error (.value "offset 和 length 不能为负数")
  else
    self.assertUnchanged io 0
    let value ← readLoop io offset.toNat (self.selected offset length)
    self.assertUnchanged io 1
    return value

/-- What `iter_chunks` does up to its first turn: the chunk size, the cursor and what remains. -/
def startChunks (offset : ℤ) (length : Option ℤ) (chunkSize : ℤ) : Except Error (ℕ × ℕ × ℕ) :=
  if offset < 0 || negative length || chunkSize ≤ 0 then .error (.value "offset、length 或 chunk_size 无效")
  else (self.assertUnchanged io 0).map fun _ => (chunkSize.toNat, offset.toNat, self.selected offset length)

/-- One turn of the loop of `iter_chunks`; `none` is its end. -/
def nextChunk (chunkSize cursor remaining : ℕ) : Except Error (Option (Block (min chunkSize remaining))) :=
  if remaining = 0 then (self.assertUnchanged io 1).map fun _ => none
  else (pread io (min chunkSize remaining) cursor).map some

/-- The writes of one chunk; the result counts the bytes of all chunks. -/
def writeAll (view : List UInt8) (sent : ℕ) : Except Error ℕ :=
  if view.length = 0 then .ok sent
  else
    match io.write sent with
    | none => .error .os
    | some written =>
      if min written view.length = 0 then .error (.brokenPipe "artifact socket wrote zero bytes")
      else writeAll (view.drop written) (sent + min written view.length)
termination_by view.length
decreasing_by rw [List.length_drop]; omega

/-- The loop of `send_to` over `iter_chunks`. -/
def sendLoop (cursor remaining sent : ℕ) : Except Error ℕ :=
  match self.nextChunk io readChunk cursor remaining with
  | .error e => .error e
  | .ok none => .ok sent
  | .ok (some ⟨block, _⟩) =>
    match writeAll io block sent with
    | .error e => .error e
    | .ok sent => sendLoop (cursor + block.length) (remaining - block.length) sent
termination_by remaining

/-- `send_to`; the checks of `iter_chunks` are numbered behind the first. -/
def sendTo (outputDescriptor offset : ℤ) (length : Option ℤ) : Except Error ℕ := do
  if outputDescriptor < 0 || offset < 0 || negative length then
    .error (.value "output_descriptor、offset 或 length 无效")
  else
    self.assertUnchanged io 0
    let selected := self.selected offset length
    match io.sendfile with
    | .failed => .error .os
    | .returned sent =>
      if sent ≠ some (selected : ℤ) then .error (.access (notVerified "artifact native sendfile 发生短写"))
      else
        self.assertUnchanged io 1
        return selected
    | .absent =>
      let later : Io := { io with identity := fun check => io.identity (check + 1) }
      let (_, cursor, remaining) ← self.startChunks later offset (some selected) readChunk
      let sent ← self.sendLoop later cursor remaining 0
      self.assertUnchanged io 3
      return sent

end LockedBytes

/-! ### _TrackedRepresentation -/

/-- A generator of `iter_chunks`. -/
inductive Chunks where
  | fresh (offset : ℤ) (length : Option ℤ) (chunkSize : ℤ)
  | suspended (offset chunkSize cursor remaining total : ℕ)
  | finished

/-- What the callers get. A call that completed delivered so many bytes from its offset on. -/
inductive Seen where
  | delivered (offset count : ℕ)
  | completed (offset total : ℕ)
  | raised (error : Error)
  /-- An exception that a caller threw into a generator, which lets it through. -/
  | thrown
  deriving DecidableEq

structure Tracked where
  representation : LockedBytes
  release : ℕ
  /-- The transfer that `on_close` records. -/
  transfer : Option ℕ
  closed : Bool := false
  bytesRead : ℕ := 0
  fullRead : Bool := false
  failed : Bool := false
  chunks : List Chunks := []

inductive Status where
  | opened
  | served
  | someRead
  | failed
  | metadataOnly
  deriving DecidableEq

def Status.text : Status → String
  | .opened => "open"
  | .served => "served"
  | .someRead => "partial"
  | .failed => "failed"
  | .metadataOnly => "metadata_only"

namespace Tracked

variable (self : Tracked)

/-- A call that returned `count` bytes. -/
def count (offset count : ℕ) : Tracked :=
  { self with
    bytesRead := self.bytesRead + count
    fullRead := self.fullRead || (offset == 0 && count == self.representation.size) }

def fail : Tracked := { self with failed := true }

/-- `read` and `send_to` account alike for what the file below returns. -/
def account (offset : ℤ) (result : Except Error ℕ) : Tracked × List Seen :=
  match result with
  | .ok count => (self.count offset.toNat count, [.delivered offset.toNat count, .completed offset.toNat count])
  | .error e => (self.fail, [.raised e])

def read (io : Io) (offset : ℤ) (length : Option ℤ) : Tracked × List Seen :=
  self.account offset ((self.representation.read io offset length).map List.length)

def sendTo (io : Io) (outputDescriptor offset : ℤ) (length : Option ℤ) : Tracked × List Seen :=
  self.account offset (self.representation.sendTo io outputDescriptor offset length)

/-- Calling `iter_chunks` makes a generator and runs nothing of it. -/
def iterChunks (offset : ℤ) (length : Option ℤ) (chunkSize : ℤ) : Tracked :=
  { self with chunks := self.chunks ++ [.fresh offset length chunkSize] }

/-- A generator up to its next chunk or its end. -/
def resume (io : Io) (i offset chunkSize cursor remaining total : ℕ) : Tracked × List Seen :=
  match self.representation.nextChunk io chunkSize cursor remaining with
  | .error e => ({ self.fail with chunks := self.chunks.set i .finished }, [.raised e])
  | .ok none =>
    ({ self with
        fullRead := self.fullRead || (offset == 0 && total == self.representation.size)
        chunks := self.chunks.set i .finished }, [.completed offset total])
  | .ok (some ⟨block, _⟩) =>
    let suspended : Chunks := .suspended offset chunkSize (cursor + block.length) (remaining - block.length)
      (total + block.length)
    ({ self with bytesRead := self.bytesRead + block.length, chunks := self.chunks.set i suspended },
      [.delivered cursor block.length])

/-- `next` on a generator. -/
def next (io : Io) (i : ℕ) : Tracked × List Seen :=
  match self.chunks[i]? with
  | some (.fresh offset length chunkSize) =>
    match self.representation.startChunks io offset length chunkSize with
    | .error e => ({ self.fail with chunks := self.chunks.set i .finished }, [.raised e])
    | .ok (chunkSize, cursor, remaining) => self.resume io i offset.toNat chunkSize cursor remaining 0
  | some (.suspended offset chunkSize cursor remaining total) =>
    self.resume io i offset chunkSize cursor remaining total
  | _ => (self, [])

/-- A generator that is closed or collected: `GeneratorExit` passes. -/
def closeChunks (i : ℕ) : Tracked := { self with chunks := self.chunks.set i .finished }

/-- An exception thrown into a generator; one that has not begun has no handler yet. -/
def throw (i : ℕ) : Tracked × List Seen :=
  match self.chunks[i]? with
  | some (.suspended ..) => ({ self.fail with chunks := self.chunks.set i .finished }, [.thrown])
  | some (.fresh ..) => (self.closeChunks i, [])
  | _ => (self, [])

/-- The status that `close` records. -/
def status : Status :=
  if self.failed then .failed
  else if self.fullRead then .served
  else if self.bytesRead ≠ 0 then .someRead
  else .metadataOnly

end Tracked

/-! ### The coordinator and its database -/

/-- A row of `transfers`, without its times and its names. -/
structure Row where
  identity : ℕ
  status : Status
  bytesRead : ℕ

/-- How many rows `finish_transfer` keeps. -/
def keptTransfers : ℕ := 4096

/-- `finish_transfer`; the rows are in the order of their `rowid`. -/
def finishTransfer (identity : ℕ) (status : Status) (bytesRead : ℕ) (transfers : List Row) : List Row :=
  let rows := transfers.map fun row => if row.identity = identity then { row with status, bytesRead } else row
  (rows.take (rows.length - keptTransfers)).filter (·.status = .opened) ++ rows.drop (rows.length - keptTransfers)

/-- `finish_transfer` commits, raises what `record_transfer` catches, or raises something else. -/
inductive Receipt where
  | recorded
  | caught
  | raised
  deriving DecidableEq

/-- A call of `finish_transfer`. -/
structure Finish where
  identity : ℕ
  status : Status
  bytesRead : ℕ
  receipt : Receipt

/-- A representation that was handed out, with what its callers got until it was closed. -/
structure Handle where
  tracked : Tracked
  seen : List Seen := []

structure World where
  openRepresentations : ℤ := 0
  /-- The `released` of each `release`, in the order of the acquisitions. -/
  released : List Bool := []
  transfers : List Row := []
  /-- How many identities `begin_transfer` has drawn; an identity is its place. -/
  begun : ℕ := 0
  finishes : List Finish := []
  handles : List Handle := []

namespace World

variable (w : World)

/-- The end of `_acquire_representation`. -/
def acquire : World :=
  { w with openRepresentations := w.openRepresentations + 1, released := w.released ++ [false] }

def release (k : ℕ) : World :=
  if w.released[k]? = some false then
    { w with openRepresentations := w.openRepresentations - 1, released := w.released.set k true }
  else w

/-- `begin_transfer`. -/
def beginTransfer : World :=
  { w with transfers := w.transfers ++ [⟨w.begun, .opened, 0⟩], begun := w.begun + 1 }

/-- `record_transfer`. -/
def recordTransfer (identity : ℕ) (status : Status) (bytesRead : ℕ) (receipt : Receipt) : World :=
  { w with
    transfers :=
      if receipt = .recorded then finishTransfer identity status bytesRead w.transfers else w.transfers
    finishes := w.finishes ++ [⟨identity, status, bytesRead, receipt⟩] }

/-- A callback of the `ExitStack`; closing a file that nobody got changes nothing here. -/
inductive Callback where
  | release (k : ℕ)
  | close
  | recordTransfer (identity : ℕ) (receipt : Receipt)

def call : World → Callback → World
  | w, .release k => w.release k
  | w, .close => w
  | w, .recordTransfer identity receipt => w.recordTransfer identity .failed 0 receipt

/-- The callbacks run from the last to the first, also when one of them raises. -/
def unwind (callbacks : List Callback) : World := callbacks.reverse.foldl call w

/-- How an opening goes: cancelled before it begins, refused by `_acquire_representation`, or failed in what
follows. A `begin_transfer` that fails may have inserted its row. -/
inductive Opening where
  | cancelled
  | refused
  | storeFailed
  | artifactFailed
  | beginFailed (inserted : Bool)
  | storeCloseFailed (receipt : Receipt)
  | opened

/-- `_TrackedRepresentation` for what was opened. -/
def handOut (size release : ℕ) (transfer : Option ℕ) : World :=
  { w with handles := w.handles ++ [{ tracked := { representation := { size }, release, transfer } }] }

/-- `open_cancellable_artifact`. -/
def openCancellableArtifact (size : ℕ) (opening : Opening) : World :=
  let k := w.released.length
  match opening with
  | .cancelled | .refused => w
  | .storeFailed | .artifactFailed => w.acquire.unwind [.release k]
  | .beginFailed inserted =>
    (if inserted then w.acquire.beginTransfer else w.acquire).unwind [.release k, .close]
  | .storeCloseFailed receipt =>
    w.acquire.beginTransfer.unwind [.release k, .close, .recordTransfer w.begun receipt]
  | .opened => w.acquire.beginTransfer.handOut size k (some w.begun)

/-- `open_manifest`: no transfer is begun for it. -/
def openManifest (size : ℕ) (opening : Opening) : World :=
  let k := w.released.length
  match opening with
  | .cancelled | .refused => w
  | .storeFailed | .artifactFailed => w.acquire.unwind [.release k]
  | .beginFailed _ | .storeCloseFailed _ => w.acquire.unwind [.release k, .close]
  | .opened => w.acquire.handOut size k none

/-- `on_close`. -/
def onClose (tracked : Tracked) (receipt : Receipt) : World :=
  match tracked.transfer with
  | some identity => w.recordTransfer identity tracked.status tracked.bytesRead receipt
  | none => w

end World

/-- What is done with a representation. The file's close may raise, and is over then. -/
inductive Use where
  | read (io : Io) (offset : ℤ) (length : Option ℤ)
  | sendTo (io : Io) (outputDescriptor offset : ℤ) (length : Option ℤ)
  | iterChunks (offset : ℤ) (length : Option ℤ) (chunkSize : ℤ)
  | next (io : Io) (i : ℕ)
  | closeChunks (i : ℕ)
  | throw (i : ℕ)
  | close (fileRaises : Bool) (receipt : Receipt)

/-- A use other than `close`. -/
def Tracked.use (self : Tracked) : Use → Tracked × List Seen
  | .read io offset length => self.read io offset length
  | .sendTo io outputDescriptor offset length => self.sendTo io outputDescriptor offset length
  | .iterChunks offset length chunkSize => (self.iterChunks offset length chunkSize, [])
  | .next io i => self.next io i
  | .closeChunks i => (self.closeChunks i, [])
  | .throw i => self.throw i
  | .close .. => (self, [])

def Tracked.shut (self : Tracked) : Tracked :=
  { self with closed := true, representation := { self.representation with closed := true } }

def Handle.use (self : Handle) (u : Use) : Handle :=
  let (tracked, seen) := self.tracked.use u
  { tracked, seen := if self.tracked.closed then self.seen else self.seen ++ seen }

inductive Action where
  | openCancellableArtifact (size : ℕ) (opening : World.Opening)
  | openManifest (size : ℕ) (opening : World.Opening)
  | use (i : ℕ) (u : Use)

/-- `close` of a representation; the second one does nothing. `on_close` and `release` run whatever raises. -/
def World.close (w : World) (i : ℕ) (handle : Handle) (receipt : Receipt) : World :=
  if handle.tracked.closed then w
  else
    let w := { w with handles := w.handles.set i { handle with tracked := handle.tracked.shut } }
    (w.onClose handle.tracked receipt).release handle.tracked.release

def step (w : World) : Action → Option World
  | .openCancellableArtifact size opening => some (w.openCancellableArtifact size opening)
  | .openManifest size opening => some (w.openManifest size opening)
  | .use i u =>
    w.handles[i]?.map fun handle =>
      match u with
      | .close _ receipt => w.close i handle receipt
      | u => { w with handles := w.handles.set i (handle.use u) }

/-! ### gateway.py -/

/-- The calls that `_send_representation` makes for `selected` bytes from an offset on. -/
def sendCalls (io : ℕ → Io) (outputDescriptor offset : ℤ) (selected : ℕ) : List Use :=
  (List.range' 0 ((selected + responseWriteChunk - 1) / responseWriteChunk) responseWriteChunk).map fun position =>
    .sendTo (io position) outputDescriptor (offset + position) (some (min responseWriteChunk (selected - position) : ℕ))

/-- `_send_representation`: the calls up to the one behind which an error or a deadline ended the response. -/
def sendRepresentation (io : ℕ → Io) (outputDescriptor offset : ℤ) (selected : ℕ) (head : Bool) (made : ℕ) : List Use :=
  if head then [] else (sendCalls io outputDescriptor offset selected).take made

end Conductor.Artifact.Transfers
