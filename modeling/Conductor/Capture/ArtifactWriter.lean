import Conductor.Capture.Fanout
import Conductor.Lib.Runs
import Mathlib.Algebra.Order.Ring.Int

/-! `ArtifactWriter`: an append-only file behind a worker thread. The caller reserves the
size of a payload in the shared backlog, sends it through a bounded channel and only then
hashes and counts it; the worker writes it, releases the reservation and counts a record.
Every access to the shared counters, to the channel or to the error slot is a step. The
file belongs to the worker and then to the join. Timings are left out. -/

namespace Conductor.Capture.ArtifactWriter

open Word64 Runs

def indexPendingBytes : ℕ := 8 * 1024 * 1024

def indexPendingRecords : ℕ := 16384

/-- The largest file offset; a write that would pass it fails. -/
def maxFileSize : ℕ := 2 ^ 63 - 1

/-- The role and the path of the artifact, and the hexadecimal digest of some bytes. -/
structure Artifact where
  role : String
  relativePath : String
  sha256 : List UInt8 → String

structure IndexProgress where
  records : ℕ := 0
  pending : ℕ := 0
  peak : ℕ := 0
  error : Option RuntimeError := none

structure ArtifactIdentity where
  device : ℕ
  inode : ℕ
  size : ℕ
  mtimeNs : ℤ

structure ArtifactSnapshot where
  role : String
  relativePath : String
  bytes : ℕ
  sha256 : String
  identity : ArtifactIdentity

/-- Where a call on the writer stands. -/
inductive Caller
  | idle
  | checked (payload : List UInt8)
  | reserved (payload : List UInt8)
  /-- `try_send` failed; the reservation is not released yet. -/
  | refused (payload : List UInt8)
  | released (payload : List UInt8)
  | sent (payload : List UInt8)
  | joining (flush : Bool)
  deriving DecidableEq

inductive Worker
  | receiving
  | holding (payload : List UInt8)
  /-- The write returned; the reservation is not released yet. -/
  | stored (payload : List UInt8) (error : Option RuntimeError)
  | settled (error : Option RuntimeError)
  /-- The error is published; the receiver is not dropped yet. -/
  | failing (error : RuntimeError)
  | done (result : Option RuntimeError)
  deriving DecidableEq

/-- `queue` holds what was sent and not received; a dropped receiver never will. -/
structure Sys where
  progress : IndexProgress := {}
  queue : List (List UInt8) := []
  sender : Bool := true
  handle : Bool := true
  hasher : List UInt8 := []
  bytes : ℕ := 0
  caller : Caller := .idle
  worker : Worker := .receiving
  file : List UInt8 := []
  /-- The payloads and results of the `write` calls, and the results of `flush_and_close`. -/
  returned : List (List UInt8 × Except RuntimeError ℕ) := []
  flushed : List (Except RuntimeError ArtifactSnapshot) := []
  /-- The payloads sent, completely written, and lost to a failed write. -/
  sent : List (List UInt8) := []
  written : List (List UInt8) := []
  lost : List (List UInt8) := []

/-- The system calls of `flush_and_close` after the join. -/
inductive Syscall
  | flush
  | seek
  | fsync
  | stat
  deriving DecidableEq

structure Metadata where
  isFile : Bool
  device : ℕ
  inode : ℕ
  mtime : ℤ
  mtimeNsec : ℤ

def i64Saturate (z : ℤ) : ℤ := max (-2 ^ 63) (min (2 ^ 63 - 1) z)

inductive Action
  | write (payload : List UInt8)
  | reserve
  | send
  | account
  | release
  | recheck
  | flushAndClose
  | close
  /-- The join returns; `failure` is the system call that fails, with the error's text. -/
  | joined (failure : Option (Syscall × String)) (metadata : Metadata)
  | receive
  /-- The write of the payload; a failed one may have stored some of its bytes. -/
  | store (failure : Option (ℕ × String))
  | settle
  | report

variable (artifact : Artifact)

def writerClosed : RuntimeError := ⟨"invalid_state", "artifact writer is closed"⟩

/-- `write` returns. -/
def Sys.return (s : Sys) (payload : List UInt8) (result : Except RuntimeError ℕ) : Sys :=
  { s with caller := .idle, returned := s.returned ++ [(payload, result)] }

/-- The rest of `flush_and_close`, with the file the worker handed back. -/
def publish (s : Sys) (failure : Option (Syscall × String)) (metadata : Metadata) :
    Except RuntimeError ArtifactSnapshot := do
  let failed (call : Syscall) : Option String := (failure.filter (·.1 == call)).map (·.2)
  if let some e := failed .flush then
    throw ⟨"write_failed", s!"flush {artifact.relativePath} failed: {e}"⟩
  if let some e := failed .seek then
    throw ⟨"write_failed", s!"seek {artifact.relativePath} failed: {e}"⟩
  if s.file.length ≠ s.bytes then
    throw ⟨"write_failed", s!"{artifact.relativePath} offset does not match bytes written"⟩
  if let some e := failed .fsync then
    throw ⟨"write_failed", s!"fsync {artifact.relativePath} failed: {e}"⟩
  if let some e := failed .stat then
    throw ⟨"write_failed", s!"stat {artifact.relativePath} failed: {e}"⟩
  if !metadata.isFile || s.file.length ≠ s.bytes then
    throw ⟨"write_failed", s!"{artifact.relativePath} size does not match bytes written"⟩
  return {
    role := artifact.role
    relativePath := artifact.relativePath
    bytes := s.bytes
    sha256 := artifact.sha256 s.hasher
    identity := {
      device := metadata.device
      inode := metadata.inode
      size := s.file.length
      mtimeNs := i64Saturate (i64Saturate (metadata.mtime * 1000000000) + metadata.mtimeNsec) } }

/-- The steps of the thread that owns the writer. -/
def callerStep (s : Sys) : Action → Option Sys
  | .write payload =>
    if s.caller = .idle then
      match s.progress.error with
      | some error => some (s.return payload (.error error))
      | none =>
        if s.sender then some { s with caller := .checked payload }
        else some (s.return payload (.error writerClosed))
    else none
  | .reserve =>
    match s.caller with
    | .checked payload =>
      match (checkedAdd s.progress.pending payload.length).filter (· ≤ indexPendingBytes) with
      | none => some (s.return payload (.error ⟨"write_failed", "index writer byte backlog exhausted"⟩))
      | some total =>
        some { s with
          progress := { s.progress with pending := total, peak := max s.progress.peak total }
          caller := .reserved payload }
    | _ => none
  | .send =>
    match s.caller, s.worker with
    | .reserved payload, .done _ => some { s with caller := .refused payload }
    | .reserved payload, _ =>
      if s.queue.length < indexPendingRecords then
        some { s with queue := s.queue ++ [payload], caller := .sent payload, sent := s.sent ++ [payload] }
      else some { s with caller := .refused payload }
    | _, _ => none
  | .account =>
    match s.caller with
    | .sent payload =>
      let hashed := { s with hasher := s.hasher ++ payload }
      match checkedAdd s.bytes payload.length with
      | none => some (hashed.return payload (.error ⟨"write_failed", "artifact byte count overflow"⟩))
      | some bytes => some ({ hashed with bytes }.return payload (.ok payload.length))
    | _ => none
  | .release =>
    match s.caller with
    | .refused payload =>
      some { s with
        progress := { s.progress with pending := s.progress.pending - payload.length }
        caller := .released payload }
    | _ => none
  | .recheck =>
    match s.caller with
    | .released payload =>
      some (s.return payload (.error
        (s.progress.error.getD ⟨"write_failed", "index writer queue full or disconnected"⟩)))
    | _ => none
  | .flushAndClose =>
    if s.caller = .idle then
      if s.handle then some { s with sender := false, handle := false, caller := .joining true }
      else some { s with sender := false, flushed := s.flushed ++ [.error writerClosed] }
    else none
  | .close =>
    if s.caller = .idle then
      if s.handle then some { s with sender := false, handle := false, caller := .joining false }
      else some { s with sender := false }
    else none
  | .joined failure metadata =>
    match s.caller, s.worker with
    | .joining true, .done (some error) => some { s with caller := .idle, flushed := s.flushed ++ [.error error] }
    | .joining true, .done none =>
      some { s with caller := .idle, flushed := s.flushed ++ [publish artifact s failure metadata] }
    | .joining false, .done _ => some { s with caller := .idle }
    | _, _ => none
  | _ => none

/-- The steps of the worker thread. Its loop ends when the channel is empty and closed. -/
def workerStep (s : Sys) : Action → Option Sys
  | .receive =>
    match s.worker, s.queue with
    | .receiving, payload :: queue => some { s with queue, worker := .holding payload }
    | .receiving, [] => if s.sender then none else some { s with worker := .done none }
    | _, _ => none
  | .store failure =>
    match s.worker, failure with
    | .holding payload, none =>
      if s.file.length + payload.length ≤ maxFileSize then
        some { s with file := s.file ++ payload, worker := .stored payload none }
      else none
    | .holding payload, some (n, text) =>
      some { s with
        file := s.file ++ payload.take n
        worker := .stored payload
          (some ⟨"write_failed", s!"write {artifact.relativePath} failed: {text}"⟩) }
    | _, _ => none
  | .settle =>
    match s.worker with
    | .stored payload error =>
      let s := { s with
        progress := { s.progress with pending := s.progress.pending - payload.length }
        worker := .settled error }
      if error.isNone then some { s with written := s.written ++ [payload] }
      else some { s with lost := s.lost ++ [payload] }
    | _ => none
  | .report =>
    match s.worker with
    | .settled none =>
      some { s with progress := { s.progress with records := s.progress.records + 1 }, worker := .receiving }
    | .settled (some error) =>
      some { s with progress := { s.progress with error := some error }, worker := .failing error }
    | .failing error => some { s with worker := .done (some error) }
    | _ => none
  | _ => none

def step (s : Sys) (a : Action) : Option Sys := (callerStep artifact s a).or (workerStep artifact s a)

/-! ### What a run has to show -/

/-- The payloads of the `write` calls that returned `Ok`. -/
def accepted (s : Sys) : List (List UInt8) := (s.returned.filter (·.2.isOk)).map (·.1)

/-- What a `write` call in progress has reserved and not sent. -/
def Caller.reservation : Caller → ℕ
  | .reserved payload | .refused payload => payload.length
  | _ => 0

/-- What a `write` call in progress has sent and not yet counted. -/
def Caller.uncounted : Caller → List (List UInt8)
  | .sent payload => [payload]
  | _ => []

def Worker.error : Worker → Option RuntimeError
  | .stored _ error | .settled error | .done error => error
  | .failing error => some error
  | _ => none

structure Lawful (s : Sys) : Prop where
  /-- A published snapshot describes the file, which holds the accepted payloads. -/
  published : ∀ snapshot, .ok snapshot ∈ s.flushed →
    s.file = (accepted s).flatten ∧ snapshot.bytes = (accepted s).flatten.length ∧
      snapshot.sha256 = artifact.sha256 (accepted s).flatten
  /-- After a failure of the worker nothing is published. -/
  failed : s.worker.error ≠ none → ∀ snapshot, .ok snapshot ∉ s.flushed
  records : s.progress.records ≤ s.written.length ∧ (s.written.flatten <+: s.file) ∧ s.written <+: s.sent
  /-- A refused call leaves no trace: what is sent, hashed and counted comes from accepted
  calls and from one that is about to be. -/
  sent : s.sent = accepted s ++ s.caller.uncounted
  hashed : s.hasher = (accepted s).flatten ∧ s.bytes = (accepted s).flatten.length
  file : s.file <+: s.sent.flatten
  pending : s.progress.pending ≤ indexPendingBytes
  /-- Until a failure the backlog is what is sent and not settled, and the reservation of
  the call in progress. -/
  backlog : s.worker.error = none →
    ∃ rest, s.sent = s.written ++ rest ∧ s.progress.pending = rest.flatten.length + s.caller.reservation

end Conductor.Capture.ArtifactWriter
