import Conductor.Lib.KeyTable
import Conductor.Lib.Runs
import Mathlib.Algebra.Order.Ring.Rat
import Mathlib.Data.Finset.Card
import Mathlib.Data.List.MinMax

/-! The HTTP connections of `GatewayServer`: the acceptor in `process_request`, the handler threads
with their deadlines, downloads and ends, the watcher and the shutdown. What a thread does under
`_http_condition` is one step; a wait gives the lock back and ends in a step of its own. -/

namespace Conductor.HttpCapacity

open Runs

/-- A socket; those that were accepted are told apart. -/
abbrev Connection := ℕ

inductive Kind where
  | read
  | write
  deriving DecidableEq

/-- `_IODeadline`. -/
structure IODeadline where
  expiresAt : ℚ
  expired : Bool := false

/-- What the handler of a connection has done last. -/
inductive Phase where
  | absent
  /-- Admitted; its thread is not started. -/
  | registered
  | begun
  /-- For the first byte of a request. -/
  | waiting
  /-- In the header read, which ends in `parse_request`. -/
  | header
  /-- The request was read as far as its command has asked for it. -/
  | command
  | body
  /-- An I/O of the command has raised, with the `TimeoutError` of its deadline or not. -/
  | raised (timeout : Bool)
  | closing
  | ended
  deriving DecidableEq

/-- It waits for the input of a request or reads it. -/
def Phase.input : Phase → Bool
  | .registered | .begun | .waiting | .header | .body => true
  | _ => false

def Phase.live : Phase → Bool
  | .absent | .ended => false
  | _ => true

/-- A handler; `reading` and `writing` are the deadlines of the I/O that it is in. -/
structure Handler where
  phase : Phase := .absent
  requestReadExpiresAt : ℚ := 0
  reading : Option ℕ := none
  writing : Option ℕ := none

namespace Handler

def io (h : Handler) : Kind → Option ℕ
  | .read => h.reading
  | .write => h.writing

def setIo (h : Handler) (kind : Kind) (deadline : Option ℕ) : Handler :=
  match kind with
  | .read => { h with reading := deadline }
  | .write => { h with writing := deadline }

end Handler

/-- What an observer sees; the source keeps no such record. -/
inductive Event where
  | input (c : Connection)
  | started (c : Connection) (kind : Kind) (deadline : ℕ)
  | ended (c : Connection) (kind : Kind) (deadline : ℕ) (ok : Bool)
  /-- The deadline expires, and the socket is shut down. -/
  | expired (c : Connection) (deadline : ℕ)
  /-- It is chosen in this phase, and in a write or not. -/
  | reclaimed (c : Connection) (phase : Phase) (writing : Bool)
  deriving DecidableEq

/-- The watcher: it runs when it gets the lock, or waits, until a time if there is one. -/
inductive Watcher where
  | ready
  | sleeping (time : Option ℚ)
  | stopped

/-- The acceptor: at `accept`, waiting for capacity, or about to start a thread. -/
inductive Acceptor where
  | idle
  | reclaiming (request : Connection)
  | starting (request : Connection)
  deriving DecidableEq

structure Config where
  maxHttpConnections : ℕ
  maxSessionDownloads : ℕ
  requestTimeout : ℚ
  writeTimeout : ℚ
  connections_pos : 0 < maxHttpConnections
  downloads_pos : 0 < maxSessionDownloads
  request_pos : 0 < requestTimeout
  write_pos : 0 < writeTimeout

structure Server where
  now : ℚ := 0
  httpConnections : Finset Connection := ∅
  httpReclaimable : Connection → Option ℚ := fun _ => none
  httpCancelled : Finset Connection := ∅
  sessionDownloads : Finset Connection := ∅
  httpClosing : Bool := false
  ioDeadlines : List ((Connection × Kind) × ℕ) := []
  deadlineNextCheck : Option ℚ := none
  watcher : Watcher := .ready
  acceptor : Acceptor := .idle
  handlers : Connection → Handler := fun _ => {}
  deadlines : ℕ → IODeadline := fun _ => ⟨0, false⟩
  nextDeadline : ℕ := 0
  log : List Event := []

namespace Server

def notifyAll (s : Server) : Server :=
  { s with watcher := match s.watcher with | .sleeping _ => .ready | w => w }

def setHandler (s : Server) (c : Connection) (h : Handler) : Server :=
  { s with handlers := Function.update s.handlers c h }

def setPhase (s : Server) (c : Connection) (phase : Phase) : Server :=
  s.setHandler c { s.handlers c with phase := phase }

def reclaim (s : Server) (c : Connection) (started : Option ℚ) : Server :=
  { s with httpReclaimable := Function.update s.httpReclaimable c started }

def note (s : Server) (e : Event) : Server := { s with log := s.log ++ [e] }

/-- A new I/O of this connection is refused. -/
def refuses (s : Server) (c : Connection) : Bool := s.httpClosing || decide (c ∈ s.httpCancelled)

/-- The entry of `_io_deadline`; `none` where it raises. -/
def enter (k : Config) (s : Server) (c : Connection) (kind : Kind) (expiresAt : ℚ) : Option Server :=
  if s.refuses c ∨ expiresAt ≤ s.now then none
  else
    let id := s.nextDeadline
    let s : Server := { s with
      deadlines := Function.update s.deadlines id ⟨expiresAt, false⟩
      nextDeadline := id + 1
      ioDeadlines := KeyTable.insertOrReplace s.ioDeadlines ((c, kind), id) }
    let s := if kind = .read then s.reclaim c (some (expiresAt - k.requestTimeout)) else s
    let s := if s.deadlineNextCheck.all (expiresAt < ·) then s.notifyAll else s
    some ((s.setHandler c ((s.handlers c).setIo kind (some id))).note (.started c kind id))

/-- A deadline that is late expires at the end of its I/O. -/
def expire (s : Server) (c : Connection) (id : ℕ) : Server :=
  if (s.deadlines id).expired = false ∧ (s.deadlines id).expiresAt ≤ s.now then
    { s with deadlines := Function.update s.deadlines id { s.deadlines id with expired := true } }.note (.expired c id)
  else s

/-- `if self._io_deadlines.get(key) is deadline`. -/
def drop (s : Server) (c : Connection) (kind : Kind) (id : ℕ) : Server :=
  if ((c, kind), id) ∈ s.ioDeadlines then { s with ioDeadlines := KeyTable.delete s.ioDeadlines (c, kind) } else s

/-- Its end: `ok` says how the I/O ended, and so does the answer for the whole. -/
def leave (s : Server) (c : Connection) (kind : Kind) (id : ℕ) (ok : Bool) : Bool × Server :=
  let s := (s.expire c id).drop c kind id
  let s := if kind = .read then s.reclaim c none else s
  let ok := ok && !(s.deadlines id).expired && decide (c ∉ s.httpCancelled)
  (ok, (s.setHandler c ((s.handlers c).setIo kind none)).note (.ended c kind id ok))

/-- Where the handler goes on after an I/O. -/
def after (phase : Phase) (kind : Kind) (ok timeout : Bool) : Phase :=
  match phase, kind with
  | .header, .read => if ok then .command else .closing
  | .body, _ | .command, _ => if ok then .command else .raised timeout
  | phase, _ => phase

/-- `request_read` of the header, and of a body in `_read_json`. -/
def requestRead (k : Config) (s : Server) (c : Connection) : Option Server :=
  let h := s.handlers c
  if h.reading.isSome ∨ h.writing.isSome then none
  else
    match h.phase with
    | .waiting => (s.enter k c .read h.requestReadExpiresAt).map (·.setPhase c .header)
    | .command => some <|
      match s.enter k c .read h.requestReadExpiresAt with
      | some s => s.setPhase c .body
      | none => s.setPhase c (.raised false)
    | _ => none

/-- `response_write`, whose deadline is computed before it takes the lock. In the header read it is
the answer to a request that is not well formed. -/
def responseWrite (k : Config) (s : Server) (c : Connection) (time : ℚ) : Option Server :=
  let h := s.handlers c
  if s.now < time ∨ h.writing.isSome then none
  else
    match h.phase with
    | .header => s.enter k c .write (time + k.writeTimeout)
    | .command => some ((s.enter k c .write (time + k.writeTimeout)).getD (s.setPhase c (.raised false)))
    | _ => none

/-- The end of an I/O. -/
def endIo (s : Server) (c : Connection) (kind : Kind) (ok : Bool) : Option Server :=
  let h := s.handlers c
  if kind = .read ∧ h.writing.isSome then none
  else
    (h.io kind).map fun id =>
      let r := s.leave c kind id ok
      r.2.setPhase c (after h.phase kind r.1 (r.2.deadlines id).expired)

def candidate (s : Server) (c : Connection) : Bool := (s.httpReclaimable c).isSome && decide (c ∉ s.httpCancelled)

/-- Under the lock, after the wait or without one. -/
def admission (k : Config) (s : Server) (c : Connection) : Server :=
  if ¬ s.httpClosing ∧ s.httpConnections.card < k.maxHttpConnections then
    { (s.reclaim c (some s.now)).setPhase c .registered with
      httpConnections := insert c s.httpConnections, acceptor := .starting c }
  else { s with acceptor := .idle }

/-- `process_request` up to the wait. Of several oldest candidates any may be chosen; the keys of
`_http_reclaimable` are registered connections. -/
def processRequest (k : Config) (s : Server) (c : Connection) (oldest : Option Connection) : Option Server :=
  if s.acceptor = .idle ∧ (s.handlers c).phase = .absent then
    if ¬ s.httpClosing ∧ k.maxHttpConnections ≤ s.httpConnections.card ∧ ∃ d ∈ s.httpConnections, s.candidate d then
      match oldest with
      | some d =>
        if d ∈ s.httpConnections ∧ s.candidate d ∧
            ∀ other ∈ s.httpConnections, s.candidate other → (s.httpReclaimable d).getD 0 ≤ (s.httpReclaimable other).getD 0 then
          some ({ s with httpCancelled := insert d s.httpCancelled, acceptor := .reclaiming c }.note
            (.reclaimed d (s.handlers d).phase (s.handlers d).writing.isSome))
        else none
      | none => none
    else some (s.admission k c)
  else none

/-- `_http_finished`. -/
def httpFinished (s : Server) (c : Connection) : Server :=
  ({ s with
    httpConnections := s.httpConnections.erase c
    httpCancelled := s.httpCancelled.erase c
    sessionDownloads := s.sessionDownloads.erase c }.reclaim c none).notifyAll.setPhase c .ended

def downloadLimit (k : Config) : ℕ := min k.maxSessionDownloads (max 1 (k.maxHttpConnections - 1))

/-- `begin_session_download`; it answers nothing to the command where it refuses. -/
def beginSessionDownload (k : Config) (s : Server) (c : Connection) : Server :=
  if s.refuses c ∨ downloadLimit k ≤ s.sessionDownloads.card then s
  else { s with sessionDownloads := insert c s.sessionDownloads }

/-- A pass of the watcher: what is due expires, and it waits for the earliest of the others. -/
def watch (s : Server) : Server :=
  if s.httpClosing then { s with watcher := .stopped }
  else
    let due := s.ioDeadlines.filter fun e => decide ((s.deadlines e.2).expiresAt ≤ s.now)
    let rest := s.ioDeadlines.filter fun e => !decide ((s.deadlines e.2).expiresAt ≤ s.now)
    let check := (rest.map fun e => (s.deadlines e.2).expiresAt).min?
    { s with
      deadlines := fun id => { s.deadlines id with
        expired := (s.deadlines id).expired || decide (id ∈ due.map (·.2)) }
      ioDeadlines := rest
      deadlineNextCheck := check
      watcher := .sleeping check
      log := s.log ++ due.map fun e => .expired e.1.1 e.2 }

end Server

inductive Action where
  | tick (time : ℚ)
  | processRequest (c : Connection) (oldest : Option Connection)
  /-- The wait of the acceptor ends. -/
  | resume
  | startThread (ok : Bool)
  | beginRequestInput (c : Connection)
  /-- The first byte is there. -/
  | peeked (c : Connection)
  | requestRead (c : Connection)
  | responseWrite (c : Connection) (time : ℚ)
  | endIo (c : Connection) (kind : Kind) (ok : Bool)
  /-- The command goes on after an exception of its I/O. -/
  | caught (c : Connection)
  | propagated (c : Connection)
  | beginSessionDownload (c : Connection)
  | endSessionDownload (c : Connection)
  | finish (c : Connection)
  | watch
  | cancelHttpConnections

open Server in
def step (k : Config) (s : Server) : Action → Option Server
  | .tick time => if s.now ≤ time then some { s with now := time } else none
  | .processRequest c oldest => s.processRequest k c oldest
  | .resume =>
    match s.acceptor with
    | .reclaiming c => some (s.admission k c)
    | _ => none
  | .startThread ok =>
    match s.acceptor with
    | .starting c =>
      some (if ok then { s.setPhase c .begun with acceptor := .idle } else { s.httpFinished c with acceptor := .idle })
    | _ => none
  | .beginRequestInput c =>
    let h := s.handlers c
    if (h.phase = .begun ∨ h.phase = .command) ∧ h.writing = none ∧ ¬ s.refuses c then
      some (((s.reclaim c (some s.now)).setPhase c .waiting).note (.input c))
    else none
  | .peeked c =>
    let h := s.handlers c
    if h.phase = .waiting then some (s.setHandler c { h with requestReadExpiresAt := s.now + k.requestTimeout }) else none
  | .requestRead c => s.requestRead k c
  | .responseWrite c time => s.responseWrite k c time
  | .endIo c kind ok => s.endIo c kind ok
  | .caught c =>
    match (s.handlers c).phase with
    | .raised _ => some (s.setPhase c .command)
    | _ => none
  | .propagated c =>
    match (s.handlers c).phase with
    | .raised _ => some (s.setPhase c .closing)
    | _ => none
  | .beginSessionDownload c =>
    if (s.handlers c).phase = .command then some (s.beginSessionDownload k c) else none
  | .endSessionDownload c =>
    if (s.handlers c).phase ∈ [.command, .closing] then
      some { s with sessionDownloads := s.sessionDownloads.erase c }
    else none
  | .finish c =>
    let h := s.handlers c
    if h.phase ∈ [.begun, .waiting, .command, .closing] ∧ h.writing = none then some (s.httpFinished c) else none
  | .watch =>
    match s.watcher with
    | .ready => some s.watch
    | .sleeping (some time) => if time ≤ s.now then some s.watch else none
    | _ => none
  | .cancelHttpConnections => some { s with httpClosing := true }.notifyAll

end Conductor.HttpCapacity
