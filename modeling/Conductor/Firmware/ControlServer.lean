import Conductor.Lib.Runs

/-! `ControlServer` of `firmware_control.py`: calls of `process_request`, the threads that they create and
`server_close`, interleaved step by step. A call holds `_control_condition` over several steps; where a thread
takes it, what it does there is one step. -/

namespace Conductor.Firmware.ControlServer

/-- Where a call of `process_request` is: what it has done last. -/
inductive Stage where
  /-- There is no such call yet. -/
  | idle
  | outside
  /-- In the `with` block, which ends with `opened` or `unwound`. -/
  | inside
  | registered
  | gated
  | built
  | started
  | admitted
  | opened
  /-- With an `Exception`, or another `BaseException`; the inner `finally` is next. -/
  | failed (exception : Bool)
  | unwound (exception : Bool)
  /-- In the handler. -/
  | handling (exception : Bool)
  | released (exception : Bool)
  /-- `rejected` is set and the lock given back. -/
  | rejecting
  | returned
  deriving DecidableEq

/-- The call holds the lock. -/
def Stage.holds : Stage → Bool
  | .inside | .registered | .gated | .built | .started | .admitted | .opened | .failed _ | .unwound _ => true
  | _ => false

/-- Where a worker is in `serve_admitted`; `cleared` is behind the test of `dispatch_control` and before
`dispatch`. -/
inductive WorkerStage where
  | waiting
  | serving
  | cleared
  | answered
  | leaving
  | ended
  deriving DecidableEq

/-- A call with its connection: `gate`, set or not, `admitted` and the threads that it has created. The counters say how
often the connection was handed to the handler, refused, and its request cleared and dispatched; they are not in the
source. -/
structure Call where
  stage : Stage := .idle
  gate : Option Bool := none
  admitted : Bool := false
  threads : List WorkerStage := []
  served : ℕ := 0
  refused : ℕ := 0
  clearances : ℕ := 0
  dispatched : ℕ := 0

/-- The keys of the two dictionaries are the numbers of the calls. -/
structure Server where
  connections : List ℕ := []
  workers : List ℕ := []
  closing : Bool := false
  holder : Option ℕ := none
  call : ℕ → Call := fun _ => {}

namespace Server

def setCall (s : Server) (c : ℕ) (k : Call) : Server := { s with call := Function.update s.call c k }

/-- `_release_control_request`. -/
def releaseControlRequest (s : Server) (c : ℕ) : Server :=
  { s with connections := s.connections.filter (· ≠ c), workers := s.workers.filter (· ≠ c) }

end Server

/-- How a statement of `process_request` ends; `late` is a `Thread.start` that raises with its thread running. -/
inductive Fault where
  | none
  | raises (exception : Bool)
  | late (exception : Bool)
  deriving DecidableEq

/-- The next statement of a call. -/
def callStep (maxConnections : ℕ) (s : Server) (c : ℕ) (fault : Fault) : Option Server :=
  let k := s.call c
  match k.stage, fault with
  | .outside, .none =>
    if s.holder = none then some ({ s with holder := some c }.setCall c { k with stage := .inside }) else none
  | .inside, .none =>
    if s.closing ∨ maxConnections ≤ s.connections.length then
      some ({ s with holder := none }.setCall c { k with stage := .rejecting })
    else some ({ s with connections := s.connections ++ [c] }.setCall c { k with stage := .registered })
  | .registered, .none => some (s.setCall c { k with stage := .gated, gate := some false })
  | .gated, .none => some ({ s with workers := s.workers ++ [c] }.setCall c { k with stage := .built })
  | .built, .none => some (s.setCall c { k with stage := .started, threads := k.threads ++ [.waiting] })
  | .built, .late e => some (s.setCall c { k with stage := .failed e, threads := k.threads ++ [.waiting] })
  | .started, .none => some (s.setCall c { k with stage := .admitted, admitted := true })
  | .inside, .raises e | .registered, .raises e | .gated, .raises e | .built, .raises e | .started, .raises e =>
    some (s.setCall c { k with stage := .failed e })
  | .admitted, .none => some (s.setCall c { k with stage := .opened, gate := k.gate.map fun _ => true })
  | .opened, .none => some ({ s with holder := none }.setCall c { k with stage := .returned })
  | .failed e, .none => some (s.setCall c { k with stage := .unwound e, gate := k.gate.map fun _ => true })
  | .unwound e, .none => some ({ s with holder := none }.setCall c { k with stage := .handling e })
  | .handling e, .none =>
    if s.holder = none then some ((s.releaseControlRequest c).setCall c { k with stage := .released e }) else none
  -- only an `Exception` is answered by `_reject_control_request`
  | .released e, .none =>
    some (s.setCall c { k with stage := .returned, refused := if e then k.refused + 1 else k.refused })
  | .rejecting, .none => some (s.setCall c { k with stage := .returned, refused := k.refused + 1 })
  | _, _ => none

inductive WorkerAct where
  | wake
  /-- The test of `dispatch_control`. -/
  | check
  | dispatch
  /-- `process_request_thread` returns or raises. -/
  | finish
  | release
  deriving DecidableEq

def Call.setThread (k : Call) (i : ℕ) (w : WorkerStage) : Call := { k with threads := k.threads.set i w }

/-- A step of `serve_admitted` in a thread of a call. -/
def workerStep (s : Server) (c i : ℕ) (act : WorkerAct) : Option Server :=
  let k := s.call c
  k.threads[i]?.bind fun w =>
    match w, act with
    | .waiting, .wake =>
      if k.gate = some true then
        if k.admitted then some (s.setCall c { k.setThread i .serving with served := k.served + 1 })
        else some (s.setCall c (k.setThread i .leaving))
      else none
    | .serving, .check =>
      if s.holder = none then
        if s.closing then some (s.setCall c (k.setThread i .answered))
        else some (s.setCall c { k.setThread i .cleared with clearances := k.clearances + 1 })
      else none
    | .cleared, .dispatch => some (s.setCall c { k.setThread i .answered with dispatched := k.dispatched + 1 })
    | .serving, .finish | .answered, .finish => some (s.setCall c (k.setThread i .leaving))
    | .leaving, .release =>
      if s.holder = none then some ((s.releaseControlRequest c).setCall c (k.setThread i .ended)) else none
    | _, _ => none

inductive Act where
  /-- `process_request` is called with a connection. -/
  | accept (c : ℕ)
  | call (c : ℕ) (fault : Fault)
  | worker (c i : ℕ) (act : WorkerAct)
  /-- The locked part of `server_close`. -/
  | close

def step (maxConnections : ℕ) (s : Server) : Act → Option Server
  | .accept c => if (s.call c).stage = .idle then some (s.setCall c { s.call c with stage := .outside }) else none
  | .call c fault => callStep maxConnections s c fault
  | .worker c i act => workerStep s c i act
  | .close => if s.holder = none then some { s with closing := true } else none

end Conductor.Firmware.ControlServer
