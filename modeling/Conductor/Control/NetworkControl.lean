import Conductor.Control.NetworkState
import Conductor.Lib.Runs

/-! The scheduling of `network_control.py`: the handlers of apply, retry and forget, `release_response`, the monitor and
the worker, from the end of `start` on. The store is what these see of it: the current transaction, its stage and
its release. The bodies of `_execute_locked` and `_execute_forget` are lists of their statements. -/

namespace Conductor.NetworkControl

open NetworkState (Stage Status)

/-! ### Work -/

inductive Kind where
  /-- With a candidate that is a mapping, or not. -/
  | candidate (mapping : Bool)
  | fallback
  | rescue
  | forget
  | other

/-- A work, and whether `_rescue_deadline` returns for it. -/
structure Work where
  kind : Kind
  deadlineValid : Bool

inductive Operation where
  | rescueNetwork
  | activateNetworkCandidate
  | commitNetworkCandidate
  | forgetNetworkClientProfiles
  deriving DecidableEq

/-- `NetworkError` and `NetworkStateError` are `RuntimeError`s, `sqlite3.Error` is none. -/
inductive Raised where
  | networkError
  | networkStateError
  | osError
  | sqliteError
  deriving DecidableEq

inductive Statement where
  /-- `_transition`; whether it passes the desired state of the work. -/
  | transition (stage : Stage) (desired : Bool)
  | operation (operation : Operation)
  /-- The deadline behind the activation. -/
  | deadline
  | raising (error : Raised)
  deriving DecidableEq

/-- The body of `_execute_forget` or `_execute_locked`. -/
def Work.body (w : Work) : List Statement :=
  match w.kind with
  | .forget => [.transition .forgetting false, .operation .forgetNetworkClientProfiles, .transition .forgotten true]
  | kind =>
    if !w.deadlineValid then [.raising .networkStateError]
    else
      .transition .prepared true ::
        match kind with
        | .fallback =>
          [.operation .rescueNetwork, .transition .apReady false, .transition .fallingBack true, .transition .rescued true]
        | .rescue => [.operation .rescueNetwork, .transition .apReady false, .transition .committed false]
        | .candidate true =>
          [.transition .activating false, .operation .activateNetworkCandidate, .deadline, .transition .verifying false,
            .operation .commitNetworkCandidate, .transition .committed false]
        | _ => [.raising .networkError]

/-! ### The state -/

structure Current where
  id : String
  stage : Stage
  released : Bool
  deriving DecidableEq

/-- Where the worker is: with a transaction in front of its body, in the body, or in one of the three sections of
`_fallback_transaction`, called from the body or by the handler of `_worker_loop`. -/
inductive Worker where
  | idle
  | entering (id : String)
  | executing (id : String) (body : List Statement)
  | fallingBack (id : String) (handler : Bool)
  | rescuing (id : String) (handler : Bool)
  | ending (id : String) (handler recovered : Bool)
  /-- The `finally`, and whether an exception is on its way out. -/
  | leaving (id : String) (raised : Bool)
  | returned
  | died
  deriving DecidableEq

/-- The worker has the operation lock. -/
def Worker.locks : Worker → Bool
  | .executing _ _ => true
  | .fallingBack _ handler => !handler
  | .rescuing _ handler => !handler
  | .ending _ handler _ => !handler
  | _ => false

/-- How a section of the worker ends. -/
inductive Outcome where
  | ok
  | raises (error : Raised)
  deriving DecidableEq

/-- The last five are history: the ids of all transactions, those that were put into the queue, those whose execution
was released, the stages that were recorded and the operations that succeeded. -/
structure State where
  current : Option Current
  work : List (String × Work)
  worker : Worker
  queue : List (Option String)
  queued : List String
  pending : ℤ
  deferred : List String
  accepted : Option (String × Bool)
  closed : Bool
  stopped : Bool
  ids : List String
  put : List String
  released : List String
  moves : List (String × Stage)
  succeeded : List (String × Operation)

namespace State

/-- `_enqueue`. -/
def enqueue (s : State) (id : String) : State :=
  if s.closed then s
  else if id ∈ s.queued then s
  else
    { s with
      queued := s.queued ++ [id]
      pending := s.pending + 1
      queue := s.queue ++ [some id]
      put := s.put ++ [id] }

/-- The state behind `start`. -/
def start (current : Option Current) (work : List (String × Work)) : State :=
  let s : State :=
    { current := current
      work := work
      worker := .idle
      queue := []
      queued := []
      pending := 0
      deferred := []
      accepted := none
      closed := false
      stopped := false
      ids := (current.map (·.id)).toList
      put := []
      released := ((current.filter (·.released)).map (·.id)).toList
      moves := []
      succeeded := [] }
  match current with
  | none => s
  | some c => if c.released then s.enqueue c.id else { s with deferred := [c.id] }

/-- An accepted transaction; the submit lock is kept until it is scheduled. A handler that answers over the socket defers
the execution until its response, and the monitor does not. -/
def accept (s : State) (id : String) (w : Work) (deferred : Bool) : Option State :=
  if s.accepted.isSome || s.closed || s.current.isSome || s.worker.locks || id ∈ s.ids then none
  else
    some
      { s with
        current := some ⟨id, .accepted, !deferred⟩
        work := (id, w) :: s.work
        accepted := some (id, deferred)
        ids := s.ids ++ [id]
        released := if deferred then s.released else s.released ++ [id] }

/-- `_schedule`. -/
def schedule (s : State) : Option State :=
  match s.accepted with
  | none => none
  | some (id, true) => some { s with accepted := none, deferred := s.deferred ++ [id] }
  | some (id, false) => some ({ s with accepted := none }.enqueue id)

/-- `release_response`, by whether `release_execution` returns. -/
def releaseResponse (s : State) (id : String) (returns : Bool) : State :=
  if id ∉ s.deferred then s
  else
    match s.current.filter (·.id = id) with
    | none => { s with deferred := s.deferred.erase id }
    | some c =>
      if !returns then s
      else
        { s with
          current := some { c with released := true }
          released := s.released ++ [id]
          deferred := s.deferred.erase id }.enqueue id

/-! ### The worker -/

/-- `_transition`. The write may raise; the arguments are refused for the desired state only. -/
def transition (s : State) (id : String) (stage : Stage) (desired : Bool) : Outcome → Option (Except Raised Unit × State)
  | outcome =>
    match s.current.filter (·.id = id), outcome with
    | none, .raises .networkStateError => some (.error .networkStateError, s)
    | none, _ => none
    | some c, .ok =>
      some (.ok (),
        { s with
          current := if stage.status.terminal then none else some { c with stage := stage }
          moves := s.moves ++ [(id, stage)] })
    | some _, .raises .networkStateError => if desired then some (.error .networkStateError, s) else none
    | some _, .raises .networkError => none
    | some _, .raises error => some (.error error, s)

/-- The exception leaves the body: `_execute_locked` and `_execute_forget` fall back, or `_worker_loop` does. -/
def raiseInBody (s : State) (id : String) : Raised → State
  | .networkError => { s with worker := .fallingBack id false }
  | .networkStateError => { s with worker := .fallingBack id false }
  | .osError => { s with worker := .fallingBack id true }
  | .sqliteError => { s with worker := .leaving id true }

/-- The exception leaves `_fallback_transaction`. -/
def raiseInFallback (s : State) (id : String) (handler : Bool) : Raised → State
  | .sqliteError => { s with worker := .leaving id true }
  | _ => { s with worker := if handler then .leaving id true else .fallingBack id true }

/-- The next statement of the body. -/
def statement (s : State) (id : String) (outcome : Outcome) : List Statement → Option State
  | [] => if outcome = .ok then some { s with worker := .leaving id false } else none
  | .transition stage desired :: body =>
    match s.transition id stage desired outcome with
    | none => none
    | some (.ok (), s) => some { s with worker := .executing id body }
    | some (.error error, s) => some (s.raiseInBody id error)
  | .operation operation :: body =>
    match outcome with
    | .ok => some { s with worker := .executing id body, succeeded := s.succeeded ++ [(id, operation)] }
    | .raises .networkError => some (s.raiseInBody id .networkError)
    | .raises _ => none
  | .deadline :: body =>
    match outcome with
    | .ok => some { s with worker := .executing id body }
    | .raises .networkError => some (s.raiseInBody id .networkError)
    | .raises _ => none
  | .raising error :: _ => if outcome = .ok then some (s.raiseInBody id error) else none

/-- The next section of the worker. -/
def advance (s : State) (outcome : Outcome) : Option State :=
  match s.worker with
  | .idle =>
    match s.queue with
    | some id :: queue => if outcome = .ok then some { s with queue := queue, worker := .entering id } else none
    | none :: queue => if outcome = .ok then some { s with queue := queue, worker := .returned } else none
    | [] => none
  | .entering id =>
    -- `_network_operation_lock` and `work_for`
    match outcome with
    | .ok => (s.work.lookup id).map fun w => { s with worker := .executing id w.body }
    | .raises .networkError => some { s with worker := .fallingBack id true }
    | .raises .networkStateError => some { s with worker := .fallingBack id true }
    | .raises _ => none
  | .executing id body => s.statement id outcome body
  | .fallingBack id handler =>
    match s.transition id .fallingBack false outcome with
    | none => none
    | some (.ok (), s) => some { s with worker := .rescuing id handler }
    | some (.error .networkStateError, s) => some { s with worker := .rescuing id handler }
    | some (.error error, s) => some (s.raiseInFallback id handler error)
  | .rescuing id handler =>
    match outcome with
    | .ok => some { s with worker := .ending id handler true }
    | .raises .networkError => some { s with worker := .ending id handler false }
    | .raises _ => none
  | .ending id handler recovered =>
    match s.transition id (if recovered then .rescued else .failed) false outcome with
    | none => none
    | some (.ok (), s) => some { s with worker := .leaving id false }
    | some (.error .networkStateError, s) => some { s with worker := .leaving id false }
    | some (.error error, s) => some (s.raiseInFallback id handler error)
  | .leaving id raised =>
    if outcome = .ok then
      some
        { s with
          queued := s.queued.erase id
          pending := s.pending - 1
          worker := if raised then .died else .idle }
    else none
  | .returned => none
  | .died => none

end State

/-! ### Runs -/

inductive Act where
  | accept (id : String) (work : Work) (deferred : Bool)
  | schedule
  | releaseResponse (id : String) (returns : Bool)
  | worker (outcome : Outcome)
  | close
  /-- `close` puts `None` behind the monitor. -/
  | stop

def step (s : State) : Act → Option State
  | .accept id work deferred => s.accept id work deferred
  | .schedule => s.schedule
  | .releaseResponse id returns => some (s.releaseResponse id returns)
  | .worker outcome => s.advance outcome
  | .close => if s.accepted.isSome || s.closed then none else some { s with closed := true }
  | .stop => if s.closed && !s.stopped then some { s with stopped := true, queue := s.queue ++ [none] } else none

end Conductor.NetworkControl
