import Conductor.Control.NetworkState
import Conductor.Lib.Runs

/-! `_monitor_once` of `network_control.py` over the store, in one order with the calls that the
control requests and the worker make. One thread runs it; its first snapshot, its probe, its
reading of the clock and its section under the submit lock are steps of their own. A step that
raises is one that ends; whether the thread ends with it is a matter of the run. -/

namespace Conductor.NetworkHealth

open NetworkState (Value Fields Transaction Transition Acceptance Database Write)

/-! ### The state -/

/-- What the operation lock and `saved_network_is_healthy` give. A `NetworkError` of either counts as
unhealthy, the one of a lock that another holds apart. -/
inductive Probe where
  | captureActive
  | healthy
  | unhealthy
  | networkError
  | raises
  deriving DecidableEq

/-- Where `_monitor_once` is. -/
inductive Monitor where
  | idle
  /-- Behind the first snapshot, with what it keeps of it. -/
  | probing (desired : Value) (latest : Option Transaction)
  /-- Behind a probe that was not healthy. -/
  | unhealthy (desired : Value) (latest : Option Transaction)
  /-- In front of the submit lock. -/
  | waited (failureStartedNs : ℤ)

def Monitor.isIdle : Monitor → Bool
  | .idle => true
  | _ => false

/-- What a step of the monitor found, and the transactions that were accepted. -/
inductive Event where
  | healthy (desired : Value)
  /-- With the clock, where the step reads it. -/
  | unhealthy (desired : Value) (observedNs : Option ℤ)
  /-- The step ended in front of a finding. -/
  | noFinding
  | accepted (transactionId : String)
  /-- The acceptance of a health timeout. -/
  | fellBack (transactionId : String)

/-- `ids` are the transaction ids that were drawn, `handed` those that were scheduled, and `log` is the history with
the newest event in front. -/
structure State where
  db : Database
  monitor : Monitor
  healthFailureStartedNs : Option ℤ
  healthFallbackLatched : Bool
  closed : Bool
  nowNs : ℤ
  ids : List String
  handed : List String
  log : List Event

/-- Behind the constructor. -/
def State.start (db : Database) : State where
  db := db
  monitor := .idle
  healthFailureStartedNs := none
  healthFallbackLatched := false
  closed := false
  nowNs := 0
  ids := (db.state.current.map (·.transactionId)).toList
  handed := (db.state.current.map (·.transactionId)).toList
  log := []

/-- `str(desired["mode"])`. -/
def mode (desired : Value) : String :=
  match desired with
  | .dict fields => match fields.lookup "mode" with | some (.str mode) => mode | _ => ""
  | _ => ""

/-- The latest transaction ended without its network. -/
def down (latest : Option Transaction) : Bool := latest.any fun t => t.status = .rescued || t.status = .failed

/-! ### The transaction of a health timeout -/

/-- What `saved_network_candidate` does. -/
inductive Candidate where
  | found (candidate : Fields)
  | networkError (code : String)
  | raises

/-- It refuses the hotspot. -/
def savedNetworkCandidate (mode : String) (candidate : Candidate) : Candidate :=
  if mode = "hotspot" then .networkError "candidate_invalid" else candidate

def errorCode (code : String) : String :=
  if code = "wifi_auth_failed" then "credential_rejected"
  else if code = "network_timeout" then "dhcp_timeout"
  else if code = "default_route_missing" then "route_lost"
  else if code = "rescue_failed" then "rescue_ap_unavailable"
  else if code = "rescue_unconfigured" then "rescue_ap_unavailable"
  else code

def errorMessages : List (String × String) :=
  [("rescue_ap_unavailable", "rescue AP could not be validated"),
    ("credential_rejected", "Wi-Fi credential was rejected"),
    ("dhcp_timeout", "network activation exceeded the ten second deadline"),
    ("route_lost", "the candidate did not establish a default route"),
    ("network_manager_unavailable", "NetworkManager could not apply the candidate"),
    ("concurrency_unsupported", "requested network concurrency is unsupported")]

/-- `_transaction_error`. -/
def transactionError (code : String) : Fields :=
  match errorMessages.lookup (errorCode code) with
  | some message => [("code", .str (errorCode code)), ("message", .str message), ("retryable", .bool true)]
  | none =>
    [("code", .str "network_manager_unavailable"), ("message", .str "NetworkManager could not apply the candidate"),
      ("retryable", .bool true)]

def routeLost : Fields :=
  [("code", .str "route_lost"), ("message", .str "the verified client remained unhealthy for ten seconds"),
    ("retryable", .bool true)]

/-- The constants of a controller; `requestFingerprint` is the digest of the reason and the desired state. -/
structure Controller where
  sha256Hex : ByteArray → String
  requestFingerprint : Value → String
  bootId : String
  healthFailureSeconds : Double

/-- The work of a fallback, unless the candidate raises. -/
def Controller.work (c : Controller) (desired : Value) (failureStartedNs : ℤ) (candidate : Candidate) : Option Fields :=
  let work (error : Fields) : Fields :=
    [("kind", .str "fallback"), ("desired", desired), ("cleanup_work_ids", .list []), ("fallback_error", .dict error),
      ("rescue_deadline", .dict [("time_base", .str "device_monotonic"), ("boot_id", .str c.bootId),
        ("deadline_ns", .int (failureStartedNs + 15 * 1000000000))])]
  match savedNetworkCandidate (mode desired) candidate with
  | .found candidate => some (work routeLost ++ [("candidate", .dict candidate)])
  | .networkError code => some (work (transactionError code))
  | .raises => none

inductive Lock where
  | acquired
  | captureActive
  | failed

/-- What the section under the submit lock meets. -/
structure Submission where
  readable : Bool
  lock : Lock
  candidate : Candidate
  transactionId : String
  acceptedAt : String
  write : Write

/-- The arguments of `_accept_system_transaction`. -/
def Controller.acceptance (c : Controller) (db : Database) (desired work : Fields) (x : Submission) : Acceptance where
  operation := "retry"
  desired := desired
  principalId := "system-network-controller"
  idempotencyKey := "system-health-timeout-" ++ x.transactionId
  requestFingerprint := c.requestFingerprint db.state.desired
  transactionId := x.transactionId
  acceptedAt := x.acceptedAt
  work := work
  executionReleased := true
  publishDesired := true
  saved := some db.state.saved
  verified := some db.state.verified

/-! ### Steps -/

/-- `elapsed`: the difference of two integers, divided to the nearest double. -/
def elapsed (failureStartedNs observedNs : ℤ) : Double := .round ((observedNs - failureStartedNs : ℤ) / 1000000000)

namespace State

/-- Drawn ids are new. -/
def fresh (s : State) (transactionId : String) : Bool := transactionId ∉ s.ids && transactionId ∉ s.handed

/-- A call of the store by a request. The handler of an accepted transaction schedules it. -/
def request (c : Controller) (s : State) (call : NetworkState.Act) : Option State :=
  let (answer, db) := s.db.step c.sha256Hex call
  match call with
  | .acceptTransaction a _ =>
    if s.closed || !s.fresh a.transactionId then none
    else
      some
        { s with
          db := db
          ids := a.transactionId :: s.ids
          handed := match answer with | .receipt _ _ => a.transactionId :: s.handed | _ => s.handed
          log :=
            if s.db.state.current.isNone && db.state.current.isSome then .accepted a.transactionId :: s.log else s.log }
  | .transition _ _ _ => none
  | _ => some { s with db := db }

/-- A transition by the worker, of a transaction that was handed to it. -/
def work (c : Controller) (s : State) (transactionId : String) (transition : Transition) (write : Write) : Option State :=
  if transactionId ∉ s.handed then none
  else some { s with db := (s.db.step c.sha256Hex (.transition transactionId transition write)).2 }

/-- The start of `_monitor_once`. -/
def snapshot (s : State) (readable : Bool) : Option State :=
  match s.monitor with
  | .idle =>
    if !readable || !s.db.state.valid then some { s with log := .noFinding :: s.log }
    else if s.db.state.current.isSome then some { s with healthFailureStartedNs := none, log := .noFinding :: s.log }
    else if mode s.db.state.desired = "hotspot" || !s.db.state.saved then
      some { s with healthFailureStartedNs := none, healthFallbackLatched := false, log := .noFinding :: s.log }
    else some { s with monitor := .probing s.db.state.desired s.db.state.latest }
  | _ => none

def probe (s : State) (probe : Probe) : Option State :=
  match s.monitor with
  | .probing desired latest =>
    match probe with
    | .captureActive => some { s with monitor := .idle, healthFailureStartedNs := none, log := .noFinding :: s.log }
    | .healthy =>
      some
        { s with
          monitor := .idle
          healthFailureStartedNs := none
          healthFallbackLatched := false
          log := .healthy desired :: s.log }
    | .raises => some { s with monitor := .idle, log := .noFinding :: s.log }
    | _ => some { s with monitor := .unhealthy desired latest }
  | _ => none

/-- From the latch to the comparison with `_health_failure_seconds`. -/
def clock (c : Controller) (s : State) (observedNs : ℤ) : Option State :=
  match s.monitor with
  | .unhealthy desired latest =>
    if s.healthFallbackLatched || down latest then
      some { s with monitor := .idle, healthFallbackLatched := true, log := .unhealthy desired none :: s.log }
    else if observedNs < s.nowNs then none
    else
      let s := { s with nowNs := observedNs, log := .unhealthy desired (some observedNs) :: s.log }
      match s.healthFailureStartedNs with
      | none => some { s with monitor := .idle, healthFailureStartedNs := some observedNs }
      | some failureStartedNs =>
        if (elapsed failureStartedNs observedNs).lt c.healthFailureSeconds then some { s with monitor := .idle }
        else some { s with monitor := .waited failureStartedNs }
  | _ => none

/-- `_accept_system_transaction` and what follows it. -/
def fallBack (c : Controller) (s : State) (x : Submission) (desired work : Fields) : State :=
  let (answer, db) := s.db.step c.sha256Hex (.acceptTransaction (c.acceptance s.db desired work x) x.write)
  let accepted : State :=
    { s with
      db := db
      ids := x.transactionId :: s.ids
      log := if db.state.current.isSome then .fellBack x.transactionId :: s.log else s.log }
  match answer with
  | .receipt receipt _ =>
    { accepted with
      healthFallbackLatched := true
      healthFailureStartedNs := none
      handed := receipt.transaction.transactionId :: s.handed }
  | _ => accepted

/-- The section under the submit lock. Without a current transaction only an acceptance changes what its snapshot has
read, and that needs the same lock. -/
def submit (c : Controller) (s : State) (x : Submission) : Option State :=
  match s.monitor with
  | .waited failureStartedNs =>
    let ended : State := { s with monitor := .idle }
    let cleared : State := { ended with healthFailureStartedNs := none }
    if !s.fresh x.transactionId then none
    else if s.closed || !x.readable || !s.db.state.valid then some ended
    else if s.db.state.current.isSome then some cleared
    else
      match x.lock, s.db.state.desired, c.work s.db.state.desired failureStartedNs x.candidate with
      | .captureActive, _, _ => some cleared
      | .acquired, .dict desired, some work => some (ended.fallBack c x desired work)
      | _, _, _ => some ended
  | _ => none

end State

inductive Act where
  | request (call : NetworkState.Act)
  | work (transactionId : String) (transition : Transition) (write : Write)
  | snapshot (readable : Bool)
  | probe (probe : Probe)
  | clock (observedNs : ℤ)
  | submit (submission : Submission)
  /-- `close`, under the submit lock. -/
  | close

def step (c : Controller) (s : State) : Act → Option State
  | .request call => s.request c call
  | .work transactionId transition write => s.work c transactionId transition write
  | .snapshot readable => s.snapshot readable
  | .probe probe => s.probe probe
  | .clock observedNs => s.clock c observedNs
  | .submit submission => s.submit c submission
  | .close => some { s with closed := true }

end Conductor.NetworkHealth
