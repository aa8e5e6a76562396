import Conductor.Lib.PyValue
import Conductor.Lib.Runs

/-! `ClockSynchronizer`: an authenticated client initialises the wall clock of an offline
device. `status` hands out a challenge and `sync` redeems it. Both run under one lock, so a
call is one step; what the call reads of the two clocks, of `timedatectl`, of `secrets` and of
`clock_settime` comes with the step, one value for each reading, in nanoseconds. -/

namespace Conductor.Control.ClockSync

open Runs

/-- 2024-01-01 and 2100-01-01, UTC. -/
def minClientUnixMs : ℤ := 1704067200000

def maxClientUnixMs : ℤ := 4102444800000

def challengeTtlMs : ℤ := 5000

structure ClockSyncError where
  code : String
  message : String

inductive Source
  | ntp
  | client
  | unsynchronized

def Source.name : Source → String
  | .ntp => "ntp"
  | .client => "client"
  | .unsynchronized => "unsynchronized"

/-- `_CHALLENGE.fullmatch`: 32 lower-case hexadecimal digits. -/
def isChallenge (s : String) : Bool :=
  s.toList.length == 32 && s.toList.all fun c => ('0' ≤ c && c ≤ '9') || ('a' ≤ c && c ≤ 'f')

/-- `set(body) == {…}`. -/
def keysAre (items : List (PyStr × PyValue)) (names : List String) : Bool :=
  items.all (fun item => item.1 ∈ names.map PyStr.text) && names.all fun name => .text name ∈ items.map (·.1)

def asChallenge : PyValue → Option String
  | .str (.text s) => if isChallenge s then some s else none
  | _ => none

/-- `valid_clock_request`, with the challenge and the time that it lets through. -/
def clockRequest (body : PyValue) : Option (String × ℤ) :=
  match body with
  | .dict items => do
    guard (keysAre items ["schema", "challenge", "unix_time_ms"])
    guard (((PyValue.lookup items "schema").getD .none).eqStr (.text "ylx.clock-sync-request.v1"))
    let challenge ← (PyValue.lookup items "challenge").bind asChallenge
    let time ← (PyValue.lookup items "unix_time_ms").bind PyValue.asInt
    guard (minClientUnixMs ≤ time ∧ time < maxClientUnixMs)
    return (challenge, time)
  | _ => none

/-- The challenge that a request names, whether it is valid or not. -/
def presented (body : PyValue) : Option String :=
  match body with
  | .dict items =>
    match PyValue.lookup items "challenge" with
    | some (.str (.text s)) => some s
    | _ => none
  | _ => none

def validClockResponse (body : PyValue) : Bool :=
  match body with
  | .dict items =>
    let get (name : String) := (PyValue.lookup items name).getD .none
    let source (names : List Source) := names.any fun n => (get "source").eqStr (.text n.name)
    keysAre items ["schema", "source", "unix_time_ms", "challenge", "expires_in_ms", "applied"] &&
      (get "schema").eqStr (.text "ylx.clock-status.v1") &&
      source [.ntp, .client, .unsynchronized] &&
      (get "unix_time_ms").asInt.any (0 ≤ ·) &&
      (match get "applied" with
        | .bool applied => !applied || source [.client]
        | _ => false) &&
      (((asChallenge (get "challenge")).isSome && source [.unsynchronized] &&
          (get "expires_in_ms").asInt == some challengeTtlMs) ||
        (match get "challenge" with
          | .none => source [.ntp, .client] && (get "expires_in_ms").asInt == some 0
          | _ => false))
  | _ => false

/-- What `timedatectl` answers: nothing usable, or its stripped output. -/
def ntpSynchronized (output : Option String) : Except ClockSyncError Bool :=
  match output with
  | none => .error ⟨"clock_status_unavailable", "暂时无法读取网络校时状态"⟩
  | some value =>
    if value = "yes" then .ok true
    else if value = "no" then .ok false
    else .error ⟨"clock_status_unavailable", "网络校时状态无效"⟩

/-- A challenge: its owner, and the two clocks when it was issued. -/
structure Issued where
  principal : String
  mono : ℤ
  wall : ℤ
  deriving DecidableEq

structure Synchronizer where
  challenges : List (String × Issued) := []
  clientReference : Option (ℤ × ℤ) := none

/-- What `_source` reads. -/
structure SourceReadings where
  ntp : Option String
  wall : ℤ
  mono : ℤ

/-- The wall clock has kept pace with the monotonic one since the client's time was taken over. -/
def Synchronizer.referenceValid (s : Synchronizer) (r : SourceReadings) : Bool :=
  s.clientReference.any fun (mono, wall) => |r.wall - wall - (r.mono - mono)| < 2000000000

def Synchronizer.source (s : Synchronizer) (r : SourceReadings) : Except ClockSyncError Source × Synchronizer :=
  match ntpSynchronized r.ntp with
  | .error e => (.error e, s)
  | .ok true => (.ok .ntp, s)
  | .ok false =>
    if s.referenceValid r then (.ok .client, s)
    else (.ok .unsynchronized, { s with clientReference := none })

/-- `_response`; a challenge is never the empty string. -/
def response (wall : ℤ) (source : Source) (challenge : Option String) (applied : Bool) : PyValue :=
  .dict [
    (.text "schema", .str (.text "ylx.clock-status.v1")),
    (.text "source", .str (.text source.name)),
    (.text "unix_time_ms", .int (wall / 1000000)),
    (.text "challenge", (challenge.map fun c => PyValue.str (.text c)).getD .none),
    (.text "expires_in_ms", .int (if challenge.isSome then challengeTtlMs else 0)),
    (.text "applied", .bool applied)]

structure StatusReadings where
  source : SourceReadings
  now : ℤ
  token : String
  issuedWall : ℤ
  responseWall : ℤ

/-- `d[key] = value`; a key that is there keeps its place. -/
def setItem (d : List (String × Issued)) (key : String) (value : Issued) : List (String × Issued) :=
  if (d.lookup key).isSome then d.map fun e => if e.1 = key then (key, value) else e
  else d ++ [(key, value)]

def live (now : ℤ) (i : Issued) : Bool := 0 ≤ now - i.mono && now - i.mono < challengeTtlMs * 1000000

/-- The answer, the challenge handed out, and the state. -/
def Synchronizer.status (s : Synchronizer) (principal : String) (r : StatusReadings) :
    Except ClockSyncError PyValue × Option (String × Issued) × Synchronizer :=
  match s.source r.source with
  | (.error e, s) => (.error e, none, s)
  | (.ok .unsynchronized, s) =>
    let challenges := s.challenges.filter fun e => live r.now e.2
    let challenges := if 64 ≤ challenges.length then challenges.drop 1 else challenges
    let issued : Issued := ⟨principal, r.now, r.issuedWall⟩
    (.ok (response r.responseWall .unsynchronized (some r.token) false), some (r.token, issued),
      { s with challenges := setItem challenges r.token issued })
  | (.ok source, s) => (.ok (response r.responseWall source none false), none, s)

structure SyncReadings where
  received : ℤ
  source : SourceReadings
  now : ℤ
  checkedWall : ℤ
  appliedWall : ℤ
  /-- Whether `clock_settime` fails. -/
  settimeFails : Bool
  referenceMono : ℤ
  referenceWall : ℤ
  responseWall : ℤ

/-- What a `sync` call did: its answer, the time it gave to `clock_settime`, and whether it
took the client's time over. -/
structure SyncOutcome where
  result : Except ClockSyncError PyValue
  settime : Option ℤ := none
  accepted : Bool := false

def challengeExpired (message : String) : ClockSyncError := ⟨"clock_challenge_expired", message⟩

/-- `sync` once the challenge was redeemed and no other clock is in force. -/
def Synchronizer.apply (s : Synchronizer) (issued : Issued) (unixTimeMs : ℤ) (r : SyncReadings) :
    SyncOutcome × Synchronizer :=
  if !live r.now issued then ({ result := .error (challengeExpired "校时请求已过期，请重试") }, s)
  else if |r.checkedWall - issued.wall - (r.now - issued.mono)| > 1000000000 then
    ({ result := .error ⟨"clock_changed", "设备时间已改变，请重新校时"⟩ }, s)
  else
    let target := unixTimeMs * 1000000 + r.now - r.received
    let applied : Bool := |r.appliedWall - target| > 1000000000
    let settime := if applied then some target else none
    if applied && r.settimeFails then
      ({ result := .error ⟨"clock_set_failed", "设备系统日期校准失败"⟩, settime }, s)
    else
      ({ result := .ok (response r.responseWall .client none applied), settime, accepted := true },
        { challenges := [], clientReference := some (r.referenceMono, r.referenceWall) })

def Synchronizer.sync (s : Synchronizer) (principal : String) (body : PyValue) (r : SyncReadings) :
    SyncOutcome × Synchronizer :=
  match clockRequest body with
  | none => ({ result := .error ⟨"invalid_request", "客户端日期或校时请求无效"⟩ }, s)
  | some (challenge, unixTimeMs) =>
    let popped := { s with challenges := s.challenges.filter (·.1 ≠ challenge) }
    match (s.challenges.lookup challenge).filter (·.principal = principal) with
    | none => ({ result := .error (challengeExpired "校时请求已失效，请重新取得设备时间") }, popped)
    | some issued =>
      match popped.source r.source with
      | (.error e, s) => ({ result := .error e }, s)
      | (.ok .unsynchronized, s) => s.apply issued unixTimeMs r
      | (.ok source, s) => ({ result := .ok (response r.responseWall source none false) }, s)

/-! ### Runs -/

/-- What has happened; `valid` says whether the request passed `valid_clock_request`. -/
inductive Event
  | issued (challenge : String) (issued : Issued)
  | presented (challenge : String) (valid : Bool)
  | accepted
  deriving DecidableEq

structure Sys where
  synchronizer : Synchronizer := {}
  log : List Event := []
  returned : List PyValue := []

inductive Action
  | status (principal : String) (readings : StatusReadings)
  | sync (principal : String) (body : PyValue) (readings : SyncReadings)

def returnedBy (result : Except ClockSyncError PyValue) : List PyValue :=
  match result with
  | .ok body => [body]
  | .error _ => []

def step (s : Sys) : Action → Option Sys
  | .status principal r =>
    match s.synchronizer.status principal r with
    | (result, issued, synchronizer) => some {
        synchronizer
        log := s.log ++ (issued.map fun i => Event.issued i.1 i.2).toList
        returned := s.returned ++ returnedBy result }
  | .sync principal body r =>
    match s.synchronizer.sync principal body r with
    | (outcome, synchronizer) => some {
        synchronizer
        log := s.log ++ ((presented body).map fun c => Event.presented c (clockRequest body).isSome).toList ++
          if outcome.accepted then [Event.accepted] else []
        returned := s.returned ++ returnedBy outcome.result }

/-- What the schedule is assumed to supply: a random token is 32 hexadecimal digits that no
call has seen before, and the wall clock is never before the epoch. -/
def Supplied (s : Sys) (a : Action) (_ : Sys) : Prop :=
  match a with
  | .status _ r => isChallenge r.token = true ∧ (∀ i, .issued r.token i ∉ s.log) ∧
      (∀ valid, .presented r.token valid ∉ s.log) ∧ 0 ≤ r.responseWall
  | .sync _ _ r => 0 ≤ r.responseWall

/-- The right to set the clock: the challenge was issued to this principal less than five seconds
ago and after the last accepted synchronisation, no valid request presented it before, and neither
NTP nor a valid client reference is in force, nor has the wall clock jumped. -/
def MaySet (s : Sys) (principal challenge : String) (r : SyncReadings) : Prop :=
  ∃ i before after, s.log = before ++ .issued challenge i :: after ∧ i.principal = principal ∧
    .accepted ∉ after ∧ .presented challenge true ∉ s.log ∧
    0 ≤ r.now - i.mono ∧ r.now - i.mono < 5000000000 ∧
    |r.checkedWall - i.wall - (r.now - i.mono)| ≤ 1000000000 ∧
    ntpSynchronized r.source.ntp = .ok false ∧ s.synchronizer.referenceValid r.source = false

def StepLawful (s : Sys) (a : Action) (t : Sys) : Prop :=
  match a with
  | .status _ _ => True
  | .sync principal body r =>
    (∀ target, (s.synchronizer.sync principal body r).1.settime = some target →
      ∃ challenge time, clockRequest body = some (challenge, time) ∧ MaySet s principal challenge r) ∧
    ∀ challenge time, clockRequest body = some (challenge, time) →
      t.synchronizer.challenges.lookup challenge = none

structure Lawful (s : Sys) : Prop where
  outstanding : s.synchronizer.challenges.length ≤ 64
  /-- A challenge that a valid request has presented is gone. -/
  consumed : ∀ c, .presented c true ∈ s.log → s.synchronizer.challenges.lookup c = none
  valid : ∀ body ∈ s.returned, validClockResponse body = true

end Conductor.Control.ClockSync
