import Conductor.Coordinator.State

/-! The stop of a recording: `stop_capture` and `request_stop_capture` with their receipts, the
stop worker, the safe swap worker and the failure worker. A wait on the condition of the lock is a
section that is not enabled while it would wait again. -/

namespace Conductor.Coordinator

open Sections Proc

namespace Flow

/-- Only the owner of the volume: what a stop waits for, but for the acceptance. -/
def owned (flow : Flow) : Bool :=
  flow.stopInflight.isSome || flow.failureInflight.isSome || flow.asyncStopWorker.isSome

def act (flow : Flow) (call : Option ℕ) (effect : Effect) (session : Session) : Flow :=
  match call with
  | none => flow
  | some n => { flow with log := { flow.log with acts := flow.log.acts ++ [⟨n, effect, session⟩] } }

/-- The call takes the session, if there is one, as its own. -/
def capture (flow : Flow) (call : ℕ) (session : Option Session) : Flow :=
  let captured := flow.log.captured ++ session.toList.map fun session => (call, session)
  { flow with log := { flow.log with captured } }

def observe (flow : Flow) (call : ℕ) (session : Session) : Flow :=
  { flow with log := { flow.log with observed := flow.log.observed ++ [(call, session)] } }

end Flow

def Shared.busy (s : Shared) : Bool := s.flow.owned || s.receipts.stopAcceptanceInflight.isSome

/-! ### Failures -/

/-- `_commit_active_failure`. -/
def commitActiveFailure (session : Session) : Program Unit := do
  persistLocalState
  .critical fun s =>
    if s.flow.active = some session ∧ s.flow.failurePendingCommit = some session then
      pass () (s.setFlow fun flow =>
        { flow with
          failurePendingCommit := none
          failureProjection := flow.failureProjection && flow.failureInflight.isSome
          active := none
          captureTimer := none })
    else fail .other s

/-- `_finish_active_failure`. -/
def finishActiveFailure (call : Option ℕ) (session : Session) : Program Unit := do
  .critical fun s =>
    let t := s.setFlow fun flow => flow.act call .recorderFail session
    pass () t ++ fail .other t
  change fun flow => { flow with failurePendingCommit := some session }
  commitActiveFailure session

/-- `finish` of `_retain_active_failure`. -/
def finishFailure (call : Option ℕ) (session : Session) : Program Unit :=
  ensure (finishActiveFailure call session) (change fun flow =>
    { flow with
      failureInflight := none
      failureProjection := flow.failureProjection && flow.failurePendingCommit = some session })

/-- Whether the failure is claimed; a deferred one may go to a thread of its own. -/
def claimFailure (call : Option ℕ) (session : Session) (fromStop deferRecovery : Bool) (s : Shared) : Outcomes Bool :=
  if s.flow.active ≠ some session ∨ s.flow.failureInflight.isSome ∨ s.flow.failurePendingCommit = some session then
    pass false s
  else if s.flow.stopInflight.isSome && !fromStop then
    pass false (s.setFlow fun flow => { flow with pendingSourceFailure := true })
  else
    let t := s.setFlow fun flow =>
      { flow with
        pendingSourceFailure := false
        revision := flow.revision + 1
        failureProjection := true
        failureInflight := some session }
    let deferred := t.setFlow fun flow => { flow with jobs := flow.jobs ++ [.failure call session] }
    pass true t ++ if deferRecovery then pass false deferred else []

/-- `_retain_active_failure`. -/
def retainActiveFailure (call : Option ℕ) (session : Session) (fromStop deferRecovery : Bool) : Program Unit := do
  if ← .critical (claimFailure call session fromStop deferRecovery) then finishFailure call session

/-! ### The safe swap -/

/-- `_publish_safe_swap`. -/
def publishSafeSwap : Program Unit := do
  let session ← .critical fun s =>
    match s.flow.pendingSafeSwap with
    | none => fail (.provider "safe_swap_not_pending") s
    | some session => pass session s ++ fail (.provider "safe_swap_blocked") s
  .critical fun s => pass () s ++ fail (.provider "safe_swap_check_failed") s
  .critical fun s =>
    if s.flow.pendingSafeSwap ≠ some session then fail .captureStateChanged s
    else pass () (s.setFlow fun flow => { flow with revision := flow.revision + 1 }) ++ fail .other s
  attempt persistLocalState fun _ => .raise (.provider "safe_swap_publish_failed")
  change fun flow =>
    { flow with
      released := true
      safeSwapResource := true
      pendingSafeSwap := none
      pendingSafeSwapFailure := false
      revision := flow.revision + 1 }

/-- `_record_safe_swap_failure`. -/
def recordSafeSwapFailure (session : Session) : Program Unit := do
  let recorded ← .critical fun s =>
    if s.flow.pendingSafeSwap ≠ some session then pass false s
    else pass true (s.setFlow fun flow => { flow with pendingSafeSwapFailure := true, revision := flow.revision + 1 })
  if recorded then attempt persistLocalState fun _ => pure ()

/-! ### `_finish_stop_capture` -/

/-- `self._active is recorder`, and no source has failed. -/
def checkOwner (session : Session) (s : Shared) : Outcomes Unit :=
  if s.flow.pendingSourceFailure then fail (.recording "source_failure") s
  else if s.flow.active ≠ some session then fail .captureStateChanged s
  else pass () s

/-- A `DeviceRecordingError` is retained and raised as a provider error. -/
def retainRecordingError {α : Type} (call : ℕ) (session : Session) (e : Error) : Program α :=
  match e with
  | .recording code => do
    retainActiveFailure (some call) session true false
    .raise (.provider code)
  | e => .raise e

/-- The section that ends the recording; the result is `none` for a safe swap. -/
def endRecording (call : ℕ) (command : Command) (session : Session) (remember : Bool) (s : Shared) :
    Outcomes (Option Result) :=
  thenDo (checkOwner session s) fun _ s =>
    let s := s.setFlow fun flow =>
      { flow with active := none, captureTimer := none, revision := flow.revision + 1 }
    if command.safeSwap then pass none (s.setFlow fun flow => { flow with pendingSafeSwap := some session })
    else
      (captureStatus s.flow).map fun body =>
        let scope := command.scope .stop
        let result : Result := ⟨202, some body⟩
        let receipt := s.receipts.receipt call command.canonicalBody result
        let rc := if remember then s.receipts.cacheCommand scope receipt else s.receipts
        (.ok (some result), ⟨rc, { s.flow with pendingStopStateCommit := some scope }⟩)

/-- A receipt that is cached without being persisted in the same section. -/
def cacheReceipt (call : ℕ) (command : Command) (result : Result) : Program Unit :=
  .update fun s =>
    let receipt := s.receipts.receipt call command.canonicalBody result
    { s with receipts := s.receipts.cacheCommand (command.scope .stop) receipt }

/-- What is done with a sealed recording. -/
def commitStop (call : ℕ) (command : Command) (remember : Bool) : Option Result → Program Result
  | none => do
    persistLocalState
    publishSafeSwap
    if remember then
      cacheReceipt call command .noContent
      persistLocalState
    pure .noContent
  | some result => do
    persistLocalState
    change fun flow =>
      if flow.pendingStopStateCommit = some (command.scope .stop) then { flow with pendingStopStateCommit := none }
      else flow
    pure result

/-- The recorder is stopped, unless its failure only waits to be committed. -/
def stopRecorder (call : ℕ) (command : Command) (session : Session) (remember : Bool) : Program Result := do
  let stopped ← .critical fun s => pass true s ++ pass false s
  if !stopped then
    retainActiveFailure (some call) session true false
    .raise (.provider "source_stop_failed")
  if ← look fun s => decide (s.flow.failurePendingCommit = some session) then
    commitActiveFailure session
    if remember then .critical (rememberCommand call (command.scope .stop) command .noContent)
    pure .noContent
  else
    attempt
      (do
        if ← look (·.flow.pendingSourceFailure) then .raise (.recording "source_failure")
        .critical fun s =>
          let t := s.setFlow fun flow => flow.act (some call) .recorderStop session
          pass () t ++ fail (.recording "stop_failed") t ++ fail .other t)
      (retainRecordingError call session)
    .critical (checkOwner session)
    -- the catalog
    .critical fun s => pass () s ++ fail .other s
    commitStop call command remember (← .critical (endRecording call command session remember))

def finishStopCapture (call : ℕ) (command : Command) (session : Session) (remember : Bool) : Program Result :=
  ensure
    (attempt (stopRecorder call command session remember) (retainRecordingError call session))
    (change fun flow =>
      if flow.stopInflight = some (command.scope .stop) then
        { flow with stopInflight := none, pendingSourceFailure := false }
      else flow)

/-! ### Receipts that wait to be committed -/

/-- `_commit_stop_replay`. -/
def commitStopReplay (scope : Scope) : Program Unit := do
  let pending ← look (·.flow.pendingStopStateCommit)
  ensure
    (do
      persistLocalState
      change fun flow =>
        if flow.pendingStopStateCommit = pending then { flow with pendingStopStateCommit := none } else flow)
    (change fun flow => if flow.stopInflight = some scope then { flow with stopInflight := none } else flow)

/-- The section of `_retry_completed_stop_receipt`: nothing to retry, or a commit with the receipt of
the scope, if it has one. -/
def retrySection (command : Command) (wait : Bool) (s : Shared) : Outcomes (Option (Option Receipt)) :=
  let scope := command.scope .stop
  let previous := s.receipts.commands.lookup scope
  let completedNormalStop := !command.safeSwap && (s.flow.pendingStopStateCommit.isSome || previous.any (·.result.idle))
  let completedSafeSwap := command.safeSwap && previous.any (·.result.status = 204) && s.flow.pendingSafeSwap.isNone &&
    s.flow.safeSwapResource && s.flow.released
  if scope ∈ s.receipts.invalidCommands then fail .commandReceiptInvalid s
  else if s.flow.pendingStopStateCommit.isNone && previous.all (s.receipts.persisted scope) then pass none s
  else if !(s.flow.active.isNone && (completedNormalStop || completedSafeSwap)) then pass none s
  else if previous.any (·.canonicalBody ≠ command.canonicalBody) then fail .idempotencyConflict s
  else if s.busy then if wait then [] else fail .captureBusy s
  else pass (some previous) (s.setFlow fun flow => { flow with stopInflight := some scope })

/-- `_retry_completed_stop_receipt`. -/
def retryCompletedStopReceipt (command : Command) (wait : Bool) : Program (Option Reply) := do
  match ← .critical (retrySection command wait) with
  | none => pure none
  | some previous =>
    commitStopReplay (command.scope .stop)
    -- another key completes the old transaction and goes on
    pure (previous.map (·.replay))

/-! ### `request_stop_capture` -/

/-- What a request has prepared under the lock: an answer, or an acceptance to be committed with the
table to go back to. -/
inductive Prepared where
  | reply (reply : Reply)
  | receipt (result : Result) (retry : Bool) (old : Commands)
  | worker (reply : Reply) (persist : Bool) (old : Commands)
  | resume (reply : Reply) (persist : Bool) (old : Commands)

/-- The receipt of an acceptance is cached, if it is a new one, and the acceptance is in flight. -/
def accept (call : ℕ) (command : Command) (result : Result) (new : Bool) (rc : Receipts) : Receipts :=
  let scope := command.scope .stop
  let receipt := rc.receipt call command.canonicalBody result
  if new then { rc.cacheCommand scope receipt with stopAcceptanceInflight := some ⟨call, some (scope, receipt)⟩ }
  else { rc with stopAcceptanceInflight := some ⟨call, none⟩ }

/-- `_prepare_stop_receipt_commit`. -/
def prepareStopReceiptCommit (call : ℕ) (command : Command) (result : Result) (retry : Bool) (s : Shared) :
    Outcomes Prepared :=
  pass (.receipt result retry s.receipts.commands) { s with receipts := accept call command result (!retry) s.receipts }

/-- `_request_pending_safe_swap`: the lease or the thread may be refused. -/
def requestPendingSafeSwap (call : ℕ) (command : Command) (session : Session) (replay : Option Result) (s : Shared) :
    Outcomes Prepared :=
  let new := replay.isNone
  fail (.provider "maintenance_active") s ++ fail (.provider "stop_worker_unavailable") s ++
    (captureStatus s.flow).map fun body =>
      let result := replay.getD ⟨202, some body⟩
      (.ok (.resume ⟨result, !new⟩ (new || s.flow.pendingSafeSwapFailure) s.receipts.commands),
        { receipts := accept call command result new s.receipts
          flow :=
            { s.flow with
              asyncStopWorker := some call
              asyncStopReason := "safe_swap"
              stopInflight := some (command.scope .stop)
              jobs := s.flow.jobs ++ [.resume call session] } })

/-- The active recording gets a worker: the files may be open, or no thread be had. -/
def prepareWorker (call : ℕ) (command : Command) (session : Session) (retryReceipt : Option Result) (s : Shared) :
    Outcomes Prepared :=
  let new := retryReceipt.isNone
  (if command.safeSwap then fail (.provider "safe_swap_blocked") s else []) ++
    fail (.provider "stop_worker_unavailable") s ++
    (captureStatus s.flow).map fun body =>
      let result := retryReceipt.getD ⟨202, some body⟩
      let flow := (s.flow.capture call (some session)).act (some call) .stopWorker session
      (.ok (.worker ⟨result, !new⟩ new s.receipts.commands),
        { receipts := accept call command result new s.receipts
          flow :=
            { flow with
              stopInflight := some (command.scope .stop)
              asyncStopWorker := some call
              asyncStopReason := command.reason.getD "None"
              jobs := flow.jobs ++ [.stop call command session] } })

/-- The end of `_prepare_stop_request`, from where its receipt does not answer. -/
def prepareNew (call : ℕ) (command : Command) (retryReceipt : Option Result) (s : Shared) : Outcomes Prepared :=
  if s.flow.stopInflight.isSome && s.flow.active.isNone then fail .captureBusy s
  else if s.flow.asyncStopWorker.isSome then
    if command.reason ≠ some s.flow.asyncStopReason then fail (.provider "stop_intent_conflict") s
    else
      (captureStatus s.flow).flatMap fun body =>
        prepareStopReceiptCommit call command ⟨202, some body⟩ false
          (s.setFlow fun flow => flow.capture call flow.active)
  else if s.flow.stopInflight.isSome || s.flow.failureInflight.isSome then fail .captureBusy s
  else
    match s.flow.active with
    | some session => prepareWorker call command session retryReceipt s
    | none =>
      match command.safeSwap, s.flow.pendingSafeSwap with
      | true, some session => requestPendingSafeSwap call command session none s
      | _, _ => prepareStopReceiptCommit call command .noContent false s

/-- `_prepare_stop_request`. -/
def prepareStopRequest (call : ℕ) (command : Command) (s : Shared) : Outcomes Prepared :=
  let scope := command.scope .stop
  let rc := s.receipts
  let flow := s.flow
  if scope ∈ rc.invalidCommands then fail .commandReceiptInvalid s
  else
    match rc.commands.lookup scope with
    | none => if rc.stopAcceptanceInflight.isSome then fail .captureBusy s else prepareNew call command none s
    | some receipt =>
      if receipt.canonicalBody ≠ command.canonicalBody then fail .idempotencyConflict s
      else if rc.stopAcceptanceInflight.isSome then
        if rc.persisted scope receipt then pass (.reply receipt.replay) s else fail .captureBusy s
      else if !rc.persisted scope receipt then
        if flow.stopInflight.isSome || flow.active.isNone && !(command.safeSwap && flow.pendingSafeSwap.isSome) then
          fail .captureBusy s
        else prepareStopReceiptCommit call command receipt.result true s
      else
        match flow.pendingSafeSwap with
        | some session =>
          if command.safeSwap && flow.asyncStopWorker.isNone && receipt.result.active = some session then
            requestPendingSafeSwap call command session (some receipt.result) s
          else prepareReplay call command receipt s
        | none => prepareReplay call command receipt s
where
  /-- A durable receipt answers, unless it accepted a stop of which only the commit failed. -/
  prepareReplay (call : ℕ) (command : Command) (receipt : Receipt) (s : Shared) : Outcomes Prepared :=
    if s.flow.active.isSome && s.flow.failurePendingCommit = s.flow.active && !s.flow.owned &&
        receipt.result.status = 202 && receipt.result.active = s.flow.active then
      prepareNew call command (some receipt.result) s
    else pass (.reply receipt.replay) s

/-- The acceptance is over, and its worker may look. -/
def settle (call : ℕ) (f : Flow → Flow) : Program Unit := .update fun s =>
  { receipts := { s.receipts with stopAcceptanceInflight := none }
    flow := { f s.flow with ready := s.flow.ready ++ [call] } }

/-- `_finish_stop_acceptance`. -/
def finishStopAcceptance (call : ℕ) (old : Commands) (undo accepted : Flow → Flow) (persist : Bool) : Program Unit :=
  attempt
    (do
      if persist then persistLocalState
      settle call accepted)
    fun e => do
      -- a source may have left its failure to the worker that does not go on
      let failed ← .critical fun s =>
        let failed := if s.flow.pendingSourceFailure then s.flow.active else none
        pass failed { receipts := s.receipts.restore old, flow := (undo s.flow).capture call failed }
      match failed with
      | some session => attempt (retainActiveFailure (some call) session false true) fun _ => pure ()
      | none => pure ()
      settle call id
      .raise e

/-- How a call ends: with an answer, with none, or by beginning again. -/
inductive Done where
  | reply (reply : Reply)
  | nothing
  | again

def undoWorker (flow : Flow) : Flow :=
  { flow with stopInflight := none, asyncStopWorker := none, asyncStopReason := "" }

def requestStopCapture (call : ℕ) (command : Command) : Program Done := do
  match ← retryCompletedStopReceipt command false with
  | some reply => pure (.reply reply)
  | none =>
    match ← .critical (prepareStopRequest call command) with
    | .reply reply => pure (.reply reply)
    | .receipt result retry old =>
      finishStopAcceptance call old id id true
      pure (if retry then .again else .reply ⟨result, false⟩)
    | .worker reply persist old =>
      finishStopAcceptance call old undoWorker id persist
      pure (.reply reply)
    | .resume reply persist old =>
      finishStopAcceptance call old undoWorker (fun flow => { flow with pendingSafeSwapFailure := false }) persist
      pure (.reply reply)

/-! ### `stop_capture` -/

/-- What a turn of the loop of `stop_capture` ends with. -/
inductive Turn where
  | wait (requested : Option Session)
  | reply (reply : Reply)
  | pendingReplay (reply : Reply)
  | resume
  | own (session : Session)

/-- One turn; `none` is a wait. -/
def stopTurn (call : ℕ) (command : Command) (expected requested : Option Session) (s : Shared) :
    Option (Outcomes Turn) :=
  let scope := command.scope .stop
  let rc := s.receipts
  let claimed := s.setFlow fun flow => { flow with stopInflight := some scope }
  let answer := thenDo (rememberCommand call scope command .noContent s) fun _ => pass (.reply ⟨.noContent, false⟩)
  if expected.isSome && s.flow.active ≠ expected then some (pass (.reply ⟨.noContent, false⟩) s)
  else if scope ∈ rc.invalidCommands then some (fail .commandReceiptInvalid s)
  else
    match rc.commands.lookup scope with
    | some receipt =>
      if receipt.canonicalBody ≠ command.canonicalBody then some (fail .idempotencyConflict s)
      else if rc.persisted scope receipt then some (pass (.reply receipt.replay) s)
      else if s.busy then none
      else some (pass (.pendingReplay receipt.replay) claimed)
    | none =>
      if s.flow.active.isSome && s.flow.active ≠ requested then
        some (if command.safeSwap then fail .captureStateChanged s else answer)
      else if s.busy then none
      else
        match s.flow.active with
        | some session => some (pass (.own session) claimed)
        | none =>
          if command.safeSwap && s.flow.pendingSafeSwap.isSome then
            some (fail (.provider "maintenance_active") s ++ pass .resume claimed)
          else some answer

/-- The first turn, with the recording that was active when the call got the lock. -/
def firstTurn (call : ℕ) (command : Command) (expected : Option Session) (s : Shared) : Outcomes Turn :=
  let requested := s.flow.active
  let t := s.setFlow fun flow => flow.capture call requested
  (stopTurn call command expected requested t).getD (pass (.wait requested) t)

def nextTurn (call : ℕ) (command : Command) (expected requested : Option Session) (s : Shared) : Outcomes Turn :=
  (stopTurn call command expected requested s).getD []

def endTurn (call : ℕ) (command : Command) : Turn → Program Done
  | .wait _ => .raise .other
  | .reply reply => pure (.reply reply)
  | .pendingReplay reply => do
    commitStopReplay (command.scope .stop)
    pure (.reply reply)
  | .resume =>
    ensure
      (do
        publishSafeSwap
        cacheReceipt call command .noContent
        persistLocalState
        pure (.reply ⟨.noContent, false⟩))
      (change fun flow =>
        if flow.stopInflight = some (command.scope .stop) then { flow with stopInflight := none } else flow)
  | .own session => do
    let result ← finishStopCapture call command session true
    pure (.reply ⟨result, false⟩)

/-- The loop, and what it ends with. -/
def stopLoop (call : ℕ) (command : Command) (expected : Option Session) : Program Done := do
  match ← .critical (firstTurn call command expected) with
  | .wait requested => endTurn call command (← .critical (nextTurn call command expected requested))
  | turn => endTurn call command turn

def stopCapture (call : ℕ) (command : Command) (expected : Option Session) : Program Done := do
  if expected.isNone then
    match ← retryCompletedStopReceipt command true with
    | some reply => pure (.reply reply)
    | none => stopLoop call command expected
  else stopLoop call command expected

/-! ### Monitors -/

/-- A stop of a monitor, for the session that it saw. -/
def monitorCommand (principalId reason : String) (session : Session) : Command :=
  ⟨principalId, toString session, "\x7b\"reason\":\"" ++ reason ++ "\"\x7d", some reason⟩

def enforceCaptureTimer (call : ℕ) : Program Done := do
  let expired ← .critical fun s =>
    match s.flow.captureTimer with
    | some session =>
      if s.flow.active = some session ∧ ¬ s.flow.failureProjection then
        pass (some session) (s.setFlow fun flow => flow.observe call session) ++ pass none s
      else pass none s
    | none => pass none s
  match expired with
  | some session => stopCapture call (monitorCommand "capture-timer" "timer" session) (some session)
  | none => pure .nothing

def enforceStorageReserve (call : ℕ) : Program Done := do
  let seen ← .critical fun s =>
    match s.flow.active with
    | some session =>
      if s.flow.stopInflight.isSome || s.flow.failureProjection || s.flow.released then pass none s
      else pass (some session) (s.setFlow fun flow => flow.observe call session)
    | none => pass none s
  match seen with
  | none => pure .nothing
  | some session =>
    -- the probe is outside the lock
    let low ← .critical fun s =>
      if s.flow.active ≠ some session ∨ s.flow.stopInflight.isSome ∨ s.flow.failureInflight.isSome then pass false s
      else pass true s ++ pass false s
    if low then stopCapture call (monitorCommand "storage-monitor" "storage_reserve" session) (some session)
    else pure .nothing

/-! ### The system -/

/-- A worker waits until its acceptance is settled; it goes on if it still is the worker. -/
def ownsWorker (call : ℕ) (s : Shared) : Outcomes Bool :=
  if call ∈ s.flow.ready then pass (s.flow.asyncStopWorker = some call) s else []

def Job.program : Job → Program Done
  | .stop call command session => do
    if ← .critical (ownsWorker call) then
      ensure
        (attempt (do let _ ← finishStopCapture call command session false) fun _ => do
          let (stillOwned, pending) ← look fun s => (decide (s.flow.active = some session), s.flow.pendingSafeSwap)
          if stillOwned then retainActiveFailure (some call) session true false
          else if command.safeSwap && pending = some session then recordSafeSwapFailure session)
        (change fun flow =>
          if flow.asyncStopWorker = some call then { flow with asyncStopWorker := none, asyncStopReason := "" }
          else flow)
    pure .nothing
  | .resume call session => do
    if ← .critical (ownsWorker call) then
      ensure
        (attempt publishSafeSwap fun _ => recordSafeSwapFailure session)
        (change fun flow => if flow.asyncStopWorker = some call then undoWorker flow else flow)
    pure .nothing
  | .failure call session => do
    finishFailure call session
    pure .nothing

def replied (p : Program Reply) : Program Done := do
  pure (.reply (← p))

def Call.program (call : ℕ) : Call → Program Done
  | .startCapture command => replied (.critical (idempotent call .start command Coordinator.startCapture))
  | .setCameraFocus command result =>
    replied (.critical (idempotent call .setCameraFocus command (Coordinator.setCameraFocus result)))
  | .deleteSessions command result =>
    replied (.critical (idempotent call .delete command (Coordinator.deleteSessions result)))
  | .requestStopCapture command => Coordinator.requestStopCapture call command
  | .stopCapture command => Coordinator.stopCapture call command none
  | .enforceCaptureTimer => Coordinator.enforceCaptureTimer call
  | .enforceStorageReserve => Coordinator.enforceStorageReserve call
  | .sourceFailure deferRecovery => do
    match ← look (·.flow.active) with
    | some session => retainActiveFailure none session false deferRecovery
    | none => pure ()
    pure .nothing
  | .recordingStateChanged => do
    persistLocalState
    pure .nothing

/-- The threads: a call with its number, or a worker. -/
abbrev System := Pool (Option ℕ) Shared Error Done

inductive Action where
  | enter (call : Call)
  | begin
  | run (thread choice : ℕ)
  | again (thread : ℕ)

def step (p : System) : Action → Option System
  | .enter call =>
    let log := p.shared.flow.log
    let n := log.calls.length
    let entered := p.shared.setFlow fun flow => { flow with log := { log with calls := log.calls ++ [(call, flow.sessions)] } }
    some (p.add entered (some n, call.program n))
  | .begin =>
    match p.shared.flow.jobs with
    | [] => none
    | job :: jobs => some (p.add (p.shared.setFlow fun flow => { flow with jobs }) (none, job.program))
  | .run thread choice => p.advance thread choice
  | .again thread =>
    match p.threads[thread]? with
    | some (some n, .ret .again) =>
      p.shared.flow.log.calls[n]?.map fun c => ⟨p.shared, p.threads.set thread (some n, c.1.program n)⟩
    | _ => none

end Conductor.Coordinator
