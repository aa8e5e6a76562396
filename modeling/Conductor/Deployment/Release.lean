import Conductor.Lib.Crash
import Conductor.Lib.KeyTable
import Conductor.Lib.Runs

/-! The releases of `ReleaseManager` in `deployment.py`: the two links, the transaction document, the release
directories, `device.json` and its snapshots. A write, a link switch, a prune or an unlink is one statement.
Statements that change none of these (services, assets, the network migration) are `pass`. -/

namespace Conductor.Deployment

open Crash Proc KeyTable

/-! ### device.json -/

abbrev Commit := String

inductive Profile where
  | lab
  | customer
  deriving DecidableEq

structure Security where
  profile : Option Profile
  others : String
  deriving DecidableEq

structure Config where
  security : Security
  others : String
  deriving DecidableEq

/-- The bytes of a file that is no JSON object, or an object and how it is laid out. -/
inductive Payload where
  | text (bytes : String)
  | object (layout : String) (config : Config)
  deriving DecidableEq

def jsonBytes (config : Config) : Payload := .object "" config

def labSecurity : Security := ⟨some .lab, "\"isolated_network\":true"⟩

/-- `_default_device_config`, by the random identity. -/
def defaultDeviceConfig (identity : String) : Config := ⟨labSecurity, identity⟩

/-- What `_write_active_device_config` writes. -/
def activated : Payload → Option Payload
  | .text _ => none
  | .object layout config =>
    match config.security.profile with
    | none => none
    | some .lab => some (.object layout config)
    | some .customer => some (jsonBytes { config with security := labSecurity })

/-- What `_ensure_device_config` writes. -/
def ensured (device : Option Payload) (identity : String) : Option Payload :=
  match device with
  | none => activated (jsonBytes (defaultDeviceConfig identity))
  | some (.text _) => none
  | some (.object _ config) => activated (jsonBytes config)

/-! ### The state -/

inductive Action where
  | install
  | rollback

inductive Stage where
  | prepared
  | switched
  deriving DecidableEq

structure Transaction where
  action : Action
  oldCurrent : Option Commit
  newCurrent : Commit
  state : Stage
  configSnapshotRequired : Bool

structure State where
  current : Option Commit
  previous : Option Commit
  transaction : Option Transaction
  releases : List Commit
  device : Option Payload
  snapshots : List (Commit × Payload)

def transactionDocument (action : Action) (oldCurrent : Option Commit) (newCurrent : Commit) : Transaction :=
  ⟨action, oldCurrent, newCurrent, .prepared, true⟩

def switchCurrent (f : Fault) (release : Option Commit) : Proc State := atomic f fun s => { s with current := release }

def switchPrevious (f : Fault) (release : Option Commit) : Proc State := atomic f fun s => { s with previous := release }

def writeTransaction (f : Fault) (t : Transaction) : Proc State := atomic f fun s => { s with transaction := some t }

def unlinkTransaction (f : Fault) : Proc State := atomic f fun s => { s with transaction := none }

def pass (f : Fault) : Proc State := atomic f id

/-- `_release_metadata`. -/
def releaseMetadata (c : Commit) : Proc State := check fun s => c ∈ s.releases

/-- `_prune`. -/
def prune (f : Fault) (keep : List Commit) : Proc State :=
  atomic f fun s => { s with releases := s.releases.filter (· ∈ keep) }

/-- `_prepare_release`. -/
def prepareRelease (f : Fault) (c : Commit) : Proc State :=
  atomic f fun s => { s with releases := if c ∈ s.releases then s.releases else s.releases ++ [c] }

/-- `_snapshot_device_config`. -/
def snapshotDeviceConfig (f : Fault) (c : Commit) : Proc State :=
  block [check fun s => (s.device.bind activated).isSome,
    atomic f fun s => { s with snapshots := s.device.elim s.snapshots fun p => insertOrReplace s.snapshots (c, p) }]

/-- `_restore_device_config_snapshot`. -/
def restoreDeviceConfigSnapshot (f : Fault) (c : Commit) : Proc State :=
  block [check fun s => ((s.snapshots.lookup c).bind activated).isSome,
    atomic f fun s => { s with device := (s.snapshots.lookup c).bind activated }]

/-- `_ensure_device_config`. -/
def ensureDeviceConfig (f : Fault) (identity : String) : Proc State :=
  block [check fun s => (ensured s.device identity).isSome, atomic f fun s => { s with device := ensured s.device identity }]

/-! ### Settling and recovery -/

structure SettleFaults where
  current : Fault
  document : Fault
  previous : Fault
  prune : Fault
  unlink : Fault

structure RevertFaults where
  current : Fault
  previous : Fault
  unlink : Fault

def Transaction.kept (t : Transaction) : List Commit := t.newCurrent :: t.oldCurrent.toList

/-- `_settle`. -/
def settle (f : SettleFaults) (t : Transaction) : Proc State :=
  block [releaseMetadata t.newCurrent,
    if t.state = .prepared then
      block [switchCurrent f.current (some t.newCurrent), writeTransaction f.document { t with state := .switched }]
    else skip,
    switchPrevious f.previous (if t.oldCurrent = some t.newCurrent then none else t.oldCurrent),
    prune f.prune t.kept,
    unlinkTransaction f.unlink]

/-- `_revert_release_switch`. -/
def revertReleaseSwitch (f : RevertFaults) (oldCurrent : Option Commit) (newCurrent : Commit) : Proc State :=
  block [check fun s => s.current = oldCurrent || s.current = some newCurrent,
    switchCurrent f.current oldCurrent,
    switchPrevious f.previous (some newCurrent),
    unlinkTransaction f.unlink]

structure RecoverFaults where
  restore : Fault
  settle : SettleFaults
  revert : RevertFaults

def restoreOld (f : Fault) : Option Commit → Proc State
  | none => skip
  | some old => restoreDeviceConfigSnapshot f old

/-- `_recover_locked`. -/
def recover (f : RecoverFaults) : Proc State :=
  reading State.transaction fun
    | none => skip
    | some t =>
      block [releaseMetadata t.newCurrent,
        if t.configSnapshotRequired then
          reading (fun s => (s.snapshots.lookup t.newCurrent).isSome) fun
            | true => block [restoreDeviceConfigSnapshot f.restore t.newCurrent, settle f.settle t]
            | false => block [revertReleaseSwitch f.revert t.oldCurrent t.newCurrent, restoreOld f.restore t.oldCurrent]
        else settle f.settle t]

/-! ### Activation -/

structure ActivationFaults where
  start : Fault
  stop : Fault
  current : Fault
  previous : Fault
  transaction : Fault
  restore : Fault
  settle : SettleFaults
  services : Fault

/-- `_restore_release`. -/
def restoreRelease (f : ActivationFaults) (oldCurrent failedRelease : Commit) : Proc State :=
  let t := transactionDocument .rollback (some failedRelease) oldCurrent
  block [pass f.stop,
    writeTransaction f.transaction t,
    restoreDeviceConfigSnapshot f.restore oldCurrent,
    settle f.settle t,
    pass f.services]

/-- `_activate`. -/
def activate (f : ActivationFaults) (oldCurrent : Option Commit) (newCurrent : Commit) : Proc State :=
  guarded (pass f.start)
    (match oldCurrent with
    | none => block [pass f.stop, switchCurrent f.current none, switchPrevious f.previous (some newCurrent)]
    | some old => if old ≠ newCurrent then restoreRelease f old newCurrent else pass f.stop)

/-! ### Install and rollback -/

structure HandlerFaults where
  restore : Fault
  revert : RevertFaults
  services : Fault

/-- The handlers of `_install_locked` and `_rollback_locked`: the snapshot they restore, the release they revert from
where the transaction has started, and the services. -/
def handler (f : HandlerFaults) (restores oldCurrent : Option Commit) (started : Option Commit) : Proc State :=
  block [restoreOld f.restore restores,
    match started with
    | none => skip
    | some new => revertReleaseSwitch f.revert oldCurrent new,
    pass f.services]

structure InstallFaults where
  recover : RecoverFaults
  load : Fault
  prepare : Fault
  quiesce : Fault
  assets : Fault
  oldSnapshot : Fault
  network : Fault
  transaction : Fault
  ensure : Fault
  newSnapshot : Fault
  reload : Fault
  settle : SettleFaults
  handler : HandlerFaults
  activation : ActivationFaults

def snapshotOld (f : Fault) : Option Commit → Proc State
  | none => skip
  | some old => snapshotDeviceConfig f old

/-- `_install_locked` from its first check of the links. `transaction_started` tells the first block from the second. -/
def installFrom (f : InstallFaults) (commit : Commit) (identity : String) (activates : Bool) (old : Option Commit) :
    Proc State :=
  let changed := old ≠ some commit
  let t := transactionDocument .install old commit
  block [pass f.quiesce,
    guarded
      (block [pass f.assets,
        snapshotOld f.oldSnapshot old,
        pass f.network,
        if changed then writeTransaction f.transaction t else skip])
      (handler f.handler old old none),
    guarded
      (block [ensureDeviceConfig f.ensure identity,
        snapshotDeviceConfig f.newSnapshot commit,
        pass f.reload,
        if changed then settle f.settle t else skip])
      (handler f.handler old old (if changed then some commit else none)),
    if activates then activate f.activation old commit else skip]

/-- `_install_locked`. -/
def install (f : InstallFaults) (commit : Commit) (identity : String) (activates : Bool) : Proc State :=
  block [recover f.recover,
    pass f.load,
    prepareRelease f.prepare commit,
    reading State.current (installFrom f commit identity activates)]

structure RollbackFaults where
  recover : RecoverFaults
  quiesce : Fault
  snapshot : Fault
  transaction : Fault
  restore : Fault
  settle : SettleFaults
  handler : HandlerFaults
  activation : ActivationFaults

/-- `_rollback_locked` with both links. `current_snapshot_written` and `transaction_started` tell the blocks apart. -/
def rollbackFrom (f : RollbackFaults) (activates : Bool) (current previous : Commit) : Proc State :=
  let t := transactionDocument .rollback (some current) previous
  block [releaseMetadata previous,
    pass f.quiesce,
    guarded (snapshotDeviceConfig f.snapshot current) (handler f.handler none (some current) none),
    guarded (writeTransaction f.transaction t) (handler f.handler (some current) (some current) none),
    guarded (block [restoreDeviceConfigSnapshot f.restore previous, settle f.settle t])
      (handler f.handler (some current) (some current) (some previous)),
    if activates then activate f.activation (some current) previous else skip]

/-- `_rollback_locked`. -/
def rollback (f : RollbackFaults) (activates : Bool) : Proc State :=
  block [recover f.recover,
    reading (fun s => (s.current, s.previous)) fun
      | (some current, some previous) => rollbackFrom f activates current previous
      | _ => raise]

/-! ### Runs -/

inductive Act where
  /-- The operator edits or removes `device.json`. -/
  | edit (device : Option Payload)
  | install (faults : InstallFaults) (commit : Commit) (identity : String) (activates : Bool)
  | rollback (faults : RollbackFaults) (activates : Bool)

def noSettleFaults : SettleFaults := ⟨.none, .none, .none, .none, .none⟩

def noRevertFaults : RevertFaults := ⟨.none, .none, .none⟩

def noRecoverFaults : RecoverFaults := ⟨.none, noSettleFaults, noRevertFaults⟩

/-- The next recovery, without a failure. -/
def resume (s : State) : Option State :=
  match recover noRecoverFaults s with
  | (.returns, s) => some s
  | _ => none

/-- An operation, and the recovery behind it. -/
def step (s : State) : Act → Option State
  | .edit device => some { s with device := device }
  | .install f commit identity activates => resume (install f commit identity activates s).2
  | .rollback f activates => resume (rollback f activates s).2

def State.init : State := ⟨none, none, none, [], none, []⟩

end Conductor.Deployment
