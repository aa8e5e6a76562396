import Conductor.Lib.Outcomes
import Mathlib.Data.List.Nodup

/-! `forget_network_client_profiles`: the client profiles are quarantined one by one, the Wi-Fi LKG and the journal
are deleted and the quarantined files unlinked; a handler puts everything back. Every step may raise or be where
the process dies, except tests for the existence of a file. -/

namespace Conductor.NetworkForget

open Outcomes Prog

/-! ### The disk -/

/-- The names that the two globs read. -/
inductive Slot where
  /-- `rp-ylx-wifi-client-*.nmconnection` -/
  | profile (id : String)
  /-- `.rp-ylx-wifi-client-*.nmconnection.forget` -/
  | quarantine (id : String)
  deriving DecidableEq

def Slot.id : Slot → String
  | .profile id => id
  | .quarantine id => id

def profileName (id : String) : String := "rp-ylx-wifi-client-" ++ id

structure File (γ : Type) where
  content : γ
  regular : Bool
  mode : ℕ

/-- A saved configuration or a journal. -/
structure Record (γ : Type) where
  mode : String
  profile : String
  rest : γ

/-- The files of the profile directory, whose ids are listed in the order of their names, `lkg-wlan0.json` and
`journal.json`. -/
structure Disk (γ : Type) where
  ids : List String
  files : Slot → Option (File γ)
  lkg : Option (Record γ)
  journal : Option (Record γ)
  nodup : ids.Nodup
  listed : ∀ slot, files slot ≠ none → slot.id ∈ ids

variable {γ : Type}

namespace Disk

/-- `os.replace` between the two names of a profile. -/
def replace (d : Disk γ) (source target : Slot) (h : target.id = source.id) : Disk γ where
  ids := d.ids
  files slot := if slot = target then d.files source else if slot = source then none else d.files slot
  lkg := d.lkg
  journal := d.journal
  nodup := d.nodup
  listed slot hslot := by
    split_ifs at hslot with h1 h2
    · rw [h1, h]
      exact d.listed source hslot
    · exact absurd rfl hslot
    · exact d.listed slot hslot

def unlink (d : Disk γ) (slot : Slot) : Disk γ where
  ids := d.ids
  files other := if other = slot then none else d.files other
  lkg := d.lkg
  journal := d.journal
  nodup := d.nodup
  listed other hother := by
    split_ifs at hother
    · exact absurd rfl hother
    · exact d.listed other hother

def setAside (d : Disk γ) (id : String) : Disk γ := d.replace (.profile id) (.quarantine id) rfl

def putBack (d : Disk γ) (id : String) : Disk γ := d.replace (.quarantine id) (.profile id) rfl

def leftovers (d : Disk γ) : List String := d.ids.filter fun id => (d.files (.quarantine id)).isSome

def profiles (d : Disk γ) : List String := d.ids.filter fun id => (d.files (.profile id)).isSome

end Disk

/-! ### Steps -/

inductive Error where
  | networkError (code : String)
  | osError
  deriving DecidableEq

/-- The variables of a call: the files staged, by their ids, `state_records`, the exception that was raised last and
`rollback_failed`. -/
structure Vars (γ : Type) where
  disk : Disk γ
  staged : List String := []
  lkgRecord : Option (Record γ) := none
  journalRecord : Option (Record γ) := none
  error : Error := .osError
  rollbackFailed : Bool := false

def fail {α : Type} (e : Error) : Prog (Vars γ) α := fun s => [(.raised, { s with error := e })]

def modify (f : Vars γ → Vars γ) : Prog (Vars γ) Unit := fun s => [(.value (), f s)]

def check (b : Vars γ → Bool) (e : Error) : Prog (Vars γ) Unit := fun s => if b s then [(.value (), s)] else fail e s

/-- A step; unless `faulty` is off, it may raise one of the errors or be where the process dies. -/
def step (faulty : Bool) (errors : List Error) (f : Vars γ → Vars γ) : Prog (Vars γ) Unit := fun s =>
  (.value (), f s) :: if faulty then (.stopped, s) :: errors.map fun e => (.raised, { s with error := e }) else []

/-- A system call. -/
def call (faulty : Bool) (f : Vars γ → Vars γ) : Prog (Vars γ) Unit := step faulty [.osError] f

/-- `_read_json`. -/
def readJson (faulty : Bool) : Prog (Vars γ) Unit := step faulty [.networkError "state_invalid"] id

/-- `nmcli connection reload`, and a return code that is not zero. -/
def reload (faulty : Bool) : Prog (Vars γ) Unit :=
  step faulty [.networkError "network_timeout", .networkError "network_manager_unavailable",
    .networkError "reload_failed"] id

/-- What comes before the `try`: the state directory, the two locks and the activation of the rescue hotspot. -/
def prepare (faulty : Bool) : Prog (Vars γ) Unit :=
  step faulty [.networkError "state_unwritable", .networkError "operation_lock_failed",
    .networkError "state_lock_failed", .networkError "state_invalid", .networkError "rescue_unconfigured",
    .networkError "rescue_failed", .osError] id

/-! ### The function -/

/-- `[0-9a-f]{12}`. -/
def validId (id : String) : Bool :=
  id.toList.length == 12 && id.toList.all fun c => ('0' ≤ c && c ≤ '9') || ('a' ≤ c && c ≤ 'f')

def File.valid (file : File γ) : Bool := file.regular && file.mode == 0o600

def stageLeftover (faulty : Bool) (id : String) : Prog (Vars γ) Unit := do
  check (fun _ => validId id) (.networkError "profile_invalid")
  check (fun s => (s.disk.files (.profile id)).isNone) (.networkError "cleanup_pending")
  call faulty fun s => s
  check (fun s => (s.disk.files (.quarantine id)).any File.valid) (.networkError "profile_permissions")
  modify fun s => { s with staged := s.staged ++ [id] }

def stageProfile (faulty : Bool) (id : String) : Prog (Vars γ) Unit := do
  check (fun _ => validId id) (.networkError "profile_invalid")
  call faulty fun s => s
  check (fun s => (s.disk.files (.profile id)).any File.valid) (.networkError "profile_permissions")
  check (fun s => (s.disk.files (.quarantine id)).isNone) (.networkError "cleanup_pending")
  call faulty fun s => { s with disk := s.disk.setAside id }
  modify fun s => { s with staged := s.staged ++ [id] }

def stage (faulty : Bool) (leftovers profiles : List String) : Prog (Vars γ) Unit := do
  leftovers.forM (stageLeftover faulty)
  profiles.forM (stageProfile faulty)

/-- The directory is synced and NetworkManager told, if anything was staged. -/
def announce (faulty : Bool) : Prog (Vars γ) Unit := do
  let s ← get
  if s.staged ≠ [] then
    call faulty fun s => s
    reload faulty

def dropLkg (faulty : Bool) : Prog (Vars γ) Unit := do
  readJson faulty
  let s ← get
  if s.disk.lkg.isSome then
    modify fun s => { s with lkgRecord := s.disk.lkg }
    call faulty fun s => { s with disk := { s.disk with lkg := none } }

def Record.isClient (r : Record γ) : Bool := r.mode = "wifi-client"

def dropJournal (faulty : Bool) : Prog (Vars γ) Unit := do
  readJson faulty
  let s ← get
  if s.disk.journal.any Record.isClient then
    modify fun s => { s with journalRecord := s.disk.journal }
    call faulty fun s => { s with disk := { s.disk with journal := none } }

def syncRecords (faulty : Bool) : Prog (Vars γ) Unit := do
  let s ← get
  if s.lkgRecord.isSome ∨ s.journalRecord.isSome then call faulty fun s => s

def unlinkStaged (faulty : Bool) : Prog (Vars γ) Unit := do
  let s ← get
  s.staged.forM fun id => do
    check (fun s => (s.disk.files (.quarantine id)).isSome) .osError
    call faulty fun s => { s with disk := s.disk.unlink (.quarantine id) }

def syncStaged (faulty : Bool) : Prog (Vars γ) Unit := do
  let s ← get
  if s.staged ≠ [] then call faulty fun s => s

/-- The `try` block up to its last sync. -/
def remove (faulty : Bool) (leftovers profiles : List String) : Prog (Vars γ) Unit := do
  stage faulty leftovers profiles
  announce faulty
  dropLkg faulty
  dropJournal faulty
  syncRecords faulty
  unlinkStaged faulty

def setFailed : Prog (Vars γ) Unit := modify fun s => { s with rollbackFailed := true }

def restoreProfile (faulty : Bool) (id : String) : Prog (Vars γ) Unit := do
  let s ← get
  if (s.disk.files (.quarantine id)).isNone then setFailed
  else attempt (call faulty fun s => { s with disk := s.disk.putBack id }) setFailed

/-- `_write_json`: the file is replaced and its directory synced. -/
def writeJson (faulty : Bool) (f : Vars γ → Vars γ) : Prog (Vars γ) Unit := do
  call faulty f
  call faulty fun s => s

def restoreLkg (faulty : Bool) : Prog (Vars γ) Unit := do
  let s ← get
  if s.lkgRecord.isSome then
    attempt (writeJson faulty fun s => { s with disk := { s.disk with lkg := s.lkgRecord } }) setFailed

def restoreJournal (faulty : Bool) : Prog (Vars γ) Unit := do
  let s ← get
  if s.journalRecord.isSome then
    attempt (writeJson faulty fun s => { s with disk := { s.disk with journal := s.journalRecord } }) setFailed

def announceRollback (faulty : Bool) : Prog (Vars γ) Unit :=
  attempt (do call faulty fun s => s; reload faulty) setFailed

/-- The exception that the handler raises for the one that it has caught. -/
def Error.reraised : Error → Error
  | .networkError code => .networkError code
  | .osError => .networkError "state_write_failed"

/-- The handler. -/
def rollback {α : Type} (faulty : Bool) : Prog (Vars γ) α := do
  let caught ← get
  caught.staged.reverse.forM (restoreProfile faulty)
  restoreLkg faulty
  restoreJournal faulty
  announceRollback faulty
  let s ← get
  if s.rollbackFailed then fail (.networkError "cleanup_pending")
  else fail caught.error.reraised

inductive Result where
  | returned (removedProfiles : List String)
  | raised (error : Error)

def locked (faulty : Bool) : Prog (Vars γ) Result := do
  prepare faulty
  let s ← get
  attempt (do remove faulty s.disk.leftovers s.disk.profiles; syncStaged faulty) (rollback faulty)
  let s ← get
  return .returned (s.staged.map fun id => profileName id ++ ".nmconnection")

/-- `forget_network_client_profiles`. -/
def forget (faulty : Bool) : Prog (Vars γ) Result :=
  attempt (locked faulty) do
    let s ← get
    return .raised s.error

def start (d : Disk γ) : Vars γ := { disk := d }

end Conductor.NetworkForget
