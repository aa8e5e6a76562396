import Conductor.Lib.Outcomes
import Conductor.Persistence.StateDatabase

/-! The restore of `database_admin.py` and the openings of `StateDatabase`, in one directory. Every
step is done, raises with nothing done, or is where the process dies, before it or after it. The
copy of a snapshot and the work on an open database are SQLite's: they may leave anything in the
files of that database, also where they raise or die. -/

namespace Conductor.Restore

open Outcomes Prog Runs

abbrev Token := String

/-- A database and the files that SQLite keeps beside it. -/
inductive Suffix where
  | database
  | wal
  | shm
  | journal
  deriving DecidableEq

/-- `("", "-wal", "-shm", "-journal")`. -/
def suffixes : List Suffix := [.database, .wal, .shm, .journal]

def journals : List Suffix := [.wal, .shm, .journal]

/-- The names; the marker has a field of its own. A restore calls its snapshot
`destination.name + ".restore-" + token`, and what it moves away `name + ".before-restore-" + token`. -/
inductive Name where
  | live (suffix : Suffix)
  | prepared (token : Token) (suffix : Suffix)
  | archived (token : Token) (suffix : Suffix)
  deriving DecidableEq

/-- The database that a file was written for: the one there was, the snapshot of a restore, or one
that an opening has created. -/
inductive Owner where
  | old
  | snapshot (token : Token)
  | created
  deriving DecidableEq

structure File where
  owner : Owner
  bytes : List UInt8

/-- SQLite at work on the live database, where it replays the journals that it finds. -/
structure Connection where
  database : Option Owner
  journals : List Owner

/-- The directory, the snapshots that restores have admitted, the work of SQLite on the live
database, and the databases in which an opening has created the schema. -/
structure State where
  files : Name → Option File
  marker : Option String
  admitted : List (Token × List UInt8) := []
  connections : List Connection := []
  bootstraps : List (Option Owner) := []

namespace State

def put (s : State) (n : Name) (file : Option File) : State := { s with files := Function.update s.files n file }

def mark (s : State) (text : String) : State := { s with marker := some text }

/-- `rename` and `replace`: a file of that name is overwritten. -/
def rename (s : State) (source target : Name) : State := (s.put target (s.files source)).put source none

def accept (s : State) (token : Token) (bytes : List UInt8) : State :=
  { s with admitted := s.admitted ++ [(token, bytes)] }

def owner (s : State) (n : Name) : Option Owner := (s.files n).map (·.owner)

def connect (s : State) : State :=
  { s with connections := s.connections ++
      [⟨s.owner (.live .database), journals.filterMap fun x => s.owner (.live x)⟩] }

def bootstrap (s : State) : State := { s with bootstraps := s.bootstraps ++ [s.owner (.live .database)] }

end State

/-- What SQLite leaves in a database and in its journals. -/
structure Left where
  database : List UInt8
  journal : Suffix → Option (List UInt8) := fun _ => none

/-- Its files; it creates no database where there is none. -/
def State.leave (s : State) (name : Suffix → Name) (left : Left) : State :=
  match s.files (name .database) with
  | none => s
  | some file =>
    (((s.put (name .database) (some ⟨file.owner, left.database⟩)).put (name .wal)
      ((left.journal .wal).map (File.mk file.owner))).put (name .shm)
      ((left.journal .shm).map (File.mk file.owner))).put (name .journal)
      ((left.journal .journal).map (File.mk file.owner))

/-- A step that changes nothing here: a lock, an inspection, an `fsync`. -/
def tick : Prog State Unit := fun s => [(.value (), s), (.raised, s), (.stopped, s)]

def act (f : State → State) : Prog State Unit := fun s => [(.value (), f s), (.raised, s), (.stopped, s), (.stopped, f s)]

/-- `if condition: raise`. -/
def refuse (condition : Bool) : Prog State Unit := if condition then raise else pure ()

/-- `if condition: p`. -/
def only (condition : Bool) (p : Prog State Unit) : Prog State Unit := if condition then p else pure ()

/-- What the model records and the code does not. -/
def note (f : State → State) : Prog State Unit := fun s => [(.value (), f s)]

/-- SQLite at work: what it leaves in the end, and what it may leave where it does not get there. -/
structure Work where
  during : List Left
  after : Left

def Work.leave (w : Work) (name : Suffix → Name) : Prog State Unit := fun s =>
  (.value (), s.leave name w.after) ::
    (s :: w.during.map (s.leave name)).flatMap fun t => [(.raised, t), (.stopped, t)]

def Work.connected (w : Work) : Prog State Unit := do
  note .connect
  w.leave .live

/-- What the connection of an opening reads. -/
structure Reading where
  version : ℤ
  application : ℤ
  objects : Bool
  schemaValid : Bool
  quickCheck : Bool

/-- The checks of `_initialize` on an open database. -/
def Reading.refused (r : Reading) (marker : Bool) : Bool :=
  marker && r.version == 0 ||
  r.application != StateDatabase.applicationId && (r.application != 0 || r.version != 0 || r.objects) ||
  r.version != 0 && r.version != StateDatabase.schemaVersion ||
  (if r.version = StateDatabase.schemaVersion then !r.schemaValid else r.objects) || !r.quickCheck

structure Opening where
  reads : Work
  reading : Reading
  writes : Work

/-- The end of `_initialize`, which `_restore_prepared` has for itself: the marker is written where
there is none. -/
def createMarker : Prog State Unit := do
  act (·.mark "")
  act (·.mark (toString StateDatabase.schemaVersion))
  tick -- `os.fsync`

/-- `StateDatabase(destination)`. -/
def initializeDatabase (o : Opening) : Prog State Unit := do
  tick -- the directory and the initialization lock
  let s ← get
  refuse ((s.files (.live .database)).isNone && s.marker.isSome)
  only (s.files (.live .database)).isNone (act (·.put (.live .database) (some ⟨.created, []⟩)))
  tick -- `lstat`, `chmod`, `chown`
  o.reads.connected
  let s ← get
  refuse (o.reading.refused s.marker.isSome)
  only (o.reading.version == 0) (note .bootstrap)
  o.writes.connected
  only s.marker.isNone do
    createMarker
    tick -- `_sync_parent`

/-- The copy that a restore makes of its source, whether `inspect` admits it with the required
document, and the opening of the restored database. -/
structure Restoring where
  copying : List Left
  snapshot : List UInt8
  admitted : Bool
  opening : Opening

/-- A pass of the loop over the suffixes. -/
def archive (token : Token) (x : Suffix) : Prog State Unit := do
  let s ← get
  only (s.files (.live x)).isSome (act (·.rename (.live x) (.archived token x)))

def restorePrepared (token : Token) (r : Restoring) : Prog State Unit := do
  tick -- `inspect(prepared)`
  refuse !r.admitted
  note (·.accept token r.snapshot)
  let s ← get
  only s.marker.isNone createMarker
  tick -- `_sync_parent(marker)`
  suffixes.forM (archive token)
  tick -- `_sync_parent(destination)`
  act (·.rename (.prepared token .database) (.live .database))
  tick -- `_sync_parent(destination)`
  initializeDatabase r.opening
  -- `inspect(destination)`; the `-wal` and `-shm` that its read-only connection may leave are the snapshot's own.
  tick

def removePrivateSnapshot (token : Token) : Prog State Unit :=
  suffixes.forM fun x => act (·.put (.prepared token x) none)

/-- `readonly_snapshot`, around the restore of the snapshot. -/
def snapshot (token : Token) (r : Restoring) : Prog State Unit := do
  tick
  let s ← get
  refuse (journals.any fun x => (s.files (.prepared token x)).isSome)
  refuse (s.files (.prepared token .database)).isSome
  act (·.put (.prepared token .database) (some ⟨.snapshot token, []⟩))
  attempt
    (do
      Work.leave ⟨r.copying, ⟨r.snapshot, fun _ => none⟩⟩ (.prepared token)
      tick -- `os.fsync`
      restorePrepared token r)
    (do
      suppress (removePrivateSnapshot token)
      raise)
  removePrivateSnapshot token

/-- `restore`; its first step is the lock, `require_offline` and the inspection of the source. -/
def restore (token : Token) (r : Restoring) : Prog State Unit := do
  tick
  snapshot token r

/-- A restore or an opening of another process, and which of its outcomes it has. -/
inductive Action where
  | restore (token : Token) (r : Restoring) (outcome : ℕ)
  | opening (o : Opening) (outcome : ℕ)

/-- `uuid4` draws a token that no name has. -/
def State.fresh (s : State) (token : Token) : Bool :=
  suffixes.all fun x => (s.files (.prepared token x)).isNone && (s.files (.archived token x)).isNone

def step (s : State) : Action → Option State
  | .restore token r outcome => if s.fresh token then (restore token r s)[outcome]?.map (·.2) else none
  | .opening o outcome => (initializeDatabase o s)[outcome]?.map (·.2)

/-- A directory with files of an old database, some of them or none, and with what earlier restores
have left under other names. -/
def start (old : Suffix → Option (List UInt8)) (kept left : Token → Suffix → Option File)
    (marker : Option String) : State where
  files
    | .live x => (old x).map (File.mk .old)
    | .prepared token x => left token x
    | .archived token x => kept token x
  marker := marker

end Conductor.Restore
