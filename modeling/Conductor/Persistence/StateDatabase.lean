import Conductor.Lib.Sections
import Conductor.Persistence.CaptureState

/-! `StateDatabase` on one path, in any number of threads and processes. A call is a program of
sections: what SQLite, the initialization lock and each access to a file do is atomic, any of them
may fail, and a process may die between two of them, which releases its locks. A transaction reads
the file as it was at `BEGIN IMMEDIATE` and writes it at its commit. The log is history. -/

namespace Conductor.StateDatabase

open Persistence Sections

/-- `_STATE_TABLES`. -/
def stateTables : List (String × String) :=
  [("documents", "name TEXT PRIMARY KEY, body TEXT NOT NULL, revision INTEGER NOT NULL, updated_at TEXT NOT NULL"),
    ("imports", "name TEXT PRIMARY KEY, source TEXT NOT NULL"),
    ("changes", "id INTEGER PRIMARY KEY, name TEXT NOT NULL, revision INTEGER NOT NULL, body TEXT NOT NULL, " ++
      "updated_at TEXT NOT NULL"),
    ("capture_commands", "principal TEXT NOT NULL, operation TEXT NOT NULL, idempotency_key TEXT NOT NULL, " ++
      "body TEXT NOT NULL, PRIMARY KEY(principal,operation,idempotency_key)"),
    ("transfers", "id TEXT PRIMARY KEY, volume TEXT NOT NULL, session TEXT NOT NULL, artifact TEXT NOT NULL, " ++
      "started_at TEXT NOT NULL, finished_at TEXT, status TEXT NOT NULL, bytes_read INTEGER NOT NULL")]

def applicationId : ℕ := 0x594C5801

def schemaVersion : ℕ := 1

/-- A database file: its header, `sqlite_master`, and the rows. -/
structure File where
  applicationId : ℕ := 0
  userVersion : ℕ := 0
  tables : List (String × String) := []
  sound : Bool := true
  db : Db := ⟨fun _ => none, [], [], []⟩

def File.has (file : File) (table : String) : Bool := file.tables.any (·.1 = table)

/-- `validate_state_schema`. -/
def validateStateSchema (file : File) : Bool := stateTables.all (· ∈ file.tables)

/-- What `lstat` finds. -/
inductive Entry where
  | regular (inode : ℕ)
  | special

def Entry.inode : Entry → Option ℕ
  | .regular inode => some inode
  | .special => none

/-- A committed transaction, with the tables as it found them and as it left them. -/
structure Commit where
  call : ℕ
  inode : ℕ
  /-- The document that a default or a legacy value was stored for. -/
  initialises : Option String
  before : Db
  after : Db

/-- An inode that was never given is an empty file. `authority` is the file that the path led to when
the marker was created; it is history, as `log` is. -/
structure Disk where
  files : ℕ → File
  nextInode : ℕ
  path : Option Entry
  marker : Bool
  /-- The legacy documents and their copies. -/
  json : String → Option (List UInt8)
  initLock : Option ℕ
  writer : ℕ → Option ℕ
  authority : Option ℕ
  log : List Commit

inductive Raised where
  | persistence (message : String)
  | python (error : PyError)
  | sqlite
  | os
  /-- An argument of the call raised: a transformation, a validator, a factory. -/
  | argument
  | died

def Raised.of : Persistence.Error → Raised
  | .persistence message => .persistence message
  | .python error => .python error
  | .sqlite _ => .sqlite

inductive Answer (V : Type) where
  | opened
  | nothing
  | value (v : V)

/-! ### Sections -/

def look {α : Type} (f : Disk → α) : Proc Disk Raised α := .critical fun d => [(.ok (f d), d), (.error .os, d)]

/-- A step that leaves everything the model has as it is. -/
def act (error : Raised) : Proc Disk Raised Unit := .critical fun d => [(.ok (), d), (.error error, d)]

def require (condition : Bool) (error : Raised) : Proc Disk Raised Unit :=
  if condition then pure () else .raise error

def missingDocument (name : String) : Raised := .persistence s!"missing authoritative document: {name}"

/-- `_require_regular_database_file`. -/
def requireRegular : Proc Disk Raised Unit := do
  let metadata ← look (·.path)
  match metadata with
  | some (.regular _) => pure ()
  | some .special => .raise (.persistence "database must be a regular file")
  | none => .raise .os

/-- `connection`: a file is looked up a second time when it is opened, and never created. -/
def connection : Proc Disk Raised ℕ := do
  requireRegular
  let inode ← .critical fun d =>
    match d.path.bind Entry.inode with
    | some inode => [(.ok inode, d), (.error .sqlite, d)]
    | none => [(.error .sqlite, d)]
  act .sqlite
  pure inode

/-- `BEGIN IMMEDIATE`: another writer makes it time out. -/
def beginImmediate (call inode : ℕ) : Proc Disk Raised File := .critical fun d =>
  match d.writer inode with
  | none =>
    [(.ok (d.files inode), { d with writer := Function.update d.writer inode (some call) }), (.error .sqlite, d)]
  | some _ => [(.error .sqlite, d)]

/-- The connection closes; what it has not committed is rolled back. -/
def close (call inode : ℕ) : Proc Disk Raised Unit := .update fun d =>
  if d.writer inode = some call then { d with writer := Function.update d.writer inode none } else d

/-! ### `_initialize` -/

def createFile : Proc Disk Raised Unit := .critical fun d =>
  match d.path with
  | none =>
    [(.ok (), { d with path := some (.regular d.nextInode), nextInode := d.nextInode + 1 }), (.error .os, d)]
  | some _ => [(.error .os, d)]

/-- The transaction that creates the tables. -/
def createSchema (call inode : ℕ) : Proc Disk Raised Unit := do
  let file ← beginImmediate call inode
  Proc.ensure
    (do
      require (stateTables.all fun table => !file.has table.1) .sqlite
      .critical fun d =>
        let created := { file with applicationId, userVersion := schemaVersion, tables := file.tables ++ stateTables }
        [(.ok (), { d with files := Function.update d.files inode created }), (.error .sqlite, d)])
    (close call inode)

/-- Where the marker exists another initializer has committed the same schema. -/
def createMarker : Proc Disk Raised Unit := do
  .critical fun d =>
    if d.marker then [(.ok (), d)]
    else [(.ok (), { d with marker := true, authority := d.path.bind Entry.inode }), (.error .os, d)]
  act .os
  act .os

/-- The schema is created with its version: tables without one are not an interrupted creation. -/
def checkTables (inode version : ℕ) (objects : List (String × String)) : Proc Disk Raised Unit :=
  if version = schemaVersion then do
    let valid ← look fun d => validateStateSchema (d.files inode)
    require valid (.persistence "incompatible or missing authoritative table")
  else require (objects = []) (.persistence "unversioned state database contains existing schema")

/-- `_initialize`, behind the check that the path leads to a regular file. -/
def initializeSchema (call inode : ℕ) : Proc Disk Raised Unit := do
  let version ← look fun d => (d.files inode).userVersion
  let application ← look fun d => (d.files inode).applicationId
  let objects ← look fun d => (d.files inode).tables
  let marked ← look (·.marker)
  require (!(marked && version = 0)) (.persistence "initialized database has lost its schema")
  require (application = applicationId ∨ application = 0 ∧ version = 0 ∧ objects = [])
    (.persistence "not an OpenAria state database")
  require (version = 0 ∨ version = schemaVersion) (.persistence s!"unsupported database schema: {version}")
  checkTables inode version objects
  let sound ← look fun d => (d.files inode).sound
  require sound (.persistence "state database integrity check failed")
  act .sqlite
  (if version = 0 then createSchema call inode else pure ())
  let marked ← look (·.marker)
  if marked then pure () else createMarker

/-- SQLite's errors and those of the file system become a `PersistenceError`. -/
def Raised.opening : Raised → Raised
  | .sqlite | .os => .persistence "cannot open state database"
  | error => error

/-- `_initialize`. -/
def initializeDatabase (call : ℕ) : Proc Disk Raised Unit := do
  act .os
  let found ← look (·.path.isSome)
  let marked ← (if found then pure false else look (·.marker))
  require (!marked) (.persistence "missing authoritative database")
  let metadata ← look (·.path)
  (if metadata.isNone then createFile else pure ())
  requireRegular
  act .os
  Proc.attempt (do
      let inode ← connection
      initializeSchema call inode)
    fun error => .raise error.opening

/-- `__init__`: the initialization lock is held, or waited for in vain. -/
def construct {V : Type} (call : ℕ) : Proc Disk Raised (Answer V) := do
  act .os
  .critical fun d =>
    match d.initLock with
    | none => [(.ok (), { d with initLock := some call }), (.error .os, d)]
    | some _ => [(.error (.persistence "database initialization is busy"), d)]
  Proc.ensure (initializeDatabase call)
    (.update fun d => if d.initLock = some call then { d with initLock := none } else d)
  pure .opened

/-! ### Transactions on documents -/

/-- The JSON codec, on the values and on the capture state. -/
structure Env (V ρ κ φ : Type) where
  dumps : V → Except PyError PyStr
  loads : String → Except PyError V
  loadsBytes : List UInt8 → Except PyError V
  isMapping : V → Bool
  capture : Codec ρ κ φ

variable {V ρ κ φ : Type}

/-- What a transaction commits, and what its call returns. -/
structure Written (V : Type) where
  answer : Answer V
  initialises : Option String
  db : Db

def raising {α : Type} (r : Except Persistence.Error α) : Except Raised α := r.mapError .of

def python {α : Type} (r : Except PyError α) : Except Raised α := r.mapError .python

/-- A statement about a table that is not there raises. -/
def requireTable (file : File) (table : String) : Except Raised Unit :=
  if file.has table then .ok () else .error .sqlite

def requireReceipt (file : File) (name : String) : Except Raised Unit :=
  if name ∈ file.db.imports then .error (missingDocument name) else .ok ()

/-- The first row of a document, with the import receipt. -/
def insertDocument (db : Db) (name body now : String) (history : Bool) : Db :=
  { db with
    documents := Function.update db.documents name (some ⟨body, 1, now⟩)
    imports := db.imports ++ [name]
    changes := if history then db.changes ++ [⟨name, 1, body, now⟩] else db.changes }

/-- `initialize_document`. -/
def initializeDocument (env : Env V ρ κ φ) (name : String) (value : V) (now : String) (file : File) :
    Except Raised (Written V) := do
  requireTable file "documents"
  match file.db.documents name with
  | some _ => pure ⟨.nothing, none, file.db⟩
  | none => do
    requireTable file "imports"
    requireReceipt file name
    let body ← python (env.dumps value)
    let body ← raising (bindText body)
    requireTable file "changes"
    pure ⟨.nothing, some name, insertDocument file.db name body now true⟩

/-- `update`. -/
def update (env : Env V ρ κ φ) (name : String) (transform : V → Option V) (now : String) (file : File) :
    Except Raised (Written V) := do
  requireTable file "documents"
  match file.db.documents name with
  | none => .error (missingDocument name)
  | some old => do
    let value ← python (env.loads old.body)
    match transform value with
    | none => .error .argument
    | some value => do
      let body ← python (env.dumps value)
      requireTable file "changes"
      let db ← raising (putBody file.db name body now true)
      pure ⟨.nothing, none, db⟩

/-- `put`. -/
def put (env : Env V ρ κ φ) (name : String) (value : V) (history : Bool) (now : String) (file : File) :
    Except Raised (Written V) := do
  let body ← python (env.dumps value)
  requireTable file "documents"
  requireTable file "imports"
  requireTable file "changes"
  raising (requireDocument file.db name)
  let db ← raising (putBody file.db name body now history)
  pure ⟨.nothing, none, db⟩

/-- `put_capture_state`. -/
def putCaptureState (env : Env V ρ κ φ) (arguments : Put ρ κ φ) (file : File) : Except Raised (Written V) := do
  requireTable file "documents"
  requireTable file "imports"
  requireTable file "changes"
  requireTable file "capture_commands"
  match Persistence.putCaptureState (fun _ => none) env.capture file.db arguments with
  | (.error e, _) => .error (.of e)
  | (.ok (), db) => pure ⟨.nothing, none, db⟩

/-- A private temporary file, which is left out, is written and linked under the name of the copy. -/
def linkCopy (backup : String) (raw : List UInt8) : Proc Disk Raised Unit := do
  act .os
  .critical fun d =>
    [(.ok (), if (d.json backup).isSome then d else { d with json := Function.update d.json backup (some raw) }),
      (.error .os, d)]
  act .os

/-- `_preserve_import_source`: a copy that is already there is kept and must be equal. -/
def preserveImportSource (source : String) (raw : List UInt8) : Proc Disk Raised Unit := do
  let backup := source ++ ".pre-sqlite"
  let found ← look fun d => (d.json backup).isSome
  (if found then pure () else linkCopy backup raw)
  let copy ← look (·.json backup)
  match copy with
  | none => .raise .os
  | some copy => require (copy = raw) (.persistence "legacy import backup does not match the source")
  act .os
  act .os

def readSource (source : String) : Proc Disk Raised (List UInt8) := .critical fun d =>
  match d.json source with
  | some raw => [(.ok raw, d), (.error .os, d)]
  | none => [(.error .os, d)]

/-- The value that `import_json` starts from, with the bytes it was read from. -/
def initialValue (env : Env V ρ κ φ) (source : String) (default : Option V) :
    Proc Disk Raised (V × Option (List UInt8)) := do
  let found ← look fun d => (d.json source).isSome
  if found then do
    let raw ← readSource source
    let value ← .lift (python (env.loadsBytes raw))
    pure (value, some raw)
  else
    match default with
    | some value => pure (value, none)
    | none => .raise .argument

/-- `import_json`, within its transaction. -/
def importJson (env : Env V ρ κ φ) (name source : String) (validate : V → Bool) (default : Option V) (now : String)
    (file : File) : Proc Disk Raised (Written V) := do
  .lift (requireTable file "documents")
  match file.db.documents name with
  | some row => do
    let value ← .lift (python (env.loads row.body))
    pure ⟨.value value, none, file.db⟩
  | none => do
    .lift (requireTable file "imports")
    .lift (requireReceipt file name)
    let (value, raw) ← initialValue env source default
    require (env.isMapping value) (.persistence s!"initial state must be an object: {name}")
    require (validate value) .argument
    let body ← .lift (python (env.dumps value))
    raw.forM (preserveImportSource source)
    let body ← .lift (raising (bindText body))
    pure ⟨.value value, some name, insertDocument file.db name body now false⟩

def commit (call inode : ℕ) (file : File) (written : Written V) : Proc Disk Raised Unit := .critical fun d =>
  [(.ok (), { d with
      files := Function.update d.files inode { file with db := written.db }
      log := d.log ++ [⟨call, inode, written.initialises, file.db, written.db⟩] }),
    (.error .sqlite, d)]

/-- `with self.connection() as db, db`. -/
def transaction (call : ℕ) (body : File → Proc Disk Raised (Written V)) : Proc Disk Raised (Answer V) := do
  let inode ← connection
  let file ← beginImmediate call inode
  Proc.ensure
    (do
      act .sqlite
      let written ← body file
      commit call inode file written
      pure written.answer)
    (close call inode)

/-! ### Calls -/

inductive Call (V ρ κ φ : Type) where
  | construct
  | initializeDocument (name : String) (value : V) (now : String)
  | update (name : String) (transform : V → Option V) (now : String)
  | put (name : String) (value : V) (history : Bool) (now : String)
  | putCaptureState (arguments : Put ρ κ φ)
  | importJson (name source : String) (validate : V → Bool) (default : Option V) (now : String)

def Call.program (env : Env V ρ κ φ) (call : ℕ) : Call V ρ κ φ → Proc Disk Raised (Answer V)
  | .construct => StateDatabase.construct call
  | .initializeDocument name value now =>
    transaction call fun file => .lift (StateDatabase.initializeDocument env name value now file)
  | .update name transform now => transaction call fun file => .lift (StateDatabase.update env name transform now file)
  | .put name value history now => transaction call fun file => .lift (StateDatabase.put env name value history now file)
  | .putCaptureState arguments => transaction call fun file => .lift (StateDatabase.putCaptureState env arguments file)
  | .importJson name source validate default now =>
    transaction call (StateDatabase.importJson env name source validate default now)

/-- The threads of all processes, each with the number of its call. -/
abbrev System (V ρ κ φ : Type) := Pool (ℕ × Call V ρ κ φ) Disk Raised (Answer V)

def isOpened : Proc Disk Raised (Answer V) → Bool
  | .ret .opened => true
  | _ => false

def Disk.release (d : Disk) (call : ℕ) : Disk :=
  { d with
    initLock := if d.initLock = some call then none else d.initLock
    writer := fun inode => if d.writer inode = some call then none else d.writer inode }

inductive Action (V ρ κ φ : Type) where
  | enter (call : Call V ρ κ φ)
  | run (thread choice : ℕ)
  | die (thread : ℕ)
  | removeDatabase
  | emptyDatabase
  | deleteRows (names : List String)
  | writeJson (path : String) (content : Option (List UInt8))

def Db.without (db : Db) (names : List String) : Db :=
  { db with documents := fun name => if name ∈ names then none else db.documents name }

/-- The outside deletes rows through SQLite, and so behind the lock of a writer. -/
def Disk.deleteRows (d : Disk) (names : List String) : Option Disk :=
  match d.path.bind Entry.inode with
  | some inode =>
    if d.writer inode = none then
      let left := { d.files inode with db := Db.without (d.files inode).db names }
      some { d with files := Function.update d.files inode left }
    else none
  | none => none

def Disk.empty (d : Disk) : Option Disk :=
  (d.path.bind Entry.inode).map fun inode => { d with files := Function.update d.files inode {} }

/-- A method is called on an instance, which some `__init__` has returned. -/
def step (env : Env V ρ κ φ) (p : System V ρ κ φ) : Action V ρ κ φ → Option (System V ρ κ φ)
  | .enter call =>
    let thread := (p.threads.length, call)
    match call with
    | .construct => some (p.add p.shared (thread, call.program env p.threads.length))
    | _ =>
      if p.threads.any (isOpened ·.2) then some (p.add p.shared (thread, call.program env p.threads.length)) else none
  | .run thread choice => p.advance thread choice
  | .die thread =>
    match p.threads[thread]? with
    | some (id, .atomic _ _) => some ⟨p.shared.release id.1, p.threads.set thread (id, .raise .died)⟩
    | _ => none
  | .removeDatabase => some { p with shared := { p.shared with path := none } }
  | .emptyDatabase => p.shared.empty.map fun shared => { p with shared }
  | .deleteRows names => (p.shared.deleteRows names).map fun shared => { p with shared }
  | .writeJson path content =>
    some { p with shared := { p.shared with json := Function.update p.shared.json path content } }

end Conductor.StateDatabase
