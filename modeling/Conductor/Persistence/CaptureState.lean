import Conductor.Lib.Checked
import Conductor.Lib.KeyTable
import Conductor.Lib.PyValue
import Conductor.Lib.Runs

/-! `StateDatabase.capture_state` and `put_capture_state`: the lifecycle document, the
command receipts and the quarantined receipts in SQLite. A document is its
`invalid_commands`, its `commands` (which only older firmware wrote) and the other
fields, which are JSON values up to the order of their keys. The JSON codec is a
parameter; a statement of the transaction may fail, and what fails is rolled back. -/

namespace Conductor.Persistence

open KeyTable

structure Scope where
  principal : PyStr
  operation : PyStr
  key : PyStr
  deriving DecidableEq

inductive Error where
  | persistence (message : String)
  | python (error : PyError)
  | sqlite (message : String)

structure Document (ρ : Type) where
  invalidCommands : Option PyValue := none
  commands : Option PyValue := none
  rest : ρ

/-- A receipt to store; the other fields are `canonical_body`, `status` and `body`. -/
structure Command (κ : Type) where
  scope : Scope
  rest : κ

/-- A dictionary read from a row: its identity as `item.get` gives it, and the rest. -/
structure Item (κ : Type) where
  principalId : PyValue
  operation : PyValue
  idempotencyKey : PyValue
  rest : κ

/-- The column is declared as text, but it can hold a blob. -/
inductive Body where
  | text (value : String)
  | blob (bytes : List UInt8)
  deriving DecidableEq

structure DocumentRow where
  body : String
  revision : ℕ
  updatedAt : String

structure Change where
  name : String
  revision : ℕ
  body : String
  updatedAt : String

structure Db where
  documents : String → Option DocumentRow
  imports : List String := []
  changes : List Change := []
  /-- `capture_commands`, by row id. -/
  rows : List (Scope × Body) := []

/-- `_json` and `json.loads` on the values that the two methods write and read, `json.dumps`
on evidence, and `repr`. `loadsItem` is `none` when the text is no dictionary. -/
structure Codec (ρ κ φ : Type) where
  dumpsDocument : Document ρ → Except PyError PyStr
  loadsDocument : String → Except PyError (Option (Document ρ))
  dumpsCommand : Command κ → Except PyError PyStr
  loadsItem : String → Option (Item κ)
  dumpsEvidence : PyValue → Except PyError String
  dumpsFocus : φ → Except PyError PyStr
  reprBytes : List UInt8 → String

variable {ρ κ φ : Type}

def Scope.parts (s : Scope) : List PyStr := [s.principal, s.operation, s.key]

/-- The truth value of a string. -/
def nonempty : PyStr → Bool
  | .text s => s ≠ ""
  | .surrogates codePoints => !codePoints.isEmpty

/-- Every part is a nonempty string. -/
def Scope.valid (s : Scope) : Bool := s.parts.all nonempty

def Scope.value (s : Scope) : PyValue := .list (s.parts.map .str)

def Command.item (c : Command κ) : Item κ :=
  ⟨.str c.scope.principal, .str c.scope.operation, .str c.scope.key, c.rest⟩

def Item.matches (item : Item κ) (s : Scope) : Bool :=
  item.principalId.eqStr s.principal && item.operation.eqStr s.operation && item.idempotencyKey.eqStr s.key

/-- An entry of `invalid_commands`, with the evidence or without. -/
def entry (s : Scope) (receipt : Option PyStr) : PyValue :=
  .dict ((.text "scope", s.value) :: (receipt.map fun r => (.text "receipt", .str r)).toList)

/-! ### `capture_state` -/

/-- What `capture_state` returns. Receipts of older firmware are the document's own list. -/
structure Captured (ρ κ : Type) where
  commands : PyValue ⊕ List (Item κ)
  invalidCommands : Option PyValue
  rest : ρ

/-- The receipt of a row, when its body says what the row's key says. -/
def receiptOf (k : Codec ρ κ φ) (s : Scope) : Body → Option (Item κ)
  | .text t => (k.loadsItem t).filter (·.matches s)
  | .blob _ => none

def evidenceOf (k : Codec ρ κ φ) : Body → PyStr
  | .text t => .text t
  | .blob bytes => .text (k.reprBytes bytes)

def invalidIdentities : Error := .persistence "invalid quarantined command identities"

def captureState (k : Codec ρ κ φ) (db : Db) : Except Error (Captured ρ κ) :=
  match db.documents "capture" with
  | none => .error (.persistence "missing authoritative document: capture")
  | some row =>
    match k.loadsDocument row.body with
    | .error e => .error (.python e)
    | .ok none => .error (.persistence "invalid state document: capture")
    | .ok (some value) =>
      match value.commands, value.invalidCommands.getD (.list []) with
      | some commands, _ => .ok ⟨.inl commands, value.invalidCommands, value.rest⟩
      | none, .list invalid =>
        if db.rows.all (·.1.valid) then
          let items := db.rows.filterMap fun (s, body) => receiptOf k s body
          let bad := db.rows.filter fun (s, body) => (receiptOf k s body).isNone
          let invalid := invalid ++ bad.map fun (s, body) => entry s (some (evidenceOf k body))
          .ok ⟨.inr items, if invalid.isEmpty then value.invalidCommands else some (.list invalid), value.rest⟩
        else .error (.persistence "invalid command table identity")
      | none, _ => .error invalidIdentities

/-! ### `put_capture_state` -/

structure Put (ρ κ φ : Type) where
  value : Document ρ
  commands : List (Command κ)
  removed : List Scope
  cameraFocus : Option φ := none
  now : String

/-- The statements of the transaction, in order. -/
inductive Statement where
  | begin
  | select
  | evidence
  | document
  | delete
  | replace
  | focus
  | commit

def invalidIdentity : Error := .persistence "invalid quarantined command identity"

def asScope (value : PyValue) : Except Error Scope :=
  match value with
  | .dict items =>
    match PyValue.lookup items "scope" with
    | some (.list [.str a, .str b, .str c]) => if (Scope.mk a b c).valid then .ok ⟨a, b, c⟩ else .error invalidIdentity
    | _ => .error invalidIdentity
  | _ => .error invalidIdentity

/-- The receipt of an entry as text; anything but a string is dumped. -/
def receiptText (k : Codec ρ κ φ) (value : PyValue) : Except Error (Option PyStr) :=
  match value with
  | .dict items =>
    match PyValue.lookup items "receipt" with
    | none | some .none => .ok none
    | some (.str raw) => .ok (some raw)
    | some raw =>
      match k.dumpsEvidence raw with
      | .error e => .error (.python e)
      | .ok t => .ok (some (.text t))
  | _ => .ok none

/-- The loop over `invalid_commands`. -/
def readEntries (k : Codec ρ κ φ) : List PyValue → Except Error (List (Scope × Option PyStr))
  | [] => .ok []
  | value :: rest => do
    let s ← asScope value
    let receipt ← receiptText k value
    let more ← readEntries k rest
    return (s, receipt) :: more

/-- The compacted document, with the scopes and the evidence of its entries. -/
structure Prepared (ρ : Type) where
  value : Document ρ
  entries : List (Scope × Option PyStr) := []

def Prepared.quarantined (p : Prepared ρ) : List Scope := p.entries.map (·.1)

def Prepared.evidence (p : Prepared ρ) : List (Scope × PyStr) :=
  p.entries.filterMap fun (s, receipt) => receipt.map fun r => (s, r)

def prepare (k : Codec ρ κ φ) (value : Document ρ) : Except Error (Prepared ρ) :=
  match value.invalidCommands with
  | none => .ok { value }
  | some (.list invalid) => do
    let entries ← readEntries k invalid
    return ⟨{ value with invalidCommands := some (.list (entries.map fun e => entry e.1 none)) }, entries⟩
  | some _ => .error invalidIdentities

/-- A parameter of a statement; a lone surrogate is not text. -/
def bindText : PyStr → Except Error String
  | .text s => .ok s
  | .surrogates _ => .error (.python .unicodeEncodeError)

def bindScope (s : Scope) : Except Error Scope := do
  let _ ← bindText s.principal
  let _ ← bindText s.operation
  let _ ← bindText s.key
  return s

def bindRow (row : Scope × PyStr) : Except Error (Scope × Body) := do
  let s ← bindScope row.1
  let body ← bindText row.2
  return (s, .text body)

def python {α : Type} (r : Except PyError α) : Except Error α := r.mapError .python

/-- `INSERT … ON CONFLICT DO UPDATE`, after the comparison with the stored body. -/
def putBody (db : Db) (name : String) (body : PyStr) (now : String) (history : Bool) : Except Error Db :=
  if (db.documents name).any fun old => body = .text old.body then .ok db
  else do
    let text ← bindText body
    let revision := match db.documents name with
      | none => 1
      | some old => old.revision + 1
    return { db with
      documents := Function.update db.documents name (some ⟨text, revision, now⟩)
      changes := if history then db.changes ++ [⟨name, revision, text, now⟩] else db.changes }

def requireDocument (db : Db) (name : String) : Except Error Unit :=
  if (db.documents name).isNone ∧ name ∈ db.imports then
    .error (.persistence s!"missing authoritative document: {name}")
  else .ok ()

def insertEvidence (db : Db) (evidence : List (Scope × PyStr)) : Except Error Db := do
  let rows ← evidence.mapM bindRow
  return { db with rows := rows.foldl insertOrIgnore db.rows }

def deleteRemoved (db : Db) (removed : List Scope) : Except Error Db := do
  let keys ← removed.mapM bindScope
  return { db with rows := keys.foldl delete db.rows }

def commandRow (k : Codec ρ κ φ) (c : Command κ) : Except Error (Scope × PyStr) := do
  let text ← python (k.dumpsCommand c)
  return (c.scope, text)

def replaceCommands (k : Codec ρ κ φ) (db : Db) (commands : List (Command κ)) : Except Error Db := do
  let texts ← commands.mapM (commandRow k)
  let rows ← texts.mapM bindRow
  return { db with rows := rows.foldl insertOrReplace db.rows }

def putFocus (k : Codec ρ κ φ) (db : Db) (cameraFocus : Option φ) (now : String) : Except Error Db :=
  match cameraFocus with
  | none => .ok db
  | some focus => do
    let body ← python (k.dumpsFocus focus)
    requireDocument db "camera_focus"
    putBody db "camera_focus" body now true

variable (fault : Statement → Option String)

def execute (statement : Statement) : Except Error Unit :=
  match fault statement with
  | none => .ok ()
  | some message => .error (.sqlite message)

/-- The body of the transaction. -/
def statements (k : Codec ρ κ φ) (put : Put ρ κ φ) (p : Prepared ρ) (body : PyStr) (db : Db) : Except Error Db := do
  execute fault .begin
  execute fault .select
  requireDocument db "capture"
  execute fault .evidence
  let db ← insertEvidence db p.evidence
  execute fault .document
  let db ← putBody db "capture" body put.now false
  execute fault .delete
  let db ← deleteRemoved db (put.removed.filter (· ∉ p.quarantined))
  execute fault .replace
  let db ← replaceCommands k db put.commands
  execute fault .focus
  let db ← putFocus k db put.cameraFocus put.now
  execute fault .commit
  return db

/-- The connection as a context manager: an exception rolls back. -/
def transaction (db : Db) (body : Db → Except Error Db) : Except Error Unit × Db :=
  match body db with
  | .error e => (.error e, db)
  | .ok db' => (.ok (), db')

def putCaptureState (k : Codec ρ κ φ) (db : Db) (put : Put ρ κ φ) : Except Error Unit × Db :=
  match prepare k put.value with
  | .error e => (.error e, db)
  | .ok p =>
    if put.commands.any (·.scope ∈ p.quarantined) then
      (.error (.persistence "cannot replace a quarantined command receipt"), db)
    else
      match k.dumpsDocument p.value with
      | .error e => (.error (.python e), db)
      | .ok body => transaction db (statements fault k put p body)

end Conductor.Persistence
