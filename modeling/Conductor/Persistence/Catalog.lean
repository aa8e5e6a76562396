import Conductor.Lib.KeyTable
import Conductor.Lib.PyValue
import Conductor.Lib.Runs
import Mathlib.Algebra.Order.BigOperators.Group.List

/-! `SessionCatalog`: the rows of sessions, and the cache of the texts that a validator has
accepted. Threads interleave at the sections under `_validation_lock`, at statements of the
database and at accesses to `_admitted`. The parameters are `sys.getsizeof` of a text,
`json.loads` and the validators, which are pure; the file system answers with the step. -/

namespace Conductor.Persistence.Catalog

open Runs

structure Key where
  volume : String
  session : String
  deriving DecidableEq

/-- What a call of a validator does: it returns, raises one of the errors that `cached` catches,
or raises another one. -/
inductive Verdict where
  | accepted
  | rejected
  | raised
  deriving DecidableEq

/-- `loads` gives nothing where `json.loads` raises an error that `cached` catches. -/
structure Env (Raw Fn : Type) where
  getsizeof : Raw → ℕ
  loads : Raw → Option PyValue
  validate : Fn → PyValue → Verdict

variable {Raw Fn Thread : Type}

/-- `value[key] = item` on the items of a dictionary. -/
def setItem (items : List (PyStr × PyValue)) (key : String) (item : PyValue) : List (PyStr × PyValue) :=
  if (PyValue.lookup items key).isSome then
    items.map fun entry => if entry.1 = .text key then (entry.1, item) else entry
  else items ++ [(.text key, item)]

/-- The decoded summary, when it names the session, with its verification cleared. -/
def Env.summary (env : Env Raw Fn) (session : String) (raw : Raw) : Option PyValue :=
  match env.loads raw with
  | some (.dict items) =>
    if (PyValue.lookup items "session_id").any (·.eqStr (.text session)) then
      some (.dict (setItem items "verification" .none))
    else none
  | _ => none

/-! ### The validation cache -/

def validationCacheEntries : ℕ := 8192

def validationCacheBytes : ℕ := 8 * 1024 * 1024

structure Entry (Raw Fn : Type) where
  validator : String
  raw : Raw
  validate : Fn
  deriving DecidableEq

/-- `_validated_summaries`, the oldest entry first, and `_validated_summary_bytes`. -/
structure Cache (Raw Fn : Type) where
  entries : List (Key × Entry Raw Fn) := []
  bytes : ℤ := 0

/-- The keys that the scan of a thread has used; `none` outside a scan. -/
abbrev Seen := Option (List Key)

/-- `seen.add(key)`. -/
def addKey (seen : List Key) (key : Key) : List Key := if key ∈ seen then seen else seen ++ [key]

/-- `_forget_summary_validation`. -/
def Cache.forget (env : Env Raw Fn) (c : Cache Raw Fn) (key : Key) : Cache Raw Fn :=
  match c.entries.lookup key with
  | none => c
  | some previous => ⟨KeyTable.delete c.entries key, c.bytes - env.getsizeof previous.raw⟩

/-- `_summary_was_validated`. -/
def summaryWasValidated [DecidableEq Raw] [DecidableEq Fn] (env : Env Raw Fn) (c : Cache Raw Fn) (seen : Seen)
    (key : Key) (entry : Entry Raw Fn) : Bool × Cache Raw Fn × Seen :=
  if c.entries.lookup key = some entry then
    (true, { c with entries := KeyTable.insertOrReplace c.entries (key, entry) },
      seen.map fun seen => if seen.length < validationCacheEntries then addKey seen key else seen)
  else (false, c.forget env key, seen)

/-- The loop of `_remember_summary_validation`: it pops the oldest entry until the new one fits.
The flag says that it did not return early. -/
def evict (env : Env Raw Fn) (seen : Seen) (size : ℕ) : List (Key × Entry Raw Fn) → ℤ → Cache Raw Fn × Bool
  | [], bytes => (⟨[], bytes⟩, true)
  | (oldest, previous) :: rest, bytes =>
    if validationCacheEntries ≤ rest.length + 1 ∨ (validationCacheBytes : ℤ) < bytes + size then
      if seen.any (oldest ∈ ·) then (⟨(oldest, previous) :: rest, bytes⟩, false)
      else evict env seen size rest (bytes - env.getsizeof previous.raw)
    else (⟨(oldest, previous) :: rest, bytes⟩, true)

/-- `_remember_summary_validation`. -/
def rememberSummaryValidation (env : Env Raw Fn) (c : Cache Raw Fn) (seen : Seen) (key : Key)
    (entry : Entry Raw Fn) : Cache Raw Fn × Seen :=
  let size := env.getsizeof entry.raw
  let c := c.forget env key
  if validationCacheBytes < size ∨ validationCacheEntries ≤ 0 then (c, seen)
  else if seen.any (fun seen => key ∉ seen ∧ validationCacheEntries ≤ seen.length) then (c, seen)
  else
    match evict env seen size c.entries c.bytes with
    | (c, false) => (c, seen)
    | (c, true) => (⟨c.entries ++ [(key, entry)], c.bytes + size⟩, seen.map (addKey · key))

/-- The section of `discard_missing`. -/
def Cache.discard (env : Env Raw Fn) (c : Cache Raw Fn) (volume : String) (discovered : List String) : Cache Raw Fn :=
  (c.entries.map (·.1)).foldl
    (fun c key => if key.volume = volume ∧ key.session ∉ discovered then c.forget env key else c) c

/-! ### Rows and calls -/

structure Artifact where
  path : String
  bytes : ℤ
  role : Option String

/-- A row of `sessions` with its rows of `artifacts`, in the order of their paths. -/
structure Row (Raw : Type) where
  signature : String
  validator : String
  summary : Raw
  artifacts : List Artifact

abbrev Table (Raw : Type) := Key → Option (Row Raw)

/-- The arguments of `cached`; `directory` says whether one was given. -/
structure Call (Fn : Type) where
  volume : String
  session : String
  signature : String
  validator : String
  directory : Bool := false
  requiredArtifactRole : Option String := none
  validateSummary : Option Fn := none
  cacheValidation : Bool := false

def Call.key (c : Call Fn) : Key := ⟨c.volume, c.session⟩

/-- The text that the first query of `cached` finds. -/
def Call.select (c : Call Fn) (table : Table Raw) : Option Raw :=
  match table c.key with
  | none => none
  | some row =>
    if row.signature = c.signature ∧ row.validator = c.validator ∧
        c.requiredArtifactRole.all (fun role => row.artifacts.any (·.role = some role)) then some row.summary
    else none

inductive Returned where
  | none
  | value (value : PyValue)
  | raised

/-- What a thread does next. -/
inductive Phase (Raw Fn : Type) where
  | idle
  | lookup (call : Call Fn) (raw : Raw) (validate : Fn) (value : PyValue)
  | remember (call : Call Fn) (raw : Raw) (validate : Fn) (value : PyValue)
  | admission (call : Call Fn) (value : PyValue)
  | reject (call : Call Fn)
  | forget (call : Call Fn)
  | fail
  | clear
  | discard (volume : String) (discovered : List String)
  | deleteRows (volume : String) (discovered : List String)

structure ThreadState (Raw Fn : Type) where
  phase : Phase Raw Fn := .idle
  seen : Seen := none

/-- `scan` is the thread that has reserved the writer, with the rows as it sees them. -/
structure State (Raw Fn Thread : Type) where
  rows : Table Raw
  scan : Option (Thread × Table Raw) := none
  admitted : Key → Option String := fun _ => none
  cache : Cache Raw Fn := {}
  threads : Thread → ThreadState Raw Fn := fun _ => {}
  returned : List (Thread × Returned) := []

def start (rows : Table Raw) : State Raw Fn Thread := { rows }

/-- What the file system answers to the admission of a directory: the check of the artifacts and
the signature, where `none` is an `OSError`. -/
structure Answers where
  artifactsMatch : List Artifact → Option Bool
  signature : Option String

inductive Action (Raw Fn Thread : Type) where
  | beginScan (t : Thread)
  | commit (t : Thread)
  | rollback (t : Thread)
  | clear (t : Thread)
  | cached (t : Thread) (call : Call Fn)
  | lookup (t : Thread)
  | remember (t : Thread)
  | admission (t : Thread) (answers : Answers)
  | reject (t : Thread)
  | forget (t : Thread)
  | fail (t : Thread)
  | rememberRow (t : Thread) (key : Key) (row : Row Raw)
  | discardMissing (t : Thread) (volume : String) (discovered : List String)
  | discard (t : Thread)
  | deleteRows (t : Thread)

namespace State

variable [DecidableEq Thread]

def phase (s : State Raw Fn Thread) (t : Thread) : Phase Raw Fn := (s.threads t).phase

def seen (s : State Raw Fn Thread) (t : Thread) : Seen := (s.threads t).seen

/-- The rows that the connection of a thread sees. -/
def view (s : State Raw Fn Thread) (t : Thread) : Table Raw :=
  match s.scan with
  | some (scanner, table) => if scanner = t then table else s.rows
  | none => s.rows

def setThread (s : State Raw Fn Thread) (t : Thread) (phase : Phase Raw Fn) (seen : Seen) : State Raw Fn Thread :=
  { s with threads := Function.update s.threads t ⟨phase, seen⟩ }

def setPhase (s : State Raw Fn Thread) (t : Thread) (phase : Phase Raw Fn) : State Raw Fn Thread :=
  s.setThread t phase (s.seen t)

def finish (s : State Raw Fn Thread) (t : Thread) (r : Returned) : State Raw Fn Thread :=
  { s.setPhase t .idle with returned := s.returned ++ [(t, r)] }

/-- A write of the rows. It waits while another thread has the writer. -/
def write (s : State Raw Fn Thread) (t : Thread) (f : Table Raw → Table Raw) : Option (State Raw Fn Thread) :=
  match s.scan with
  | none => some { s with rows := f s.rows }
  | some (scanner, table) => if scanner = t then some { s with scan := some (scanner, f table) } else none

end State

/-- After a call of the validator that accepts, `cached` goes on at `next`. -/
def Verdict.phase (v : Verdict) (call : Call Fn) (next : Phase Raw Fn) : Phase Raw Fn :=
  match v with
  | .accepted => next
  | .rejected => .reject call
  | .raised => .fail

/-- `cached` up to the first section under the lock, on the text that the query found. -/
def Call.decode (env : Env Raw Fn) (call : Call Fn) (raw : Raw) : Phase Raw Fn :=
  match env.summary call.session raw with
  | none => .reject call
  | some value =>
    match call.validateSummary with
    | none => .admission call value
    | some validate =>
      if call.cacheValidation then .lookup call raw validate value
      else (env.validate validate value).phase call (.admission call value)

variable [DecidableEq Raw] [DecidableEq Fn] [DecidableEq Thread]

/-- The end of `cached`: the admission of the directory. -/
def admitStep (s : State Raw Fn Thread) (t : Thread) (call : Call Fn) (value : PyValue) (answers : Answers) :
    State Raw Fn Thread :=
  if call.directory = false ∨ s.admitted call.key = some call.signature then s.finish t (.value value)
  else
    match answers.artifactsMatch (((s.view t call.key).map (·.artifacts)).getD []) with
    | none => s.finish t .raised
    | some false => s.finish t .none
    | some true =>
      match answers.signature with
      | none => s.finish t .raised
      | some signature =>
        if signature ≠ call.signature then s.finish t .none
        else
          { s with admitted := Function.update s.admitted call.key (some call.signature) }.finish t (.value value)

def step (env : Env Raw Fn) (s : State Raw Fn Thread) : Action Raw Fn Thread → Option (State Raw Fn Thread)
  | .beginScan t =>
    match s.phase t, s.scan with
    | .idle, none => some ({ s with scan := some (t, s.rows) }.setThread t .idle (some []))
    | _, _ => none
  | .commit t =>
    match s.phase t, s.scan with
    | .idle, some (scanner, table) =>
      if scanner = t then some ({ s with scan := none, rows := table }.setThread t .idle none) else none
    | _, _ => none
  | .rollback t =>
    match s.phase t, s.scan with
    | .idle, some (scanner, _) =>
      if scanner = t then some ({ s with scan := none, admitted := fun _ => none }.setPhase t .clear) else none
    | _, _ => none
  | .clear t =>
    match s.phase t with
    | .clear => some ({ s with cache := {} }.setThread t .idle none)
    | _ => none
  | .cached t call =>
    match s.phase t with
    | .idle =>
      match call.select (s.view t) with
      | none => some (s.finish t .none)
      | some raw => some (s.setPhase t (call.decode env raw))
    | _ => none
  | .lookup t =>
    match s.phase t with
    | .lookup call raw validate value =>
      let (hit, cache, seen) := summaryWasValidated env s.cache (s.seen t) call.key ⟨call.validator, raw, validate⟩
      let next := if hit then .admission call value
        else (env.validate validate value).phase call (.remember call raw validate value)
      some ({ s with cache }.setThread t next seen)
    | _ => none
  | .remember t =>
    match s.phase t with
    | .remember call raw validate value =>
      let (cache, seen) :=
        rememberSummaryValidation env s.cache (s.seen t) call.key ⟨call.validator, raw, validate⟩
      some ({ s with cache }.setThread t (.admission call value) seen)
    | _ => none
  | .admission t answers =>
    match s.phase t with
    | .admission call value => some (admitStep s t call value answers)
    | _ => none
  | .reject t =>
    match s.phase t with
    | .reject call =>
      some ({ s with admitted := Function.update s.admitted call.key none }.setPhase t (.forget call))
    | _ => none
  | .forget t =>
    match s.phase t with
    | .forget call => some ({ s with cache := s.cache.forget env call.key }.finish t .none)
    | _ => none
  | .fail t =>
    match s.phase t with
    | .fail => some (s.finish t .raised)
    | _ => none
  | .rememberRow t key row =>
    match s.phase t with
    | .idle => s.write t fun table => Function.update table key (some row)
    | _ => none
  | .discardMissing t volume discovered =>
    match s.phase t with
    | .idle =>
      some ({ s with admitted := fun key =>
        if key.volume = volume ∧ key.session ∉ discovered then none else s.admitted key }.setPhase t (.discard volume discovered))
    | _ => none
  | .discard t =>
    match s.phase t with
    | .discard volume discovered =>
      some ({ s with cache := s.cache.discard env volume discovered }.setPhase t (.deleteRows volume discovered))
    | _ => none
  | .deleteRows t =>
    match s.phase t with
    | .deleteRows volume discovered =>
      (s.setPhase t .idle).write t fun table key =>
        if key.volume = volume ∧ key.session ∉ discovered then none else table key
    | _ => none

end Conductor.Persistence.Catalog
