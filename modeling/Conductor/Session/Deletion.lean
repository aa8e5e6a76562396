import Conductor.Api.SessionList
import Conductor.Artifact.Manifest
import Conductor.Lib.KeyTable

/-! The deletion of recordings (`recording/deletion.py`) and the check of its receipt. The roots are
tables of directory entries; what an entry is to `inspect_device_session_directory` is a part of it.
The faults say which operations raise an `OSError`, and what a removal that raises has left. -/

namespace Conductor.Deletion

open Api KeyTable
open Artifact (Json Fields)

/-! ### The request -/

/-- `session_id: manifest_sha256`. -/
abbrev Expected := List (String × String)

def asString : Option Json → Option String
  | some (.string text) => some text
  | _ => none

/-- One item of a request, that none before it names. -/
def requestItem (seen : List String) (item : Json) : Option (String × String) :=
  match item with
  | .object fields =>
    if Fields.keys fields ≠ {"session_id", "manifest_sha256"} then none
    else
      match asString (Fields.get fields "session_id"), asString (Fields.get fields "manifest_sha256") with
      | some id, some digest => if uuidV7 id && sha256 digest && id ∉ seen then some (id, digest) else none
      | _, _ => none
  | _ => none

def requestItems (seen : List String) : List Json → Option Expected
  | [] => some []
  | item :: items =>
    match requestItem seen item with
    | none => none
    | some entry => (requestItems (entry.1 :: seen) items).map (entry :: ·)

/-- The dictionary that `delete_sessions` makes of a valid request. -/
def deleteRequest (body : Json) : Option Expected :=
  match body with
  | .object fields =>
    if Fields.keys fields ≠ {"schema", "sessions"} then none
    else if asString (Fields.get fields "schema") ≠ some "ylx.session-delete-request.v1" then none
    else
      match Fields.get fields "sessions" with
      | some (.array items) => if 1 ≤ items.length ∧ items.length ≤ 200 then requestItems [] items else none
      | _ => none
  | _ => none

def validDeleteRequest (body : Json) : Bool := (deleteRequest body).isSome

/-! ### The directories -/

/-- `st_dev`, `st_ino` and `st_mode`. -/
structure Stat where
  device : ℕ
  inode : ℕ
  mode : ℕ
  deriving DecidableEq

/-- The `session_id` and, of the `take`, the `sequence` and the `continuation_of`. -/
structure Manifest where
  sessionId : String
  sequence : ℤ
  continuationOf : Option String
  deriving DecidableEq

/-- An entry of a root; `files` are the paths below it, and `inspected` is the manifest and its bytes,
unless the inspection raises. -/
structure Entry where
  symlink : Bool
  stat : Stat
  files : List String
  inspected : Option (Manifest × List UInt8)
  deriving DecidableEq

/-- The names of a directory are different. -/
abbrev Root := {entries : List (String × Entry) // UniqueKeys entries}

abbrev Volume := List Root

def Volume.find (v : Volume) (root : ℕ) (name : String) : Option Entry := (v[root]?).bind (·.1.lookup name)

def Root.remove (r : Root) (name : String) : Root := ⟨delete r.1 name, r.2.delete name⟩

/-- What is left of an entry, if anything. -/
def Root.leave (r : Root) (name : String) : Option Entry → Root
  | none => r.remove name
  | some entry => ⟨insertOrReplace r.1 (name, entry), r.2.insertOrReplace (name, entry)⟩

/-- Where an `OSError` is raised: by the roots, by the entries of the scan, and by the removals in their
order. A `rmtree` that raises may have left anything of the directory. -/
structure Faults where
  listRoot : ℕ → Bool
  scanStat : ℕ → String → Bool
  stat : ℕ → Bool
  rmtree : ℕ → Option (Option Entry)
  fsync : ℕ → Bool

inductive Error where
  | os
  | provider (code message : String) (status : ℕ) (sessionId : Option String)
  deriving DecidableEq

namespace Error

def catalogUnavailable : Error := .provider "catalog_unavailable" "录制目录无法安全检查，请先修复或移除异常目录" 409 none

def notFound : Error := .provider "not_found" "录制不存在，请刷新列表" 404 none

def manifestChanged : Error := .provider "manifest_changed" "录制内容已变化，请刷新后重新确认删除" 409 none

def continuationRequired (sessionId : String) : Error :=
  .provider "continuation_required" "请同时选择后续连续录制" 409 (some sessionId)

end Error

/-! ### `delete_recordings` -/

structure Candidate where
  name : String
  root : ℕ
  identity : Stat
  manifest : Manifest
  payload : List UInt8

/-- One entry of the scan. -/
def candidate (faults : Faults) (root : ℕ) (found : List Candidate) (row : String × Entry) :
    Except Error (List Candidate) :=
  if !uuidV7 row.1 then .ok found
  else if row.2.symlink || faults.scanStat root row.1 then .error .catalogUnavailable
  else
    match row.2.inspected with
    | none => .error .catalogUnavailable
    | some (manifest, payload) =>
      if manifest.sessionId ≠ row.1 || found.any (·.name = row.1) then .error .catalogUnavailable
      else .ok (found ++ [⟨row.1, root, row.2.stat, manifest, payload⟩])

def scanRoot (faults : Faults) (found : List Candidate) (root : Root × ℕ) : Except Error (List Candidate) :=
  if faults.listRoot root.2 then .error .os else root.1.1.foldlM (candidate faults root.2) found

def candidates (faults : Faults) (v : Volume) : Except Error (List Candidate) :=
  v.zipIdx.foldlM (scanRoot faults) []

/-- The recording that an item of the request means. -/
def choose (digest : List UInt8 → String) (found : List Candidate) (item : String × String) : Except Error Candidate :=
  match found.find? (·.name = item.1) with
  | none => .error .notFound
  | some c => if digest c.payload ≠ item.2 then .error .manifestChanged else .ok c

/-- A recording that is not requested must not continue one that is. -/
def continues (expected : Expected) (c : Candidate) : Except Error Unit :=
  if c.manifest.continuationOf.any (fun id => id ∈ expected.map (·.1)) && c.name ∉ expected.map (·.1) then
    .error (.continuationRequired c.name)
  else .ok ()

structure DeleteResult where
  deletedSessionIds : List String
  /-- The `session_id` and the `error` of each. -/
  failedSessions : List (String × String)
  deriving DecidableEq

/-- One turn of the loop: whether the recording is removed, and whether an `OSError` ends the loop. -/
def removeOne (faults : Faults) (index : ℕ) (c : Candidate) (v : Volume) : Bool × Bool × Volume :=
  if faults.stat index || (v.find c.root c.name).map (·.stat) ≠ some c.identity then (false, true, v)
  else
    match faults.rmtree index with
    | some rest => (false, true, v.modify c.root (·.leave c.name rest))
    | none => (true, faults.fsync index, v.modify c.root (·.remove c.name))

def interrupted : String := "删除中断，请刷新列表检查后重试"

def remove (faults : Faults) (index : ℕ) (deleted : List String) : List Candidate → Volume → DeleteResult × Volume
  | [], v => (⟨deleted, []⟩, v)
  | c :: rest, v =>
    match removeOne faults index c v with
    | (gone, raised, v) =>
      let deleted := if gone then deleted ++ [c.name] else deleted
      if raised then
        (⟨deleted, (((c :: rest).map (·.name)).filter (· ∉ deleted)).map fun name => (name, interrupted)⟩, v)
      else remove faults (index + 1) deleted rest v

/-- The requested recordings, the greatest sequence first. -/
def preflight (digest : List UInt8 → String) (faults : Faults) (expected : Expected) (v : Volume) :
    Except Error (List Candidate) := do
  let found ← candidates faults v
  let chosen ← expected.mapM (choose digest found)
  found.forM (continues expected)
  return sortReverse (·.manifest.sequence) chosen

def deleteRecordings (digest : List UInt8 → String) (faults : Faults) (expected : Expected) (v : Volume) :
    Except Error DeleteResult × Volume :=
  match preflight digest faults expected v with
  | .error e => (.error e, v)
  | .ok ordered =>
    let (result, v) := remove faults 0 [] ordered v
    (.ok result, v)

/-! ### The receipt -/

def DeleteResult.body (r : DeleteResult) : Json :=
  .object [("schema", .string "ylx.session-delete-result.v1"),
    ("deleted_session_ids", .array (r.deletedSessionIds.map .string)),
    ("failed_sessions", .array (r.failedSessions.map fun failure =>
      .object [("session_id", .string failure.1), ("error", .string failure.2)]))]

/-- The session of a failure, whose error is not empty. -/
def failedSession (failure : Json) : Option String :=
  match failure with
  | .object fields =>
    if Fields.keys fields ≠ {"session_id", "error"} then none
    else
      match asString (Fields.get fields "session_id"), asString (Fields.get fields "error") with
      | some id, some error => if error = "" then none else some id
      | _, _ => none
  | _ => none

/-- The sessions that the body of a receipt names. -/
def receiptSessions (body : Json) : Option (List String) :=
  match body with
  | .object fields =>
    if Fields.keys fields ≠ {"schema", "deleted_session_ids", "failed_sessions"} then none
    else if asString (Fields.get fields "schema") ≠ some "ylx.session-delete-result.v1" then none
    else
      match Fields.get fields "deleted_session_ids", Fields.get fields "failed_sessions" with
      | some (.array deleted), some (.array failures) =>
        match deleted.mapM fun id => asString (some id), failures.mapM failedSession with
        | some deleted, some failures => some (deleted ++ failures)
        | _, _ => none
      | _, _ => none
  | _ => none

/-- `_validated_command_receipt` of a deletion with the status 200. -/
def validatedDeletion (request body : Json) : Bool :=
  match deleteRequest request, receiptSessions body with
  | some expected, some sessions => sessions.Nodup && sessions.toFinset = (expected.map (·.1)).toFinset
  | _, _ => false

end Conductor.Deletion
