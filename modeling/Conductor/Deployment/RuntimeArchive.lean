import Conductor.Lib.PosixPath
import Mathlib.Algebra.Order.Ring.Nat

/-! `normalize_runtime_archive` of `deployment.py`. An archive is the list of its members, as `tarfile` stores and
returns them; any step on the files can fail. -/

namespace Conductor.Deployment.RuntimeArchive

open PosixPath

/-- The type of a member with what the type stores; `size` is the size field of a member without content. -/
inductive Entry where
  | regular (content : List UInt8)
  | directory (size : ℕ)
  | symbolicLink (linkname : Text) (size : ℕ)
  | hardLink (size : ℕ)
  | other (size : ℕ)
  deriving DecidableEq

structure TarInfo where
  name : Text
  mode : ℕ
  entry : Entry
  deriving DecidableEq

namespace TarInfo

def size (m : TarInfo) : ℕ :=
  match m.entry with
  | .regular content => content.length
  | .directory size | .symbolicLink _ size | .hardLink size | .other size => size

def isdir (m : TarInfo) : Bool := match m.entry with | .directory _ => true | _ => false

def isfile (m : TarInfo) : Bool := match m.entry with | .regular _ => true | _ => false

def issym (m : TarInfo) : Bool := match m.entry with | .symbolicLink _ _ => true | _ => false

def islnk (m : TarInfo) : Bool := match m.entry with | .hardLink _ => true | _ => false

end TarInfo

def maxUnpackedBytes : ℕ := 4 * 1024 * 1024 * 1024

def maxRuntimeFiles : ℕ := 100000

inductive Failure where
  | deploymentError (code message : String)
  /-- `OSError` or `tarfile.TarError`. -/
  | osError
  /-- The loop of `resolve` has made as many passes as it was given. -/
  | outOfFuel
  deriving DecidableEq

def runtimeUnsafe (text : String) (m : TarInfo) : Failure :=
  .deploymentError "runtime_unsafe" (text ++ String.ofList m.name)

def python : Text := "python".toList

def runtime : Text := "runtime".toList

/-- `any(part in {"", ".", ".."} for part in raw_parts)`. -/
def crooked (name : Text) : Prop := ∃ part ∈ components name, part = [] ∨ part = ['.'] ∨ part = ['.', '.']

instance (name : Text) : Decidable (crooked name) := by unfold crooked; infer_instance

/-! ### The bundle format -/

/-- What `_validated_runtime_members` has seen. -/
structure Validated where
  names : List Text := []
  unpackedBytes : ℕ := 0
  executableFound : Bool := false

def validateMember (s : Validated) (m : TarInfo) : Except Failure Validated :=
  let unpackedBytes := s.unpackedBytes + m.size
  if isAbsolute m.name ∨ parts m.name = [] ∨ (parts m.name).head? ≠ some runtime ∨ crooked m.name ∨ m.name ∈ s.names ∨
      m.issym ∨ m.islnk ∨ ¬ (m.isdir ∨ m.isfile) ∨ maxUnpackedBytes < unpackedBytes then
    .error (runtimeUnsafe "runtime 成员不安全：" m)
  else
    .ok ⟨m.name :: s.names, unpackedBytes,
      s.executableFound || m.name == "runtime/bin/python3".toList && m.isfile && decide (0 < m.size)⟩

def validatedRuntimeMembers (members : List TarInfo) : Except Failure (List TarInfo) := do
  if maxRuntimeFiles < members.length then throw (.deploymentError "runtime_unsafe" "runtime 文件数量超过限制")
  let s ← members.foldlM validateMember {}
  if ¬ s.executableFound then throw (.deploymentError "runtime_dependency_missing" "runtime 缺少 bin/python3")
  return members

/-! ### The source -/

structure Scan where
  byName : List TarInfo := []
  roots : List Text := []
  unpackedBytes : ℕ := 0

def scanMember (s : Scan) (m : TarInfo) : Except Failure Scan :=
  let unpackedBytes := s.unpackedBytes + m.size
  if isAbsolute m.name ∨ (parts m.name).length < 2 ∨ ¬ ((parts m.name).head? ∈ [some python, some runtime]) ∨
      crooked m.name ∨ m.name ∈ s.byName.map (·.name) ∨ m.islnk ∨ ¬ (m.isdir ∨ m.isfile ∨ m.issym) ∨
      maxUnpackedBytes < unpackedBytes then
    .error (runtimeUnsafe "runtime 源成员不安全：" m)
  else
    let root := (parts m.name).headD []
    .ok ⟨s.byName ++ [m], if root ∈ s.roots then s.roots else s.roots ++ [root], unpackedBytes⟩

/-- The checks of the source, up to its root. -/
def scan (source : List TarInfo) : Except Failure (List TarInfo × Text) := do
  if source = [] ∨ maxRuntimeFiles < source.length then
    throw (.deploymentError "runtime_unsafe" "runtime 文件数量无效")
  let s ← source.foldlM scanMember {}
  match s.roots with
  | [root] => return (s.byName, root)
  | _ => throw (.deploymentError "runtime_unsafe" "runtime 源归档根目录不唯一")

/-- The loop of `resolve`, with a bound on its passes. -/
def follow (byName : List TarInfo) (root : Text) (m : TarInfo) : ℕ → List Text → TarInfo → Except Failure TarInfo
  | 0, _, _ => .error .outOfFuel
  | fuel + 1, seen, current =>
    match current.entry with
    | .symbolicLink linkname _ =>
      if current.name ∈ seen ∨ isAbsolute linkname then .error (runtimeUnsafe "runtime 链接不安全：" m)
      else
        let targetName := normpath (join (dirname current.name) linkname)
        match byName.find? (·.name = targetName) with
        | none => .error (runtimeUnsafe "runtime 链接越界或缺失：" m)
        | some target =>
          if parts targetName = [] ∨ (parts targetName).head? ≠ some root then
            .error (runtimeUnsafe "runtime 链接越界或缺失：" m)
          else follow byName root m fuel (current.name :: seen) target
    | _ => if current.isfile then .ok current else .error (runtimeUnsafe "runtime 链接未指向普通文件：" m)

def resolve (byName : List TarInfo) (root : Text) (fuel : ℕ) (m : TarInfo) : Except Failure TarInfo :=
  follow byName root m fuel [] m

/-! ### The rewriting -/

/-- The steps that can fail. -/
inductive Io where
  | openSource
  | createTemporary
  /-- Reading and writing the member with this number. -/
  | copy (index : ℕ)
  | inspect
  | replace
  | syncDirectory
  | unlink

/-- `str(PurePosixPath("runtime", *path.parts[1:]))`. -/
def normalizedName (name : Text) : Text := slashed (runtime :: (parts name).tail)

def rewriteMember (byName : List TarInfo) (root : Text) (fuel : ℕ) (m : TarInfo) : Except Failure TarInfo :=
  if m.isdir then .ok ⟨normalizedName m.name, 0o755, .directory 0⟩
  else do
    let resolved ← resolve byName root fuel m
    match resolved.entry with
    | .regular content =>
      return ⟨normalizedName m.name, if resolved.mode &&& 0o111 ≠ 0 then 0o755 else 0o644, .regular content⟩
    | _ => throw (runtimeUnsafe "runtime 成员不可读：" m)

/-- The members of the temporary archive. -/
def rewrite (fails : Io → Bool) (byName : List TarInfo) (root : Text) (fuel : ℕ) :
    ℕ → List TarInfo → Except Failure (List TarInfo)
  | _, [] => .ok []
  | index, m :: rest => do
    let normalized ← rewriteMember byName root fuel m
    if fails (.copy index) then throw .osError
    return normalized :: (← rewrite fails byName root fuel (index + 1) rest)

/-- `_inspect_runtime`. -/
def inspectRuntime (fails : Io → Bool) (members : List TarInfo) : Except Failure Unit :=
  if fails .inspect then .error (.deploymentError "bundle_invalid" "无法读取 package-owned runtime")
  else (validatedRuntimeMembers members).map fun _ => ()

/-- The archive at `output_path`, and whether a temporary file is left. -/
structure Disk where
  output : Option (List TarInfo)
  temporary : Bool
  deriving DecidableEq

/-- The inner `try`. -/
def writeOutput (fails : Io → Bool) (fuel : ℕ) (source byName : List TarInfo) (root : Text) (disk : Disk) :
    Except Failure Unit × Disk :=
  if fails .createTemporary then (.error .osError, disk)
  else
    match rewrite fails byName root fuel 0 source with
    | .error e => (.error e, { disk with temporary := true })
    | .ok members =>
      match inspectRuntime fails members with
      | .error e => (.error e, { disk with temporary := true })
      | .ok () =>
        if fails .replace then (.error .osError, { disk with temporary := true })
        else (if fails .syncDirectory then .error .osError else .ok (), ⟨some members, false⟩)

/-- Its `finally`. -/
def unlinkTemporary (fails : Io → Bool) (r : Except Failure Unit × Disk) : Except Failure Unit × Disk :=
  if fails .unlink then (.error .osError, r.2) else (r.1, { r.2 with temporary := false })

/-- The outer `except`. -/
def raised : Failure → Failure
  | .osError => .deploymentError "bundle_invalid" "无法规范化 package-owned runtime"
  | e => e

def normalizeRuntimeArchive (fails : Io → Bool) (fuel : ℕ) (source : List TarInfo) (disk : Disk) :
    Except Failure Unit × Disk :=
  if fails .openSource then (.error (raised .osError), disk)
  else
    match scan source with
    | .error e => (.error (raised e), disk)
    | .ok (byName, root) =>
      let r := unlinkTemporary fails (writeOutput fails fuel source byName root disk)
      (r.1.mapError raised, r.2)

end Conductor.Deployment.RuntimeArchive
