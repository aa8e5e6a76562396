import Conductor.Lib.Outcomes
import Conductor.Lib.Runs

/-! How a take is published: the end of `DeviceSessionRecorder.stop` with its failure handler, in
Python and in the native store, the end of `recover_device_session`, and what a restart does
with a partial directory (`CaptureCoordinator._recover_partial_directory`). A directory is its
named files. Every step on it may raise an `OSError` or be where the process stops. -/

namespace Conductor.Session.Publication

open Outcomes Prog Runs

/-- A file of the directory, or of its subdirectory `recovery`. -/
inductive Path where
  | top (name : String)
  | recovery (name : String)
  deriving DecidableEq

abbrev manifestPath : Path := .top "manifest.json"

abbrev capturePath : Path := .top "capture.json"

abbrev recordingPath : Path := .top "recording.json"

/-- What `recover_device_session` reads: everything but the manifest, the recording state and
its own output. -/
def Path.isInput : Path → Bool
  | .top name => name ≠ "manifest.json" ∧ name ≠ "recording.json"
  | .recovery _ => false

/-- The files that come and go while a take is published. -/
def controls : List Path :=
  [manifestPath, capturePath, recordingPath, .recovery "capture.json", .recovery "recording.json"]

/-- The files that `recover_device_session` cannot do without, besides the committed segments. -/
def journals : List String := ["capture.json", "segments.json", "frames.ndjson", "imu.ndjson"]

structure Artifact where
  path : Path
  bytes : ℕ

variable {Content : Type}

abbrev Files (Content : Type) := Path → Option Content

/-- The derived files of a recovery, under `recovery`, and its manifest. -/
structure Recovery (Content : Type) where
  outputs : List (String × Content)
  manifest : Content

/-- What the steps read in the contents. `artifacts` is the list of a valid manifest; `recovered`
is what `recover_device_session` makes of its inputs and of the recording state, where the
inputs have a valid prefix; `settled` is the recording state that `_settle_partial` writes, if
any. A file that was only created or partly written is no manifest. -/
structure Formats (Content : Type) where
  bytes : Content → ℕ
  artifacts : Content → Option (List Artifact)
  empty : Content
  torn : Content → Content
  recovered : Files Content → Option (Option Content → Recovery Content)
  settled : Content → Option Content → Option Content
  failed : Content
  empty_rejected : artifacts empty = none
  torn_rejected : ∀ c, artifacts (torn c) = none
  recovered_journals : ∀ files, (recovered files).isSome → ∀ name ∈ journals, files (.top name) ≠ none

/-- `published` says which of its two names the directory has. -/
structure Take (Content : Type) where
  published : Bool
  files : Files Content

namespace Take

def set (t : Take Content) (path : Path) (c : Option Content) : Take Content :=
  { t with files := Function.update t.files path c }

/-- The artifacts of a list are there, with their sizes. -/
def has (f : Formats Content) (t : Take Content) (artifacts : List Artifact) : Bool :=
  artifacts.all fun a => (t.files a.path).any fun c => f.bytes c = a.bytes

/-- `inspect_device_session_directory`. -/
def inspect (f : Formats Content) (t : Take Content) : Bool :=
  ((t.files manifestPath).bind f.artifacts).any (t.has f)

def inputs (t : Take Content) : Files Content := fun path => if path.isInput then t.files path else none

end Take

/-! ### Steps -/

/-- `sync` is an `fsync` of a file or a directory, `temporary` a step on a private temporary file,
`install` its `os.replace` to `path`; `publish` gives the directory its final name. `check` stands
for code between the steps that may raise, `mkdir` for the directory `recovery`. -/
inductive Op (Content : Type) where
  | check
  | validate (manifest : Content)
  | create (path : Path)
  | write (path : Path) (c : Content)
  | sync
  | temporary
  | mkdir
  | install (path : Path) (c : Content)
  | unlink (path : Path)
  | replace (source target : Path)
  | publish

/-- What a step does; nothing, where it raises. -/
def Op.apply (f : Formats Content) (t : Take Content) : Op Content → Option (Take Content)
  | .check => some t
  | .validate manifest => if (f.artifacts manifest).any (t.has f) then some t else none
  | .create path => if (t.files path).isSome then none else some (t.set path (some f.empty))
  | .write path c => some (t.set path (some c))
  | .sync => some t
  | .temporary => some t
  | .mkdir => some t
  | .install path c => some (t.set path (some c))
  | .unlink path => some (t.set path none)
  | .replace source target =>
    match t.files source with
    | none => none
    | some c => some ((t.set target (some c)).set source none)
  | .publish => if t.published then none else some { t with published := true }

/-- What a step that fails or is cut off leaves. -/
def Op.torn (f : Formats Content) (t : Take Content) : Op Content → Take Content
  | .write path c => t.set path (some (f.torn c))
  | _ => t

/-- The publications of `stop`, of `recover_device_session` and of `_recover_partial_directory`,
and everything else. -/
inductive Site where
  | stop
  | recover
  | restart
  | other
  deriving DecidableEq

/-- Which steps may raise, by the directory before the step, and whether the process may stop. -/
structure Faults (Content : Type) where
  raises : Site → Take Content → Bool
  stops : Bool

def noFaults : Faults Content := ⟨fun _ _ => false, false⟩

variable (f : Formats Content) (x : Faults Content)

def perform (site : Site) (op : Op Content) : Prog (Take Content) Unit := fun t =>
  (if x.stops then [(.stopped, op.torn f t)] else []) ++
    (if x.raises site t then [(.raised, op.torn f t)] else []) ++
    [match op.apply f t with
      | some t' => (.value (), t')
      | none => (.raised, t)]

/-- `write_json_atomic`. -/
def writeJsonAtomic (site : Site) (path : Path) (c : Content) : Prog (Take Content) Unit :=
  ensure
    (do
      perform f x site .temporary
      perform f x site .temporary
      perform f x site .sync
      perform f x site (.install path c)
      perform f x site .sync)
    (suppress (perform f x site .temporary))

/-! ### `DeviceSessionRecorder.stop` -/

/-- What `stop` publishes: a validated manifest of which no artifact is a control file or an
original that was compacted. -/
structure Sealing (f : Formats Content) where
  payload : Content
  originals : List Path
  artifacts : List Artifact
  valid : f.artifacts payload = some artifacts
  kept : ∀ a ∈ artifacts, a.path ∉ controls ∧ a.path ∉ originals
  manifest_kept : manifestPath ∉ originals

variable {f}

/-- From the new manifest to the rename: the same in Python and in the native store. -/
def sealDirectory (sealing : Sealing f) : Prog (Take Content) Unit := do
  perform f x .stop (.create manifestPath)
  perform f x .stop .check
  perform f x .stop (.validate sealing.payload)
  perform f x .stop (.write manifestPath sealing.payload)
  perform f x .stop .sync
  perform f x .stop .sync
  perform f x .stop (.unlink recordingPath)
  perform f x .stop (.unlink capturePath)
  perform f x .stop .sync
  perform f x .stop .publish

def unlinkOriginals (sealing : Sealing f) : Prog (Take Content) Unit :=
  sealing.originals.forM fun path => suppress (perform f x .stop (.unlink path))

/-- The native store syncs and validates before the originals go, Python after. -/
def publishStop (sealing : Sealing f) (native : Bool) : Prog (Take Content) Unit := do
  perform f x .stop (.validate sealing.payload)
  perform f x .stop .check
  sealDirectory x sealing
  if native then
    perform f x .stop .sync
    perform f x .stop (.validate sealing.payload)
    unlinkOriginals x sealing
  else
    unlinkOriginals x sealing
    perform f x .stop .sync
    perform f x .stop (.validate sealing.payload)

variable (f)

/-- `_mark_failed`, with the recording state that it persists. -/
def markFailed : Prog (Take Content) Unit := do
  let t ← get
  if t.published then pure ()
  else
    suppress (perform f x .other (.unlink manifestPath))
    suppress (writeJsonAtomic f x .other recordingPath f.failed)

/-- The `except` block of `stop`, but for its own error. -/
def stopHandler : Prog (Take Content) Unit := do
  let t ← get
  if t.published then pure ()
  else
    suppress (perform f x .other (.unlink manifestPath))
    markFailed f x

variable {f}

def stop (sealing : Sealing f) (native : Bool) : Prog (Take Content) Unit :=
  attempt (publishStop x sealing native) (stopHandler f x)

variable (f)

/-! ### `recover_device_session` -/

/-- A control file goes to the directory `recovery`, if it is there. -/
def archive (name : String) (steps : Prog (Take Content) Unit) : Prog (Take Content) Unit := do
  let t ← get
  if (t.files (.top name)).isSome then steps else pure ()

def recover : Prog (Take Content) Unit := do
  let t ← get
  if t.published then pure ()
  else
    match f.recovered t.inputs with
    | none => raise
    | some recovered =>
      let recovery := recovered (t.files recordingPath)
      perform f x .recover .mkdir
      recovery.outputs.forM fun (name, c) => writeJsonAtomic f x .recover (.recovery name) c
      writeJsonAtomic f x .recover manifestPath recovery.manifest
      let t ← get
      if t.inspect f then
        perform f x .recover .check
        archive "capture.json" (perform f x .recover (.replace capturePath (.recovery "capture.json")))
        archive "recording.json"
          (perform f x .recover (.replace recordingPath (.recovery "recording.json")))
        perform f x .recover .sync
        perform f x .recover .sync
        perform f x .recover .publish
        perform f x .recover .sync
        perform f x .recover .check
      else raise

/-- `DeviceSessionRecorder.fail`, from the point where everything is closed. -/
def fail (mediaLost : Bool) : Prog (Take Content) Unit := do
  markFailed f x
  if mediaLost then pure () else suppress (recover f x)

/-! ### `_recover_partial_directory` -/

/-- One pass of its loop over the control files. -/
def archiveRestart (name : String) : Prog (Take Content) Unit :=
  archive name do
    perform f x .restart .mkdir
    perform f x .restart .check
    perform f x .restart (.replace (.top name) (.recovery name))
    perform f x .restart .sync

/-- The `try` block: the manifest is there and the directory is published as it is. -/
def publishRestart : Prog (Take Content) Unit := do
  let t ← get
  if t.inspect f then
    archiveRestart f x "capture.json"
    archiveRestart f x "recording.json"
    perform f x .restart .sync
    perform f x .restart .publish
    perform f x .restart .sync
  else raise

/-- The `except` block. -/
def restartHandler : Prog (Take Content) Unit := do
  let t ← get
  if t.published then pure () else suppress (perform f x .other (.unlink manifestPath))

/-- `_settle_partial`. -/
def settlePartial : Prog (Take Content) Unit := do
  suppress (perform f x .other (.unlink manifestPath))
  let t ← get
  match (t.files recordingPath).bind fun c => f.settled c (t.files capturePath) with
  | none => pure ()
  | some c =>
    suppress do
      perform f x .other (.unlink manifestPath)
      writeJsonAtomic f x .other recordingPath c

/-- `_recover_partial_directory`, of the directory if it is a partial one. -/
def recoverPartialDirectory : Prog (Take Content) Unit := do
  let t ← get
  if t.published then pure ()
  else
    if (t.files manifestPath).isSome then attempt (publishRestart f x) (restartHandler f x) else pure ()
    let t ← get
    if t.published then pure ()
    else
      settlePartial f x
      suppress (recover f x)

/-! ### Runs -/

/-- The recorder is active until it stops, fails or dies with its process. -/
structure State (Content : Type) where
  take : Take Content
  active : Bool

inductive Event (f : Formats Content) where
  | stop (sealing : Sealing f) (native : Bool)
  | fail (mediaLost : Bool)
  | crash
  | restart

/-- All directories that an event may leave. -/
def Event.takes (t : Take Content) : Event f → List (Take Content)
  | .stop sealing native => (Publication.stop x sealing native t).map (·.2)
  | .fail mediaLost => (Publication.fail f x mediaLost t).map (·.2)
  | .crash => [t]
  | .restart => (recoverPartialDirectory f x t).map (·.2)

def Event.enabled (active : Bool) : Event f → Bool
  | .restart => !active
  | _ => active

/-- The outcome of the given number. -/
def step (s : State Content) : Event f × ℕ → Option (State Content)
  | (event, i) => if event.enabled f s.active then (event.takes f x s.take)[i]?.map (⟨·, false⟩) else none

end Conductor.Session.Publication
