import RequestRunner.Environment.Choice
import RequestRunner.Files
import RequestRunner.Run.Item

/-!
# Where the variables of a run come from and go to

A run starts from the variables of an environment over those of the last snapshot, and at its end its
own snapshot is kept. With files, the environment lies in a file that is only read, and the snapshot
in one that is written; a file that is not there counts as an empty map. A fixed environment keeps
its snapshot to itself.

Main statement: what a fixed environment gives out does not depend on what was saved
(`FixedEnvironment.snapshot_save`).
-/

set_option autoImplicit false

namespace RequestRunner

/-- The files of an environment, and its name. -/
structure EnvironmentFiles where
  /-- The name of the environment. -/
  name : String
  /-- The file of the environments. -/
  path : String
  /-- The file of the snapshot. -/
  snapshotPath : String

namespace EnvironmentFiles

variable {m : Type → Type} [Monad m]

/-- Reads the value of a document. -/
def readValue (yaml : YamlReader) (disk : Disk m) (log : LogEntry → m Unit)
    (description path : String) : Attempt m Datum := do
  let unusable (cause : Fault) : Fault := .unusable (.document description path) cause
  match ← disk.read path with
  | .ok content =>
    match Environment.valueOf yaml content with
    | .ok value => pure value
    | .error cause => throw (unusable cause)
  | .error e =>
    if e.isAbsent then
      log (.debug ("No " ++ description ++ " at " ++ path ++ ", starting empty"))
      pure (.object [])
    else throw (unusable (.raised "Error" e.message))

/-- What a setup allows, or its fault. -/
def allowed {α : Type} : Except Misconfiguration α → Attempt m α
  | .ok a => pure a
  | .error e => throw (.configuration e)

/-- The variables that a run starts from. -/
def load (files : EnvironmentFiles) (yaml : YamlReader) (disk : Disk m)
    (log : LogEntry → m Unit) : Attempt m VariableMap := do
  let value ← readValue yaml disk log "environment file" files.path
  let catalog ← allowed (Environment.Catalog.ofValue "environment file" value)
  let selected := catalog.select files.name
  match selected with
  | .undefined => log (.debug ("Environment \"" ++ files.name ++ "\" not found in " ++ files.path))
  | _ => pure ()
  let environment ← allowed (Environment.selectedVariables files.name selected)
  let value ← readValue yaml disk log "snapshot file" files.snapshotPath
  let snapshot ← allowed (Environment.variablesOf "snapshot file" value)
  pure (Environment.merge snapshot environment)

/-- The text of a saved snapshot. -/
def snapshotText (snapshot : VariableMap) : String := (Json.object snapshot).pretty ++ "\n"

/-- Does something with files, or fails as they do. -/
def demand {α : Type} (x : m (Except FileError α)) : Attempt m α := do
  match ← x with
  | .ok a => pure a
  | .error e => throw (.raised "Error" e.message)

/-- Saves a snapshot, in a directory that is made if it is not there. -/
def save (files : EnvironmentFiles) (disk : Disk m) (log : LogEntry → m Unit)
    (snapshot : VariableMap) : Attempt m Unit := do
  let directory := directoryOf files.snapshotPath
  if !(← disk.isPresent directory) then demand (disk.makeDirectories directory)
  demand (disk.write files.snapshotPath (snapshotText snapshot))
  log (.debug ("Snapshot saved to " ++ files.snapshotPath))

end EnvironmentFiles

/-- An environment that is given as a value. -/
structure FixedEnvironment where
  /-- The value. -/
  value : Datum
  /-- What was saved last. -/
  saved : Option VariableMap

namespace FixedEnvironment

/-- The variables that a run starts from. -/
def snapshot (environment : FixedEnvironment) : Except Misconfiguration VariableMap :=
  Environment.variablesOf "environment" environment.value

/-- Keeps a snapshot. -/
def save (environment : FixedEnvironment) (value : Datum) :
    Except Misconfiguration FixedEnvironment :=
  (Environment.variablesOf "snapshot" value).map fun saved =>
    { environment with saved := some saved }

/-- **What is given out does not depend on what was saved.** -/
theorem snapshot_save {environment changed : FixedEnvironment} {value : Datum}
    (h : environment.save value = .ok changed) : changed.snapshot = environment.snapshot := by
  unfold save at h
  cases hv : Environment.variablesOf "snapshot" value with
  | error e => exact absurd h (by simp [hv, Except.map])
  | ok saved =>
    rw [hv] at h
    simp only [Except.map] at h
    injection h with h
    subst h
    rfl

end FixedEnvironment

end RequestRunner
