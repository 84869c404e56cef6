import RequestRunner.Run.Stages

/-!
# The outcome of a run

A run takes its items through their stages, one after the other, and forgets each request before the
next. On the way it gathers the results and the failed tests. Whatever happens, the variables are
saved once at the end. A run that could not go on ends with the fault that stopped it; one that came
to its end prints its results, and fails if it gathered a failed test.

Main statement: what an item adds to the failures stands under its name, one for each failed test
(`Progress.failures_add`).
-/

set_option autoImplicit false

namespace RequestRunner

/-- What a run has gathered on its way. -/
structure Progress where
  /-- The results of the requests that completed, in order. -/
  results : List RequestResult
  /-- The failed tests, in order. -/
  failures : List TestFailure

namespace Progress

/-- Nothing is gathered yet. -/
def start : Progress := ⟨[], []⟩

/-- Adds the report of an item that completed. -/
def add (progress : Progress) (item : RunItem) (report : Report) : Progress where
  results := progress.results ++ [⟨item.file, item.sectionName, report⟩]
  failures := progress.failures ++ report.failed.map fun (test, reason) =>
    ⟨item.name, test, reason⟩

/-- **A run gathers a failure for each failed test, under the name of its item.** -/
theorem failures_add (progress : Progress) (item : RunItem) (report : Report) :
    (progress.add item report).failures =
      progress.failures ++ report.failed.map fun (test, reason) => ⟨item.name, test, reason⟩ :=
  rfl

end Progress

namespace Run

variable {m : Type → Type} [Monad m]

/-- What is logged of an item that came through. -/
def completion (item : RunItem) (report : Report) : LogEntry :=
  .debug ("✅ " ++ item.name ++ ": " ++ toString report.all.length ++ " tests, " ++
    toString report.failed.length ++ " failed")

/-- Runs one item, adds its report and forgets its request. -/
def runItem (crew : Collaborators m) (progress : Progress) (item : RunItem) :
    Attempt m Progress := do
  crew.log (.debug ("▶️  " ++ item.name))
  let report ← item.execute crew
  let progress := progress.add item report
  crew.log (completion item report)
  crew.reset
  pure progress

/-- Runs items in order up to the first that fails. -/
def runItems (crew : Collaborators m) (progress : Progress) : List RunItem → Attempt m Progress
  | [] => pure progress
  | item :: rest => do
    let progress ← runItem crew progress item
    runItems crew progress rest

/-- Runs all items of the run. -/
def gather (crew : Collaborators m) : Attempt m Progress := do
  let items ← crew.items
  runItems crew .start items

/-- Saves the variables as they are. -/
def saveSnapshot (crew : Collaborators m) : Attempt m Unit := do
  let snapshot ← crew.snapshot
  crew.save snapshot

/-- Saves the variables of a run that could not go on. That the saving failed is no more than worth a
warning then. -/
def rescue (crew : Collaborators m) : m Unit := do
  match ← (saveSnapshot crew).run with
  | .ok () => pure ()
  | .error fault => crew.log (.warn ("Could not save snapshot: " ++ fault.message))

/-- Ends a run that came through: saves the variables, prints the results and fails if a test
failed. -/
def finish (crew : Collaborators m) (progress : Progress) : Attempt m (List RequestResult) := do
  attempt "Error writing snapshot" (saveSnapshot crew)
  crew.printTests progress.results
  match progress.failures with
  | [] => pure progress.results
  | failed => throw (.testsFailed failed)

/-- A whole run. -/
def execute (crew : Collaborators m) : Attempt m (List RequestResult) :=
  ExceptT.mk do
    match ← (gather crew).run with
    | .ok progress => (finish crew progress).run
    | .error fault => do
      rescue crew
      pure (.error fault)

end Run

end RequestRunner
