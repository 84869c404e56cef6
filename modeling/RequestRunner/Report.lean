import RequestRunner.Json.Value
import RequestRunner.Text.Units

/-!
# Test reports

A report holds the outcome of every test by name; recording a name again replaces its outcome.
Reports are listed in the order of the names by their 16-bit units.

Main statements: a recorded outcome is found and other names keep theirs (`get?_record_self`,
`get?_record_of_ne`), and the listing is a rearrangement of what was recorded (`all_perm`).
-/

set_option autoImplicit false

namespace RequestRunner

/-- How a test ended. -/
inductive TestOutcome where
  /-- It passed. -/
  | success
  /-- It failed, for a reason. -/
  | failure (reason : String)
  deriving DecidableEq, Repr

/-- The outcomes of tests by name, in order of their first recording. -/
structure Report where
  /-- Names and outcomes; no name stands twice. -/
  entries : List (String × TestOutcome)
  deriving DecidableEq, Repr, Inhabited

namespace Report

/-- The report of no test. -/
def empty : Report := ⟨[]⟩

/-- Sets the outcome of a name in a list of entries. -/
def put (name : String) (outcome : TestOutcome) :
    List (String × TestOutcome) → List (String × TestOutcome)
  | [] => [(name, outcome)]
  | (key, old) :: rest =>
    if key = name then (name, outcome) :: rest else (key, old) :: put name outcome rest

/-- Records an outcome. -/
def record (r : Report) (name : String) (outcome : TestOutcome) : Report :=
  ⟨put name outcome r.entries⟩

/-- The outcome of a name. -/
def get? (r : Report) (name : String) : Option TestOutcome := Fields.get? name r.entries

/-- Nothing was recorded. -/
def isEmpty (r : Report) : Bool := r.entries.isEmpty

/-- Every outcome in the order of the names. -/
def all (r : Report) : List (String × TestOutcome) :=
  r.entries.mergeSort fun a b => !Text.precedes b.1 a.1

/-- The failed tests with their reasons, in the order of the names. -/
def failed (r : Report) : List (String × String) :=
  r.all.filterMap fun (name, outcome) =>
    match outcome with
    | .success => none
    | .failure reason => some (name, reason)

/-- An outcome as JSON. -/
def outcomeJson : TestOutcome → Json
  | .success => .object [("result", .text "success")]
  | .failure reason => .object [("result", .text "error"), ("error", .text reason)]

/-- The report as JSON: an object with a field for every test. -/
def toJson (r : Report) : Json :=
  .object (Fields.ofEntries (r.all.map fun (name, outcome) => (name, outcomeJson outcome)))

/-- The listing of a report, a line for every test. -/
def describe (r : Report) : String :=
  String.join (r.all.map fun (name, outcome) =>
    match outcome with
    | .success => "Test `" ++ name ++ "`: OK\n"
    | .failure reason => "Test `" ++ name ++ "`: FAILED with " ++ reason ++ "\n")

/-- **A recorded outcome is found.** -/
@[simp] theorem get?_record_self (r : Report) (name : String) (outcome : TestOutcome) :
    (r.record name outcome).get? name = some outcome := by
  obtain ⟨entries⟩ := r
  simp only [record, get?]
  induction entries with
  | nil => simp [put, Fields.get?]
  | cons entry rest ih =>
    obtain ⟨key, old⟩ := entry
    by_cases h : key = name <;> simp [put, Fields.get?, h, ih]

/-- **Recording a name leaves the others alone.** -/
theorem get?_record_of_ne (r : Report) {name other : String} (outcome : TestOutcome)
    (h : other ≠ name) : (r.record name outcome).get? other = r.get? other := by
  obtain ⟨entries⟩ := r
  simp only [record, get?]
  induction entries with
  | nil => simp [put, Fields.get?, Ne.symm h]
  | cons entry rest ih =>
    obtain ⟨key, old⟩ := entry
    by_cases hk : key = name
    · subst hk
      simp [put, Fields.get?, Ne.symm h]
    · by_cases ho : key = other
      · subst ho
        simp [put, Fields.get?, hk]
      · simp [put, Fields.get?, hk, ho, ih]

/-- **The listing is a rearrangement of what was recorded.** -/
theorem all_perm (r : Report) : r.all.Perm r.entries := List.mergeSort_perm _ _

end Report

end RequestRunner
