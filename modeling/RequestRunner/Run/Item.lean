import RequestRunner.Fault
import RequestRunner.Log
import RequestRunner.Message

/-!
# What a run works on and works with

A run works on items: the sections that were chosen from the files, each with its place in its file.
It works with collaborators: something that runs scripts and holds variables, something that sends
requests, something that prints, and something that keeps the variables for the next run. What they
do may have effects of any kind `m`, and much of it may fail.
-/

set_option autoImplicit false

namespace RequestRunner

/-- One section to run. -/
structure RunItem where
  /-- The file, as it was asked for. -/
  file : String
  /-- The place among the sections of the file, from zero. -/
  index : Nat
  /-- The section. -/
  part : RequestSection

namespace RunItem

/-- The name of the section, or its number if it has none. -/
def sectionName (item : RunItem) : String :=
  item.part.name.getD s!"#{item.index + 1}"

/-- The name under which the item is reported: its file and its section. -/
def name (item : RunItem) : String := item.file ++ " / " ++ item.sectionName

end RunItem

/-- The items of the chosen sections of a file. -/
def RunItem.ofChosen (file : String) (chosen : List (Nat × RequestSection)) : List RunItem :=
  chosen.map fun (index, part) => ⟨file, index, part⟩

/-- Something that may fail, with effects of the kind `m`. -/
abbrev Attempt (m : Type → Type) (α : Type) := ExceptT Fault m α

/-- Attempts something under a name: a failure is reported as a failure of that activity. -/
def attempt {m : Type → Type} [Monad m] {α : Type} (activity : String) (x : Attempt m α) :
    Attempt m α :=
  ExceptT.mk do
    let result ← x.run
    pure (during activity result)

/-- What a run works with. -/
structure Collaborators (m : Type → Type) where
  /-- The items of the run, in order. -/
  items : Attempt m (List RunItem)
  /-- Sets a variable of the current request. -/
  define : (name value : String) → Attempt m Unit
  /-- The text for a placeholder. -/
  resolve : (name : String) → Attempt m String
  /-- Runs the handler of a request that is about to be sent. -/
  preHandle : Handler → RequestTemplate → Attempt m Unit
  /-- Runs the handler of a response. -/
  handle : Handler → Response → Attempt m Unit
  /-- The tests that were recorded for the current request. -/
  report : m Report
  /-- Forgets the current request. -/
  reset : m Unit
  /-- The variables to be kept for the next run. -/
  snapshot : m VariableMap
  /-- Sends a request and waits for its response. -/
  send : Request → Attempt m Response
  /-- Prints a request under its name. -/
  printRequest : Request → (name : String) → Attempt m Unit
  /-- Prints a response with the tests of its request. -/
  printResponse : Response → Report → Attempt m Unit
  /-- Prints the results of the whole run. -/
  printTests : List RequestResult → m Unit
  /-- Keeps variables for the next run. -/
  save : VariableMap → Attempt m Unit
  /-- Adds an entry to the log. -/
  log : LogEntry → m Unit

end RequestRunner
