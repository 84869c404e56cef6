import RequestRunner.Fault
import RequestRunner.Report

/-!
# The scripting object

What scripts call to test and to assert. A test runs its callback at once and records how it ended;
what the callback raises is recorded by its description. An assertion needs a truth value, and raises
unless it holds.

The values of scripts are looked at through an `Evaluator` alone, in any monad. Nearly every question
to it may run a script: what a value has under a name may be computed, and so may the text of an
object. So a question that is asked twice may have two answers, and each of them may raise.
-/

set_option autoImplicit false

namespace RequestRunner

/-- What a value is, as far as the scripting object tells values apart. -/
inductive ValueKind where
  /-- A text. -/
  | text (s : String)
  /-- Anything else that is no object: nothing, a truth value, a number. -/
  | plain
  /-- A function. -/
  | function
  /-- Any other object. -/
  | object
  deriving DecidableEq

/-- The value is a function. -/
def ValueKind.isFunction : ValueKind → Bool
  | function => true
  | _ => false

/-- How an evaluation is left early. -/
inductive Stop (V : Type) where
  /-- A value was raised. -/
  | raised (v : V)
  /-- The time limit was reached; nothing inside a script stops it. -/
  | expired

/-- What can be done with the values of scripts. -/
structure Evaluator (m : Type → Type) (V : Type) where
  /-- The value that is nothing. -/
  undefined : V
  /-- What a value is. -/
  kind : V → m ValueKind
  /-- An object has something under a name. -/
  has : V → (name : String) → m Bool
  /-- What an object has under a name. -/
  get : V → (name : String) → m V
  /-- Calls a function on an object with arguments. -/
  call : (function self : V) → (arguments : List V) → m V
  /-- The text of a value. -/
  toText : V → m String
  /-- The text that a value stands for where no script can be asked. -/
  shown : V → String
  /-- A function that can be told of a failure. -/
  listener : m V
  /-- Goes on after a raised value; the time limit is not stopped. -/
  recover : m Unit → (V → m Unit) → m Unit

namespace Client

variable {m : Type → Type} [Monad m] {V : Type}

section Tests

variable (evaluator : Evaluator m V)

/-- The value promises a later result: an object that has a function to continue with. -/
def isThenable (v : V) : m Bool := do
  match ← evaluator.kind v with
  | .object =>
    if ← evaluator.has v "then" then
      let next ← evaluator.get v "then"
      let kind ← evaluator.kind next
      pure kind.isFunction
    else pure false
  | _ => pure false

/-- Asks for the later result, only to be told if it is a failure. -/
def awaitFailure (v : V) : m Unit := do
  let next ← evaluator.get v "then"
  let listener ← evaluator.listener
  let _ ← evaluator.call next v [evaluator.undefined, listener]
  pure ()

/-- The message that an object carries. It is looked up once for what it is, and once more if it is
a text. -/
def message? (v : V) : m (Option String) := do
  if ← evaluator.has v "message" then
    let found ← evaluator.get v "message"
    match ← evaluator.kind found with
    | .text _ => do
      let message ← evaluator.get v "message"
      pure (some (evaluator.shown message))
    | _ => pure none
  else pure none

/-- The description of a raised value: the message that an object carries, else its text. -/
def describe (v : V) : m String := do
  match ← evaluator.kind v with
  | .object => do
    match ← message? evaluator v with
    | some message => pure message
    | none => evaluator.toText v
  | _ => evaluator.toText v

/-- Runs the callback of a test, for the outcome: only one that returns at once passes. -/
def attempt (callback : V) : m TestOutcome := do
  let returned ← evaluator.call callback evaluator.undefined []
  if ← isThenable evaluator returned then
    awaitFailure evaluator returned
    pure (.failure "Test callback must be synchronous")
  else pure .success

/-- Runs a test: checks the name and the callback, runs the callback and records how it ended. -/
def test (record : String → TestOutcome → m Unit) (refuse : ClientError → m Unit)
    (name callback : V) : m Unit := do
  match ← evaluator.kind name with
  | .text name => do
    match ← evaluator.kind callback with
    | .function =>
      evaluator.recover
        (do
          let outcome ← attempt evaluator callback
          record name outcome)
        fun raised => do
          let description ← describe evaluator raised
          record name (.failure description)
    | _ => refuse .testCallback
  | _ => refuse .testName

end Tests

/-- Asserts a condition. The message is asked for only when the condition does not hold. -/
def assert (refuse : ClientError → m Unit) (condition : Option Bool)
    (message : m (Option String)) : m Unit :=
  match condition with
  | none => refuse .assertCondition
  | some true => pure ()
  | some false => do
    let text ← message
    refuse (.assertionFailed (text.getD "Assertion failed"))

/-- The line that is logged for values given as texts. -/
def logLine (texts : List String) : String := String.intercalate " " texts

end Client

end RequestRunner
