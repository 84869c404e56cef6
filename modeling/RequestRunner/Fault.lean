import RequestRunner.Document.Reader
import RequestRunner.Datum
import RequestRunner.Generator.Basic
import RequestRunner.Store

/-!
# Faults

Everything that can go wrong in a run, by its cause. A fault that arose while something was being
done keeps the fault underneath. `Fault.message` is the one place where faults get their wording,
and `Fault.kind` the word they are announced with.
-/

set_option autoImplicit false

namespace RequestRunner

/-- What is wrong with the way the program was set up. -/
inductive Misconfiguration where
  /-- No file to run. -/
  | noFiles
  /-- No request to run. -/
  | choice (e : Document.ChoiceError)
  /-- An environment defines the name of the scripting object. -/
  | reservedName
  /-- A format directive that does not exist. -/
  | unknownDirective (c : Char)
  /-- A format that ends inside a directive. -/
  | danglingDirective (format : String)
  /-- An output kind that does not exist. -/
  | unknownOutput (kind : String)
  /-- A timeout that is no positive whole number. -/
  | invalidTimeout (value : String)
  /-- A document that should be a map. -/
  | notAMap (description : String)

/-- The wording of a wrong setup. -/
def Misconfiguration.message : Misconfiguration → String
  | noFiles => "No request files given"
  | choice e => e.message
  | reservedName => "Can't register environment value with the name `client`"
  | unknownDirective c => "Invalid formatting character '" ++ c.toString ++ "'"
  | danglingDirective format => "Format \"" ++ format ++ "\" ends with a lone '%'"
  | unknownOutput kind => "Unknown output format \"" ++ kind ++ "\", expected standard or ci"
  | invalidTimeout value =>
    "Invalid timeout \"" ++ value ++ "\", expected a positive number of milliseconds"
  | notAMap description => "Expected " ++ description ++ " to be a map"

/-- A file that could not be used. -/
inductive Unusable where
  /-- A request file that cannot be read. -/
  | script (path : String)
  /-- An environment or snapshot file that cannot be read or is malformed. -/
  | document (description path : String)
  deriving DecidableEq

/-- The wording of what could not be used. -/
def Unusable.message : Unusable → String
  | script path => "Failed opening script file: `" ++ path ++ "`"
  | document description path => "Failed to read " ++ description ++ " " ++ path

/-- A failed test of a run. -/
structure TestFailure where
  /-- The request the test belongs to. -/
  request : String
  /-- The name of the test. -/
  test : String
  /-- Why it failed. -/
  reason : String
  deriving DecidableEq, Repr

/-- Why a script-facing call refuses its arguments, or what an assertion says. -/
inductive ClientError where
  /-- The name of a test is no text. -/
  | testName
  /-- The callback of a test is no function. -/
  | testCallback
  /-- The condition of an assertion is no truth value. -/
  | assertCondition
  /-- An assertion does not hold. -/
  | assertionFailed (text : String)
  deriving DecidableEq

/-- The wording of a refused call. -/
def ClientError.message : ClientError → String
  | testName => "Expected test name to be a string"
  | testCallback => "Expected test callback to be a function"
  | assertCondition => "Expected to get assert condition"
  | assertionFailed text => "Assertion failed: " ++ text

/-- A fault. -/
inductive Fault where
  /-- A source is no document. -/
  | malformed (e : ParseError)
  /-- The program is set up wrongly. -/
  | configuration (e : Misconfiguration)
  /-- A file could not be used. -/
  | unusable (file : Unusable) (cause : Fault)
  /-- A script failed. -/
  | script (selection : Selection) (cause : Fault)
  /-- A request was not answered. -/
  | transport (message : String) (cause : Option Fault)
  /-- Tests failed. -/
  | testsFailed (failures : List TestFailure)
  /-- Something failed while something else was being done. -/
  | during (activity : String) (cause : Fault)
  /-- A generator refused its arguments. -/
  | generator (e : GeneratorError)
  /-- A script-facing call refused its arguments. -/
  | client (e : ClientError)
  /-- A store refused a change. -/
  | store (e : StoreError)
  /-- A value has no text. -/
  | conversion (e : TextError)
  /-- Anything else that was raised: the word for its kind and its text. -/
  | raised (kind message : String)

namespace Fault

/-- The wording. -/
def message : Fault → String
  | malformed e => e.message
  | configuration e => e.message
  | unusable file cause => file.message ++ ": " ++ cause.message
  | script _ cause => "Error executing script: " ++ cause.message
  | transport text _ => text
  | testsFailed failures => "failed tests " ++ String.intercalate ", " (failures.map (·.test))
  | during activity cause => activity ++ ": " ++ cause.message
  | generator e => e.message
  | client e => e.message
  | store e => e.message
  | conversion e => e.message
  | raised _ text => text

/-- The word that announces a fault. -/
def kind : Fault → String
  | malformed _ => "ParseError"
  | configuration _ => "ConfigurationError"
  | unusable _ _ => "ConfigurationError"
  | script _ _ => "ScriptError"
  | transport _ _ => "TransportError"
  | testsFailed _ => "TestFailuresError"
  | during _ _ => "HttpScriptError"
  | generator e => e.kind
  | client (.assertionFailed _) => "Error"
  | client _ => "TypeError"
  | store _ => "TypeError"
  | conversion _ => "TypeError"
  | raised kind _ => kind

/-- The fault underneath. -/
def cause? : Fault → Option Fault
  | unusable _ cause => some cause
  | script _ cause => some cause
  | transport _ cause => cause
  | during _ cause => some cause
  | _ => none

end Fault

/-- Does something under a name: a failure is reported as a failure of that activity. -/
def during {α : Type} (activity : String) : Except Fault α → Except Fault α
  | .ok a => .ok a
  | .error fault => .error (.during activity fault)

end RequestRunner
