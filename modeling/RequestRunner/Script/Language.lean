import RequestRunner.Script.Evaluation

/-!
# The scripting language

`Language` is what the engine needs of a scripting language: a fresh context, and a way to run a
script in a context as an activity. A script has ended when its activity has: it leaves no work
behind that would be done between two scripts or after the last one. So promises are never continued,
and a failure that a promise keeps is dropped.

The engine is written for any language; `javaScript` is the one that handlers are written in.
-/

set_option autoImplicit false

namespace RequestRunner

/-- What a handler script sees besides the variables. -/
inductive Subject where
  /-- The request that is about to be sent. -/
  | request (r : RequestTemplate)
  /-- The response that arrived, written as JSON. -/
  | response (payload : String)

/-- The value of an evaluated script. -/
structure Evaluated where
  /-- The word for its kind. -/
  kind : String
  /-- The text it is substituted as. -/
  text : String
  deriving DecidableEq, Repr

/-- A scripting language whose scripts share contexts of type `C`. -/
structure Language (C : Type) where
  /-- The context in which no script has run. -/
  fresh : C
  /-- Runs a script that may see a subject. It fails with what the script fails with, or with what
  goes wrong while its subject is made. -/
  run : (source : String) → (selection : Selection) → Option Subject → C →
    Activity (Except Fault Unit × C)
  /-- Evaluates a script to a text. -/
  evaluate : (source : String) → (selection : Selection) → C →
    Activity (Except Fault Evaluated × C)

namespace Script

open Interp

/-- The global name of a subject. -/
def subjectName : Subject → String
  | .request _ => "request"
  | .response _ => "response"

/-- The object through which a script sees its request. It cannot be changed itself. -/
def requestObject (r : RequestTemplate) : Interp Value := do
  let texts (template : Option Template) (isTarget : Bool) : Interp Value := do
    let raw ← addNative (.raw template)
    let filled ← addNative (.filled template isTarget)
    addPlain [("getRaw", .value raw true), ("tryGetSubstituted", .value filled true)]
  let url ← texts (some r.target) true
  let body ← texts r.body false
  let all ← addNative (.allHeaders r.headers)
  let find ← addNative (.findHeader r.headers)
  let headers ← addPlain [("all", .value all true), ("findByName", .value find true)]
  let scope ←
    add ⟨.scope .request, [], some Machine.variablesPrototype, false⟩
  let get ← addNative .readEnvironment
  let environment ← addPlain [("get", .value get true)]
  add ⟨.plain, [("url", .value url true), ("body", .value body true),
    ("headers", .value headers true), ("variables", .value scope true),
    ("environment", .value environment true)], some Machine.objectPrototype, true⟩

/-- The call that reads a text as JSON. -/
def parseCall (payload : String) : Expr :=
  .call (.member (.name "JSON") "parse") [.text payload]

/-- The object through which a script sees its subject. A response is read inside of the context, by
what an earlier script may have put in the place of the reader there. -/
def subjectObject : Subject → Interp Value
  | .request r => requestObject r
  | .response payload => expression caller none (parseCall payload)

/-- Removes a global name. -/
def forget (name : String) (m : Machine) : Machine :=
  m.modifyObject Machine.globalObject fun o => { o with slots := Fields.erase name o.slots }

/-- The fault that a signal is outside of scripts. -/
def signalFault (limit : Float) : Signal → Interp Fault
  | .expired =>
    pure (.raised "Error" ("Script execution timed out after " ++ Decimal.text limit ++ "ms"))
  | .raised v => faultOf caller v

/-- The result of an evaluation outside of scripts. -/
def settle {α : Type} (limit : Float) (x : Interp α) (m : Machine) :
    Activity (Except Fault α × Machine) :=
  (x m).bind fun
    | (.ok a, m) => .done (.ok a, m)
    | (.error s, m) =>
      (signalFault limit s m).bind fun
        | (.ok f, m) => .done (.error f, m)
        | (.error _, m) => .done (.error (.conversion .object), m)

/-- A failure of a script at a selection. -/
def atSelection {α : Type} (selection : Selection) : Except Fault α → Except Fault α
  | .ok a => .ok a
  | .error f => .error (.script selection f)

/-- Runs a script for its effects. -/
def runSource (limit : Float) (source : String) (selection : Selection) (m : Machine) :
    Activity (Except Fault Unit × Machine) :=
  (settle limit (do let _ ← runProgram caller source) m).bind fun (r, m) =>
    .done (atSelection selection r, m)

/-- Runs a script, with the object of its subject under its global name as long as it runs. If there
is no such object, the script does not run, and what went wrong is no failure of the script. -/
def runTask (limit : Float) (source : String) (selection : Selection) :
    Option Subject → Machine → Activity (Except Fault Unit × Machine)
  | none, m => runSource limit source selection m
  | some subject, m =>
    (settle limit (subjectObject subject) m).bind fun
      | (.error f, m) => .done (.error f, m)
      | (.ok v, m) =>
        let name := subjectName subject
        let seen := m.putSlot Machine.globalObject name (.value v true)
        (runSource limit source selection seen).bind fun (r, m) => .done (r, forget name m)

/-- Evaluates a script. What goes wrong while its value is made into a text is no failure of the
script. -/
def evaluateTask (limit : Float) (source : String) (selection : Selection) (m : Machine) :
    Activity (Except Fault Evaluated × Machine) :=
  (settle limit (runProgram caller source) m).bind fun
    | (.error f, m) => .done (.error (.script selection f), m)
    | (.ok v, m) =>
      settle limit (do
        let kind ← kindOf v
        let text ← substituted caller v
        pure ⟨kind, text⟩) m

/-- The time limit of a script when none is asked for: thirty seconds. -/
def defaultLimit : Float := 30000

end Script

/-- The language of handler scripts, with a time limit for each script in milliseconds. -/
def javaScript (limit : Float) : Language Script.Machine where
  fresh := Script.Machine.fresh
  run := Script.runTask limit
  evaluate := Script.evaluateTask limit

end RequestRunner
