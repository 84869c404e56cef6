import RequestRunner.Json.Reader
import RequestRunner.Message
import RequestRunner.Script.Language
import RequestRunner.Text.Lowercase

/-!
# The script engine

The engine runs the scripts of a run, one request after the other. It holds the variables, the
recorded tests and the context that scripts share; between two requests it is reset, which keeps the
persisted variables alone.

Main statements: a reset forgets the request variables and the recorded tests
(`reset_request`, `reset_report`), nothing changes the environment (`act_environment`), and a new
engine refuses an environment that defines the scripting object's name
(`new_eq_reserved_iff`).
-/

set_option autoImplicit false

namespace RequestRunner

/-- An engine for a language with contexts of type `C`. -/
structure Engine (C : Type) where
  /-- What scripts act on. -/
  host : Host
  /-- What scripts share. -/
  context : C

/-- What an engine does: it may fail, and it changes the engine even then. -/
abbrev EngineAction (C : Type) (α : Type) := ExceptT Fault (StateM (Engine C)) α

/-- The kind of a response's content. -/
structure ContentType where
  /-- The media type. -/
  mimeType : String
  /-- The character set, if it is given. -/
  charset : Option String
  deriving DecidableEq, Repr

/-- The content type in the header of that name. -/
def Response.contentType? (r : Response) : Option ContentType :=
  match r.headers.find? fun (name, _) => Text.lower name == "content-type" with
  | none => none
  | some (_, value) =>
    let parts := (Text.splitOn ';' value.toList).map fun part =>
      String.ofList (Text.trim part)
    let charset := parts.tail.find? fun part =>
      Text.startsWith "charset=".toList (Text.lower part).toList
    some ⟨parts.headD "", charset.map fun part => String.ofList (part.toList.drop 8)⟩

/-- The response as scripts see it: a body that is a JSON object is given as that object. -/
def Response.toJson (r : Response) : Json :=
  let body := match r.body with
    | none => .null
    | some text =>
      match Json.readObject? text with
      | some fields => .object fields
      | none => .text text
  let contentType := match r.contentType? with
    | none => .null
    | some c => .object [("mimeType", .text c.mimeType),
        ("charset", (c.charset.map Json.text).getD .null)]
  Json.copy <| .object [("status", .number r.status),
    ("headers", .object (Fields.ofEntries (r.headers.map fun (n, v) => (n, Json.text v)))),
    ("body", body), ("contentType", contentType)]

namespace Engine

variable {C : Type}

/-- The engine at the start of a run, with the variables of earlier runs and the environment. -/
def new (language : Language C) (initial environment : VariableMap) (now : Int)
    (entropy : Entropy) : Except Misconfiguration (Engine C) :=
  if Fields.has "client" environment then .error .reservedName
  else
    .ok ⟨⟨Store.ofMap initial false, Store.empty, Store.ofMap environment true, Report.empty, [],
      now, entropy⟩, language.fresh⟩

/-- Does what an activity of the language does. -/
def act {α : Type} (activity : C → Activity (Except Fault α × C)) : EngineAction C α :=
  fun engine =>
    let ((result, context), host) := (activity engine.context).run engine.host
    (result, ⟨host, context⟩)

/-- Sets a request variable to a text. -/
def define (name value : String) : EngineAction C Unit :=
  fun engine =>
    (.ok (), { engine with
      host := engine.host.effect (.write .request (some name) (some (.text value))) })

/-- The text for a placeholder: that of an expression's value, or that of the variable found
first. -/
def resolve (language : Language C) (name : String) : EngineAction C String :=
  if Script.isExpression name then do
    let result ← act (language.evaluate name Selection.none)
    pure result.text
  else fun engine =>
    (.ok (((engine.host.lookup name).map Json.stringify).getD (unresolved name)), engine)

/-- Runs a script that is no handler, for its value. -/
def execute (language : Language C) (source : String) (selection : Selection) :
    EngineAction C Evaluated :=
  act (language.evaluate source selection)

/-- Runs the handler of a request that is about to be sent. -/
def preHandle (language : Language C) (handler : Handler) (request : RequestTemplate) :
    EngineAction C Unit :=
  act (language.run handler.script handler.selection (some (.request request)))

/-- Runs the handler of a response, which is handed over as a text. -/
def handle (language : Language C) (handler : Handler) (response : Response) :
    EngineAction C Unit :=
  act (language.run handler.script handler.selection (some (.response response.toJson.compact)))

/-- The recorded tests. -/
def report (engine : Engine C) : Report := engine.host.report

/-- The persisted variables as a map. -/
def snapshot (engine : Engine C) : VariableMap := engine.host.persisted.toMap

/-- Forgets everything but the persisted variables and the environment. -/
def reset (language : Language C) (engine : Engine C) : Engine C :=
  { host := { engine.host with
      persisted := Store.ofMap engine.snapshot false
      request := Store.empty
      report := Report.empty }
    context := language.fresh }

/-- Takes the logged lines out of the engine. -/
def drain (engine : Engine C) : List String × Engine C :=
  (engine.host.printed, { engine with host := { engine.host with printed := [] } })

/-- **A reset forgets the request variables.** -/
theorem reset_request (language : Language C) (engine : Engine C) :
    (engine.reset language).host.request = Store.empty := rfl

/-- **A reset forgets the recorded tests.** -/
theorem reset_report (language : Language C) (engine : Engine C) :
    (engine.reset language).report = Report.empty := rfl

/-- **No script changes the environment.** -/
theorem act_environment {α : Type} (activity : C → Activity (Except Fault α × C))
    (engine : Engine C) :
    (act activity engine).2.host.environment = engine.host.environment :=
  Activity.run_environment _ _

/-- **Exactly an environment that defines the scripting object's name is refused.** -/
theorem new_eq_reserved_iff (language : Language C) (initial environment : VariableMap) (now : Int)
    (entropy : Entropy) :
    new language initial environment now entropy = .error .reservedName ↔
      Fields.has "client" environment = true := by
  unfold new
  split <;> simp_all

/-- What an engine is at the start. -/
theorem new_inv {language : Language C} {initial environment : VariableMap} {now : Int}
    {entropy : Entropy} {engine : Engine C}
    (h : new language initial environment now entropy = .ok engine) :
    Fields.has "client" environment = false ∧
      engine = ⟨⟨Store.ofMap initial false, Store.empty, Store.ofMap environment true,
        Report.empty, [], now, entropy⟩, language.fresh⟩ := by
  rw [new] at h
  split at h
  · cases h
  · next hopen =>
    cases h
    exact ⟨Bool.eq_false_iff.2 hopen, rfl⟩

end Engine

end RequestRunner
