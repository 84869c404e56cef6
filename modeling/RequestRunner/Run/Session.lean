import RequestRunner.Engine
import RequestRunner.Run.Outcome

/-!
# Sessions

A session is a run with the engine and a printer: it holds both and leaves to the outside only what
leaves the program. Lines that scripts log are passed on as soon as the script that logged them is
done, so that they stand in order with everything else that is written.

Main statement: a session starts with the variables of the environment as both its persisted
variables and its environment (`start_eq_ok`).
-/

set_option autoImplicit false

namespace RequestRunner

/-- The state of a session whose scripts share contexts of type `C`. -/
structure Session (C : Type) where
  /-- What runs the scripts. -/
  engine : Engine C
  /-- What prints. -/
  printer : Printer

/-- What a session needs of the outside. -/
structure Outside (m : Type → Type) where
  /-- Writes what is printed. -/
  write : Writing → m Unit
  /-- Adds an entry to the log. -/
  log : LogEntry → m Unit
  /-- Sends a request and waits for its response. -/
  send : Request → Attempt m Response
  /-- Keeps variables for the next run. -/
  save : VariableMap → Attempt m Unit

namespace Session

variable {C : Type} {m : Type → Type} [Monad m]

/-- The session at the start of a run. What is known from earlier runs and what the environment
defines has been merged into one map, which serves as both. -/
def start (language : Language C) (known : VariableMap) (kind : PrinterKind) (now : Int)
    (entropy : Entropy) : Except Misconfiguration (Session C) :=
  (Engine.new language known known now entropy).map fun engine => ⟨engine, Printer.new kind⟩

/-- Performs effects one after the other. -/
def each {α : Type} (effect : α → m Unit) : List α → m Unit
  | [] => pure ()
  | a :: rest => do
    effect a
    each effect rest

/-- Lets the engine act, and passes on what was logged. -/
def act {α : Type} (outside : Outside m) (action : EngineAction C α) :
    Attempt (StateT (Session C) m) α :=
  ExceptT.mk fun session => do
    let (result, engine) := action.run session.engine
    let (lines, engine) := engine.drain
    each (fun line => outside.log (.script line)) lines
    pure (result, { session with engine := engine })

/-- Attempts something outside. -/
def reach {α : Type} (x : Attempt m α) : Attempt (StateT (Session C) m) α :=
  ExceptT.mk fun session => do
    let result ← x.run
    pure (result, session)

/-- Lets the printer print. -/
def print (outside : Outside m) (f : Printer → Printer × List Writing) :
    StateT (Session C) m Unit :=
  fun session => do
    let (printer, writings) := f session.printer
    each outside.write writings
    pure ((), { session with printer := printer })

/-- The collaborators of a run in a session. -/
def crew (language : Language C) (outside : Outside m) (items : Except Fault (List RunItem)) :
    Collaborators (StateT (Session C) m) where
  items := ExceptT.mk (pure items)
  define name value := act outside (Engine.define name value)
  resolve name := act outside (Engine.resolve language name)
  preHandle handler request := act outside (Engine.preHandle language handler request)
  handle handler response := act outside (Engine.handle language handler response)
  report := fun session => pure (session.engine.report, session)
  reset := fun session => pure ((), { session with engine := session.engine.reset language })
  snapshot := fun session => pure (session.engine.snapshot, session)
  send request := reach (outside.send request)
  printRequest request name :=
    ExceptT.lift (print outside fun printer => (printer, printer.request request name))
  printResponse response report :=
    ExceptT.lift (print outside fun printer => printer.response response report)
  printTests results := print outside fun printer => printer.tests results
  save snapshot := reach (outside.save snapshot)
  log entry := fun session => do
    outside.log entry
    pure ((), session)

/-- **A session starts with one map as its persisted variables and as its environment.** -/
theorem start_eq_ok {language : Language C} {known : VariableMap} {kind : PrinterKind} {now : Int}
    {entropy : Entropy} {session : Session C}
    (h : start language known kind now entropy = .ok session) :
    session.engine.host.persisted = Store.ofMap known false ∧
      session.engine.host.environment = Store.ofMap known true := by
  unfold start Engine.new at h
  split at h
  · exact absurd h (by simp [Except.map])
  · simp only [Except.map] at h
    injection h with h
    subst h
    exact ⟨rfl, rfl⟩

end Session

end RequestRunner
