import RequestRunner.Generator.Entropy
import RequestRunner.Report
import RequestRunner.Store

/-!
# Scripts and their host

A script sees the rest of the program only through calls to its host: it reads and changes variables,
records tests, logs lines and draws generated values. `HostCall` lists the calls, `Activity` is a
computation that makes some of them and ends with a result, and `Host.effect` is what a call does to
the host.

Whatever a script is written in, what it does to the variables is its calls; so a law about all
scripts is an induction over activities. Main statements: running an activity is the run of its calls
one after the other (`run_bind`), and no call changes the environment (`effect_environment`).
-/

set_option autoImplicit false

namespace RequestRunner

/-- The two stores that scripts can change. -/
inductive Scope where
  /-- Variables that last beyond a request. -/
  | persisted
  /-- Variables of the current request. -/
  | request
  deriving DecidableEq, Repr

/-- A call of a script to its host. -/
inductive HostCall where
  /-- Reads a variable; a persisted one that is absent is looked up in the environment. -/
  | read (scope : Scope) (name : Option String)
  /-- Sets a variable to a copy of a value. -/
  | write (scope : Scope) (name : Option String) (value : Option Json)
  /-- Removes a variable. -/
  | clear (scope : Scope) (name : Option String)
  /-- Removes every variable. -/
  | clearAll (scope : Scope)
  /-- Asks whether there is no variable. -/
  | isEmpty (scope : Scope)
  /-- Lists the variables of a scope. -/
  | list (scope : Scope)
  /-- Lists the environment. -/
  | listEnvironment
  /-- Reads a value of the environment. -/
  | readEnvironment (name : String)
  /-- Looks up a placeholder: request variables, then persisted ones, then the environment. -/
  | lookup (name : String)
  /-- Records the outcome of a test. -/
  | record (name : String) (outcome : TestOutcome)
  /-- Logs a line. -/
  | log (line : String)
  /-- Makes a generated value. -/
  | generate (call : Generator)

/-- What the host answers to a call. -/
@[reducible] def HostCall.Reply : HostCall → Type
  | read _ _ => Option Json
  | write _ _ _ => Unit
  | clear _ _ => Unit
  | clearAll _ => Unit
  | isEmpty _ => Bool
  | list _ => VariableMap
  | listEnvironment => VariableMap
  | readEnvironment _ => Option Json
  | lookup _ => Option Json
  | record _ _ => Unit
  | log _ => Unit
  | generate _ => Except GeneratorError Generated

/-- A computation that calls its host and ends with a result. -/
inductive Activity (α : Type) where
  /-- Ends with a result. -/
  | done (result : α)
  /-- Makes a call and goes on with the answer. -/
  | call (request : HostCall) (next : request.Reply → Activity α)

namespace Activity

/-- Goes on with another activity. -/
def bind {α β : Type} : Activity α → (α → Activity β) → Activity β
  | done a, f => f a
  | call request next, f => call request fun reply => (next reply).bind f

instance : Monad Activity where
  pure := done
  bind := bind

end Activity

/-- What scripts act on. -/
structure Host where
  /-- Variables that last beyond a request. -/
  persisted : Store
  /-- Variables of the current request. -/
  request : Store
  /-- The environment, which scripts cannot change. -/
  environment : Store
  /-- The recorded tests of the current request. -/
  report : Report
  /-- Logged lines that are not yet written, in order. -/
  printed : List String
  /-- The clock, in milliseconds since the epoch. It stands still as long as the host is in use. -/
  now : Int
  /-- The source of random values. -/
  entropy : Entropy

namespace Host

/-- The accessor of a scope: persisted variables fall back to the environment. -/
def accessor (h : Host) : Scope → Accessor
  | .persisted => ⟨h.persisted, some h.environment⟩
  | .request => ⟨h.request, none⟩

/-- The host with the store of a scope replaced. -/
def withStore (h : Host) (scope : Scope) (store : Store) : Host :=
  match scope with
  | .persisted => { h with persisted := store }
  | .request => { h with request := store }

/-- The host after a change through an accessor; a refused change changes nothing. -/
def change (h : Host) (scope : Scope) (f : Accessor → Except StoreError Accessor) : Host :=
  match f (h.accessor scope) with
  | .ok a => h.withStore scope a.store
  | .error _ => h

/-- The first value that is there and not null. -/
def firstValue : List (Option Json) → Option Json
  | [] => none
  | some .null :: rest => firstValue rest
  | some value :: _ => some value
  | none :: rest => firstValue rest

/-- The value of a placeholder's name: the first hit among request variables, persisted variables
and environment. -/
def lookup (h : Host) (name : String) : Option Json :=
  firstValue [h.request.get? name, h.persisted.get? name, h.environment.get? name]

/-- The answer to a call. -/
def answer (h : Host) : (call : HostCall) → call.Reply
  | .read scope name => (h.accessor scope).get? name
  | .write _ _ _ => ()
  | .clear _ _ => ()
  | .clearAll _ => ()
  | .isEmpty scope => (h.accessor scope).isEmpty
  | .list scope => (h.accessor scope).store.toMap
  | .listEnvironment => h.environment.toMap
  | .readEnvironment name => h.environment.get? name
  | .lookup name => h.lookup name
  | .record _ _ => ()
  | .log _ => ()
  | .generate call => (call.run h.now h.entropy).1

/-- The host after a call. -/
def effect (h : Host) : HostCall → Host
  | .read _ _ => h
  | .write scope name value => h.change scope fun a => a.set name value
  | .clear scope name => h.change scope fun a => a.clear name
  | .clearAll scope => h.change scope fun a => a.clearAll
  | .isEmpty _ => h
  | .list _ => h
  | .listEnvironment => h
  | .readEnvironment _ => h
  | .lookup _ => h
  | .record name outcome => { h with report := h.report.record name outcome }
  | .log line => { h with printed := h.printed ++ [line] }
  | .generate call => { h with entropy := (call.run h.now h.entropy).2 }

/-- No change through an accessor touches the environment. -/
theorem change_environment (h : Host) (scope : Scope)
    (f : Accessor → Except StoreError Accessor) :
    (h.change scope f).environment = h.environment := by
  unfold change
  split
  · cases scope <;> rfl
  · rfl

/-- **No call changes the environment.** -/
theorem effect_environment (h : Host) (call : HostCall) :
    (h.effect call).environment = h.environment := by
  cases call <;> simp [effect, change_environment]

end Host

namespace Activity

/-- Runs an activity against a host. -/
def run {α : Type} : Activity α → Host → α × Host
  | done a, h => (a, h)
  | call request next, h => (next (h.answer request)).run (h.effect request)

/-- **Running one activity after another is running both.** -/
theorem run_bind {α β : Type} (x : Activity α) (f : α → Activity β) (h : Host) :
    (x.bind f).run h = (f (x.run h).1).run (x.run h).2 := by
  induction x generalizing h with
  | done a => rfl
  | call request next ih => simp only [bind, run, ih]

/-- **No activity changes the environment.** -/
theorem run_environment {α : Type} (x : Activity α) (h : Host) :
    (x.run h).2.environment = h.environment := by
  induction x generalizing h with
  | done a => rfl
  | call request next ih => rw [run, ih, Host.effect_environment]

end Activity

end RequestRunner
