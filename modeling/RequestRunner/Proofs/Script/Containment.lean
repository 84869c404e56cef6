import RequestRunner.Proofs.Script.Apart
import RequestRunner.Proofs.Script.Realm

/-!
# Tests on the machine

A world is a machine with its host. What an evaluation does in a world is followed step by step
(`observe_bind`, `observe_recover`), and so the worlds of the machine are a realm (`realm`): what the
functions of the scripting object do there is what they do in any realm. Main statement: a test that
is called on the machine is a test of that realm, at any depth of calls (`runIn_invoke_test`), so
that all that `Realm.test_contains_callback` says holds of it.
-/

set_option autoImplicit false

namespace RequestRunner.Script

/-- What a script runs in: its machine and its host. -/
structure World where
  /-- The objects, frames and names of scripts. -/
  machine : Machine
  /-- What scripts act on. -/
  host : Host

namespace World

/-- What the object of a value is. -/
def kind? (w : World) : Value → Option ObjectKind
  | .object ref => some (Interp.objectAt w.machine ref).kind
  | _ => none

/-- What a value is. -/
def shape (w : World) : Value → ValueKind
  | .text s => .text s
  | .object ref =>
    match (Interp.objectAt w.machine ref).kind with
    | .function _ => .function
    | _ => .object
  | _ => .plain

/-- The world with an object added. -/
def add (w : World) (o : Object) : Value × World :=
  (.object w.machine.objects.size, { w with machine := (w.machine.add o).2 })

end World

namespace Interp

variable {α β : Type}

/-! ## Evaluations in a world -/

/-- Evaluates in a world, which may end as another one. -/
def runIn (x : Interp α) (w : World) : Except Signal α × World :=
  let r := (x w.machine).run w.host
  (r.1.1, ⟨r.1.2, r.2⟩)

/-- What is left to do after an evaluation. -/
def leftAfter (f : α → Interp β) : Except Signal α × Machine → Activity (Except Signal β × Machine)
  | (.ok a, m) => f a m
  | (.error s, m) => .done (.error s, m)

/-- What an evaluation does in worlds. -/
def observe (x : Interp α) : Act World Value α := ExceptT.mk x.runIn

theorem runIn_bind (x : Interp α) (f : α → Interp β) (w : World) :
    (x >>= f).runIn w = thenIn (fun a => observe (f a)) (x.runIn w) := by
  -- the machine goes on after the first part as it was left, or stops with its signal
  have hbind : (x >>= f) w.machine = (x w.machine).bind (leftAfter f) := by
    refine congrArg (Activity.bind (x w.machine)) (funext ?_)
    rintro ⟨_ | _, m⟩ <;> rfl
  rw [runIn, hbind, Activity.run_bind, runIn]
  rcases (x w.machine).run w.host with ⟨⟨_ | _, m⟩, host⟩ <;> rfl

/-- What is done after something else is observed after it. -/
theorem observe_bind {x : Interp α} {y : Act World Value α} {f : α → Interp β}
    {g : α → Act World Value β} (hx : observe x = y) (hf : ∀ a, observe (f a) = g a) :
    observe (x >>= f) = y >>= g := by
  obtain rfl := hx
  obtain rfl : (fun a => observe (f a)) = g := funext hf
  funext w
  exact (runIn_bind x f w).trans (run_bind (observe x) _ w).symm

/-- What is raised is handled as it is observed. -/
theorem observe_recover {x : Interp Unit} {y : Act World Value Unit} {f : Value → Interp Unit}
    {g : Value → Act World Value Unit} (hx : observe x = y) (hf : ∀ v, observe (f v) = g v) :
    observe (recover x f) = Act.recover y g := by
  obtain rfl := hx
  obtain rfl : (fun v => observe (f v)) = g := funext hf
  funext w
  change (recover x f).runIn w = handleIn _ (x.runIn w)
  rw [runIn, recover, Activity.run_bind, runIn]
  rcases (x w.machine).run w.host with ⟨⟨(_ | _) | _, m⟩, host⟩ <;> rfl

theorem runIn_object (ref : Nat) (w : World) :
    (object ref).runIn w = (.ok (objectAt w.machine ref), w) := by
  rw [runIn, object_apply]
  rfl

/-! ## The realm of the machine -/

variable (call : Caller)

/-- The worlds of the machine, with a way in which functions are called there. -/
def realm : Realm World Value where
  undefined := .undefined
  kind := World.shape
  has v name := observe (hasMember v name)
  get v name := observe (member v name)
  call f self arguments := observe (call f self arguments)
  convert v := observe (toText call v)
  shown := plainText
  listener w :=
    w.add ⟨.function (.native .lateFailure), [], some Machine.functionPrototype, false⟩
  error e w := w.add ⟨.fault (.client e),
    [("message", .value (.text (Fault.client e).message) false),
      ("name", .value (.text (Fault.client e).kind) true)], some Machine.errorPrototype, false⟩
  report w := w.host.report
  withReport tests w := { w with host := { w.host with report := tests } }
  report_withReport _ _ := rfl
  report_error _ _ := rfl

theorem runIn_shape (v : Value) (w : World) : (shape v).runIn w = (.ok (w.shape v), w) := by
  cases v with
  | object ref =>
    rw [shape, runIn_bind, isFunction, runIn_bind, runIn_object, thenIn, World.shape]
    cases (objectAt w.machine ref).kind <;> rfl
  | _ => rfl

theorem observe_shape (v : Value) : observe (shape v) = (realm call).look v :=
  funext (runIn_shape v)

theorem observe_toText (v : Value) : observe (toText call v) = (realm call).toText v := by
  cases v with
  | object ref =>
    funext w
    refine Eq.trans ?_ (Realm.run_look_bind _).symm
    -- an object is asked for its text, whether it is a function or not
    have hkind : (realm call).kind w (.object ref) = .function ∨
        (realm call).kind w (.object ref) = .object := by
      change w.shape (.object ref) = _ ∨ w.shape (.object ref) = _
      rw [World.shape]
      cases (objectAt w.machine ref).kind <;> simp
    rcases hkind with hkind | hkind <;> rw [hkind] <;> rfl
  | _ => rfl

theorem observe_isThenable (v : Value) :
    observe (Client.isThenable (evaluator call) v) =
      Client.isThenable (realm call).evaluator v := by
  apply observe_bind (observe_shape call v)
  intro kind
  cases kind with
  | object =>
    apply observe_bind rfl
    intro b
    cases b with
    | true =>
      apply observe_bind rfl
      exact fun next => observe_bind (observe_shape call next) fun kind => rfl
    | false => rfl
  | _ => rfl

theorem observe_awaitFailure (v : Value) :
    observe (Client.awaitFailure (evaluator call) v) =
      Client.awaitFailure (realm call).evaluator v := by
  apply observe_bind rfl
  intro next
  apply observe_bind rfl
  exact fun listener => observe_bind rfl fun _ => rfl

theorem observe_message? (v : Value) :
    observe (Client.message? (evaluator call) v) = Client.message? (realm call).evaluator v := by
  apply observe_bind rfl
  intro b
  cases b with
  | true =>
    apply observe_bind rfl
    intro found
    apply observe_bind (observe_shape call found)
    intro kind
    cases kind with
    | text s => exact observe_bind rfl fun message => rfl
    | _ => rfl
  | false => rfl

theorem observe_describe (v : Value) :
    observe (describe call v) = Client.describe (realm call).evaluator v := by
  apply observe_bind (observe_shape call v)
  intro kind
  cases kind with
  | object =>
    apply observe_bind (observe_message? call v)
    intro message
    cases message with
    | some s => rfl
    | none => exact observe_toText call v
  | _ => exact observe_toText call v

theorem observe_attempt (callback : Value) :
    observe (Client.attempt (evaluator call) callback) =
      Client.attempt (realm call).evaluator callback := by
  apply observe_bind rfl
  intro returned
  apply observe_bind (observe_isThenable call returned)
  intro b
  cases b with
  | true => exact observe_bind (observe_awaitFailure call returned) fun _ => rfl
  | false => rfl

/-- A test that records with the host is a test of the realm. -/
theorem observe_test (name callback : Value) :
    observe (Client.test (evaluator call) (fun name outcome => ask (.record name outcome))
      (fun e => raiseFault (.client e)) name callback) = (realm call).test name callback := by
  apply observe_bind (observe_shape call name)
  intro kind
  cases kind with
  | text name =>
    apply observe_bind (observe_shape call callback)
    intro kind
    cases kind with
    | function =>
      apply observe_recover
      · exact observe_bind (observe_attempt call callback) fun outcome => rfl
      · exact fun raised => observe_bind (observe_describe call raised) fun description => rfl
    | _ => rfl
  | _ => rfl

/-! ## Calls of the test function -/

theorem runIn_recorder {w : World} {self : Value} (h : w.kind? self = some .client) :
    (recorder self).runIn w = (.ok fun name outcome => ask (.record name outcome), w) := by
  cases self with
  | object ref =>
    have hobject : (objectAt w.machine ref).kind = .client := Option.some.inj h
    rw [recorder, runIn_bind, runIn_object, thenIn, hobject]
    rfl
  | _ => cases h

theorem runIn_invoke {w : World} {f self : Value} {code : Native} {arguments : List Value}
    (hf : w.kind? f = some (.function (.native code))) (n : Nat) :
    (invoke (n + 1) f self arguments).runIn w =
      (native (invoke n) code self arguments).runIn w := by
  cases f with
  | object ref =>
    have hobject : (objectAt w.machine ref).kind = .function (.native code) := Option.some.inj hf
    change (object ref >>= _).runIn w = _
    rw [runIn_bind, runIn_object, thenIn, hobject]
    rfl
  | _ => cases hf

/-- **A test that is called on the scripting object is a test of the realm of the machine.** -/
theorem runIn_invoke_test (n : Nat) {w : World} {f self : Value} (arguments : List Value)
    (hf : w.kind? f = some (.function (.native .test))) (hself : w.kind? self = some .client) :
    (invoke (n + 1) f self arguments).runIn w =
      thenIn (fun _ => pure .undefined) (((realm (invoke n)).test (arguments.headD .undefined)
        ((arguments.drop 1).headD .undefined)).run.run w) := by
  rw [runIn_invoke hf, native.eq_def]
  dsimp only
  rw [runIn_bind, runIn_recorder hself, thenIn, ← observe_test]
  exact runIn_bind _ _ w

end Interp

end RequestRunner.Script
