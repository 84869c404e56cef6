import RequestRunner.Generator.Basic
import RequestRunner.Generator.Calendar

/-!
# Drawing values

Random values come from outside. An `Entropy` is a source of them, and a `Drawing` is what it can be
asked for. `Generator.prepare` checks the arguments of a call and says what its value is or which
drawing gives it, and `Generator.run` makes the value. A refused call draws nothing.

Main statement: with a source that supplies what passes the checks (`Entropy.Supplies`), a run
succeeds exactly when the check of its arguments does (`run_isOk_iff`).
-/

set_option autoImplicit false

namespace RequestRunner

/-- What a source of random values can be asked for. -/
inductive Drawing where
  /-- An identifier of version four. -/
  | uuid
  /-- A mail address. -/
  | email
  /-- A whole number between two others, which may be drawn themselves. -/
  | integer (least greatest : Float)
  /-- A number of a range. -/
  | float (range : Bounds)
  /-- Small and capital letters. -/
  | alphabetic (length : Nat)
  /-- Letters and decimal digits. -/
  | alphanumeric (length : Nat)
  /-- Hexadecimal digits, the letters among them capital, without a prefix. -/
  | hexadecimal (length : Nat)
  deriving DecidableEq

/-- A source of random values: its state, and its answer to a drawing with the state after it. The
answer may be a failure with its reason. -/
structure Entropy where
  /-- The state of the source. -/
  state : Nat
  /-- The answer to a drawing in a state, and the state that follows. -/
  answer : Drawing → Nat → Except String Generated × Nat

/-- Draws a value. -/
def Entropy.draw (entropy : Entropy) (drawing : Drawing) :
    Except GeneratorError Generated × Entropy :=
  let (value, state) := entropy.answer drawing entropy.state
  (value.mapError .unavailable, { entropy with state })

theorem Entropy.draw_fst (entropy : Entropy) (drawing : Drawing) :
    (entropy.draw drawing).1 = (entropy.answer drawing entropy.state).1.mapError .unavailable :=
  rfl

/-- Where the value of a checked call comes from. -/
inductive Recipe where
  /-- It is known. -/
  | made (value : Generated)
  /-- It has to be drawn. -/
  | drawn (drawing : Drawing)
  deriving DecidableEq

namespace Generator

/-- What becomes of a call at a time, if its arguments pass. -/
def prepare (now : Int) : Generator → Except GeneratorError Recipe
  | uuid => .ok (.drawn .uuid)
  | email => .ok (.drawn .email)
  | timestamp =>
    let s := Calendar.seconds now
    .ok (.made (.number (if s < 0 then -(Decimal.ofNat s.natAbs) else Decimal.ofNat s.natAbs)))
  | isoTimestamp => .ok (.made (.text (Calendar.text now)))
  | integer first second => do
    let range ← integerBounds first second
    pure (.drawn (.integer range.low (range.high - 1)))
  | float first second => do
    let range ← floatBounds first second
    pure (.drawn (.float range))
  | alphabetic length => do pure (.drawn (.alphabetic (← length.length)))
  | alphanumeric length => do pure (.drawn (.alphanumeric (← length.length)))
  | hexadecimal length => do pure (.drawn (.hexadecimal (← length.length)))

/-- Makes the value of a call. -/
def run (now : Int) (call : Generator) (entropy : Entropy) :
    Except GeneratorError Generated × Entropy :=
  match call.prepare now with
  | .error e => (.error e, entropy)
  | .ok (.made value) => (.ok value, entropy)
  | .ok (.drawn drawing) => entropy.draw drawing

end Generator

/-- The source has a value for every call whose arguments pass their check, whatever was drawn
before. -/
def Entropy.Supplies (entropy : Entropy) : Prop :=
  ∀ (now : Int) (call : Generator) (drawing : Drawing),
    call.prepare now = .ok (.drawn drawing) →
      ∀ state, ∃ value, (entropy.answer drawing state).1 = .ok value

namespace Generator

/-- The arguments of a call are checked before anything else is done. -/
theorem check_eq_prepare (call : Generator) (now : Int) :
    call.check = (call.prepare now).map fun _ => () := by
  have hbind : ∀ {α β : Type} (check : Except GeneratorError α) (f : α → β),
      check.map (fun _ => ()) = (check >>= fun a => .ok (f a)).map fun _ => () := by
    intro α β check f
    cases check <;> rfl
  cases call <;> first | rfl | exact hbind _ _

/-- What is made passed the check, and what is refused is refused with what the check finds. -/
theorem check_eq_run {entropy : Entropy} (hentropy : entropy.Supplies) (call : Generator)
    (now : Int) : call.check = (call.run now entropy).1.map fun _ => () := by
  rw [check_eq_prepare call now, run]
  rcases hprepare : call.prepare now with e | value | drawing
  · rfl
  · rfl
  · obtain ⟨value, hvalue⟩ := hentropy now call drawing hprepare entropy.state
    dsimp only
    rw [Entropy.draw_fst, hvalue]
    rfl

/-- **With a source that supplies what passes the checks, a run succeeds exactly when the check of
its arguments does.** -/
theorem run_isOk_iff {entropy : Entropy} (hentropy : entropy.Supplies) (now : Int)
    (call : Generator) : (call.run now entropy).1.isOk = call.check.isOk := by
  rw [check_eq_run hentropy call now]
  cases (call.run now entropy).1 <;> rfl

end Generator

end RequestRunner
