import RequestRunner.Decimal.Notation
import RequestRunner.Decimal.Whole

/-!
# Generators

Generators make fresh values: identifiers, addresses, random numbers and texts, and the current
time. A `Generator` is a call with its arguments, and `Generator.check` its argument check.
-/

set_option autoImplicit false

namespace RequestRunner

/-- An argument of a generator, as far as generators tell arguments apart. -/
inductive Argument where
  /-- Not given. -/
  | absent
  /-- A number. -/
  | number (x : Float)
  /-- Anything that is no number. -/
  | other
  deriving DecidableEq

/-- Why a generator makes no value. -/
inductive GeneratorError where
  /-- A bound or length is no whole number. -/
  | notInteger
  /-- A bound is no number. -/
  | notNumber
  /-- A length below zero. -/
  | negativeLength (x : Float)
  /-- A range without a number in it. -/
  | emptyRange (low high : Float)
  /-- The source of random values fails. -/
  | unavailable (reason : String)
  deriving DecidableEq

/-- The wording of a failure. -/
def GeneratorError.message : GeneratorError → String
  | notInteger => "Expected to get an integer"
  | notNumber => "Expected to get a number"
  | negativeLength x => "Expected a non-negative length, got " ++ Decimal.text x
  | emptyRange low high =>
    "Empty range [" ++ Decimal.text low ++ ", " ++ Decimal.text high ++ ")"
  | unavailable reason => reason

/-- The kind of error: the arguments have the wrong type or the wrong size, or they are right. -/
def GeneratorError.kind : GeneratorError → String
  | notInteger => "TypeError"
  | notNumber => "TypeError"
  | negativeLength _ => "RangeError"
  | emptyRange _ _ => "RangeError"
  | unavailable _ => "Error"

/-- A generator call. -/
inductive Generator where
  /-- A random identifier. -/
  | uuid
  /-- A random mail address. -/
  | email
  /-- Whole seconds since the epoch. -/
  | timestamp
  /-- The current time as a calendar text. -/
  | isoTimestamp
  /-- A random whole number: any of 32 bits, below a bound, or between two bounds. -/
  | integer (first second : Argument)
  /-- A random number: below one, below a bound, or between two bounds. -/
  | float (first second : Argument)
  /-- Random letters. -/
  | alphabetic (length : Argument)
  /-- Random letters and digits. -/
  | alphanumeric (length : Argument)
  /-- Random upper-case hexadecimal digits. -/
  | hexadecimal (length : Argument)
  deriving DecidableEq

/-- A made value. -/
inductive Generated where
  | number (x : Float)
  | text (s : String)
  deriving DecidableEq

/-- The text of a made value. -/
def Generated.toText : Generated → String
  | number x => Decimal.text x
  | text s => s

/-! ## Argument checks -/

/-- A half-open range of numbers. -/
structure Bounds where
  /-- The least number. -/
  low : Float
  /-- The bound above. -/
  high : Float
  deriving DecidableEq

/-- The argument has to be a whole number. -/
def Argument.integer : Argument → Except GeneratorError Float
  | number x => if Decimal.isWhole x then .ok x else .error .notInteger
  | _ => .error .notInteger

/-- The argument has to be a number. -/
def Argument.anyNumber : Argument → Except GeneratorError Float
  | number x => if x.isNaN then .error .notNumber else .ok x
  | _ => .error .notNumber

/-- The argument has to be a length. -/
def Argument.length (a : Argument) : Except GeneratorError Nat := do
  let x ← a.integer
  if x < 0 then .error (.negativeLength x) else pure (Decimal.wholePart x).toNat

/-- The range between two numbers has to hold a number. -/
def Bounds.between (low high : Float) : Except GeneratorError Bounds :=
  if low ≥ high then .error (.emptyRange low high) else .ok ⟨low, high⟩

/-- The range of a whole number: 32 signed bits, from zero below a bound, or between two bounds. -/
def integerBounds : Argument → Argument → Except GeneratorError Bounds
  | .absent, _ => .ok ⟨-2147483648, 2147483648⟩
  | first, .absent => do Bounds.between 0 (← first.integer)
  | first, second => do
    let low ← first.integer
    let high ← second.integer
    Bounds.between low high

/-- The range of a number: below one, below a bound, or between two bounds. -/
def floatBounds : Argument → Argument → Except GeneratorError Bounds
  | .absent, _ => .ok ⟨0, 1⟩
  | first, .absent => do Bounds.between 0 (← first.anyNumber)
  | first, second => do
    let low ← first.anyNumber
    let high ← second.anyNumber
    Bounds.between low high

/-- The argument check of a call. -/
def Generator.check : Generator → Except GeneratorError Unit
  | integer first second => (integerBounds first second).map fun _ => ()
  | float first second => (floatBounds first second).map fun _ => ()
  | alphabetic length => length.length.map fun _ => ()
  | alphanumeric length => length.length.map fun _ => ()
  | hexadecimal length => length.length.map fun _ => ()
  | _ => .ok ()

end RequestRunner
