import RequestRunner.Decimal.Shortest
import RequestRunner.Decimal.Numeral

/-!
# Whole numbers

Whether a floating-point number is whole, its whole part, and the remainder of a division, all read
off the bits by exact integer arithmetic.
-/

set_option autoImplicit false

namespace RequestRunner.Decimal

/-- The magnitude is a whole number. -/
def Binary.isWhole (b : Binary) : Bool :=
  0 ≤ b.exponent || b.mantissa % Nat.pow 2 (-b.exponent).toNat == 0

/-- The magnitude without its fraction. -/
def Binary.floor (b : Binary) : Nat :=
  b.mantissa * Nat.pow 2 b.exponent.toNat / Nat.pow 2 (-b.exponent).toNat

/-- The number is whole; infinities are not. -/
def isWhole (x : Float) : Bool :=
  if x.isNaN || x.isInf then false
  else
    match Binary.ofFloat? x with
    | none => true
    | some b => b.isWhole

/-- The number without its fraction; zero for what has no whole part. -/
def wholePart (x : Float) : Int :=
  match Binary.ofFloat? x with
  | none => 0
  | some b => if x < 0 then -(b.floor : Int) else b.floor

/-- The nearest floating-point number to `m · 2 ^ e`, for a number that has no more significant bits
than fit. -/
def ofBinary (m : Nat) (e : Int) : Float :=
  if e < 0 then ofDecimal (m * Nat.pow 5 e.natAbs) e else ofNat (m * Nat.pow 2 e.toNat)

/-- The remainder of a division whose quotient is rounded toward zero; it takes the sign of the
dividend. -/
def remainder (x y : Float) : Float :=
  if x.isNaN || y.isNaN || x.isInf then notANumber
  else if y.isInf then x
  else
    match Binary.ofFloat? x, Binary.ofFloat? y with
    | _, none => notANumber
    | none, _ => x
    | some a, some b =>
      let e := min a.exponent b.exponent
      let r := a.mantissa * Nat.pow 2 (a.exponent - e).toNat %
        (b.mantissa * Nat.pow 2 (b.exponent - e).toNat)
      let magnitude := ofBinary r e
      if x < 0 then -magnitude else magnitude

end RequestRunner.Decimal
