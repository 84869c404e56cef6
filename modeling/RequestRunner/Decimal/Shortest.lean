/-!
# The shortest decimal of a binary number

A positive binary floating-point number stands for an interval of reals: those that round to it. The
shortest decimal of the number is the decimal of fewest digits inside that interval and, among
those, the one closest to the number, an exact tie going to the even digit. All tests are exact
comparisons of natural numbers.

`Binary.ofFloat?` decodes a positive finite number into `mantissa · 2 ^ exponent`,
`Binary.shortest` selects the decimal.
-/

set_option autoImplicit false

namespace RequestRunner.Decimal

/-- A positive number `mantissa · 2 ^ exponent`. -/
structure Binary where
  /-- The integral significand. -/
  mantissa : Nat
  /-- The power of two that scales it. -/
  exponent : Int
  /-- The next smaller number is only half a step away: the significand is the least of its
  binade. -/
  narrow : Bool

/-- A decimal `digits · 10 ^ exponent`. -/
structure Digits where
  /-- The integral significand. -/
  digits : Nat
  /-- The power of ten that scales it. -/
  exponent : Int
  deriving DecidableEq, Repr

namespace Binary

/-- The positive number that a bit pattern without sign holds; `none` for zero and for patterns that
are no number. -/
def ofBits? (bits : Nat) : Option Binary :=
  let field : Nat := bits / Nat.pow 2 52
  let fraction : Nat := bits % Nat.pow 2 52
  if field = 2047 then none
  else if field = 0 then
    if fraction = 0 then none else some ⟨fraction, -1074, false⟩
  else some ⟨Nat.pow 2 52 + fraction, (field : Int) - 1075, fraction == 0 && 1 < field⟩

/-- The magnitude of a finite number that is not zero. -/
def ofFloat? (x : Float) : Option Binary := ofBits? (x.toBits.toNat % Nat.pow 2 63)

/-- Compares `a · 2 ^ p` with `b · 10 ^ k`, both scaled to naturals. -/
def compareScaled (a : Nat) (p : Int) (b : Nat) (k : Int) : Ordering :=
  compare (a * Nat.pow 2 p.toNat * Nat.pow 10 (-k).toNat)
    (b * Nat.pow 10 k.toNat * Nat.pow 2 (-p).toNat)

/-- The decimal `d · 10 ^ k` lies in the interval of reals that round to the number. The ends belong
to it when the significand is even. -/
def readsBack (x : Binary) (d : Nat) (k : Int) : Bool :=
  let low := 4 * x.mantissa - (if x.narrow then 1 else 2)
  let high := 4 * x.mantissa + 2
  let below := compareScaled low (x.exponent - 2) d k
  let above := compareScaled high (x.exponent - 2) d k
  if x.mantissa % 2 = 0 then below != .gt && above != .lt else below == .lt && above == .gt

/-- The greatest `d` with `d · 10 ^ k` at most the number. -/
def floorAt (x : Binary) (k : Int) : Nat :=
  (x.mantissa * Nat.pow 2 x.exponent.toNat * Nat.pow 10 (-k).toNat) /
    (Nat.pow 10 k.toNat * Nat.pow 2 (-x.exponent).toNat)

/-- The least power of ten above the number, started from an estimate and moved up and down until
it fits. -/
def scale (x : Binary) : Int :=
  let bits : Int := (Nat.log2 x.mantissa : Int) + x.exponent
  up 4 (down 4 (Int.fdiv (bits * 30103) 100000 + 1))
where
  /-- Moves down while a smaller power is still above the number. -/
  down : Nat → Int → Int
    | 0, k => k
    | n + 1, k => if compareScaled x.mantissa x.exponent 1 (k - 1) == .lt then down n (k - 1) else k
  /-- Moves up while the power is not above the number. -/
  up : Nat → Int → Int
    | 0, k => k
    | n + 1, k => if compareScaled x.mantissa x.exponent 1 k == .lt then k else up n (k + 1)

/-- Of the two neighbours of the number on the grid of `10 ^ k`, the one to write, if any reads
back. -/
def pick? (x : Binary) (k : Int) : Option Nat :=
  let d := x.floorAt k
  match x.readsBack d k, x.readsBack (d + 1) k with
  | true, false => some d
  | false, true => some (d + 1)
  | false, false => none
  | true, true =>
    -- both read back: the nearer one, and of two equally near ones the even one
    match compareScaled (2 * x.mantissa) x.exponent (2 * d + 1) k with
    | .lt => some d
    | .gt => some (d + 1)
    | .eq => some (if d % 2 = 0 then d else d + 1)

/-- Trailing zeros move into the exponent. -/
def normalize : Nat → Nat → Int → Digits
  | 0, d, k => ⟨d, k⟩
  | n + 1, d, k => if d % 10 = 0 ∧ d ≠ 0 then normalize n (d / 10) (k + 1) else ⟨d, k⟩

/-- Tries grids of more and more digits; seventeen digits always suffice. -/
def search (x : Binary) (top : Int) : Nat → Int → Digits
  | 0, k => ⟨x.floorAt k, k⟩
  | n + 1, k =>
    match x.pick? k with
    | some d => normalize 20 d k
    | none => search x top n (k - 1)

/-- The decimal of fewest digits that reads back, the closest of those. -/
def shortest (x : Binary) : Digits :=
  let top := x.scale
  x.search top 17 (top - 1)

end Binary

end RequestRunner.Decimal
