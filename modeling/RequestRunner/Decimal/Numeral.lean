import RequestRunner.Text.Blank
import RequestRunner.Text.Search

/-!
# Reading numbers

Numerals are read to the nearest floating-point number. `ofDecimal` rounds a decimal with an
exponent of any size, `ofBase` a whole number in another base, `decimal?` reads the decimal form
(sign, digits, fraction, exponent), and `ofText` reads a whole text as the number it spells, the
way a command-line option is read: blanks around it do not matter, an empty text is zero, and a text
that spells no number is no number.
-/

set_option autoImplicit false

namespace RequestRunner.Decimal

/-- A decimal digit. -/
def isDigit (c : Char) : Bool := '0' ≤ c && c ≤ '9'

/-- The value of a digit in a base up to sixteen. -/
def digitValue? (base : Nat) (c : Char) : Option Nat :=
  let n := c.toNat
  let v :=
    if '0'.toNat ≤ n ∧ n ≤ '9'.toNat then n - '0'.toNat
    else if 'a'.toNat ≤ n ∧ n ≤ 'f'.toNat then n - 'a'.toNat + 10
    else if 'A'.toNat ≤ n ∧ n ≤ 'F'.toNat then n - 'A'.toNat + 10
    else 16
  if v < base then some v else none

/-- The natural number spelled by decimal digits. -/
def natOfDigits (ds : List Char) : Nat :=
  ds.foldl (fun n c => n * 10 + (c.toNat - '0'.toNat)) 0

/-- The natural number spelled in a base; `none` for a character that is no digit of the base, and
for no digits at all. -/
def natOfBase? (base : Nat) : List Char → Option Nat
  | [] => none
  | ds => ds.foldlM (fun n c => (digitValue? base c).map (n * base + ·)) 0

/-- Positive infinity. -/
def infinity : Float := 1.0 / 0.0

/-- What is no number. -/
def notANumber : Float := 0.0 / 0.0

/-- The nearest floating-point number to `m · 10 ^ e`. Exponents out of every range are settled
without computing the power. -/
def ofDecimal (m : Nat) (e : Int) : Float :=
  if m = 0 then 0
  else
    let top := (Nat.toDigits 10 m).length + e
    if top > 400 then infinity
    else if top < -400 then 0
    else if e < 0 then Float.ofScientific m true e.natAbs
    else Float.ofScientific (m * Nat.pow 10 e.toNat) false 0

/-- The nearest floating-point number to a natural number. -/
def ofNat (n : Nat) : Float := ofDecimal n 0

/-- The parts of an unsigned decimal numeral. -/
structure Numeral where
  /-- Digits before the point. -/
  whole : List Char
  /-- Digits after the point, if there is a point. -/
  fraction : Option (List Char)
  /-- The exponent, if one is written. -/
  exponent : Option Int

/-- The value of a numeral. -/
def Numeral.value (n : Numeral) : Float :=
  let frac := n.fraction.getD []
  ofDecimal (natOfDigits (n.whole ++ frac)) (n.exponent.getD 0 - frac.length)

/-- An exponent part: its value and the rest of the text; a letter `e` without digits is no
exponent. -/
def exponent? : List Char → Option (Int × List Char)
  | c :: rest =>
    if c = 'e' ∨ c = 'E' then
      let (negative, rest) :=
        match rest with
        | '+' :: r => (false, r)
        | '-' :: r => (true, r)
        | r => (false, r)
      let ds := rest.takeWhile isDigit
      if ds.isEmpty then none
      else
        let v : Int := natOfDigits ds
        some (if negative then -v else v, rest.dropWhile isDigit)
    else none
  | [] => none

/-- The decimal numeral at the start of a text and the rest of the text. -/
def scan (s : List Char) : Numeral × List Char :=
  let whole := s.takeWhile isDigit
  let rest := s.dropWhile isDigit
  let (fraction, rest) :=
    match rest with
    | '.' :: r => (some (r.takeWhile isDigit), r.dropWhile isDigit)
    | r => (none, r)
  match exponent? rest with
  | some (e, rest) => (⟨whole, fraction, some e⟩, rest)
  | none => (⟨whole, fraction, none⟩, rest)

/-- A numeral needs a digit on one side of its point. -/
def Numeral.hasDigits (n : Numeral) : Bool := !n.whole.isEmpty || !(n.fraction.getD []).isEmpty

/-- The value of a whole unsigned decimal text. -/
def decimal? (s : List Char) : Option Float :=
  match scan s with
  | (n, []) => if n.hasDigits then some n.value else none
  | _ => none

/-- The value of a signed decimal text, infinity included. -/
def signed? (s : List Char) : Option Float :=
  let magnitude (r : List Char) : Option Float :=
    if r = "Infinity".toList then some infinity else decimal? r
  match s with
  | '-' :: r => (magnitude r).map fun x => -x
  | '+' :: r => magnitude r
  | r => magnitude r

/-- The number that a text spells: blanks around it do not matter, an empty text is zero, `0x`,
`0o` and `0b` start a whole number in their base, and any other text that is no decimal is no
number. -/
def ofText (s : List Char) : Float :=
  match Text.trim s with
  | [] => 0
  | '0' :: x :: ds =>
    let based (base : Nat) : Float := ((natOfBase? base ds).map ofNat).getD notANumber
    if x = 'x' ∨ x = 'X' then based 16
    else if x = 'o' ∨ x = 'O' then based 8
    else if x = 'b' ∨ x = 'B' then based 2
    else (signed? ('0' :: x :: ds)).getD notANumber
  | r => (signed? r).getD notANumber

end RequestRunner.Decimal
