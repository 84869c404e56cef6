import RequestRunner.Decimal.Shortest

/-!
# Writing numbers

`Notation` holds the decisions that a number's text needs beyond its digits: where positional
writing ends and the exponent begins, and how the numbers without digits are spelled. `write` lays a
number out, and `common` is the notation of every text that this program writes.
-/

set_option autoImplicit false

namespace RequestRunner.Decimal

/-- The decisions of a number's text. -/
structure Notation where
  /-- Numbers below this power of ten are written without exponent. -/
  positionalBelow : Int
  /-- Numbers of at least this power of ten are written without exponent. -/
  positionalFrom : Int
  /-- The spelling of what is no number. -/
  undefinedText : String
  /-- The spelling of infinity. -/
  infiniteText : String

/-- Numbers from a millionth up to `10 ^ 21` are written positionally, all others with a signed
exponent; neither zero shows a sign. -/
def common : Notation := ⟨21, -6, "NaN", "Infinity"⟩

/-- The decimal digits of a natural number. -/
def digitChars (n : Nat) : List Char := Nat.toDigits 10 n

/-- The exponent with its sign. -/
def exponentText (e : Int) : List Char :=
  'e' :: (if e < 0 then '-' else '+') :: digitChars e.natAbs

/-- The layout of a positive decimal. -/
def Notation.layout (style : Notation) (x : Digits) : List Char :=
  let ds := digitChars x.digits
  let count : Int := ds.length
  let point := count + x.exponent
  if count ≤ point ∧ point ≤ style.positionalBelow then
    ds ++ List.replicate (point - count).toNat '0'
  else if 0 < point ∧ point ≤ style.positionalBelow then
    ds.take point.toNat ++ '.' :: ds.drop point.toNat
  else if style.positionalFrom < point ∧ point ≤ 0 then
    '0' :: '.' :: List.replicate (-point).toNat '0' ++ ds
  else
    match ds with
    | [] => []
    | [d] => d :: exponentText (point - 1)
    | d :: rest => d :: '.' :: rest ++ exponentText (point - 1)

/-- The text of a number. -/
def Notation.write (style : Notation) (x : Float) : String :=
  if x.isNaN then style.undefinedText
  else
    let sign := if x < 0 then "-" else ""
    if x.isInf then sign ++ style.infiniteText
    else
      match Binary.ofFloat? x with
      | none => "0"
      | some b => sign ++ String.ofList (style.layout b.shortest)

/-- The text of a number in the common notation. -/
def text (x : Float) : String := common.write x

end RequestRunner.Decimal
