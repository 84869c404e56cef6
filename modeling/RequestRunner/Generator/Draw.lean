import RequestRunner.Generator.Entropy

/-!
# A source of random values

`Entropy.seeded` draws from a linear congruential sequence. It answers everything that it is asked
for (`Entropy.supplies_seeded`).
-/

set_option autoImplicit false

namespace RequestRunner

/-- A computation that draws from a linear congruential sequence, whose state stays below
`2 ^ 64`. -/
abbrev Draw (α : Type) := StateM Nat α

namespace Draw

/-- The next 48 random bits. -/
def bits : Draw Nat := fun state =>
  let state := (state * 6364136223846793005 + 1442695040888963407) % Nat.pow 2 64
  (state / Nat.pow 2 16, state)

/-- A natural number below a bound. -/
def below (n : Nat) : Draw Nat := do
  let a ← bits
  let b ← bits
  pure ((a * Nat.pow 2 48 + b) % n)

/-- One character of an alphabet. -/
def pick (alphabet : List Char) : Draw Char := do
  let i ← below alphabet.length
  pure (alphabet.getD i ' ')

/-- Characters of an alphabet. -/
def word (alphabet : List Char) : Nat → Draw (List Char)
  | 0 => pure []
  | n + 1 => do
    let c ← pick alphabet
    let rest ← word alphabet n
    pure (c :: rest)

/-- The small letters. -/
def smallLetters : List Char := "abcdefghijklmnopqrstuvwxyz".toList

/-- The capital letters. -/
def capitalLetters : List Char := "ABCDEFGHIJKLMNOPQRSTUVWXYZ".toList

/-- The decimal digits. -/
def digits : List Char := "0123456789".toList

/-- The small hexadecimal digits. -/
def hexDigits : List Char := "0123456789abcdef".toList

/-- A random identifier of version four. -/
def uuid : Draw String := do
  let a ← word hexDigits 8
  let b ← word hexDigits 4
  let c ← word hexDigits 3
  let d ← pick "89ab".toList
  let e ← word hexDigits 3
  let f ← word hexDigits 12
  pure (String.ofList (a ++ '-' :: b ++ '-' :: '4' :: c ++ '-' :: d :: e ++ '-' :: f))

/-- A random mail address. -/
def email : Draw String := do
  let first ← word smallLetters 6
  let second ← word smallLetters 7
  let number ← word digits 2
  pure (String.ofList (first ++ '_' :: second ++ number ++ "@example.com".toList))

/-- A whole number between two others, which may be drawn themselves. -/
def integer (least greatest : Float) : Draw Float := do
  let low := Decimal.wholePart least
  let n ← below (Decimal.wholePart greatest + 1 - low).toNat
  let v := low + n
  pure (if v < 0 then -(Decimal.ofNat v.natAbs) else Decimal.ofNat v.natAbs)

/-- A number of a range. -/
def float (range : Bounds) : Draw Float := do
  let n ← bits
  pure (range.low + Decimal.ofNat n / Decimal.ofNat (Nat.pow 2 48) * (range.high - range.low))

/-- A text over an alphabet. -/
def text (alphabet : List Char) (length : Nat) : Draw Generated := do
  pure (.text (String.ofList (← word alphabet length)))

/-- The answer to a drawing. -/
def answer : Drawing → Draw Generated
  | .uuid => do pure (.text (← uuid))
  | .email => do pure (.text (← email))
  | .integer least greatest => do pure (.number (← integer least greatest))
  | .float range => do pure (.number (← float range))
  | .alphabetic length => text (smallLetters ++ capitalLetters) length
  | .alphanumeric length => text (smallLetters ++ capitalLetters ++ digits) length
  | .hexadecimal length => text (digits ++ ['A', 'B', 'C', 'D', 'E', 'F']) length

end Draw

namespace Entropy

/-- The source that starts from a seed. -/
def seeded (seed : Nat) : Entropy where
  state := seed
  answer drawing state :=
    let (value, state) := Draw.answer drawing state
    (.ok value, state)

theorem supplies_seeded (seed : Nat) : (seeded seed).Supplies :=
  fun _ _ _ _ _ => ⟨_, rfl⟩

end Entropy

end RequestRunner
