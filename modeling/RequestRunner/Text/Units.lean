/-!
# Lengths and order in 16-bit units

Columns, widths and the order of names are counted in 16-bit code units: a character of the basic
plane is one unit, any other is two. `units` is the length of a text in that measure, `codeUnits`
the units themselves, `precedes` the order of texts by their units, and `padEnd` and `padStart` fill
a cell up to a width.

Main statements: the measure is additive (`units_append`) and counts the units listed
(`length_codeUnits`), and a padded text is as wide as asked or as the text (`units_padEnd`).
-/

set_option autoImplicit false

namespace RequestRunner.Text

/-- The number of 16-bit units of one character. -/
def charUnits (c : Char) : Nat := if c.toNat < 0x10000 then 1 else 2

/-- The length of a text in 16-bit units. -/
def units : List Char → Nat
  | [] => 0
  | c :: r => charUnits c + units r

/-- The 16-bit units of one character: a character outside the basic plane is a pair. -/
def charCodeUnits (c : Char) : List Nat :=
  let n := c.toNat
  if n < 0x10000 then [n] else [0xD800 + (n - 0x10000) / 0x400, 0xDC00 + (n - 0x10000) % 0x400]

/-- The 16-bit units of a text. -/
def codeUnits (s : List Char) : List Nat := s.flatMap charCodeUnits

/-- The strict order of texts by their 16-bit units. -/
def precedes (a b : String) : Bool := decide (codeUnits a.toList < codeUnits b.toList)

/-- The length of a string in 16-bit units. -/
def width (s : String) : Nat := units s.toList

/-- The text filled up with spaces at its end. -/
def padEnd (w : Nat) (s : List Char) : List Char := s ++ List.replicate (w - units s) ' '

/-- The text filled up with spaces at its start. -/
def padStart (w : Nat) (s : List Char) : List Char := List.replicate (w - units s) ' ' ++ s

/-- **The measure is additive.** -/
@[simp] theorem units_append (s t : List Char) : units (s ++ t) = units s + units t := by
  induction s with
  | nil => simp [units]
  | cons c r ih => simp [units, ih, Nat.add_assoc]

/-- The measure of a run of spaces. -/
@[simp] theorem units_replicate_space (n : Nat) : units (List.replicate n ' ') = n := by
  induction n with
  | zero => rfl
  | succ n ih =>
    have h : charUnits ' ' = 1 := by decide
    simp [List.replicate_succ, units, ih, h, Nat.add_comm]

/-- **The measure counts the units.** -/
theorem length_codeUnits (s : List Char) : (codeUnits s).length = units s := by
  induction s with
  | nil => rfl
  | cons c r ih =>
    simp only [codeUnits, List.flatMap_cons, List.length_append, units] at ih ⊢
    rw [ih]
    congr 1
    by_cases h : c.toNat < 0x10000 <;> simp [charCodeUnits, charUnits, h]

/-- **The width of a padded text.** -/
theorem units_padEnd (w : Nat) (s : List Char) : units (padEnd w s) = max w (units s) := by
  simp only [padEnd, units_append, units_replicate_space]
  omega

end RequestRunner.Text
