import RequestRunner.Text.CaseTable

/-!
# Lower case

The lower-case form of a text, in which names are compared when case does not matter. Letters are
mapped one by one as the table of capital letters has it, all but two: the capital I with dot becomes
an i with a combining dot, and a capital sigma at the end of a word becomes the final sigma.
-/

set_option autoImplicit false

namespace RequestRunner.Text

/-- The small letter of a capital letter. -/
def smallLetter? (n : Nat) : Option Nat :=
  (caseRuns.find? fun r => r.first ≤ n && n ≤ r.last && (n - r.first) % r.step == 0).map
    fun r => ((n : Int) + r.shift).toNat

/-- The number of a small letter that some capital letter has. -/
def isSmallLetter (n : Nat) : Bool :=
  caseRuns.any fun r =>
    let m : Int := (n : Int) - r.shift
    decide (r.first ≤ m) && decide (m ≤ r.last) && (m.toNat - r.first) % r.step == 0

/-- A letter that has case. -/
def isCased (c : Char) : Bool :=
  (smallLetter? c.toNat).isSome || isSmallLetter c.toNat || isWithin otherCased c.toNat

/-- A mark that does not end a word. -/
def isCaseIgnorable (c : Char) : Bool := isWithin caseIgnorable c.toNat

/-- The nearest character that is no ignorable mark is a letter with case. -/
def meetsCased (s : List Char) : Bool :=
  match s.dropWhile isCaseIgnorable with
  | c :: _ => isCased c
  | [] => false

/-- The lower-case form of one character between the characters before it, the nearest first, and
those behind it. -/
def lowerChar (before : List Char) (c : Char) (behind : List Char) : List Char :=
  let n := c.toNat
  if n < 0x80 then [if 'A' ≤ c && c ≤ 'Z' then Char.ofNat (n + 32) else c]
  else if n = 0x130 then ['i', Char.ofNat 0x307]
  else if n = 0x3A3 && meetsCased before && !meetsCased behind then [Char.ofNat 0x3C2]
  else [((smallLetter? n).map Char.ofNat).getD c]

/-- The lower-case form of a text behind the given characters, the nearest first. -/
def lowerFrom (before : List Char) : List Char → List Char
  | [] => []
  | c :: rest => lowerChar before c rest ++ lowerFrom (c :: before) rest

/-- The lower-case form. -/
def lower (s : String) : String := String.ofList (lowerFrom [] s.toList)

/-- Equal but for case. -/
def sameIgnoringCase (a b : String) : Bool := lower a == lower b

end RequestRunner.Text
