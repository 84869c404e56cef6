import RequestRunner.Decimal.Numeral
import RequestRunner.Json.Reader
import RequestRunner.Text.Blank

/-!
# Tokens of scripts

The text of a script is cut into names, numbers, strings and punctuation. Blanks and comments separate
tokens; a token remembers whether a line ended before it, and where it stands.

`Token.scan?` cuts a whole script, or nothing when some text in it is no token.
-/

set_option autoImplicit false

namespace RequestRunner.Script

/-- What a token is. -/
inductive TokenKind where
  /-- A name or a keyword. -/
  | name (s : String)
  /-- A number. -/
  | number (x : Float)
  /-- A string, without its delimiters. -/
  | text (s : String)
  /-- An operator or a delimiter. -/
  | sign (s : String)
  deriving DecidableEq

/-- A token. -/
structure Token where
  /-- What it is. -/
  kind : TokenKind
  /-- A line ended between the token before and this one. -/
  afterBreak : Bool
  /-- The number of characters before it. -/
  start : Nat
  /-- The number of characters up to its end. -/
  stop : Nat

namespace Token

/-- Ranges of characters beyond ASCII that are no letters: signs, punctuation, private use and
pictures. -/
def signRanges : List (Nat × Nat) :=
  [(0x80, 0xA9), (0xAB, 0xB4), (0xB6, 0xB9), (0xBB, 0xBF), (0xD7, 0xD7), (0xF7, 0xF7),
    (0x2000, 0x200B), (0x200E, 0x2070), (0x2074, 0x207E), (0x2080, 0x208F), (0x20A0, 0x20CF),
    (0x2190, 0x2BFF), (0x3000, 0x3004), (0x3008, 0x3020), (0xE000, 0xF8FF), (0xFE10, 0xFE6F),
    (0xFEFF, 0xFF20), (0xFFE0, 0xFFFF), (0x1F000, 0x1FAFF)]

/-- The character can start a name. -/
def isNameStart (c : Char) : Bool :=
  let n := c.toNat
  if n < 0x80 then c.isAlpha || c == '_' || c == '$'
  else !signRanges.any fun (low, high) => low ≤ n && n ≤ high

/-- The character can go on a name. -/
def isNamePart (c : Char) : Bool := isNameStart c || Decimal.isDigit c

/-- The signs, longer ones before their beginnings. -/
def signs : List String :=
  ["===", "!==", "=>", "&&", "||", "??", "++", "--", "(", ")", "[", "]", "\x7b", "\x7d", ".", ",",
    ";", ":", "?", "=", "+", "-", "*", "/", "%", "<", ">", "!"]

/-- The sign at the start of a text, and the rest. -/
def sign? (s : List Char) : Option (String × List Char) :=
  signs.findSome? fun p => (Text.afterPrefix? p.toList s).map fun rest => (p, rest)

/-- The text behind a comment that ends with its line. -/
def skipLine (s : List Char) : List Char := s.dropWhile fun c => !Text.isLineEnd c

/-- The text behind a comment that has to be closed, and whether a line ended inside. -/
def skipBlock : Bool → List Char → Option (Bool × List Char)
  | _, [] => none
  | broken, '*' :: '/' :: rest => some (broken, rest)
  | broken, c :: rest => skipBlock (broken || Text.isLineEnd c) rest

/-- The character of a hexadecimal escape of two digits. -/
def twoDigits? : List Char → Option (Char × List Char)
  | a :: b :: rest => (Decimal.natOfBase? 16 [a, b]).map fun n => (Char.ofNat n, rest)
  | _ => none

/-- The character that a one-letter escape stands for; any other character stands for itself. -/
def letterEscape : Char → Char
  | 'n' => '\n'
  | 't' => '\t'
  | 'r' => '\r'
  | 'b' => Char.ofNat 8
  | 'f' => Char.ofNat 12
  | 'v' => Char.ofNat 11
  | '0' => Char.ofNat 0
  | c => c

/-- The characters of a string up to its closing delimiter, and the rest. -/
def string? (delimiter : Char) : Nat → List Char → List Char → Option (String × List Char)
  | 0, _, _ => none
  | _ + 1, _, [] => none
  | n + 1, done, c :: rest =>
    if c = delimiter then some (String.ofList done.reverse, rest)
    else if c = '\n' ∨ c = '\r' then none
    else if c = '\\' then
      match rest with
      | [] => none
      | 'u' :: more =>
        match Json.readUnit? more with
        | none => none
        | some (u, after) =>
          let (ch, after) := Json.joinUnit u after
          string? delimiter n (ch :: done) after
      | 'x' :: more =>
        match twoDigits? more with
        | none => none
        | some (ch, after) => string? delimiter n (ch :: done) after
      | '\r' :: '\n' :: more => string? delimiter n done more
      | '\n' :: more => string? delimiter n done more
      | e :: more => string? delimiter n (letterEscape e :: done) more
    else string? delimiter n (c :: done) rest

/-- A whole number in another base behind its two-character mark, and the rest. -/
def based? (base : Nat) (s : List Char) : Option (Float × List Char) :=
  let ds := s.takeWhile fun c => (Decimal.digitValue? base c).isSome
  (Decimal.natOfBase? base ds).map fun n => (Decimal.ofNat n, s.drop ds.length)

/-- A number, and the rest. Digits behind a leading zero are octal when all of them can be. -/
def number? (s : List Char) : Option (Float × List Char) :=
  match s with
  | '0' :: c :: rest =>
    if c = 'x' ∨ c = 'X' then based? 16 rest
    else if c = 'o' ∨ c = 'O' then based? 8 rest
    else if c = 'b' ∨ c = 'B' then based? 2 rest
    else
      let ds := (c :: rest).takeWhile Decimal.isDigit
      if ds.isEmpty then plain s
      else
        match Decimal.natOfBase? 8 ds with
        | some n => some (Decimal.ofNat n, (c :: rest).dropWhile Decimal.isDigit)
        | none => plain s
  | _ => plain s
where
  /-- A decimal number. -/
  plain (s : List Char) : Option (Float × List Char) :=
    let (numeral, rest) := Decimal.scan s
    if numeral.hasDigits then some (numeral.value, rest) else none

/-- The kind of the token at the start of a text, and the rest. A number has to end before the next
name. -/
def kind? (s : List Char) : Option (TokenKind × List Char) :=
  match s with
  | [] => none
  | c :: rest =>
    if isNameStart c then
      some (.name (String.ofList (c :: rest.takeWhile isNamePart)), rest.dropWhile isNamePart)
    else if c = '"' ∨ c = Char.ofNat 39 then
      (string? c (rest.length + 1) [] rest).map fun (t, after) => (.text t, after)
    else if Decimal.isDigit c || (c == '.' && (rest.head?.any Decimal.isDigit)) then
      match number? s with
      | none => none
      | some (x, after) =>
        if after.head?.any isNamePart then none else some (.number x, after)
    else (sign? s).map fun (p, after) => (.sign p, after)

/-- The tokens of what is left of a script of a given length. -/
def scanFrom (total : Nat) : Nat → Bool → List Char → Option (List Token)
  | 0, _, _ => none
  | _ + 1, _, [] => some []
  | n + 1, broken, c :: rest =>
    if Text.isBlank c then scanFrom total n (broken || Text.isLineEnd c) rest
    else
      match c, rest with
      | '/', '/' :: more => scanFrom total n broken (skipLine more)
      | '/', '*' :: more =>
        match skipBlock broken more with
        | none => none
        | some (broken, after) => scanFrom total n broken after
      | _, _ =>
        match kind? (c :: rest) with
        | none => none
        | some (kind, after) =>
          (scanFrom total n false after).map fun tokens =>
            ⟨kind, broken, total - (rest.length + 1), total - after.length⟩ :: tokens

/-- The tokens of a script. -/
def scan? (s : List Char) : Option (List Token) := scanFrom s.length (s.length + 1) false s

end Token

end RequestRunner.Script
