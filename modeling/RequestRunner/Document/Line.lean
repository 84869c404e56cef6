import RequestRunner.Document.Selection
import RequestRunner.Text.Blank
import RequestRunner.Text.Search
import RequestRunner.Decimal.Numeral

/-!
# Lines

A source is read line by line. `splitLines` cuts it at line feeds, a carriage return before a line
feed belonging to the break, and `numbered` counts the lines from one. The predicates say what a line
can be: a separator, a blank line, a comment, a declaration, the opening of a handler or the
continuation of a target.

Main statement: every source has a line (`splitLines_ne_nil`).
-/

set_option autoImplicit false

namespace RequestRunner

/-- The lines of a text. -/
def splitLines : List Char → List (List Char)
  | [] => [[]]
  | '\r' :: '\n' :: rest => [] :: splitLines rest
  | '\n' :: rest => [] :: splitLines rest
  | c :: rest =>
    match splitLines rest with
    | [] => [[c]]
    | line :: lines => (c :: line) :: lines

/-- **Every source has a line.** -/
theorem splitLines_ne_nil (s : List Char) : splitLines s ≠ [] := by
  fun_cases splitLines s <;> simp_all

/-- A line of a source. -/
structure Line where
  /-- Its number, from one. -/
  number : Nat
  /-- Its text without the line break. -/
  text : List Char
  deriving DecidableEq, Repr

/-- Lines numbered from a first number on. -/
def numbered : Nat → List (List Char) → List Line
  | _, [] => []
  | n, text :: rest => ⟨n, text⟩ :: numbered (n + 1) rest

namespace Line

/-- The text after the indentation. -/
def content (l : Line) : List Char := Text.trimStart l.text

/-- Nothing but blanks. -/
def isBlank (l : Line) : Bool := Text.allBlank l.text

/-- A separator opens a new section. -/
def isSeparator (l : Line) : Bool := Text.startsWith ['#', '#', '#'] l.text

/-- A comment starts with a hash sign or two slashes. -/
def isComment (l : Line) : Bool :=
  match l.content with
  | '#' :: _ => true
  | '/' :: '/' :: _ => true
  | _ => false

/-- Blank lines and comments carry no meaning between the parts of a section. -/
def isTrivia (l : Line) : Bool := l.isBlank || l.isComment

/-- A declaration starts with an at sign. -/
def opensDeclaration (l : Line) : Bool :=
  match l.content with
  | '@' :: _ => true
  | _ => false

/-- The line opens a script behind the given marker: the marker, blanks, and the opening
delimiter. -/
def opensScript (marker : Char) (l : Line) : Bool :=
  match l.content with
  | c :: rest => c == marker && Text.startsWith ['\x7b', '%'] (Text.trimStart rest)
  | [] => false

/-- The line opens the script that runs before the request. -/
def opensPreHandler (l : Line) : Bool := l.opensScript '<'

/-- The line opens the script that handles the response. -/
def opensHandler (l : Line) : Bool := l.opensScript '>'

/-- An indented line that is not blank. -/
def isIndented (l : Line) : Bool :=
  match l.text with
  | c :: _ => Text.isBlank c && !l.isBlank
  | [] => false

/-- An indented line that is no comment continues a target. -/
def continuesTarget (l : Line) : Bool := l.isIndented && !l.isComment

/-- The column of the first character that is not blank. -/
def firstColumn (l : Line) : Nat := Text.units (Text.leadingBlank l.text) + 1

/-- The position behind the last character. -/
def stop (l : Line) : Position := ⟨l.number, Text.units l.text + 1⟩

/-- The line without its indentation. -/
def select (filename : String) (l : Line) : Selection :=
  ⟨filename, ⟨l.number, l.firstColumn⟩, l.stop⟩

end Line

/-- The lines of a source, numbered from one. -/
def sourceLines (source : String) : List Line := numbered 1 (splitLines source.toList)

/-- A protocol version token: the protocol's name, a slash, digits and perhaps a fraction, followed
by nothing but blanks. -/
def isVersionToken (s : List Char) : Bool :=
  match Text.afterPrefix? ['H', 'T', 'T', 'P', '/'] s with
  | none => false
  | some rest =>
    let major := rest.takeWhile Decimal.isDigit
    let rest := rest.dropWhile Decimal.isDigit
    !major.isEmpty &&
      (Text.allBlank rest ||
        match rest with
        | '.' :: more =>
          !(more.takeWhile Decimal.isDigit).isEmpty &&
            Text.allBlank (more.dropWhile Decimal.isDigit)
        | _ => false)

/-- The text ends with a version token set off by blanks. -/
def endsWithVersion : List Char → Bool
  | [] => false
  | c :: rest =>
    (Text.isBlank c && isVersionToken (Text.trimStart rest)) || endsWithVersion rest

/-- The text before the blanks that set off its version token. -/
def dropVersion : List Char → List Char
  | [] => []
  | c :: rest =>
    if Text.isBlank c && isVersionToken (Text.trimStart rest) then []
    else c :: dropVersion rest

end RequestRunner
