import RequestRunner.Text.Units

/-!
# Positions and selections

A position is a line and a column, both counted from one, columns in 16-bit units. A selection is
the stretch of a named file between two positions. `Position.after` moves a position over a text:
only a line feed starts a new line.

Main statement: moving over a joined text is moving over its parts (`after_append`).
-/

set_option autoImplicit false

namespace RequestRunner

/-- A place in a text. -/
structure Position where
  /-- The line, from one. -/
  line : Nat
  /-- The column in 16-bit units, from one. -/
  column : Nat
  deriving DecidableEq, Repr, Inhabited

namespace Position

/-- The position behind one character. -/
def step (p : Position) (c : Char) : Position :=
  if c = '\n' then ⟨p.line + 1, 1⟩ else ⟨p.line, p.column + Text.charUnits c⟩

/-- The position behind a text that starts at the position. -/
def after (p : Position) (s : List Char) : Position := s.foldl step p

/-- **Moving over a joined text is moving over its parts.** -/
theorem after_append (p : Position) (s t : List Char) : p.after (s ++ t) = (p.after s).after t :=
  List.foldl_append

end Position

/-- A stretch of a file. -/
structure Selection where
  /-- The file it lies in. -/
  filename : String
  /-- Where it begins. -/
  start : Position
  /-- Where it ends, the position behind its last character. -/
  stop : Position
  deriving DecidableEq, Repr, Inhabited

namespace Selection

/-- The selection of what is not written anywhere. -/
def none : Selection := ⟨"", ⟨0, 0⟩, ⟨0, 0⟩⟩

/-- How a place in a file is named in messages. -/
def label (filename : String) (line column : Int) : String :=
  let file := if filename.isEmpty then "<unknown>" else filename
  s!"{file}:{line}:{column}"

/-- How a selection is named in messages: its file and where it begins. -/
def describe (s : Selection) : String := label s.filename s.start.line s.start.column

end Selection

end RequestRunner
