import RequestRunner.Text.Blank
import RequestRunner.Text.Units

/-!
# Tables

A table of texts is written with its columns aligned: every column is as wide as its widest cell, two
spaces separate the columns, and a line of dashes follows the header. Blanks at the end of a line are
not written.
-/

set_option autoImplicit false

namespace RequestRunner.Table

/-- A row: its cells from left to right. -/
abbrev Row := List String

/-- The width of each column, at least that of the given row. -/
def widths (header : Row) (rows : List Row) : List Nat :=
  rows.foldl (fun ws row => List.zipWith max ws (row.map Text.width)) (header.map Text.width)

/-- The cells of a row filled up to the widths of their columns. -/
def cells (ws : List Nat) (row : Row) : List (List Char) :=
  List.zipWith (fun w cell => Text.padEnd w cell.toList) ws row

/-- A row on a line. -/
def line (ws : List Nat) (row : Row) : List Char :=
  Text.trimEnd ((cells ws row).intersperse [' ', ' ']).flatten

/-- The row of dashes under the header. -/
def dashes (ws : List Nat) : Row := ws.map fun w => String.ofList (List.replicate w '-')

/-- The lines of a table. -/
def lines (header : Row) (rows : List Row) : List (List Char) :=
  let ws := widths header rows
  line ws header :: line ws (dashes ws) :: rows.map (line ws)

/-- The text of a table. -/
def render (header : Row) (rows : List Row) : String :=
  String.ofList ((lines header rows).flatMap fun l => l ++ ['\n'])

end RequestRunner.Table
