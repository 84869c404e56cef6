/-!
# Blank characters

The characters that count as blank wherever lines are classified and texts are trimmed: the ASCII
blanks, the space separators of the general category `Zs`, the two line separators and the byte
order mark. `trimStart`, `trimEnd` and `trim` cut them off the ends of a text, `strip` removes them
everywhere.

Main statements: a trimmed end carries no blank (`trimStart_head_not_blank`), and trimming only
splits off a blank stretch (`blank_append_trimStart`, `trimEnd_append_blank`).
-/

set_option autoImplicit false

namespace RequestRunner.Text

/-- A blank: tab to carriage return, the space separators, the line and paragraph separators, and
the byte order mark. -/
def isBlank (c : Char) : Bool :=
  let n := c.toNat
  (0x9 ≤ n && n ≤ 0xD) || n == 0x20 || n == 0xA0 || n == 0x1680 || (0x2000 ≤ n && n ≤ 0x200A) ||
    n == 0x2028 || n == 0x2029 || n == 0x202F || n == 0x205F || n == 0x3000 || n == 0xFEFF

/-- A character that ends a line of running text: such a character never lies inside the value of a
single-line construct. -/
def isLineEnd (c : Char) : Bool :=
  let n := c.toNat
  n == 0xA || n == 0xD || n == 0x2028 || n == 0x2029

/-- The text has no character but blanks. -/
def allBlank (s : List Char) : Bool := s.all isBlank

/-- The text without its leading blanks. -/
def trimStart (s : List Char) : List Char := s.dropWhile isBlank

/-- The leading blanks of the text. -/
def leadingBlank (s : List Char) : List Char := s.takeWhile isBlank

/-- The text without its trailing blanks. -/
def trimEnd (s : List Char) : List Char := (s.reverse.dropWhile isBlank).reverse

/-- The trailing blanks of the text. -/
def trailingBlank (s : List Char) : List Char := (s.reverse.takeWhile isBlank).reverse

/-- The text without blanks at either end. -/
def trim (s : List Char) : List Char := trimEnd (trimStart s)

/-- The text without any blank. -/
def strip (s : List Char) : List Char := s.filter fun c => !isBlank c

/-- Trimming on strings. -/
def trimString (s : String) : String := String.ofList (trim s.toList)

/-- Removal of every blank, on strings. -/
def stripString (s : String) : String := String.ofList (strip s.toList)

/-- **Trimming at the start splits off the leading blanks.** -/
theorem blank_append_trimStart (s : List Char) : leadingBlank s ++ trimStart s = s :=
  List.takeWhile_append_dropWhile

/-- **Trimming at the end splits off the trailing blanks.** -/
theorem trimEnd_append_blank (s : List Char) : trimEnd s ++ trailingBlank s = s := by
  rw [trimEnd, trailingBlank, ← List.reverse_append, List.takeWhile_append_dropWhile,
    List.reverse_reverse]

/-- **A text trimmed at the start does not begin with a blank.** -/
theorem trimStart_head_not_blank (s : List Char) (c : Char) (r : List Char)
    (h : trimStart s = c :: r) : isBlank c = false := by
  induction s with
  | nil => simp [trimStart] at h
  | cons d t ih =>
    by_cases hd : isBlank d = true
    · exact ih (by simpa [trimStart, List.dropWhile, hd] using h)
    · simp only [trimStart, List.dropWhile, hd] at h
      injection h with h₁ _
      subst h₁
      simpa using hd

end RequestRunner.Text
