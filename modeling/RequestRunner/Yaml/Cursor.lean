import RequestRunner.Yaml.Scalar
import RequestRunner.Json.Reader

/-!
# Reading YAML, character by character

A cursor stands somewhere in a text and knows its column, since columns say how YAML nests. This
module reads what lies below the collections: the gaps between tokens, with their line breaks and
comments, and the scalars, quoted and plain. A scalar may reach over several lines; a single line
break inside it is a space, and each further one a line feed.

Every reader gives up (`none`) on malformed text.
-/

set_option autoImplicit false

namespace RequestRunner.Yaml

/-- A place in a text. -/
structure Cursor where
  /-- The text from here on. -/
  rest : List Char
  /-- The column, from zero. -/
  column : Nat

/-- A reader: it moves the cursor, or gives up. -/
abbrev Read (α : Type) := StateT Cursor Option α

/-- A blank within a line. -/
def isWhite (c : Char) : Bool := c == ' ' || c == '\t'

/-- A character that structures a flow collection. -/
def isFlowMark (c : Char) : Bool :=
  c == ',' || c == '[' || c == ']' || c == '\x7b' || c == '\x7d'

/-- The text is at its end, at a line break or at a blank. -/
def breaksHere : List Char → Bool
  | [] => true
  | c :: _ => isWhite c || c == '\n'

/-- The cursor behind a stretch of its line. -/
def Cursor.advance (cursor : Cursor) (n : Nat) : Cursor :=
  ⟨cursor.rest.drop n, cursor.column + n⟩

/-- The cursor stands at the beginning of a line that marks the end of the document or the beginning
of another one. -/
def Cursor.atMark (cursor : Cursor) : Bool :=
  cursor.column == 0 &&
    match cursor.rest with
    | '-' :: '-' :: '-' :: rest => breaksHere rest
    | '.' :: '.' :: '.' :: rest => breaksHere rest
    | _ => false

/-- Nothing of the document is left. -/
def Cursor.atEnd (cursor : Cursor) : Bool := cursor.rest.isEmpty || cursor.atMark

/-- What lies between two tokens. -/
structure Gap where
  /-- The number of line breaks. -/
  breaks : Nat
  /-- The spaces at the start of the last line, if a line break was crossed. -/
  indent : Nat
  /-- A tab stands among the blanks before the next token. -/
  tabbed : Bool
  /-- A comment was skipped. -/
  commented : Bool

/-- Skips blanks, comments and line breaks up to the next token. A comment begins a line or follows a
blank; `spaced` says that it may begin here. -/
def skipGap (spaced : Bool) (gap : Gap) : List Char → Nat → Gap × Cursor
  | [], column => (gap, ⟨[], column⟩)
  | c :: rest, column =>
    if c = '\n' then skipGap true ⟨gap.breaks + 1, 0, false, gap.commented⟩ rest 0
    else if c = ' ' then
      let deeper := gap.breaks != 0 && gap.indent == column
      skipGap true { gap with indent := if deeper then column + 1 else gap.indent } rest (column + 1)
    else if c = '\t' then skipGap true { gap with tabbed := true } rest (column + 1)
    else if c = '#' && spaced then
      skipComment { gap with commented := true } rest
    else (gap, ⟨c :: rest, column⟩)
where
  /-- Skips the rest of a comment, and the gap behind it. -/
  skipComment (gap : Gap) : List Char → Gap × Cursor
    | [] => (gap, ⟨[], 0⟩)
    | c :: rest =>
      if c = '\n' then skipGap true ⟨gap.breaks + 1, 0, false, gap.commented⟩ rest 0
      else skipComment gap rest

/-- The gap at the cursor. -/
def gap : Read Gap := fun cursor =>
  some (skipGap (cursor.column == 0) ⟨0, 0, false, false⟩ cursor.rest cursor.column)

/-- Skips the blanks at the cursor. -/
def whites : Read Unit := fun cursor =>
  some ((), cursor.advance (cursor.rest.takeWhile isWhite).length)

/-- What is left of the text. -/
def upcoming : Read (List Char) := do return (← get).rest

/-- Moves over characters of the line. -/
def skip (n : Nat) : Read Unit := modify fun cursor => cursor.advance n

/-- The text that folded line breaks stand for. -/
def fold (breaks : Nat) : List Char :=
  if breaks ≤ 1 then [' '] else List.replicate (breaks - 1) '\n'

/-- Drops the blanks at the end of a text that is kept back to front. -/
def dropWhites (done : List Char) : List Char := done.dropWhile isWhite

/-- Crosses line breaks inside a quoted scalar: how many there are, and the cursor behind the blanks
of the next line that has text, with the indentation of that line. -/
def crossBreaks (breaks indent : Nat) : List Char → Nat → Nat × Nat × Cursor
  | [], column => (breaks, indent, ⟨[], column⟩)
  | c :: rest, column =>
    if c = '\n' then crossBreaks (breaks + 1) 0 rest 0
    else if c = ' ' then
      crossBreaks breaks (if indent == column then column + 1 else indent) rest (column + 1)
    else if c = '\t' then crossBreaks breaks indent rest (column + 1)
    else (breaks, indent, ⟨c :: rest, column⟩)

/-- The text in single quotes, back to front, from behind the opening quote on. Lines that it goes on
to must be indented by `floor` columns. -/
def single (floor : Nat) : Nat → List Char → Read (List Char)
  | 0, _ => failure
  | n + 1, done => do
    match (← get).rest with
    -- two quotes are one quote of the text
    | '\'' :: '\'' :: _ =>
      skip 2
      single floor n ('\'' :: done)
    | '\'' :: _ =>
      skip 1
      pure done
    | '\n' :: _ =>
      let (breaks, indent, cursor) := crossBreaks 0 0 (← get).rest (← get).column
      guard (floor ≤ indent && !cursor.atMark)
      set cursor
      single floor n ((fold breaks).reverse ++ dropWhites done)
    | c :: _ =>
      skip 1
      single floor n (c :: done)
    | [] => failure

/-- The character that a one-letter escape in double quotes stands for. -/
def letterEscape? (c : Char) : Option Char :=
  match c with
  | '0' => some (Char.ofNat 0)
  | 'a' => some (Char.ofNat 7)
  | 'b' => some (Char.ofNat 8)
  | 'e' => some (Char.ofNat 0x1B)
  | 'f' => some (Char.ofNat 12)
  | 'n' => some '\n'
  | 'r' => some '\r'
  | 't' => some '\t'
  | 'v' => some (Char.ofNat 11)
  | 'N' => some (Char.ofNat 0x85)
  | '_' => some (Char.ofNat 0xA0)
  | 'L' => some (Char.ofNat 0x2028)
  | 'P' => some (Char.ofNat 0x2029)
  | ' ' => some ' '
  | '"' => some '"'
  | '/' => some '/'
  | '\\' => some '\\'
  | '\t' => some '\t'
  | _ => none

/-- The number of hexadecimal digits that an escape takes. -/
def escapeDigits? (c : Char) : Option Nat :=
  match c with
  | 'x' => some 2
  | 'u' => some 4
  | 'U' => some 8
  | _ => none

/-- The character of an escape and how many characters of the text it takes, the backslash not
counted. -/
def escape? : List Char → Option (Char × Nat)
  | [] => none
  | c :: rest =>
    match escapeDigits? c with
    | none => (letterEscape? c).map fun made => (made, 1)
    | some count =>
      let ds := rest.take count
      if ds.length < count then none
      else
        match Decimal.natOfBase? 16 ds with
        | none => none
        | some code =>
          -- two escapes of four digits may be the halves of one character
          if count == 4 then
            let (made, after) := Json.joinUnit code (rest.drop count)
            some (made, 1 + (rest.length - after.length))
          else if code < 0x110000 then some (Char.ofNat code, 1 + count)
          else none

/-- The text in double quotes, back to front, from behind the opening quote on. -/
def double (floor : Nat) : Nat → List Char → Read (List Char)
  | 0, _ => failure
  | n + 1, done => do
    match (← get).rest with
    | '"' :: _ =>
      skip 1
      pure done
    -- an escaped line break joins its lines without a space
    | '\\' :: '\n' :: _ =>
      skip 1
      let (breaks, indent, cursor) := crossBreaks 0 0 (← get).rest (← get).column
      guard (floor ≤ indent && !cursor.atMark)
      set cursor
      double floor n (List.replicate (breaks - 1) '\n' ++ done)
    | '\\' :: more =>
      match escape? more with
      | none => failure
      | some (made, count) =>
        skip (count + 1)
        double floor n (made :: done)
    | '\n' :: _ =>
      let (breaks, indent, cursor) := crossBreaks 0 0 (← get).rest (← get).column
      guard (floor ≤ indent && !cursor.atMark)
      set cursor
      double floor n ((fold breaks).reverse ++ dropWhites done)
    | c :: _ =>
      skip 1
      double floor n (c :: done)
    | [] => failure

/-- A quoted scalar at the cursor. -/
def quoted (floor : Nat) : Read Datum := do
  let rest ← upcoming
  match rest with
  | '\'' :: _ =>
    skip 1
    let text ← single floor (rest.length + 1) []
    pure (.text (String.ofList text.reverse))
  | '"' :: _ =>
    skip 1
    let text ← double floor (rest.length + 1) []
    pure (.text (String.ofList text.reverse))
  | _ => failure

/-- A colon ends a plain scalar: a blank follows it or, in a flow collection, one of its marks. -/
def endsKey (inFlow : Bool) (rest : List Char) : Bool :=
  breaksHere rest || (inFlow && (rest.head?.any isFlowMark))

/-- The part of a plain scalar on its line, back to front, with the blanks behind it. -/
def plainLine (inFlow : Bool) (done : List Char) : List Char → List Char
  | [] => done
  | c :: rest =>
    if c = '\n' then done
    else if c = ':' && endsKey inFlow rest then done
    -- a comment needs a blank before it
    else if c = '#' && (done.head?.any isWhite) then done
    else if inFlow && isFlowMark c then done
    else plainLine inFlow (c :: done) rest

/-- A plain scalar may begin with the text. -/
def beginsPlain (inFlow : Bool) : List Char → Bool
  | [] => false
  | c :: rest =>
    if c == '-' || c == '?' || c == ':' then !endsKey inFlow rest
    else !(isFlowMark c || isWhite c || "\n#&*!|>'\"%@\x60".toList.contains c)

/-- The text of a plain scalar on the line of the cursor, without the blanks behind it. -/
def plainOnLine (inFlow : Bool) : Read (List Char) := do
  let text := dropWhites (plainLine inFlow [] (← upcoming))
  skip text.length
  pure text.reverse

/-- What a plain scalar goes on with on later lines. A comment ends it, and so does a line that is
indented less than `floor` columns. -/
def plainMore (inFlow : Bool) (floor : Nat) : Nat → List Char → Read (List Char)
  | 0, _ => failure
  | n + 1, done => do
    let before ← get
    let between ← gap
    let cursor ← get
    let next := cursor.rest.head?
    let goesOn := between.breaks != 0 && floor ≤ between.indent && !between.commented &&
      !cursor.atEnd && next != some '#' && !(inFlow && next.any isFlowMark) &&
      !(next == some ':' && endsKey inFlow cursor.rest.tail)
    if goesOn then
      let line ← plainOnLine inFlow
      plainMore inFlow floor n (done ++ fold between.breaks ++ line)
    else
      set before
      pure done

/-- A plain scalar at the cursor, over all its lines. -/
def plain (inFlow : Bool) (floor : Nat) : Read Datum := do
  let rest ← upcoming
  guard (beginsPlain inFlow rest)
  let first ← plainOnLine inFlow
  let text ← plainMore inFlow floor (rest.length + 1) first
  pure (ofPlain text)

end RequestRunner.Yaml
