import RequestRunner.Document.Basic
import RequestRunner.Document.Line
import RequestRunner.Document.ParseError

/-!
# Reading a section

A section is read from its lines in one direction. Each reader takes the lines that are left, uses
some of them and hands on the rest: declarations, the script before the request, the request line
with its continuations, headers, body, the response handler. Blank lines and comments between the
parts are skipped.

`readSection` reads a whole section; a section without a significant line holds nothing.
-/

set_option autoImplicit false

namespace RequestRunner

/-- The lines of one section and the separator that opened it. -/
structure SectionLines where
  /-- The separator; the lines before the first separator have none. -/
  separator : Option Line
  /-- The lines behind it. -/
  lines : List Line
  deriving DecidableEq, Repr

/-- The lines before the first separator, and the sections that separators open. -/
def groupSections : List Line → List Line × List SectionLines
  | [] => ([], [])
  | line :: rest =>
    let (head, sections) := groupSections rest
    if line.isSeparator then ([], ⟨some line, head⟩ :: sections) else (line :: head, sections)

/-- The sections of a source, the first one without separator. -/
def sectionsOf (lines : List Line) : List SectionLines :=
  let (head, sections) := groupSections lines
  ⟨none, head⟩ :: sections

/-- The name on a separator; blanks alone are no name. -/
def SectionLines.name (s : SectionLines) : Option String :=
  match s.separator with
  | none => none
  | some line =>
    match Text.trim (line.text.drop 3) with
    | [] => none
    | name => some (String.ofList name)

/-- The lines behind blank lines and comments. -/
def skipTrivia (lines : List Line) : List Line := lines.dropWhile Line.isTrivia

/-- The first character of a declared name. -/
def isNameStart (c : Char) : Bool := c.isAlpha || c == '_' || c == '$'

/-- A further character of a declared name. -/
def isNamePart (c : Char) : Bool := c.isAlphanum || c == '_' || c == '$' || c == '.' || c == '-'

/-- The name of a declaration line, the text up to its value, and the value. -/
def declarationParts? (text : List Char) : Option (List Char × List Char × List Char) :=
  let indent := Text.leadingBlank text
  match Text.trimStart text with
  | '@' :: c :: rest =>
    if isNameStart c then
      let name := c :: rest.takeWhile isNamePart
      let tail := rest.dropWhile isNamePart
      let gap := Text.leadingBlank tail
      match Text.trimStart tail with
      | '=' :: value =>
        let raw := Text.trim value
        if raw.any Text.isLineEnd then none
        else
          -- without a value, the place of the value is the end of the line
          let lead := if raw.isEmpty then value else Text.leadingBlank value
          some (name, indent ++ '@' :: name ++ gap ++ '=' :: lead, raw)
      | _ => none
    else none
  | _ => none

/-- The declarations at the start of the lines. Blank lines and comments between them are skipped,
also those behind the last. -/
def readDeclarations (filename : String) :
    List Line → Except ParseError (List Declaration × List Line)
  | [] => .ok ([], [])
  | line :: rest =>
    if line.isTrivia then readDeclarations filename rest
    else if line.opensDeclaration then
      match declarationParts? line.text with
      | none => .error ⟨.invalidDeclaration, line.select filename⟩
      | some (name, lead, raw) => do
        let value := Template.ofText filename raw ⟨line.number, Text.units lead + 1⟩
        let (more, rest) ← readDeclarations filename rest
        pure ((String.ofList name, value) :: more, rest)
    else .ok ([], line :: rest)

/-- The script text that is left of a handler: on the current line, the text behind what is already
read, and on the lines below. Also the position behind the closing delimiter and the lines left. -/
def readScript (filename : String) (marker : Marker) (opening : Selection) :
    Line → List Char → List Line → Except ParseError (List Char × Position × List Line)
  | line, inside, more =>
    match Text.cut? ['%', '\x7d'] inside with
    | some (script, trailing) =>
      if Text.allBlank trailing then
        .ok (script, ⟨line.number, Text.units line.text - Text.units trailing + 1⟩, more)
      else .error ⟨.textAfterHandler marker, line.select filename⟩
    | none =>
      match more with
      -- the section ends inside the script
      | [] => .error ⟨.unterminatedHandler, opening⟩
      | next :: rest => do
        let (script, stop, left) ← readScript filename marker opening next next.text rest
        pure (inside ++ '\n' :: script, stop, left)

/-- The handler that a line opens. -/
def readHandler (filename : String) (marker : Marker) (line : Line) (more : List Line) :
    Except ParseError (Handler × List Line) :=
  let (before, inside) := (Text.cut? ['\x7b', '%'] line.text).getD ([], line.text)
  let start : Position := ⟨line.number, line.firstColumn⟩
  let opening : Selection := ⟨filename, start, ⟨line.number, Text.units before + 3⟩⟩
  do
    let (script, stop, left) ← readScript filename marker opening line inside more
    pure (⟨String.ofList (Text.trim script), ⟨filename, start, stop⟩⟩, left)

/-- The handler at the start of the lines, if the first significant line opens one. -/
def readHandler? (filename : String) (marker : Marker) (lines : List Line) :
    Except ParseError (Option Handler × List Line) :=
  match skipTrivia lines with
  | [] => .ok (none, [])
  | line :: more =>
    if line.opensScript marker.char then do
      let (handler, left) ← readHandler filename marker line more
      pure (some handler, left)
    else .ok (none, line :: more)

/-- The parts of a request line: the indentation, the first word, and the text behind the word as
its leading blanks and the remainder, if there is any. -/
structure RequestLine where
  /-- The indentation. -/
  indent : List Char
  /-- The first word. -/
  word : List Char
  /-- The blanks behind the word and what follows them. -/
  tail : Option (List Char × List Char)
  deriving DecidableEq, Repr

/-- The parts of a request line. A line break character behind the first blanks makes it none. -/
def requestLine? (text : List Char) : Option RequestLine :=
  let indent := Text.leadingBlank text
  let content := Text.trimStart text
  let word := content.takeWhile fun c => !Text.isBlank c
  let tail := content.dropWhile fun c => !Text.isBlank c
  if word.isEmpty then none
  else if tail.isEmpty then some ⟨indent, word, none⟩
  else
    let remainder := Text.trimStart tail
    if remainder.any Text.isLineEnd then none
    else some ⟨indent, word, some (Text.leadingBlank tail, remainder)⟩

/-- The method, where it is written, and the target as far as it stands on the request line, with
its column. -/
structure TargetStart where
  /-- The method; a request is a retrieval when none is written. -/
  method : Method
  /-- Where the method is written. -/
  methodSelection : Selection
  /-- The column of the target. -/
  column : Nat
  /-- The text of the target so far. -/
  text : List Char
  deriving DecidableEq, Repr

/-- What a request line says. A first word in capitals has to be a method with a target behind it;
any other word begins the target. -/
def readRequestLine (filename : String) (line : Line) : Except ParseError TargetStart :=
  match requestLine? line.text with
  | none => .error ⟨.missingRequestLine, line.select filename⟩
  | some parts =>
    let column := Text.units parts.indent + 1
    -- capitals are meant as a method, even when there is no such method
    if parts.word.all Char.isUpper then
      let behind := column + Text.units parts.word
      let selection : Selection := ⟨filename, ⟨line.number, column⟩, ⟨line.number, behind⟩⟩
      match Method.ofName? (String.ofList parts.word), parts.tail with
      | none, _ => .error ⟨.unsupportedMethod (String.ofList parts.word), selection⟩
      | some _, none => .error ⟨.missingTarget, selection⟩
      | some method, some (gap, remainder) =>
        if remainder.isEmpty then .error ⟨.missingTarget, selection⟩
        else .ok ⟨method, selection, behind + Text.units gap, remainder⟩
    else
      let tail := match parts.tail with
        | none => []
        | some (gap, remainder) => gap ++ remainder
      .ok ⟨.get, Selection.none, column, parts.word ++ tail⟩

/-- A target grows by indented lines until it ends with a version token. -/
def extendTarget (text : List Char) : List Line → List Char × List Line
  | [] => (text, [])
  | line :: rest =>
    -- the version token ends the target, whatever is indented below it
    if endsWithVersion text then (text, line :: rest)
    else if line.continuesTarget then extendTarget (text ++ '\n' :: line.text) rest
    else (text, line :: rest)

/-- The target without its version token and trailing blanks. -/
def cleanTarget (text : List Char) : List Char := Text.trimEnd (dropVersion text)

/-- The parts of a header line: indentation, name, and the text behind the colon. -/
def headerParts? (text : List Char) : Option (List Char × List Char × List Char) :=
  let indent := Text.leadingBlank text
  let content := Text.trimStart text
  let inName (c : Char) : Bool := !Text.isBlank c && c != ':'
  let name := content.takeWhile inName
  if name.isEmpty then none
  else
    match Text.trimStart (content.dropWhile inName) with
    | ':' :: raw => if raw.any Text.isLineEnd then none else some (indent, name, raw)
    | _ => none

/-- The header on a line. -/
def readHeader? (filename : String) (line : Line) : Option Header :=
  (headerParts? line.text).map fun (indent, name, raw) =>
    let value := Text.trim raw
    let column :=
      if value.isEmpty then Text.units line.text + 1
      else Text.units line.text - Text.units (Text.trimStart raw) + 1
    ⟨String.ofList name, Template.ofText filename value ⟨line.number, column⟩,
      ⟨filename, ⟨line.number, Text.units indent + 1⟩, line.stop⟩⟩

/-- The headers up to a blank line or a response handler; comments between them are skipped. -/
def readHeaders (filename : String) : List Line → Except ParseError (List Header × List Line)
  | [] => .ok ([], [])
  | line :: rest =>
    if line.isBlank || line.opensHandler then .ok ([], line :: rest)
    else if line.isComment then readHeaders filename rest
    else
      match readHeader? filename line with
      | none => .error ⟨.expectedHeader, line.select filename⟩
      | some header => do
        let (more, rest) ← readHeaders filename rest
        pure (header :: more, rest)

/-- The lines of a body among the lines before the response handler: from the first that is not
blank to the last significant one, and on to the end of its block of lines that are not blank. -/
def bodyLines (lines : List Line) : List Line :=
  let lines := lines.dropWhile Line.isBlank
  let trailing := lines.reverse.takeWhile Line.isTrivia
  let kept := lines.reverse.dropWhile Line.isTrivia
  if kept.isEmpty then []
  -- comments that touch the last significant line belong to the body
  else kept.reverse ++ trailing.reverse.takeWhile fun line => !line.isBlank

/-- The body among the lines before the response handler, if a significant line is among them. -/
def readBody (filename : String) (lines : List Line) : Option Template :=
  match bodyLines lines with
  | [] => none
  | first :: rest =>
    let text := Text.joinWith ['\n'] ((first :: rest).map Line.text)
    some (Template.ofText filename (Text.trimEnd text) ⟨first.number, 1⟩)

/-- The request that starts on a line, and the lines behind its body. -/
def readRequest (filename : String) (line : Line) (more : List Line) :
    Except ParseError (RequestTemplate × List Line) := do
  let start ← readRequestLine filename line
  let (text, rest) := extendTarget start.text more
  let target := Template.ofText filename (cleanTarget text) ⟨line.number, start.column⟩
  let (headers, rest) ← readHeaders filename rest
  let inBody (l : Line) : Bool := !l.opensHandler
  let body := readBody filename (rest.takeWhile inBody)
  -- a request stops where the last of its parts stops
  let stop := match body, headers.getLast? with
    | some body, _ => body.selection.stop
    | none, some header => header.selection.stop
    | none, none => line.stop
  pure (⟨start.method, start.methodSelection, target, headers, body,
    ⟨filename, ⟨line.number, line.firstColumn⟩, stop⟩⟩, rest.dropWhile inBody)

/-- The first line that a request can stand on: neither a handler nor a declaration. When nothing is
left, the last significant line is at fault. -/
def expectRequest (filename : String) (last : Line) (lines : List Line) :
    Except ParseError (Line × List Line) :=
  match skipTrivia lines with
  | [] => .error ⟨.missingRequestLine, last.select filename⟩
  | line :: more =>
    if line.opensHandler || line.opensPreHandler then
      .error ⟨.missingRequestLine, line.select filename⟩
    else if line.opensDeclaration then .error ⟨.misplacedDeclaration, line.select filename⟩
    else .ok (line, more)

/-- Nothing significant may be left behind the response handler. -/
def expectNothing (filename : String) (lines : List Line) : Except ParseError Unit :=
  match skipTrivia lines with
  | [] => .ok ()
  | line :: _ => .error ⟨.unexpectedContent, line.select filename⟩

/-- Reads a section whose first and last significant lines are given. -/
def readSignificant (filename : String) (source : SectionLines) (first last : Line) :
    Except ParseError RequestSection := do
  let (declarations, rest) ← readDeclarations filename source.lines
  let (preHandler, rest) ← readHandler? filename .before rest
  let (line, rest) ← expectRequest filename last rest
  let (request, rest) ← readRequest filename line rest
  let (handler, rest) ← readHandler? filename .after rest
  expectNothing filename rest
  -- a section starts at its separator, the first one at its first significant line
  let start := source.separator.getD first
  pure ⟨source.name, declarations, preHandler, request, handler,
    ⟨filename, ⟨start.number, 1⟩, last.stop⟩⟩

/-- Reads a section. Without a significant line it holds no request. -/
def readSection (filename : String) (source : SectionLines) :
    Except ParseError (Option RequestSection) :=
  match source.lines.filter fun line => !line.isTrivia with
  | [] => .ok none
  | first :: more => do
    let section_ ← readSignificant filename source first (more.getLast?.getD first)
    pure (some section_)

end RequestRunner
