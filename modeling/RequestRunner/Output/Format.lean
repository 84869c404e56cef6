import RequestRunner.Fault
import RequestRunner.Message
import RequestRunner.Report
import RequestRunner.Json.Reader

/-!
# Output formats

A format says what is printed of a request or a response: directives, each a percent sign and a
letter, with literal text between them. A doubled percent sign is a literal one.

`Format.read` reads a format, `Format.written` writes it back, `Format.renderRequest` and
`Format.renderResponse` produce the pieces that are printed.
-/

set_option autoImplicit false

namespace RequestRunner

/-- A piece of a format. -/
inductive FormatItem where
  /-- The first line of the message. -/
  | firstLine
  /-- The header lines. -/
  | headers
  /-- The body. -/
  | body
  /-- The test results. -/
  | tests
  /-- The name of the request. -/
  | name
  /-- Literal text. -/
  | chars (text : String)
  deriving DecidableEq, Repr

/-- A format: its pieces in order. -/
abbrev Format := List FormatItem

namespace Format

/-- The directive of a letter. -/
def directive? : Char → Option FormatItem
  | 'R' => some .firstLine
  | 'H' => some .headers
  | 'B' => some .body
  | 'T' => some .tests
  | 'N' => some .name
  | _ => none

/-- Literal characters as a piece, if there are any. -/
def literal : List Char → Format
  | [] => []
  | cs => [.chars (String.ofList cs)]

/-- Reads what is left of a format behind literal characters that are not yet a piece. -/
def readFrom (format : String) (pending : List Char) : List Char → Except Misconfiguration Format
  | [] => .ok (literal pending)
  | '%' :: '%' :: rest => readFrom format (pending ++ ['%']) rest
  | '%' :: c :: rest =>
    match directive? c with
    | none => .error (.unknownDirective c)
    | some item => (readFrom format [] rest).map fun items => literal pending ++ item :: items
  | '%' :: [] => .error (.danglingDirective format)
  | c :: rest => readFrom format (pending ++ [c]) rest

/-- Reads a format. -/
def read (format : String) : Except Misconfiguration Format :=
  readFrom format [] format.toList

/-- A piece as it is written in a format. -/
def writtenItem : FormatItem → List Char
  | .firstLine => ['%', 'R']
  | .headers => ['%', 'H']
  | .body => ['%', 'B']
  | .tests => ['%', 'T']
  | .name => ['%', 'N']
  | .chars text => text.toList.flatMap fun c => if c = '%' then ['%', '%'] else [c]

/-- A format as it is written. -/
def written (format : Format) : String := String.ofList (format.flatMap writtenItem)

/-- A format as typed on a command line: the two-character escapes of a line feed and a tab become
the characters they stand for. -/
def unescape (format : String) : String :=
  String.ofList
    (Text.replaceEach '\\' 't' '\t' (Text.replaceEach '\\' 'n' '\n' format.toList))

/-- Header lines. -/
def headerLines (headers : List HeaderField) : String :=
  String.join (headers.map fun (name, value) => name ++ ": " ++ value ++ "\n")

/-- A body as it is printed: a JSON object on indented lines, anything else as it is. -/
def bodyText : Option String → String
  | none => ""
  | some body =>
    match Json.readObject? body with
    | some fields => (Json.object fields).pretty
    | none => body

/-- What is printed of a request for a piece of its format. -/
def requestPiece (request : Request) (name : String) : FormatItem → String
  | .firstLine => request.firstLine
  | .headers => headerLines request.headers
  | .body => bodyText request.body
  | .tests => ""
  | .name => "[" ++ name ++ "]"
  | .chars text => text

/-- What is printed of a response for a piece of its format. -/
def responsePiece (response : Response) (report : Report) : FormatItem → String
  | .firstLine => response.firstLine
  | .headers => headerLines response.headers
  | .body => bodyText response.body
  | .tests => report.describe
  | .name => ""
  | .chars text => text

/-- The pieces printed of a request; empty ones are left out. -/
def renderRequest (format : Format) (request : Request) (name : String) : List String :=
  (format.map (requestPiece request name)).filter fun text => !text.isEmpty

/-- The pieces printed of a response; empty ones are left out. -/
def renderResponse (format : Format) (response : Response) (report : Report) : List String :=
  (format.map (responsePiece response report)).filter fun text => !text.isEmpty

end Format

end RequestRunner
