import RequestRunner.Document.Selection

/-!
# What is wrong with a source

The ways in which a source fails to be a document, each with the selection it is found at. A reader
that goes on behind another one fails where the first of the two fails (`bind_eq_ok`,
`bind_eq_error`).
-/

set_option autoImplicit false

namespace RequestRunner

/-- The two kinds of handler scripts. -/
inductive Marker where
  /-- A script that runs before the request. -/
  | before
  /-- A script that handles the response. -/
  | after
  deriving DecidableEq, Repr

/-- The character that marks a handler. -/
def Marker.char : Marker → Char
  | .before => '<'
  | .after => '>'

/-- A fault of a source. -/
inductive Malformation where
  /-- A section has content but no request. -/
  | missingRequestLine
  /-- A declaration stands where the request is expected. -/
  | misplacedDeclaration
  /-- A declaration line without name, equals sign or single-line value. -/
  | invalidDeclaration
  /-- Text stands behind the closing delimiter of a handler. -/
  | textAfterHandler (marker : Marker)
  /-- A handler has no closing delimiter. -/
  | unterminatedHandler
  /-- An upper-case word that is no method. -/
  | unsupportedMethod (word : String)
  /-- A method without a target. -/
  | missingTarget
  /-- A line among the headers that is no header. -/
  | expectedHeader
  /-- Text behind the response handler. -/
  | unexpectedContent
  deriving DecidableEq, Repr

/-- The wording of a fault. -/
def Malformation.detail : Malformation → String
  | missingRequestLine => "missing request line"
  | misplacedDeclaration => "variable declarations must precede the pre-request handler"
  | invalidDeclaration => "invalid variable declaration, expected `@name = value`"
  | textAfterHandler m =>
    "unexpected text after `" ++ m.char.toString ++ " \x7b% ... %\x7d` handler"
  | unterminatedHandler => "unterminated handler, expected `%\x7d`"
  | unsupportedMethod word => "unsupported method `" ++ word ++ "`"
  | missingTarget => "missing request target"
  | expectedHeader => "expected header, blank line or response handler"
  | unexpectedContent => "unexpected content after response handler"

/-- A fault and where it is. -/
structure ParseError where
  /-- What is wrong. -/
  cause : Malformation
  /-- The text at fault. -/
  selection : Selection
  deriving DecidableEq, Repr

/-- The message: the fault and its place. -/
def ParseError.message (e : ParseError) : String :=
  e.cause.detail ++ " at " ++ e.selection.describe

/-- A step that goes on behind another one gives a result exactly if both steps give one. -/
theorem bind_eq_ok {ε α β : Type} {first : Except ε α} {next : α → Except ε β} {result : β} :
    first >>= next = .ok result ↔ ∃ a, first = .ok a ∧ next a = .ok result := by
  cases first with
  | error e =>
    refine iff_of_false nofun ?_
    rintro ⟨_, ⟨⟩, -⟩
  | ok a =>
    constructor
    · exact fun h => ⟨a, rfl, h⟩
    · rintro ⟨_, ⟨⟩, h⟩
      exact h

/-- A step that goes on behind another one fails if the first of them does, or the second one behind
it. -/
theorem bind_eq_error {ε α β : Type} {first : Except ε α} {next : α → Except ε β} {e : ε} :
    first >>= next = .error e ↔ first = .error e ∨ ∃ a, first = .ok a ∧ next a = .error e := by
  cases first with
  | error other =>
    constructor
    · rintro ⟨⟩
      exact Or.inl rfl
    · rintro (⟨⟨⟩⟩ | ⟨_, ⟨⟩, -⟩)
      rfl
  | ok a =>
    constructor
    · exact fun h => Or.inr ⟨a, rfl, h⟩
    · rintro (⟨⟨⟩⟩ | ⟨_, ⟨⟩, h⟩)
      exact h

end RequestRunner
