import RequestRunner.Generator.Entropy
import RequestRunner.Text.Blank
import RequestRunner.Text.Search

/-!
# Generator calls written out

A placeholder may call a generator by its name, without any script: `Generator.ofScript?` reads such
a call. Only literal arguments are understood, and a call that cannot succeed, because an argument is
malformed or a range is empty, is no call at all.
-/

set_option autoImplicit false

namespace RequestRunner

/-- A dotted name and the text between the parentheses, if there are any. -/
structure WrittenCall where
  /-- The name behind the dollar sign. -/
  name : List Char
  /-- The written arguments. -/
  arguments : Option (List Char)
  deriving DecidableEq, Repr

namespace WrittenCall

/-- A further character of a generator name. -/
def isNamePart (c : Char) : Bool := c.isAlphanum || c == '_' || c == '.'

/-- Reads a call: a dollar sign, a name that starts with a letter, and perhaps arguments in
parentheses that hold no parenthesis. -/
def read? (s : List Char) : Option WrittenCall :=
  match s with
  | '$' :: c :: rest =>
    if c.isAlpha then
      let name := c :: rest.takeWhile isNamePart
      match Text.trimStart (rest.dropWhile isNamePart) with
      | [] => some ⟨name, none⟩
      | '(' :: inner =>
        match inner.reverse with
        | ')' :: body =>
          if body.any fun c => c == '(' || c == ')' then none else some ⟨name, some body.reverse⟩
        | _ => none
      | _ => none
    else none
  | _ => none

/-- Digits and nothing else. -/
def isLength (s : List Char) : Bool := !s.isEmpty && s.all Decimal.isDigit

/-- Digits, perhaps with a minus sign. -/
def isInteger : List Char → Bool
  | '-' :: s => isLength s
  | s => isLength s

/-- Digits, perhaps with a minus sign and a fraction. -/
def isFloat (s : List Char) : Bool :=
  let magnitude := match s with
    | '-' :: r => r
    | r => r
  let whole := magnitude.takeWhile Decimal.isDigit
  !whole.isEmpty &&
    match magnitude.dropWhile Decimal.isDigit with
    | [] => true
    | '.' :: fraction => isLength fraction
    | _ => false

/-- The numbers between commas, if every one is written as expected. No arguments, and blank ones,
are no numbers. -/
def numbers? (expected : List Char → Bool) : Option (List Char) → Option (List Float)
  | none => some []
  | some text =>
    if Text.allBlank text then some []
    else
      let parts := (Text.splitOn ',' text).map Text.trim
      if parts.all expected then some (parts.map Decimal.ofText) else none

/-- The bounds of a range: none, a bound above zero, or two bounds that hold a number between
them. -/
def bounds? : List Float → Option (Argument × Argument)
  | [] => some (.absent, .absent)
  | [high] => if 0 ≥ high then none else some (.number 0, .number high)
  | [low, high] => if low ≥ high then none else some (.number low, .number high)
  | _ => none

/-- The call of a generator that takes a length. -/
def lengthCall? (make : Argument → Generator) (arguments : Option (List Char)) :
    Option Generator :=
  match numbers? isLength arguments with
  | some [x] => some (make (.number x))
  | _ => none

/-- The generator that is called. -/
def generator? (call : WrittenCall) : Option Generator :=
  let bare (g : Generator) : Option Generator := if call.arguments.isNone then some g else none
  let ranged (expected : List Char → Bool) (make : Argument → Argument → Generator) :
      Option Generator := do
    let (first, second) ← bounds? (← numbers? expected call.arguments)
    pure (make first second)
  match String.ofList call.name with
  | "uuid" => bare .uuid
  | "random.uuid" => bare .uuid
  | "timestamp" => bare .timestamp
  | "isoTimestamp" => bare .isoTimestamp
  | "random.email" => bare .email
  | "random.integer" => ranged isInteger .integer
  | "random.float" => ranged isFloat .float
  | "random.alphabetic" => lengthCall? .alphabetic call.arguments
  | "random.alphanumeric" => lengthCall? .alphanumeric call.arguments
  | "random.hexadecimal" => lengthCall? .hexadecimal call.arguments
  | _ => none

end WrittenCall

namespace Generator

/-- The generator call that a placeholder's script spells. -/
def ofScript? (script : String) : Option Generator :=
  (WrittenCall.read? (Text.trim script.toList)).bind WrittenCall.generator?

/-- Makes the value of a written call; a script that is no call has none. A number too large for
any range is refused by the generator itself. -/
def runScript (now : Int) (script : String) (entropy : Entropy) :
    Except GeneratorError (Option String) × Entropy :=
  match ofScript? script with
  | none => (.ok none, entropy)
  | some call =>
    match call.run now entropy with
    | (.ok value, entropy) => (.ok (some value.toText), entropy)
    | (.error e, entropy) => (.error e, entropy)

end Generator

end RequestRunner
