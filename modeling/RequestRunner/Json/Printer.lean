import RequestRunner.Json.Value
import RequestRunner.Decimal.Notation

/-!
# Printing JSON

`compact` writes a value without any space, `pretty` on indented lines, two columns a level. A number
is written in the common notation; what is no finite number is written as null. In strings the two
delimiters and the control characters are escaped, everything else is written as it is.
-/

set_option autoImplicit false

namespace RequestRunner.Json

/-- Four lower-case hexadecimal digits. -/
def hex4 (n : Nat) : List Char :=
  let ds := Nat.toDigits 16 n
  List.replicate (4 - ds.length) '0' ++ ds

/-- The written form of one character inside a string. -/
def escape (c : Char) : List Char :=
  let n := c.toNat
  if c = '"' then ['\\', '"']
  else if c = '\\' then ['\\', '\\']
  else if n = 8 then ['\\', 'b']
  else if n = 9 then ['\\', 't']
  else if n = 10 then ['\\', 'n']
  else if n = 12 then ['\\', 'f']
  else if n = 13 then ['\\', 'r']
  else if n < 0x20 then '\\' :: 'u' :: hex4 n
  else [c]

/-- A string between its delimiters. -/
def quote (s : String) : String :=
  String.ofList ('"' :: (s.toList.flatMap escape ++ ['"']))

/-- The text of a number; only finite numbers have one. -/
def numberText (x : Float) : String :=
  if x.isNaN || x.isInf then "null" else Decimal.text x

/-- Items between two brackets, separated by commas. -/
def bracket (opening closing : String) (items : List String) : String :=
  opening ++ String.intercalate "," items ++ closing

/-- Items between two brackets on lines of their own, at a given depth; nothing is put between the
brackets of an empty value. -/
def bracketLines (opening closing : String) (depth : Nat) (items : List String) : String :=
  if items.isEmpty then opening ++ closing
  else
    let margin (n : Nat) : String := "\n" ++ String.ofList (List.replicate (2 * n) ' ')
    opening ++ margin (depth + 1) ++ String.intercalate ("," ++ margin (depth + 1)) items ++
      margin depth ++ closing

mutual

/-- The value without any space. -/
def compact : Json → String
  | null => "null"
  | bool b => if b then "true" else "false"
  | number x => numberText x
  | text s => quote s
  | array items => bracket "[" "]" (compactItems items)
  | object fields => bracket "\x7b" "\x7d" (compactFields fields)

/-- The written items of an array. -/
def compactItems : List Json → List String
  | [] => []
  | item :: rest => compact item :: compactItems rest

/-- The written fields of an object. -/
def compactFields : List (String × Json) → List String
  | [] => []
  | (name, value) :: rest => (quote name ++ ":" ++ compact value) :: compactFields rest

end

mutual

/-- The value on indented lines, at a given depth. -/
def prettyAt (depth : Nat) : Json → String
  | null => "null"
  | bool b => if b then "true" else "false"
  | number x => numberText x
  | text s => quote s
  | array items => bracketLines "[" "]" depth (prettyItems depth items)
  | object fields => bracketLines "\x7b" "\x7d" depth (prettyFields depth fields)

/-- The written items of an array. -/
def prettyItems (depth : Nat) : List Json → List String
  | [] => []
  | item :: rest => prettyAt (depth + 1) item :: prettyItems depth rest

/-- The written fields of an object. -/
def prettyFields (depth : Nat) : List (String × Json) → List String
  | [] => []
  | (name, value) :: rest =>
    (quote name ++ ": " ++ prettyAt (depth + 1) value) :: prettyFields depth rest

end

/-- The value on indented lines. -/
def pretty (value : Json) : String := prettyAt 0 value

end RequestRunner.Json
