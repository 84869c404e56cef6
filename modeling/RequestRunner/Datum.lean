import RequestRunner.Json.Printer
import RequestRunner.Decimal.Numeral
import RequestRunner.Generator.Basic

/-!
# Loose values

Values that come from outside and may hold what JSON cannot: undefined values, functions and
symbols, also inside arrays and objects. `Datum.text?` is the plain text of such a value,
`Datum.json?` its copy as JSON, and `Datum.stringify?` the text it is substituted as.

The only function is the one that takes nothing and returns one.

Main statement: a copy as JSON of a JSON value is there (`json?_ofJson_isSome`).
-/

set_option autoImplicit false

namespace RequestRunner

/-- A loose value. -/
inductive Datum where
  | undefined
  | null
  | bool (b : Bool)
  | number (x : Float)
  | text (s : String)
  /-- The function that returns one. -/
  | function
  | symbol
  | array (items : List Datum)
  | object (fields : List (String × Datum))
  deriving Inhabited

/-- Why a value has no text. -/
inductive TextError where
  /-- A symbol inside an array. -/
  | symbol
  /-- An object whose conversions are no functions. -/
  | object
  deriving DecidableEq

/-- The wording of a failed conversion. -/
def TextError.message : TextError → String
  | symbol => "Cannot convert a Symbol value to a string"
  | object => "Cannot convert object to primitive value"

namespace Datum

mutual

/-- A JSON value as a loose value. -/
def ofJson : Json → Datum
  | .null => null
  | .bool b => bool b
  | .number x => number x
  | .text s => text s
  | .array items => array (ofJsonItems items)
  | .object fields => object (ofJsonFields fields)

/-- The items of an array as loose values. -/
def ofJsonItems : List Json → List Datum
  | [] => []
  | item :: rest => ofJson item :: ofJsonItems rest

/-- The fields of an object as loose values. -/
def ofJsonFields : List (String × Json) → List (String × Datum)
  | [] => []
  | (name, value) :: rest => (name, ofJson value) :: ofJsonFields rest

end

/-- The text of the only function. -/
def functionText : String := "() => 1"

/-- The text of a symbol, where symbols have one. -/
def symbolText : String := "Symbol(s)"

/-- The field is a function. -/
def isFunctionField (name : String) (fields : Fields Datum) : Bool :=
  match Fields.get? name fields with
  | some function => true
  | _ => false

/-- The text of an object. Its own conversions come first: a function gives one, anything else in
their place leaves the object without a text. -/
def objectText? (fields : Fields Datum) : Except TextError String :=
  if !Fields.has "toString" fields then .ok "[object Object]"
  else if isFunctionField "toString" fields || isFunctionField "valueOf" fields then .ok "1"
  else .error .object

mutual

/-- The text of a value inside an array or where only plain texts are allowed: arrays are joined by
commas, and what is undefined or null leaves nothing. -/
def itemText? : Datum → Except TextError String
  | undefined => .ok ""
  | null => .ok ""
  | bool b => .ok (if b then "true" else "false")
  | number x => .ok (Decimal.text x)
  | text s => .ok s
  | function => .ok functionText
  | symbol => .error .symbol
  | array items => do
    let texts ← itemTexts? items
    pure (String.intercalate "," texts)
  | object fields => objectText? fields

/-- The texts of the items of an array. -/
def itemTexts? : List Datum → Except TextError (List String)
  | [] => .ok []
  | item :: rest => do
    let first ← itemText? item
    let more ← itemTexts? rest
    pure (first :: more)

end

/-- The text of a value. -/
def text? : Datum → Except TextError String
  | undefined => .ok "undefined"
  | null => .ok "null"
  | symbol => .ok symbolText
  | d => itemText? d

mutual

/-- The copy as JSON. Undefined values, functions and symbols have none; an object that converts
itself is copied as the result of its conversion. -/
def json? : Datum → Option Json
  | undefined => none
  | null => some .null
  | bool b => some (.bool b)
  | number x => some (Json.ofFloat x)
  | text s => some (.text s)
  | function => none
  | symbol => none
  | array items => some (.array (jsonItems items))
  | object fields =>
    if isFunctionField "toJSON" fields then some (.number 1)
    else some (.object (Fields.ofEntries (jsonFields fields)))

/-- The copied items of an array; an item without a copy becomes null. -/
def jsonItems : List Datum → List Json
  | [] => []
  | item :: rest => (json? item).getD .null :: jsonItems rest

/-- The copied fields of an object; a field without a copy is left out. -/
def jsonFields : List (String × Datum) → List (String × Json)
  | [] => []
  | (name, value) :: rest =>
    match json? value with
    | some copy => (name, copy) :: jsonFields rest
    | none => jsonFields rest

end

/-- The value is an array or an object. -/
def isComposite : Datum → Bool
  | array _ => true
  | object _ => true
  | _ => false

/-- The text a value is substituted as: arrays and objects as JSON, anything else as its text. -/
def stringify? (d : Datum) : Except TextError String :=
  if d.isComposite then .ok (((json? d).map Json.compact).getD "undefined") else d.text?

/-- The text itself; no other value is a text. -/
def string? : Datum → Option String
  | text s => some s
  | _ => none

/-- **A JSON value has a copy as JSON**, unless it is an object that looks like one that converts
itself; those have one too. -/
theorem json?_ofJson_isSome (j : Json) : (json? (ofJson j)).isSome = true := by
  cases j with
  | object fields => simp only [ofJson, json?]; split <;> rfl
  | _ => simp [ofJson, json?]

end Datum

/-- The text a JSON value is substituted as: arrays and objects as JSON, anything else as its plain
text. -/
def Json.stringify : Json → String
  | .null => "null"
  | .bool b => if b then "true" else "false"
  | .number x => Decimal.text x
  | .text s => s
  | j => j.compact

end RequestRunner
