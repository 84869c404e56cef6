import RequestRunner.Json.Value
import RequestRunner.Decimal.Numeral

/-!
# Reading JSON

`Json.read?` accepts exactly the JSON texts: one value between JSON blanks. A repeated name takes the
last value and keeps the first place. `readObject?` keeps only objects.
-/

set_option autoImplicit false

namespace RequestRunner.Json

/-- The four characters that JSON allows between tokens. -/
def isSpace (c : Char) : Bool := c == ' ' || c == '\t' || c == '\n' || c == '\r'

/-- The text after JSON blanks. -/
def skipSpace (s : List Char) : List Char := s.dropWhile isSpace

/-- Four hexadecimal digits as one 16-bit unit, and the rest. -/
def readUnit? : List Char → Option (Nat × List Char)
  | a :: b :: c :: d :: rest => (Decimal.natOfBase? 16 [a, b, c, d]).map fun n => (n, rest)
  | _ => none

/-- The character of a unit and the rest: a leading half joins the trailing half that is escaped
right after it, and a half that stands alone becomes the replacement character. -/
def joinUnit (n : Nat) (rest : List Char) : Char × List Char :=
  if 0xD800 ≤ n ∧ n < 0xDC00 then
    match rest with
    | '\\' :: 'u' :: more =>
      match readUnit? more with
      | some (low, after) =>
        if 0xDC00 ≤ low ∧ low < 0xE000 then
          (Char.ofNat (0x10000 + (n - 0xD800) * 0x400 + (low - 0xDC00)), after)
        else (Char.ofNat 0xFFFD, rest)
      | none => (Char.ofNat 0xFFFD, rest)
    | _ => (Char.ofNat 0xFFFD, rest)
  else if 0xDC00 ≤ n ∧ n < 0xE000 then (Char.ofNat 0xFFFD, rest)
  else (Char.ofNat n, rest)

/-- The character that a one-letter escape stands for. -/
def letterEscape? : Char → Option Char
  | '"' => some '"'
  | '\\' => some '\\'
  | '/' => some '/'
  | 'b' => some (Char.ofNat 8)
  | 'f' => some (Char.ofNat 12)
  | 'n' => some '\n'
  | 'r' => some '\r'
  | 't' => some '\t'
  | _ => none

/-- The contents of a string up to its closing delimiter, and the rest. -/
def readString? : Nat → List Char → List Char → Option (String × List Char)
  | 0, _, _ => none
  | _ + 1, _, [] => none
  | n + 1, done, c :: rest =>
    if c = '"' then some (String.ofList done.reverse, rest)
    else if c = '\\' then
      match rest with
      | 'u' :: more =>
        match readUnit? more with
        | some (u, after) =>
          let (ch, after) := joinUnit u after
          readString? n (ch :: done) after
        | none => none
      | e :: more =>
        match letterEscape? e with
        | some ch => readString? n (ch :: done) more
        | none => none
      | [] => none
    else if c.toNat < 0x20 then none
    else readString? n (c :: done) rest

/-- An unsigned JSON number: no superfluous zero, and a digit on both sides of a point. -/
def readMagnitude? (s : List Char) : Option (Float × List Char) :=
  let (numeral, rest) := Decimal.scan s
  let plain := numeral.whole.length == 1 || numeral.whole.head? != some '0'
  if numeral.whole.isEmpty || !plain || numeral.fraction == some [] then none
  else some (numeral.value, rest)

/-- A JSON number. -/
def readNumber? : List Char → Option (Float × List Char)
  | '-' :: rest => (readMagnitude? rest).map fun (x, after) => (-x, after)
  | s => readMagnitude? s

mutual

/-- One value, and the rest of the text. -/
def readValue? : Nat → List Char → Option (Json × List Char)
  | 0, _ => none
  | n + 1, s =>
    match s with
    | '\x7b' :: rest =>
      match skipSpace rest with
      | '\x7d' :: after => some (object [], after)
      | more => readFields? n [] more
    | '[' :: rest =>
      match skipSpace rest with
      | ']' :: after => some (array [], after)
      | more => readItems? n [] more
    | '"' :: rest => (readString? (rest.length + 1) [] rest).map fun (t, after) => (text t, after)
    | _ =>
      match Text.afterPrefix? "true".toList s, Text.afterPrefix? "false".toList s,
        Text.afterPrefix? "null".toList s with
      | some after, _, _ => some (bool true, after)
      | _, some after, _ => some (bool false, after)
      | _, _, some after => some (null, after)
      | none, none, none => (readNumber? s).map fun (x, after) => (number x, after)

/-- The items of an array after those already read. -/
def readItems? : Nat → List Json → List Char → Option (Json × List Char)
  | 0, _, _ => none
  | n + 1, done, s =>
    match readValue? n s with
    | none => none
    | some (item, after) =>
      match skipSpace after with
      | ',' :: more => readItems? n (item :: done) (skipSpace more)
      | ']' :: more => some (array (item :: done).reverse, more)
      | _ => none

/-- The fields of an object after those already read. -/
def readFields? : Nat → Fields Json → List Char → Option (Json × List Char)
  | 0, _, _ => none
  | n + 1, done, s =>
    match s with
    | '"' :: rest =>
      match readString? (rest.length + 1) [] rest with
      | none => none
      | some (name, after) =>
        match skipSpace after with
        | ':' :: more =>
          match readValue? n (skipSpace more) with
          | none => none
          | some (value, after) =>
            match skipSpace after with
            | ',' :: more => readFields? n (Fields.insert name value done) (skipSpace more)
            | '\x7d' :: more => some (object (Fields.insert name value done), more)
            | _ => none
        | _ => none
    | _ => none

end

/-- The value of a JSON text. -/
def read? (s : List Char) : Option Json :=
  match readValue? (2 * s.length + 2) (skipSpace s) with
  | some (value, rest) => if (skipSpace rest).isEmpty then some value else none
  | none => none

/-- The fields of a text that is a JSON object; arrays and plain values are no objects. -/
def readObject? (s : String) : Option (Fields Json) :=
  match read? s.toList with
  | some (object fields) => some fields
  | _ => none

end RequestRunner.Json
