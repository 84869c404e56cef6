import RequestRunner.Datum

/-!
# Plain scalars of YAML

What a scalar without quotes stands for in the core schema: null, a truth value, a number, or the text
itself. `keyText` is the name that a scalar has as a key, and `sameKey` says when two keys are one.

Main statements: the empty scalar is null (`ofPlain_nil`), and a text that does not begin like a
number, a null or a truth value stands for itself (`ofPlain_of_other`).
-/

set_option autoImplicit false

namespace RequestRunner.Yaml

/-- The spellings of null. -/
def nullWords : List String := ["", "~", "null", "Null", "NULL"]

/-- The truth value of a spelling. -/
def truth? (s : String) : Option Bool :=
  if ["true", "True", "TRUE"].contains s then some true
  else if ["false", "False", "FALSE"].contains s then some false
  else none

/-- The spellings of infinity behind the sign. -/
def infinityWords : List String := [".inf", ".Inf", ".INF"]

/-- The spellings of what is no number. -/
def undefinedWords : List String := [".nan", ".NaN", ".NAN"]

/-- The magnitude of a number behind its sign. -/
def magnitude? (s : List Char) : Option Float :=
  if infinityWords.contains (String.ofList s) then some Decimal.infinity else Decimal.decimal? s

/-- The number of a spelling: a whole number in base eight or sixteen, or a signed decimal. -/
def number? (s : List Char) : Option Float :=
  match s with
  | '0' :: 'o' :: ds => (Decimal.natOfBase? 8 ds).map Decimal.ofNat
  | '0' :: 'x' :: ds => (Decimal.natOfBase? 16 ds).map Decimal.ofNat
  | '-' :: ds => (magnitude? ds).map fun x => -x
  | '+' :: ds => magnitude? ds
  | ds =>
    if undefinedWords.contains (String.ofList ds) then some Decimal.notANumber else magnitude? ds

/-- What a plain scalar stands for. -/
def ofPlain (s : List Char) : Datum :=
  let word := String.ofList s
  if nullWords.contains word then .null
  else
    match truth? word, number? s with
    | some b, _ => .bool b
    | none, some x => .number x
    | none, none => .text word

/-- The name that a scalar has as a key; what is no scalar is no key. -/
def keyText : Datum → Option String
  | .null => some ""
  | .bool b => some (if b then "true" else "false")
  | .number x => some (Decimal.text x)
  | .text s => some s
  | _ => none

/-- Two scalars are the same key. A number and a text are not, even if they have one name. -/
def sameKey : Datum → Datum → Bool
  | .null, .null => true
  | .bool a, .bool b => a == b
  | .number x, .number y => x == y
  | .text s, .text t => s == t
  | _, _ => false

/-- **The empty scalar is null.** -/
theorem ofPlain_nil : ofPlain [] = .null := rfl

/-- **What spells nothing else stands for itself.** -/
theorem ofPlain_of_other {s : List Char} (hn : String.ofList s ∉ nullWords)
    (ht : truth? (String.ofList s) = none) (hx : number? s = none) :
    ofPlain s = .text (String.ofList s) := by
  simp [ofPlain, hn, ht, hx]

end RequestRunner.Yaml
