import RequestRunner.Script.Machine

/-!
# Converting script values

Texts, numbers and JSON copies of script values. Objects may bring their own conversions, so every
function here takes the way functions are called. Arrays and objects are converted to a limited
depth.
-/

set_option autoImplicit false

namespace RequestRunner.Script.Interp

/-- Calls the named conversion of an object, if it is a function whose result is no object. -/
def convertBy? (call : Caller) (v : Value) (name : String) : Interp (Option Value) := do
  let f ← member v name
  if ← isFunction f then
    match ← call f v [] with
    | .object _ => pure none
    | result => pure (some result)
  else pure none

/-- The plain value of an object by the first of its conversions that yields one. -/
def plainBy (call : Caller) (first second : String) (v : Value) : Interp Value :=
  match v with
  | .object _ => do
    match ← convertBy? call v first with
    | some result => pure result
    | none =>
      match ← convertBy? call v second with
      | some result => pure result
      | none => fail "TypeError" TextError.object.message
  | v => pure v

/-- The plain value that operators work on. -/
def plain (call : Caller) (v : Value) : Interp Value := plainBy call "valueOf" "toString" v

/-- The text of a plain value. -/
def plainText : Value → String
  | .undefined => "undefined"
  | .null => "null"
  | .bool b => if b then "true" else "false"
  | .number x => Decimal.text x
  | .text s => s
  | .object _ => "[object Object]"

/-- The text of a value. -/
def toText (call : Caller) (v : Value) : Interp String := do
  pure (plainText (← plainBy call "toString" "valueOf" v))

/-- The number of a plain value. -/
def plainNumber : Value → Float
  | .undefined => Decimal.notANumber
  | .null => 0
  | .bool b => if b then 1 else 0
  | .number x => x
  | .text s => Decimal.ofText s.toList
  | .object _ => Decimal.notANumber

/-- The number of a value. -/
def toNumber (call : Caller) (v : Value) : Interp Float := do
  pure (plainNumber (← plain call v))

/-- The text of a value used as a name. -/
def toName (call : Caller) (v : Value) : Interp String := toText call v

/-- A step on the way to a value inside another one. -/
inductive Step where
  | property (name : String)
  | item (index : Nat)

/-- The wording of a step. -/
def Step.describe : Step → String
  | property name => "property '" ++ name ++ "'"
  | item index => s!"index {index}"

/-- The word for the kind of an object in the message about a circle. -/
def makerName (o : Object) : String :=
  match o.kind with
  | .array _ => "Array"
  | .error => "Error"
  | .fault f => f.kind
  | .promise => "Promise"
  | .client => "Client"
  | .scope _ => "Variables"
  | _ => "Object"

/-- The lines of the message about a circle for the objects inside it: of a long circle only the
first two and the last are named. -/
def circleLines (inner : List (Step × String)) : String :=
  let line : Step × String → String := fun (step, maker) =>
    "\n    |     " ++ step.describe ++ " -> object with constructor '" ++ maker ++ "'"
  if inner.length ≤ 3 then String.join (inner.map line)
  else
    String.join ((inner.take 2).map line) ++ "\n    |     ..." ++
      String.join ((inner.drop (inner.length - 1)).map line)

/-- The message about a circle: where it starts, what is inside, and the step that closes it. -/
def circleMessage (maker : String) (inner : List (Step × String)) (closing : Step) : String :=
  "Converting circular structure to JSON\n    --> starting at object with constructor '" ++ maker ++
    "'" ++ circleLines inner ++ "\n    --- " ++ closing.describe ++ " closes the circle"

/-- The objects on the way to a value, the outermost first: the step to each, its number and the
word for its kind. -/
abbrev Path := List (Step × Nat × String)

/-- Refuses an object that is already on the way. -/
def refuseCircle (path : Path) (step : Step) (ref : Nat) : Interp Unit :=
  match path.dropWhile fun (_, other, _) => other != ref with
  | [] => pure ()
  | (_, _, maker) :: inner =>
    fail "TypeError" (circleMessage maker (inner.map fun (s, _, m) => (s, m)) step)

/-- The value that an object gives in its place when it is written as JSON. -/
def replacement (call : Caller) (v : Value) (step : Step) : Interp Value :=
  match v with
  | .object _ => do
    let f ← member v "toJSON"
    if ← isFunction f then
      let name := match step with
        | .property name => name
        | .item index => toString index
      call f v [.text name]
    else pure v
  | v => pure v

/-- The names and slots that are listed. -/
def listedSlots (o : Object) : Fields Slot :=
  o.slots.filter fun (_, slot) =>
    match slot with
    | .value _ listed => listed
    | .fixed _ => false
    | .generated _ => true
    | .numbers _ => true

/-- The variables that a view shows when it is written as JSON. -/
def variablesJson (scope : Scope) : Interp Json := do
  let store ← ask (.list scope)
  match scope with
  | .request => pure (.object [("store", .object store)])
  | .persisted =>
    let fallback ← ask .listEnvironment
    pure (.object [("store", .object store), ("fallback", .object fallback)])

/-- The JSON copies of the items of an array; an item without a copy becomes null. -/
def copyItems (copy : Step → Value → Interp (Option Json)) : Nat → List Value →
    Interp (List Json)
  | _, [] => pure []
  | i, v :: rest => do
    let first ← copy (.item i) v
    let more ← copyItems copy (i + 1) rest
    pure (first.getD .null :: more)

/-- The JSON copies of listed slots; a slot without a copy is left out. -/
def copySlots (copy : Step → Value → Interp (Option Json)) : Fields Slot →
    Interp (Fields Json)
  | [] => pure []
  | (name, slot) :: rest => do
    let v ← readSlot slot
    let first ← copy (.property name) v
    let more ← copySlots copy rest
    match first with
    | some j => pure ((name, j) :: more)
    | none => pure more

/-- The copy of a value as JSON. Undefined values and functions have none. -/
def copyFrom (call : Caller) : Nat → Path → Step → Value → Interp (Option Json)
  | 0, _, _, _ => fail "RangeError" "Maximum call stack size exceeded"
  | n + 1, path, step, v => do
    match ← replacement call v step with
    | .undefined => pure none
    | .null => pure (some .null)
    | .bool b => pure (some (.bool b))
    | .number x => pure (some (Json.ofFloat x))
    | .text s => pure (some (.text s))
    | .object ref => do
      let o ← object ref
      match o.kind with
      | .function _ => pure none
      | .scope scope => do pure (some (← variablesJson scope))
      | .array items => do
        refuseCircle path step ref
        let path := path ++ [(step, ref, makerName o)]
        let copies ← copyItems (copyFrom call n path) 0 items.toList
        pure (some (.array copies))
      | _ => do
        refuseCircle path step ref
        let path := path ++ [(step, ref, makerName o)]
        let copies ← copySlots (copyFrom call n path) (listedSlots o)
        pure (some (.object (Fields.ofEntries copies)))

/-- The copy of a value as JSON. -/
def copy (call : Caller) (v : Value) : Interp (Option Json) :=
  copyFrom call 500 [] (.property "") v

/-- The text that a value is substituted and logged as: objects as JSON, anything else as its
text. -/
def substituted (call : Caller) (v : Value) : Interp String :=
  match v with
  | .object _ => do
    -- a function has no JSON form, so it is substituted as its text
    if ← isFunction v then toText call v
    else
      let j ← copy call v
      pure ((j.map Json.compact).getD "undefined")
  | v => pure (plainText v)

/-- How values are looked at for the scripting object. -/
def evaluator (call : Caller) : Evaluator Interp Value where
  undefined := .undefined
  kind := shape
  has := hasMember
  get := member
  call := call
  toText := toText call
  shown := plainText
  listener := addNative .lateFailure
  recover := recover

/-- The text of a raised value: the message it carries, else its text. -/
def describe (call : Caller) (v : Value) : Interp String := Client.describe (evaluator call) v

/-- The fault that a raised value is outside of scripts. -/
def faultOf (call : Caller) (v : Value) : Interp Fault :=
  match v with
  | .object ref => do
    match (← object ref).kind with
    | .fault f => pure f
    | .function _ => do pure (.raised "function" (← toText call v))
    | _ => do
      let kind := match ← member v "name" with
        | .text s => s
        | _ => "object"
      pure (.raised kind (← describe call v))
  | .null => pure (.raised "null" "null")
  | v => do pure (.raised (← kindOf v) (plainText v))

/-- A value as an argument of a generator. -/
def argument : Value → Argument
  | .undefined => .absent
  | .number x => .number x
  | _ => .other

/-- The text itself; no other value is a name. -/
def nameOf? : Value → Option String
  | .text s => some s
  | _ => none

end RequestRunner.Script.Interp
