import RequestRunner.Client
import RequestRunner.Document.Basic
import RequestRunner.Fault
import RequestRunner.Script.Host
import RequestRunner.Script.Program

/-!
# The script machine

Values of scripts, and the machine that holds their objects, the frames of local variables and the
global names. Objects are shared by reference and found by their number; an object inherits from its
prototype. The first objects of every machine are the prototypes and the global object, at fixed
numbers.

`Interp` is the monad of evaluation: it changes a machine, calls the host, and may be left by a
raised value or by the time limit.
-/

set_option autoImplicit false

namespace RequestRunner.Script

/-- A value. Objects, arrays and functions are references into the machine. -/
inductive Value where
  | undefined
  | null
  | bool (b : Bool)
  | number (x : Float)
  | text (s : String)
  | object (ref : Nat)
  deriving DecidableEq, Inhabited

/-- A function that the host provides. -/
inductive Native where
  /-- Converts to a text. -/
  | toText
  /-- Writes a value as JSON. -/
  | stringify
  /-- Reads JSON. -/
  | parse
  /-- Tells arrays from other values. -/
  | isArray
  /-- Lists the names of an object. -/
  | keys
  /-- Makes an error of a name, whose prototype has the given number. -/
  | makeError (prototype : Nat)
  /-- The text of a plain object. -/
  | objectText
  /-- The object itself. -/
  | itself
  /-- Tells whether an object has a name of its own. -/
  | hasOwn
  /-- The array of the results of a function. -/
  | map
  /-- The joined texts of an array. -/
  | join
  /-- Adds to the end of an array. -/
  | push
  /-- The text of a function. -/
  | functionText
  /-- The text of an error. -/
  | errorText
  /-- Continues a promise. What it is given would run when the script has ended, and scripts leave
  nothing behind to be run then, so that it never is. -/
  | promiseThen
  /-- Is told why a promised result failed, after its test has ended. -/
  | lateFailure
  /-- Runs a test. -/
  | test
  /-- Asserts a condition. -/
  | assert
  /-- Logs a line. -/
  | log
  /-- Reads a variable. -/
  | readVariable
  /-- Sets a variable. -/
  | writeVariable
  /-- Removes a variable. -/
  | clearVariable
  /-- Removes every variable. -/
  | clearVariables
  /-- Asks whether there is no variable. -/
  | noVariables
  /-- Reads the environment. -/
  | readEnvironment
  /-- The raw text of a template, empty without one. -/
  | raw (template : Option Template)
  /-- The filled text of a template, empty without one; blanks are removed from targets. -/
  | filled (template : Option Template) (isTarget : Bool)
  /-- Every header of the request. -/
  | allHeaders (headers : List Header)
  /-- The header of a name. -/
  | findHeader (headers : List Header)
  /-- Draws a random text of a length. -/
  | drawText (make : Argument → Generator)
  /-- Draws a random number of a range. -/
  | drawNumber (make : Argument → Argument → Generator)
  /-- Draws a random number without bounds, as a text. -/
  | freshNumber (make : Argument → Argument → Generator)

/-- What a function does when it is called. -/
inductive Code where
  /-- Runs what is written, in the frame it was written in. -/
  | closure (written : Function) (frame : Option Nat)
  /-- Does what the host provides. -/
  | native (n : Native)

/-- What an object is. -/
inductive ObjectKind where
  | plain
  | array (items : Array Value)
  | function (code : Code)
  | error
  /-- A fault of the host, raised into a script. -/
  | fault (f : Fault)
  | promise
  /-- The scripting object. -/
  | client
  /-- The view on the variables of a scope. -/
  | scope (which : Scope)

/-- What an object holds under a name. -/
inductive Slot where
  /-- A value; listed ones are enumerated. -/
  | value (v : Value) (listed : Bool)
  /-- A value that never changes. -/
  | fixed (v : Value)
  /-- A value made anew at every reading. -/
  | generated (call : Generator)
  /-- A function that draws numbers, made anew at every reading. -/
  | numbers (make : Argument → Argument → Generator)

/-- An object. -/
structure Object where
  /-- What it is. -/
  kind : ObjectKind
  /-- What it holds under its names. -/
  slots : Fields Slot
  /-- The object it inherits from. -/
  prototype : Option Nat
  /-- Changes are ignored. -/
  frozen : Bool

/-- An object has something of its own under a name. -/
def Object.owns (o : Object) (name : String) : Bool :=
  Fields.has name o.slots ||
    match o.kind with
    | .array items =>
      name == "length" || ((Fields.index? name).bind fun i => items[i]?).isSome
    | _ => false

/-- The state of a declared name. -/
inductive Cell where
  /-- Declared further down. -/
  | unset
  /-- Declared by a script that ended before it got there. -/
  | lost
  /-- Set to a value. -/
  | set (v : Value)

/-- A declared name. -/
structure Binding where
  /-- Its state. -/
  cell : Cell
  /-- It may be assigned again. -/
  assignable : Bool

/-- The local names of a block or a call. -/
structure Frame where
  /-- The names. -/
  bindings : List (String × Binding)
  /-- The frame around it. -/
  parent : Option Nat
  /-- The object of a call; blocks and arrow functions take that of the frame around. -/
  self : Option Value

/-- The state of the script world. -/
structure Machine where
  /-- The objects by their numbers. -/
  objects : Array Object
  /-- The frames by their numbers. -/
  frames : Array Frame
  /-- Names declared at the outside of scripts for their blocks. -/
  lexicals : List (String × Binding)
  /-- Names declared at the outside of scripts throughout. -/
  declared : List String
  /-- The arrays whose texts are being joined. -/
  joining : List Nat

/-- How the evaluation of a script is left early. -/
abbrev Signal := Stop Value

/-- Evaluation. -/
abbrev Interp (α : Type) := ExceptT Signal (StateT Machine Activity) α

/-- How a function is called: the function, the object it is called on, and the arguments. -/
abbrev Caller := Value → Value → List Value → Interp Value

namespace Machine

/-- The prototype of plain objects. -/
def objectPrototype : Nat := 0

/-- The prototype of arrays. -/
def arrayPrototype : Nat := 1

/-- The prototype of functions. -/
def functionPrototype : Nat := 2

/-- The prototype of promises. -/
def promisePrototype : Nat := 3

/-- The prototype of the scripting object. -/
def clientPrototype : Nat := 4

/-- The prototype of views on variables. -/
def variablesPrototype : Nat := 5

/-- The global object. -/
def globalObject : Nat := 6

/-- The prototype of errors. -/
def errorPrototype : Nat := 7

/-- The kinds of errors, whose prototypes follow that of errors. -/
def errorNames : List String := ["TypeError", "RangeError", "SyntaxError", "ReferenceError"]

/-- The prototype of the errors of a name. -/
def prototypeOfError (name : String) : Nat :=
  match errorNames.idxOf? name with
  | some i => errorPrototype + 1 + i
  | none => errorPrototype

/-- The name of the errors of a prototype. -/
def errorName (prototype : Nat) : String :=
  ("Error" :: errorNames).getD (prototype - errorPrototype) "Error"

/-- Adds an object and gives its number. -/
def add (m : Machine) (o : Object) : Nat × Machine :=
  (m.objects.size, { m with objects := m.objects.push o })

/-- Adds a function that the host provides. -/
def addNative (m : Machine) (n : Native) : Value × Machine :=
  let (ref, m) := m.add ⟨.function (.native n), [], some functionPrototype, false⟩
  (.object ref, m)

/-- Changes an object. -/
def modifyObject (m : Machine) (ref : Nat) (f : Object → Object) : Machine :=
  { m with objects := m.objects.modify ref f }

/-- Puts a slot into an object. -/
def putSlot (m : Machine) (ref : Nat) (name : String) (slot : Slot) : Machine :=
  m.modifyObject ref fun o => { o with slots := Fields.insert name slot o.slots }

/-- Gives an object functions that are not listed. -/
def putNatives (m : Machine) (ref : Nat) : List (String × Native) → Machine
  | [] => m
  | (name, n) :: rest =>
    let (f, m) := m.addNative n
    (m.putSlot ref name (.value f false)).putNatives ref rest

/-- Adds a plain object with the given slots. -/
def addPlain (m : Machine) (slots : Fields Slot) (frozen : Bool) : Value × Machine :=
  let (ref, m) := m.add ⟨.plain, slots, some objectPrototype, frozen⟩
  (.object ref, m)

/-- The prototypes and the global object, still without functions. -/
def bare : Machine :=
  let plain (prototype : Option Nat) : Object := ⟨.plain, [], prototype, false⟩
  let named (name : String) (prototype : Nat) : Object :=
    ⟨.plain, [("name", .value (.text name) false), ("message", .value (.text "") false)],
      some prototype, false⟩
  let under := some objectPrototype
  let first : List Object :=
    [plain none, ⟨.array Array.empty, [], under, false⟩, plain under, plain under, plain under,
      plain under, plain under, named "Error" objectPrototype]
  let others := errorNames.map fun name => named name errorPrototype
  ⟨(first ++ others).toArray, Array.empty, [], [], []⟩

/-- Adds the object that draws random values, which cannot be changed. -/
def addRandom (m : Machine) : Value × Machine :=
  let (alphabetic, m) := m.addNative (.drawText .alphabetic)
  let (alphanumeric, m) := m.addNative (.drawText .alphanumeric)
  let (hexadecimal, m) := m.addNative (.drawText .hexadecimal)
  m.addPlain
    [("uuid", .generated .uuid), ("email", .generated .email), ("integer", .numbers .integer),
      ("float", .numbers .float), ("alphabetic", .value alphabetic true),
      ("alphanumeric", .value alphanumeric true), ("hexadecimal", .value hexadecimal true)] true

/-- Adds the functions that make errors. -/
def addErrors (m : Machine) : List String → Machine
  | [] => m
  | name :: rest =>
    let (f, m) := m.addNative (.makeError (prototypeOfError name))
    (m.putSlot globalObject name (.value f false)).addErrors rest

/-- A machine in which no script has run: the prototypes with their functions, the global names and
the objects that scripts find there. -/
def fresh : Machine :=
  let m := bare
  let m := m.putNatives objectPrototype
    [("toString", .objectText), ("valueOf", .itself), ("hasOwnProperty", .hasOwn)]
  let m := m.putNatives arrayPrototype
    [("map", .map), ("join", .join), ("push", .push), ("toString", .join)]
  let m := m.putNatives functionPrototype [("toString", .functionText)]
  let m := m.putNatives errorPrototype [("toString", .errorText)]
  let m := m.putNatives promisePrototype [("then", .promiseThen), ("catch", .promiseThen)]
  let m := m.putNatives clientPrototype [("test", .test), ("assert", .assert), ("log", .log)]
  let m := m.putNatives variablesPrototype
    [("get", .readVariable), ("set", .writeVariable), ("clear", .clearVariable),
      ("clearAll", .clearVariables), ("isEmpty", .noVariables)]
  let (persisted, m) :=
    m.add ⟨.scope .persisted, [], some variablesPrototype, false⟩
  let (client, m) :=
    m.add ⟨.client, [("global", .value (.object persisted) true)], some clientPrototype, false⟩
  let (random, m) := m.addRandom
  let (json, m) := m.addPlain [] false
  let (array, m) := m.addPlain [] false
  let (object, m) := m.addPlain [] false
  let ref : Value → Nat := fun
    | .object ref => ref
    | _ => globalObject
  let m := m.putNatives (ref json) [("stringify", .stringify), ("parse", .parse)]
  let m := m.putNatives (ref array) [("isArray", .isArray)]
  let m := m.putNatives (ref object) [("keys", .keys)]
  let m := m.putNatives globalObject [("String", .toText)]
  let m := m.addErrors ("Error" :: errorNames)
  let put (m : Machine) (name : String) (slot : Slot) : Machine := m.putSlot globalObject name slot
  let m := put m "client" (.value (.object client) true)
  let m := put m "$random" (.value random true)
  let m := put m "$uuid" (.generated .uuid)
  let m := put m "$timestamp" (.generated .timestamp)
  let m := put m "$isoTimestamp" (.generated .isoTimestamp)
  let m := put m "JSON" (.value json false)
  let m := put m "Array" (.value array false)
  let m := put m "Object" (.value object false)
  let m := put m "globalThis" (.value (.object globalObject) false)
  let m := put m "undefined" (.fixed .undefined)
  let m := put m "NaN" (.fixed (.number Decimal.notANumber))
  put m "Infinity" (.fixed (.number Decimal.infinity))

end Machine

/-- The name under which scripts find a function of the host. -/
def Native.name : Native → String
  | toText => "String"
  | stringify => "stringify"
  | parse => "parse"
  | isArray => "isArray"
  | keys => "keys"
  | makeError prototype => Machine.errorName prototype
  | itself => "valueOf"
  | hasOwn => "hasOwnProperty"
  | map => "map"
  | join => "join"
  | push => "push"
  | objectText => "toString"
  | functionText => "toString"
  | errorText => "toString"
  | promiseThen => "then"
  | lateFailure => ""
  | test => "test"
  | assert => "assert"
  | log => "log"
  | readVariable => "get"
  | writeVariable => "set"
  | clearVariable => "clear"
  | clearVariables => "clearAll"
  | noVariables => "isEmpty"
  | readEnvironment => "get"
  | raw _ => "getRaw"
  | filled _ _ => "tryGetSubstituted"
  | allHeaders _ => "all"
  | findHeader _ => "findByName"
  | drawText _ => ""
  | drawNumber _ => ""
  | freshNumber _ => "toString"

namespace Interp

/-- Calls the host. -/
def ask (call : HostCall) : Interp call.Reply :=
  fun m => .call call fun reply => .done (.ok reply, m)

/-- Leaves the evaluation. -/
def leave {α : Type} (s : Signal) : Interp α := fun m => .done (.error s, m)

/-- Raises a value. -/
def raise {α : Type} (v : Value) : Interp α := leave (.raised v)

/-- Goes on after a raised value; the time limit is not stopped. -/
def recover {α : Type} (x : Interp α) (handle : Value → Interp α) : Interp α :=
  fun m => (x m).bind fun
    | (.error (.raised v), m) => handle v m
    | (r, m) => .done (r, m)

/-- Adds an object. -/
def add (o : Object) : Interp Value :=
  fun m =>
    let (ref, m) := m.add o
    .done (.ok (.object ref), m)

/-- Adds a plain object. -/
def addPlain (slots : Fields Slot) : Interp Value :=
  add ⟨.plain, slots, some Machine.objectPrototype, false⟩

/-- Adds an array. -/
def addArray (items : List Value) : Interp Value :=
  add ⟨.array items.toArray, [], some Machine.arrayPrototype, false⟩

/-- Adds a function that the host provides. -/
def addNative (n : Native) : Interp Value :=
  add ⟨.function (.native n), [], some Machine.functionPrototype, false⟩

/-- Raises an error of a name. -/
def fail {α : Type} (name message : String) : Interp α := do
  let e ← add ⟨.error, [("message", .value (.text message) false)],
    some (Machine.prototypeOfError name), false⟩
  raise e

/-- Raises a fault of the host. -/
def raiseFault {α : Type} (f : Fault) : Interp α := do
  let e ← add ⟨.fault f,
    [("message", .value (.text f.message) false), ("name", .value (.text f.kind) true)],
    some Machine.errorPrototype, false⟩
  raise e

/-- The object of a number. -/
def object (ref : Nat) : Interp Object := do
  let m ← get
  match m.objects[ref]? with
  | some o => pure o
  | none => pure ⟨.plain, [], none, false⟩

/-- What a slot holds; generated values are made now. -/
def readSlot : Slot → Interp Value
  | .value v _ => pure v
  | .fixed v => pure v
  | .generated call => do
    match ← ask (.generate call) with
    | .ok (.number x) => pure (.number x)
    | .ok (.text s) => pure (.text s)
    | .error e => raiseFault (.generator e)
  | .numbers make => do
    let fresh ← addNative (.freshNumber make)
    add ⟨.function (.native (.drawNumber make)), [("toString", .value fresh false)],
      some Machine.functionPrototype, false⟩

/-- The 16-bit unit of a text at an index, as a text. -/
def unitAt? : List Char → Nat → Option String
  | [], _ => none
  | c :: rest, i =>
    let u := Text.charUnits c
    if i < u then some (if u = 1 then c.toString else (Char.ofNat 0xFFFD).toString)
    else unitAt? rest (i - u)

/-- What an object has of its own under a name. -/
def ownMember? (o : Object) (name : String) : Interp (Option Value) :=
  match Fields.get? name o.slots with
  | some slot => do pure (some (← readSlot slot))
  | none =>
    match o.kind with
    | .array items =>
      if name = "length" then pure (some (.number (Decimal.ofNat items.size)))
      else pure ((Fields.index? name).bind fun i => items[i]?)
    | _ => pure none

/-- What an object or one of its prototypes has under a name. Chains of prototypes are short. -/
def findMember : Nat → Nat → String → Interp Value
  | 0, _, _ => pure .undefined
  | n + 1, ref, name => do
    let o ← object ref
    match ← ownMember? o name with
    | some v => pure v
    | none =>
      match o.prototype with
      | some parent => findMember n parent name
      | none => pure .undefined

/-- What a value has under a name. Nothing has no names at all. -/
def member (v : Value) (name : String) : Interp Value :=
  match v with
  | .undefined => fail "TypeError" ("Cannot read properties of undefined (reading '" ++ name ++ "')")
  | .null => fail "TypeError" ("Cannot read properties of null (reading '" ++ name ++ "')")
  | .text s =>
    if name = "length" then pure (.number (Decimal.ofNat (Text.width s)))
    else pure (((Fields.index? name).bind (unitAt? s.toList)).elim .undefined Value.text)
  | .object ref => findMember 10 ref name
  | _ => pure .undefined

/-- An object or one of its prototypes has something under a name. -/
def findOwner : Nat → Nat → String → Interp Bool
  | 0, _, _ => pure false
  | n + 1, ref, name => do
    let o ← object ref
    if o.owns name then pure true
    else
      match o.prototype with
      | some parent => findOwner n parent name
      | none => pure false

/-- An object has something under a name; nothing else does. -/
def hasMember (v : Value) (name : String) : Interp Bool :=
  match v with
  | .object ref => findOwner 10 ref name
  | _ => pure false

/-- The items of an array with one set; gaps are undefined. -/
def setItem (items : Array Value) (i : Nat) (v : Value) : Array Value :=
  if i < items.size then items.setIfInBounds i v
  else (items ++ (Array.replicate (i - items.size) Value.undefined)).push v

/-- Sets what an object has under a name. -/
def setOwn (name : String) (v : Value) (o : Object) : Object :=
  match Fields.get? name o.slots with
  | some (.value _ listed) => { o with slots := Fields.insert name (.value v listed) o.slots }
  | some _ => o
  | none =>
    let listed : Object := { o with slots := Fields.insert name (.value v true) o.slots }
    match o.kind with
    | .array items =>
      if name = "length" then
        match v with
        | .number x => { o with kind := .array (items.extract 0 (Decimal.wholePart x).toNat) }
        | _ => o
      else
        match Fields.index? name with
        | some i => { o with kind := .array (setItem items i v) }
        | none => listed
    | _ => listed

/-- Sets what a value has under a name. Changes of frozen objects and of values that hold nothing
are ignored. -/
def setMember (target : Value) (name : String) (v : Value) : Interp Unit :=
  match target with
  | .undefined =>
    fail "TypeError" ("Cannot set properties of undefined (setting '" ++ name ++ "')")
  | .null => fail "TypeError" ("Cannot set properties of null (setting '" ++ name ++ "')")
  | .object ref => do
    let o ← object ref
    if o.frozen || name = reservedKey then pure ()
    else modify fun m => m.modifyObject ref (setOwn name v)
  | _ => pure ()

/-- The value is a function. -/
def isFunction (v : Value) : Interp Bool :=
  match v with
  | .object ref => do
    match (← object ref).kind with
    | .function _ => pure true
    | _ => pure false
  | _ => pure false

/-- What a value is. -/
def shape (v : Value) : Interp ValueKind :=
  match v with
  | .text s => pure (.text s)
  | .object _ => do pure (if ← isFunction v then .function else .object)
  | _ => pure .plain

/-- The word for the kind of a value. -/
def kindOf (v : Value) : Interp String :=
  match v with
  | .undefined => pure "undefined"
  | .null => pure "object"
  | .bool _ => pure "boolean"
  | .number _ => pure "number"
  | .text _ => pure "string"
  | .object _ => do pure (if ← isFunction v then "function" else "object")

/-- The value counts as true. -/
def isTrue : Value → Bool
  | .undefined => false
  | .null => false
  | .bool b => b
  | .number x => !(x == 0 || x.isNaN)
  | .text s => !s.isEmpty
  | .object _ => true

/-- Equal values of one kind. -/
def same : Value → Value → Bool
  | .number x, .number y => x == y
  | a, b => decide (a = b)

mutual

/-- Puts a JSON value into the machine. -/
def place : Json → Interp Value
  | .null => pure .null
  | .bool b => pure (.bool b)
  | .number x => pure (.number x)
  | .text s => pure (.text s)
  | .array items => do
    let vs ← placeItems items
    addArray vs
  | .object fields => do
    let slots ← placeFields fields
    addPlain slots

/-- Puts the items of an array into the machine. -/
def placeItems : List Json → Interp (List Value)
  | [] => pure []
  | item :: rest => do
    let v ← place item
    let vs ← placeItems rest
    pure (v :: vs)

/-- Puts the fields of an object into the machine. -/
def placeFields : List (String × Json) → Interp (Fields Slot)
  | [] => pure []
  | (name, value) :: rest => do
    let v ← place value
    let vs ← placeFields rest
    pure ((name, .value v true) :: vs)

end

/-- A value that may be absent, put into the machine. -/
def placeOptional : Option Json → Interp Value
  | none => pure .undefined
  | some j => place j

end Interp

end RequestRunner.Script
