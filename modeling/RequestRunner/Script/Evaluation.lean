import RequestRunner.Client
import RequestRunner.Json.Reader
import RequestRunner.Message
import RequestRunner.Script.Conversion
import RequestRunner.Script.Reader
import RequestRunner.Text.Lowercase

/-!
# Evaluating scripts

Expressions and statements are evaluated by recursion on the tree; only the call of a function starts
a new evaluation, and the depth of calls is limited. `Interp.invoke` calls a function, `Interp.runProgram`
runs a whole script, and its value is that of its last expression statement.
-/

set_option autoImplicit false

namespace RequestRunner.Script

/-- How statements end. -/
inductive Completion where
  /-- They ran to their end; the value is that of the last expression statement. -/
  | normal (v : Option Value)
  /-- They returned from their function. -/
  | returned (v : Value)

/-- The script is an expression to evaluate, not a variable's name. -/
def isExpression (script : String) : Bool :=
  match script.toList with
  | '$' :: _ => true
  | _ => false

namespace Interp

/-! ## Names -/

/-- A frame. -/
def frame (ref : Nat) : Interp Frame := do
  let m ← get
  match m.frames[ref]? with
  | some f => pure f
  | none => pure ⟨[], none, none⟩

/-- Adds a frame. -/
def addFrame (f : Frame) : Interp Nat := fun m =>
  .done (.ok m.frames.size, { m with frames := m.frames.push f })

/-- Where a name is declared: in a frame, or outside for the blocks of scripts. -/
inductive Place where
  | local_ (frame : Nat) (binding : Binding)
  | outside (binding : Binding)
  | global

/-- Where a name is declared, seen from a frame. -/
def locate (name : String) : Nat → Option Nat → Interp Place
  | 0, _ => pure .global
  | _ + 1, none => do
    let m ← get
    match Fields.get? name m.lexicals with
    | some b => pure (.outside b)
    | none => pure .global
  | n + 1, some ref => do
    let f ← frame ref
    match Fields.get? name f.bindings with
    | some b => pure (.local_ ref b)
    | none => locate name n f.parent

/-- Where a name is declared; chains of frames are no longer than their number. -/
def find (name : String) (at_ : Option Nat) : Interp Place := do
  locate name ((← get).frames.size + 1) at_

/-- The value of a declared name. -/
def readBinding (name : String) (b : Binding) : Interp Value :=
  match b.cell with
  | .set v => pure v
  | .unset => fail "ReferenceError" ("Cannot access '" ++ name ++ "' before initialization")
  | .lost => fail "ReferenceError" (name ++ " is not defined")

/-- The value of a global name, if there is one. -/
def globalMember? (name : String) : Interp (Option Value) := do
  let o ← object Machine.globalObject
  ownMember? o name

/-- The value of a name. -/
def readName (name : String) (at_ : Option Nat) : Interp Value := do
  match ← find name at_ with
  | .local_ _ b => readBinding name b
  | .outside b => readBinding name b
  | .global =>
    match ← globalMember? name with
    | some v => pure v
    | none => fail "ReferenceError" (name ++ " is not defined")

/-- Puts a binding into a list of bindings. -/
def putBinding (name : String) (b : Binding) : List (String × Binding) → List (String × Binding)
  | [] => [(name, b)]
  | (key, old) :: rest =>
    if key = name then (key, b) :: rest else (key, old) :: putBinding name b rest

/-- Puts a binding into a frame, or among the names outside. -/
def bindName (at_ : Option Nat) (name : String) (b : Binding) : Interp Unit :=
  modify fun m =>
    match at_ with
    | none => { m with lexicals := putBinding name b m.lexicals }
    | some ref =>
      { m with
        frames := m.frames.modify ref fun f => { f with bindings := putBinding name b f.bindings } }

/-- Assigns a declared name. -/
def assignBinding (at_ : Option Nat) (name : String) (b : Binding) (v : Value) : Interp Unit :=
  match b.cell with
  | .set _ =>
    if b.assignable then bindName at_ name { b with cell := .set v }
    else fail "TypeError" "Assignment to constant variable."
  | _ => do
    let _ ← readBinding name b
    pure ()

/-- Assigns a name; one that is declared nowhere becomes global. -/
def assignName (name : String) (at_ : Option Nat) (v : Value) : Interp Unit := do
  match ← find name at_ with
  | .local_ ref b => assignBinding (some ref) name b v
  | .outside b => assignBinding none name b v
  | .global => setMember (.object Machine.globalObject) name v

/-- The object of the call that a frame belongs to. -/
def selfOf : Nat → Option Nat → Interp Value
  | 0, _ => pure .undefined
  | _ + 1, none => pure (.object Machine.globalObject)
  | n + 1, some ref => do
    let f ← frame ref
    match f.self with
    | some v => pure v
    | none => selfOf n f.parent

/-! ## Expressions -/

mutual

/-- A callee as it is written in the message that it cannot be called. Fields of objects are written
without their names, and what has no short form is only said to be there. -/
def written : Expr → String
  | .null => "null"
  | .bool b => if b then "true" else "false"
  | .number x => Decimal.text x
  | .text s => "\"" ++ s ++ "\""
  | .name x => x
  | .self => "this"
  | .array items => "[" ++ ",".intercalate (writtenItems items) ++ "]"
  | .object fields => "\x7b" ++ String.join (writtenFields fields) ++ "\x7d"
  | .member e name => written e ++ "." ++ name
  | .index e (.text name) => written e ++ "." ++ name
  | .index e key => written e ++ "[" ++ written key ++ "]"
  | .call e _ => written e ++ "(...)"
  | .binary op a b => "(" ++ written a ++ " " ++ op.sign ++ " " ++ written b ++ ")"
  | .choose op a b => "(" ++ written a ++ " " ++ op.sign ++ " " ++ written b ++ ")"
  | .unary op e => "(" ++ op.sign ++ written e ++ ")"
  | _ => "(intermediate value)"

/-- The items of an array in that form. -/
def writtenItems : List Expr → List String
  | [] => []
  | e :: rest => written e :: writtenItems rest

/-- The values of an object in that form. -/
def writtenFields : List (String × Expr) → List String
  | [] => []
  | (_, e) :: rest => written e :: writtenFields rest

end

/-- The value of an operator. -/
def operate (call : Caller) (op : Operator) (a b : Value) : Interp Value :=
  match op with
  | .equal => pure (.bool (same a b))
  | .unequal => pure (.bool (!same a b))
  | .add => do
    let a ← plain call a
    let b ← plain call b
    match a, b with
    | .text s, b => pure (.text (s ++ plainText b))
    | a, .text t => pure (.text (plainText a ++ t))
    | a, b => pure (.number (plainNumber a + plainNumber b))
  | .less => do
    let a ← plain call a
    let b ← plain call b
    match a, b with
    | .text s, .text t => pure (.bool (Text.precedes s t))
    | a, b => pure (.bool (decide (plainNumber a < plainNumber b)))
  | .greater => do
    let a ← plain call a
    let b ← plain call b
    match a, b with
    | .text s, .text t => pure (.bool (Text.precedes t s))
    | a, b => pure (.bool (decide (plainNumber b < plainNumber a)))
  | .subtract => do
    let x ← toNumber call a
    let y ← toNumber call b
    pure (.number (x - y))
  | .multiply => do
    let x ← toNumber call a
    let y ← toNumber call b
    pure (.number (x * y))
  | .divide => do
    let x ← toNumber call a
    let y ← toNumber call b
    pure (.number (x / y))
  | .remainder => do
    let x ← toNumber call a
    let y ← toNumber call b
    pure (.number (Decimal.remainder x y))

/-- Makes a function of what is written. -/
def closure (f : Function) (at_ : Option Nat) : Interp Value :=
  add ⟨.function (.closure f at_), [], some Machine.functionPrototype, false⟩

mutual

/-- The value of an expression in a frame. -/
def expression (call : Caller) (at_ : Option Nat) : Expr → Interp Value
  | .null => pure .null
  | .bool b => pure (.bool b)
  | .number x => pure (.number x)
  | .text s => pure (.text s)
  | .name x => readName x at_
  | .self => do selfOf ((← get).frames.size + 1) at_
  | .array items => do
    let vs ← expressions call at_ items
    addArray vs
  | .object fields => do
    let slots ← objectFields call at_ fields []
    addPlain slots
  | .function none f => closure f at_
  | .function (some name) f => do
    -- the name means the function inside of it, and nothing outside
    let inner ← addFrame ⟨[], at_, none⟩
    let v ← closure f (some inner)
    bindName (some inner) name ⟨.set v, true⟩
    pure v
  | .call (.member e name) arguments => do
    let self ← expression call at_ e
    let f ← member self name
    let vs ← expressions call at_ arguments
    if ← isFunction f then call f self vs
    else fail "TypeError" (written e ++ "." ++ name ++ " is not a function")
  | .call (.index e key) arguments => do
    let self ← expression call at_ e
    let k ← expression call at_ key
    let name ← toName call k
    let f ← member self name
    let vs ← expressions call at_ arguments
    if ← isFunction f then call f self vs
    else fail "TypeError" (written (.index e key) ++ " is not a function")
  | .call callee arguments => do
    let f ← expression call at_ callee
    let vs ← expressions call at_ arguments
    if ← isFunction f then call f .undefined vs
    else fail "TypeError" (written callee ++ " is not a function")
  | .construct callee arguments => do
    let f ← expression call at_ callee
    let vs ← expressions call at_ arguments
    match f with
    | .object ref => do
      match (← object ref).kind with
      | .function (.native (.makeError prototype)) =>
        call f (.object prototype) vs
      | _ => fail "TypeError" (written callee ++ " is not a constructor")
    | _ => fail "TypeError" (written callee ++ " is not a constructor")
  | .member e name => do
    let v ← expression call at_ e
    member v name
  | .index e key => do
    let v ← expression call at_ e
    let k ← expression call at_ key
    let name ← toName call k
    member v name
  | .assign (.name x) value => do
    let v ← expression call at_ value
    assignName x at_ v
    pure v
  | .assign (.member e name) value => do
    let target ← expression call at_ e
    let v ← expression call at_ value
    setMember target name v
    pure v
  | .assign (.index e key) value => do
    let target ← expression call at_ e
    let k ← expression call at_ key
    let v ← expression call at_ value
    let name ← toName call k
    setMember target name v
    pure v
  | .assign _ value => expression call at_ value
  | .binary op a b => do
    let x ← expression call at_ a
    let y ← expression call at_ b
    operate call op x y
  | .choose .both a b => do
    let x ← expression call at_ a
    if isTrue x then expression call at_ b else pure x
  | .choose .either a b => do
    let x ← expression call at_ a
    if isTrue x then pure x else expression call at_ b
  | .choose .otherwise a b => do
    let x ← expression call at_ a
    match x with
    | .undefined => expression call at_ b
    | .null => expression call at_ b
    | x => pure x
  | .unary .kindOf (.name x) => do
    match ← find x at_ with
    | .global =>
      match ← globalMember? x with
      | some v => do pure (.text (← kindOf v))
      | none => pure (.text "undefined")
    | _ => do
      let v ← readName x at_
      pure (.text (← kindOf v))
  | .unary .kindOf e => do
    let v ← expression call at_ e
    pure (.text (← kindOf v))
  | .unary .negate e => do
    let v ← expression call at_ e
    let x ← toNumber call v
    pure (.number (-x))
  | .unary .not e => do
    let v ← expression call at_ e
    pure (.bool (!isTrue v))
  | .conditional c yes no => do
    let v ← expression call at_ c
    if isTrue v then expression call at_ yes else expression call at_ no

/-- The values of expressions from left to right. -/
def expressions (call : Caller) (at_ : Option Nat) : List Expr → Interp (List Value)
  | [] => pure []
  | e :: rest => do
    let v ← expression call at_ e
    let vs ← expressions call at_ rest
    pure (v :: vs)

/-- The slots of a written object after those already made. -/
def objectFields (call : Caller) (at_ : Option Nat) : List (String × Expr) → Fields Slot →
    Interp (Fields Slot)
  | [], done => pure done
  | (name, e) :: rest, done => do
    let v ← expression call at_ e
    objectFields call at_ rest
      (if name = reservedKey then done else Fields.insert name (.value v true) done)

end

/-! ## Statements -/

/-- Statements go on with the value they have so far. -/
def Completion.orElse (before : Option Value) : Completion → Completion
  | .normal none => .normal before
  | c => c

/-- The number of rounds that reach every time limit. -/
def roundLimit : Nat := 20000

/-- Repeats a body while a condition holds. -/
def repeatWhile (condition : Interp Bool) (body : Interp Completion) :
    Nat → Option Value → Interp Completion
  | 0, _ => leave .expired
  | n + 1, last => do
    if ← condition then
      match ← body with
      | .returned v => pure (.returned v)
      | .normal v => repeatWhile condition body n (v.or last)
    else pure (.normal last)

/-- A frame for the names that a block declares; a block without names of its own needs none. -/
def enterBlock (at_ : Option Nat) (body : List Statement) : Interp (Option Nat) :=
  match lexicalNames body with
  | [] => pure at_
  | names => do
    let ref ← addFrame ⟨names.map fun (x, assignable) => (x, ⟨.unset, assignable⟩), at_, none⟩
    pure (some ref)

mutual

/-- Runs a statement in a frame. -/
def statement (call : Caller) (at_ : Option Nat) : Statement → Interp Completion
  | .expression e => do
    let v ← expression call at_ e
    pure (.normal (some v))
  | .declare .var name value => do
    match value with
    | none => pure ()
    | some e => do
      let v ← expression call at_ e
      assignName name at_ v
    pure (.normal none)
  | .declare .let_ name value => do
    let v ← match value with
      | none => pure Value.undefined
      | some e => expression call at_ e
    bindName at_ name ⟨.set v, true⟩
    pure (.normal none)
  | .declare .const name value => do
    let v ← match value with
      | none => pure Value.undefined
      | some e => expression call at_ e
    bindName at_ name ⟨.set v, false⟩
    pure (.normal none)
  | .block body => do
    let inner ← enterBlock at_ body
    statements call inner body none
  | .ifElse c yes no => do
    let v ← expression call at_ c
    if isTrue v then do
      let result ← statement call at_ yes
      pure (Completion.orElse (some .undefined) result)
    else
      match no with
      | none => pure (.normal (some .undefined))
      | some no => do
        let result ← statement call at_ no
        pure (Completion.orElse (some .undefined) result)
  | .while_ c body => do
    let condition : Interp Bool := do
      let v ← expression call at_ c
      pure (isTrue v)
    let round := statement call at_ body
    let result ← repeatWhile condition round roundLimit none
    pure (Completion.orElse (some .undefined) result)
  | .throw e => do
    let v ← expression call at_ e
    raise v
  | .return_ none => pure (.returned .undefined)
  | .return_ (some e) => do
    let v ← expression call at_ e
    pure (.returned v)
  | .nothing => pure (.normal none)

/-- Runs statements one after the other; the value is the last one that there was. -/
def statements (call : Caller) (at_ : Option Nat) : List Statement → Option Value →
    Interp Completion
  | [], last => pure (.normal last)
  | s :: rest, last => do
    match ← statement call at_ s with
    | .returned v => pure (.returned v)
    | .normal v => statements call at_ rest (v.or last)

end

/-! ## Scripts -/

/-- Makes the names of a script. A name that an earlier script declared for its blocks cannot be
declared again, nor can a name be declared in both ways. -/
def declareNames (program : Program) : Interp Unit := do
  let m ← get
  let lexical := lexicalNames program
  let vars := varNamesOf program
  let clash (x : String) : Bool := Fields.has x m.lexicals
  -- a block name must be new, a name throughout may only not be a block name
  let taken := (lexical.map (·.1)).find? fun x =>
    clash x || m.declared.contains x || ["undefined", "NaN", "Infinity"].contains x
  match taken.or (vars.find? clash) with
  | some x => fail "SyntaxError" ("Identifier '" ++ x ++ "' has already been declared")
  | none =>
    modify fun m =>
      let o := (m.objects[Machine.globalObject]?).elim [] Object.slots
      -- a name throughout that already has a value keeps it
      let new := vars.eraseDups.filter fun x => !Fields.has x o
      let m := new.foldl
        (fun m x => m.putSlot Machine.globalObject x (.value .undefined true)) m
      { m with
        declared := m.declared ++ new
        lexicals := lexical.foldl (fun bs (x, assignable) => putBinding x ⟨.unset, assignable⟩ bs)
          m.lexicals }

/-- Names that a script leaves without a value are lost. -/
def loseUnset (m : Machine) : Machine :=
  { m with
    lexicals := m.lexicals.map fun (x, b) =>
      match b.cell with
      | .unset => (x, { b with cell := .lost })
      | _ => (x, b) }

/-- Runs a script outside of any function. -/
def runProgram (call : Caller) (source : String) : Interp Value :=
  match Program.read? source with
  | none => fail "SyntaxError" "the script is malformed"
  | some program => fun m =>
    let whole : Interp Value := do
      declareNames program
      match ← statements call none program none with
      | .normal v => pure (v.getD .undefined)
      | .returned v => pure v
    -- also a script that failed half-way has lost its remaining names
    (whole m).bind fun (r, m) => .done (r, loseUnset m)

/-- Runs the script of a placeholder inside another script. What it raises is a fault of that
script. -/
def runInner (call : Caller) (source : String) : Interp Value :=
  recover (runProgram call source) fun v => do
    let cause ← faultOf call v
    raiseFault (.script Selection.none cause)

/-- The text for a placeholder inside a script. -/
def resolve (call : Caller) (name : String) : Interp String :=
  if isExpression name then do
    let v ← runInner call name
    substituted call v
  else do
    match ← ask (.lookup name) with
    | some j => pure j.stringify
    | none => pure (unresolved name)

/-! ## Functions of the host -/

/-- The header that a script sees. -/
def header (h : Header) : Interp Value := do
  let raw ← addNative (.raw (some h.value))
  let filled ← addNative (.filled (some h.value) false)
  addPlain [("name", .value (.text h.name) true), ("getRawValue", .value raw true),
    ("tryGetSubstitutedValue", .value filled true)]

/-- The headers that a script sees. -/
def headers : List Header → Interp (List Value)
  | [] => pure []
  | h :: rest => do
    let v ← header h
    let vs ← headers rest
    pure (v :: vs)

/-- The scope of a view on variables. On anything else its functions fail when they look for the
store and then for the given operation. -/
def scopeOf (self : Value) (operation : String) : Interp Scope := do
  match self with
  | .object ref => do
    match (← object ref).kind with
    | .scope scope => pure scope
    | _ => fail "TypeError" ("Cannot read properties of undefined (reading '" ++ operation ++ "')")
  | _ => fail "TypeError" "Cannot read properties of undefined (reading 'store')"

/-- How a test that is called on a value records its outcome. Only the scripting object records; on
anything else the recording fails, when the callback has run. No object becomes the scripting object
or stops being it, so it does not matter that it is looked at before. -/
def recorder (self : Value) : Interp (String → TestOutcome → Interp Unit) :=
  match self with
  | .object ref => do
    match (← object ref).kind with
    | .client => pure fun name outcome => ask (.record name outcome)
    | _ => pure fun _ _ => fail "TypeError" "this.recordTest is not a function"
  | _ => pure fun _ _ =>
    fail "TypeError" "Cannot read properties of undefined (reading 'recordTest')"

/-- The results of a function for the items of an array. -/
def mapItems (call : Caller) (f whole : Value) : Nat → List Value → Interp (List Value)
  | _, [] => pure []
  | i, v :: rest => do
    let first ← call f .undefined [v, .number (Decimal.ofNat i), whole]
    let more ← mapItems call f whole (i + 1) rest
    pure (first :: more)

/-- The texts of the items of an array; nothing is written for absent ones. -/
def itemTexts (call : Caller) : List Value → Interp (List String)
  | [] => pure []
  | v :: rest => do
    let first ← match v with
      | .undefined => pure ""
      | .null => pure ""
      | v => toText call v
    let more ← itemTexts call rest
    pure (first :: more)

/-- The items of an array; nothing else has items. -/
def itemsOf (v : Value) : Interp (List Value) :=
  match v with
  | .object ref => do
    match (← object ref).kind with
    | .array items => pure items.toList
    | _ => pure []
  | _ => pure []

/-- The listed names of a value. -/
def namesOf (v : Value) : Interp (List String) :=
  match v with
  | .object ref => do
    let o ← object ref
    let items := match o.kind with
      | .array items => (List.range items.size).map toString
      | _ => []
    pure (items ++ Fields.names (listedSlots o))
  | .text s => pure ((List.range (Text.width s)).map toString)
  | .undefined => fail "TypeError" "Cannot convert undefined or null to object"
  | .null => fail "TypeError" "Cannot convert undefined or null to object"
  | _ => pure []

/-- The logged texts of values: texts as they are, anything else as it is substituted. -/
def logTexts (call : Caller) : List Value → Interp (List String)
  | [] => pure []
  | v :: rest => do
    let first ← substituted call v
    let more ← logTexts call rest
    pure (first :: more)

/-- A generated value. -/
def generate (call : Generator) : Interp Value := readSlot (.generated call)

/-- The text of a function that the host provides. -/
def hostText (name : String) : String := "function " ++ name ++ "() \x7b [native code] \x7d"

/-- The text of a function: what was written, and for one that the host provides its name. -/
def functionText (v : Value) : Interp String :=
  match v with
  | .object ref => do
    match (← object ref).kind with
    | .function (.closure (.mk _ _ _ _ source) _) => pure source
    | .function (.native n) => pure (hostText n.name)
    | _ => pure (hostText "")
  | _ => pure (hostText "")

/-- The text of a template for scripts, empty without one. -/
def templateText (call : Caller) (template : Option Template) (isTarget : Bool) :
    Interp String :=
  match template with
  | none => pure ""
  | some t => do
    let text ← t.fill (resolve call)
    pure (if isTarget then Text.stripString text else text)

/-- Joins an array. An array that is reached again while it is being joined adds no text, so that
arrays which hold themselves have a text too. -/
def joinOnce (v : Value) (join : Interp Value) : Interp Value :=
  match v with
  | .object ref => do
    let joining := (← get).joining
    if joining.contains ref then pure (.text "")
    else do
      modify fun m => { m with joining := ref :: joining }
      -- the array is left again however the joining ends
      let finish : Interp Unit := modify fun m => { m with joining := joining }
      let result ← tryCatch join fun signal => do
        finish
        throw signal
      finish
      pure result
  | _ => join

/-- What a function of the host does. -/
def native (call : Caller) (n : Native) (self : Value) (arguments : List Value) : Interp Value :=
  let first := arguments.headD .undefined
  let second := (arguments.drop 1).headD .undefined
  match n with
  | .toText =>
    match arguments with
    | [] => pure (.text "")
    | v :: _ => do pure (.text (← toText call v))
  | .stringify => do
    match ← copy call first with
    | some j => pure (.text j.compact)
    | none => pure .undefined
  | .parse => do
    let text ← toText call first
    match Json.read? text.toList with
    | some j => place j
    | none => fail "SyntaxError" "Unexpected token in JSON"
  | .isArray =>
    match first with
    | .object ref => do
      match (← object ref).kind with
      | .array _ => pure (.bool true)
      | _ => pure (.bool false)
    | _ => pure (.bool false)
  | .keys => do
    let names ← namesOf first
    addArray (names.map Value.text)
  | .makeError prototype => do
    let slots ← match first with
      | .undefined => pure []
      | v => do pure [("message", Slot.value (.text (← toText call v)) false)]
    add ⟨.error, slots, some prototype, false⟩
  | .objectText =>
    match self with
    | .undefined => pure (.text "[object Undefined]")
    | .null => pure (.text "[object Null]")
    | _ => pure (.text "[object Object]")
  | .itself => pure self
  | .hasOwn => do
    let name ← toName call first
    match self with
    | .object ref => do
      let o ← object ref
      pure (.bool (Fields.has name o.slots || ((← ownMember? o name).isSome)))
    | _ => pure (.bool false)
  | .map => do
    if ← isFunction first then
      let items ← itemsOf self
      let results ← mapItems call first self 0 items
      addArray results
    else do
      let text ← toText call first
      fail "TypeError" (text ++ " is not a function")
  | .join => do
    let separator ← match first with
      | .undefined => pure ","
      | v => toText call v
    joinOnce self do
      let items ← itemsOf self
      let texts ← itemTexts call items
      pure (.text (String.intercalate separator texts))
  | .push =>
    match self with
    | .object ref => do
      match (← object ref).kind with
      | .array items => do
        let items := items ++ arguments.toArray
        modify fun m => m.modifyObject ref fun o => { o with kind := .array items }
        pure (.number (Decimal.ofNat items.size))
      | _ => pure .undefined
    | _ => pure .undefined
  | .functionText => do pure (.text (← functionText self))
  | .errorText => do
    let name ← member self "name"
    let message ← member self "message"
    let name ← toText call name
    let message ← toText call message
    pure (.text (if message.isEmpty then name else if name.isEmpty then message
      else name ++ ": " ++ message))
  | .promiseThen => pure self
  | .lateFailure => do
    -- the failure is described even though nobody is shown the text
    let _ ← describe call first
    pure .undefined
  | .test => do
    let record ← recorder self
    Client.test (evaluator call) record (fun e => raiseFault (.client e)) first second
    pure .undefined
  | .assert => do
    let condition := match first with
      | .bool b => some b
      | _ => none
    Client.assert (fun e => raiseFault (.client e)) condition
      (match second with
        | .undefined => pure none
        | .null => pure none
        | v => do pure (some (← toText call v)))
    pure .undefined
  | .log => do
    let texts ← logTexts call arguments
    ask (.log (Client.logLine texts))
    pure .undefined
  | .readVariable =>
    match nameOf? first with
    | none => pure .undefined
    | some name => do
      let scope ← scopeOf self "get"
      placeOptional (← ask (.read scope (some name)))
  | .writeVariable =>
    match nameOf? first with
    | none => pure .undefined
    | some name => do
      match ← copy call second with
      | none => pure .undefined
      | some .null => pure .undefined
      | some j => do
        let scope ← scopeOf self "set"
        ask (.write scope (some name) (some j))
        pure .undefined
  | .clearVariable =>
    match nameOf? first with
    | none => pure .undefined
    | some name => do
      let scope ← scopeOf self "delete"
      ask (.clear scope (some name))
      pure .undefined
  | .clearVariables => do
    let scope ← scopeOf self "clear"
    ask (.clearAll scope)
    pure .undefined
  | .noVariables => do
    let scope ← scopeOf self "size"
    pure (.bool (← ask (.isEmpty scope)))
  | .readEnvironment =>
    match nameOf? first with
    | none => pure .null
    | some name => do
      match ← ask (.readEnvironment name) with
      | some j => place j
      | none => pure .null
  | .raw template => pure (.text ((template.map Template.text).getD ""))
  | .filled template isTarget => do pure (.text (← templateText call template isTarget))
  | .allHeaders all => do
    let vs ← headers all
    addArray vs
  | .findHeader all =>
    match nameOf? first with
    | none => pure .null
    | some name =>
      match all.find? fun h => Text.sameIgnoringCase h.name name with
      | some h => header h
      | none => pure .null
  | .drawText make => generate (make (argument first))
  | .drawNumber make => generate (make (argument first) (argument second))
  | .freshNumber make => do
    let v ← generate (make .absent .absent)
    pure (.text (plainText v))

/-! ## Calls -/

/-- The bindings of the parameters of a call; a missing argument is undefined. -/
def parameterBindings : List String → List Value → List (String × Binding)
  | [], _ => []
  | x :: rest, [] => (x, ⟨.set .undefined, true⟩) :: parameterBindings rest []
  | x :: rest, v :: vs => (x, ⟨.set v, true⟩) :: parameterBindings rest vs

/-- The names of a call: its parameters, the names declared throughout its body, and those declared
for its outermost block. -/
def callBindings (parameters : List String) (body : List Statement) (arguments : List Value) :
    List (String × Binding) :=
  -- of two parameters of one name the later one counts
  let given := (parameterBindings parameters arguments).foldl
    (fun bs (x, b) => putBinding x b bs) []
  let withVars := (varNamesOf body).foldl
    (fun bs x => if Fields.has x bs then bs else putBinding x ⟨.set .undefined, true⟩ bs) given
  (lexicalNames body).foldl (fun bs (x, assignable) => putBinding x ⟨.unset, assignable⟩ bs)
    withVars

/-- Runs the body of a written function. -/
def runBody (call : Caller) (body : List Statement) (at_ : Nat) : Interp Value := do
  match ← statements call (some at_) body none with
  | .returned v => pure v
  | .normal _ => pure .undefined

/-- The promise of a body's result. Whatever the body raises is kept in the promise, and since nothing
runs behind a script, nobody is told of it there. -/
def promised (body : Interp Value) : Interp Value := do
  let _ ← recover body fun _ => pure .undefined
  add ⟨.promise, [], some Machine.promisePrototype, false⟩

/-- Calls a function, at most so many calls deep. -/
def invoke : Nat → Caller
  | 0, _, _, _ => fail "RangeError" "Maximum call stack size exceeded"
  | n + 1, f, self, arguments =>
    match f with
    | .object ref => do
      match (← object ref).kind with
      | .function (.native code) => native (invoke n) code self arguments
      | .function (.closure (.mk parameters body isArrow isAsync _) around) => do
        -- an arrow function takes over the object of the surrounding call
        let own := if isArrow then none else
          match self with
          | .undefined => some (Value.object Machine.globalObject)
          | .null => some (Value.object Machine.globalObject)
          | v => some v
        let ref ← addFrame ⟨callBindings parameters body arguments, around, own⟩
        let run := runBody (invoke n) body ref
        if isAsync then promised run else run
      | _ => fail "TypeError" "not a function"
    | _ => fail "TypeError" "not a function"

/-- The depth of calls that a script may reach. -/
def callDepth : Nat := 3000

/-- Calls a function of a script. -/
def caller : Caller := invoke callDepth

end Interp

end RequestRunner.Script
