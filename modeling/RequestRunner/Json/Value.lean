import RequestRunner.Fields

/-!
# JSON values

The values that are kept, saved and printed: variables, environments and response bodies. An object
lists its fields in enumeration order, so equal contents print equally. `Json.copy` is the value as it
comes back from being written and read.
-/

set_option autoImplicit false

namespace RequestRunner

/-- A JSON value. Numbers are binary floating-point numbers. -/
inductive Json where
  | null
  | bool (b : Bool)
  | number (x : Float)
  | text (s : String)
  | array (items : List Json)
  | object (fields : List (String × Json))
  deriving Inhabited

/-- Named JSON values: an environment, a snapshot, the contents of a store. -/
abbrev VariableMap := Fields Json

namespace Json

/-- The value is null. -/
def isNull : Json → Bool
  | null => true
  | _ => false

/-- The fields of an object; no other value has fields. -/
def fields? : Json → Option (Fields Json)
  | object fields => some fields
  | _ => none

/-- A number as it is kept: what is not finite is null, and zero has no sign. -/
def ofFloat (x : Float) : Json :=
  if x.isNaN || x.isInf then null else if x == 0 then number 0 else number x

mutual

/-- The value as it is kept: every number in it is finite, and zero has no sign. -/
def copy : Json → Json
  | null => null
  | bool b => bool b
  | number x => ofFloat x
  | text s => text s
  | array items => array (copyItems items)
  | object fields => object (copyFields fields)

/-- The items of an array as they are kept. -/
def copyItems : List Json → List Json
  | [] => []
  | item :: rest => copy item :: copyItems rest

/-- The fields of an object as they are kept. -/
def copyFields : List (String × Json) → List (String × Json)
  | [] => []
  | (name, value) :: rest => (name, copy value) :: copyFields rest

end

end Json

end RequestRunner
