import RequestRunner.Datum
import RequestRunner.Fault
import RequestRunner.Json.Reader

/-!
# Environments

An environment document holds one map of variables for each environment name; a snapshot document is
such a map itself. This module reads both out of texts and picks an environment by its name. A text
that is not JSON is YAML, and reading that is left to whoever can: everything here holds of any way
of reading it.

A document may define the reserved key. Its value never counts as a variable; if it is a map, names
that the document does not define are looked up in it. Behind that, every map and every list answers
to a few names of its own, and no such answer is a map of variables, so that an environment of such a
name has to be defined.

Main statements: the reserved key is never a variable (`variablesOf_reserved`), and a name that is
defined selects its own value (`select_of_own`).
-/

set_option autoImplicit false

namespace RequestRunner

/-- A way of reading YAML: the value of a text, or the fault that it is refused with. -/
abbrev YamlReader := String → Except Fault Datum

namespace Environment

/-- The variables that a map defines. -/
def definitions (fields : Fields Datum) : VariableMap :=
  Fields.ofEntries <| fields.filterMap fun (name, value) =>
    if name = reservedKey then none else value.json?.map fun copy => (name, copy)

/-- The variables that a value defines, which has to be a map. -/
def variablesOf (description : String) : Datum → Except Misconfiguration VariableMap
  | .object fields => .ok (definitions fields)
  | _ => .error (.notAMap description)

/-- The text is JSON: its first character that is no blank opens an object. -/
def looksLikeJson (content : String) : Bool :=
  (Text.trim content.toList).head? == some '\x7b'

/-- The value of a document. A blank document is an empty map. -/
def valueOf (yaml : YamlReader) (content : String) : Except Fault Datum :=
  if Text.allBlank content.toList then .ok (.object [])
  else if looksLikeJson content then
    match Json.read? content.toList with
    | some value => .ok (.ofJson value)
    | none => .error (.raised "SyntaxError" "Unexpected token in JSON")
  else yaml content

/-- Where the names are looked up that a document does not define. -/
inductive Ancestor where
  /-- Among the names that every map answers to. -/
  | common
  /-- Nowhere. -/
  | nothing
  /-- In a map, and then among the common names. -/
  | map (fields : Fields Json)
  /-- In a list by index, then among the names that every list answers to, and then among the common
  names. -/
  | list (items : List Json)

/-- The environments of a document. -/
structure Catalog where
  /-- The environments that the document defines. -/
  own : VariableMap
  /-- Where other names are looked up. -/
  ancestor : Ancestor

/-- The ancestor that the value of the reserved key makes. -/
def Ancestor.ofValue : Option Json → Ancestor
  | some .null => nothing
  | some (.object fields) => map fields
  | some (.array items) => list items
  | _ => common

/-- The environments of the value of a document, which has to be a map. -/
def Catalog.ofValue (description : String) (value : Datum) : Except Misconfiguration Catalog := do
  let own ← variablesOf description value
  let reserved := match value with
    | .object fields => (Fields.get? reservedKey fields).bind Datum.json?
    | _ => none
  pure ⟨own, Ancestor.ofValue reserved⟩

/-- The names, besides the reserved key, that every map answers to. -/
def commonNames : List String :=
  ["constructor", "hasOwnProperty", "isPrototypeOf", "propertyIsEnumerable", "toLocaleString",
    "toString", "valueOf", "__defineGetter__", "__defineSetter__", "__lookupGetter__",
    "__lookupSetter__"]

/-- The names, besides its length, that every list answers to. -/
def listNames : List String :=
  ["at", "concat", "copyWithin", "entries", "every", "fill", "filter", "find", "findIndex",
    "findLast", "findLastIndex", "flat", "flatMap", "forEach", "includes", "indexOf", "join", "keys",
    "lastIndexOf", "map", "pop", "push", "reduce", "reduceRight", "reverse", "shift", "slice",
    "some", "sort", "splice", "toReversed", "toSorted", "toSpliced", "unshift", "values", "with"]

/-- What every map answers to a name. -/
def commonValue (name : String) : Datum :=
  if name = reservedKey then .object []
  else if commonNames.contains name then .function
  else .undefined

/-- What is found under a name. -/
def Ancestor.find (name : String) : Ancestor → Datum
  | common => commonValue name
  | nothing => .undefined
  | map fields =>
    match Fields.get? name fields with
    | some value => .ofJson value
    | none => if name = reservedKey then .ofJson (.object fields) else commonValue name
  | list items =>
    if name = reservedKey then .ofJson (.array items)
    else if name = "length" then .number (Decimal.ofNat items.length)
    else
      match (Fields.index? name).bind fun index => items[index]? with
      | some value => .ofJson value
      | none => if listNames.contains name then .function else commonValue name

/-- The environment of a name. -/
def Catalog.select (catalog : Catalog) (name : String) : Datum :=
  match Fields.get? name catalog.own with
  | some value => .ofJson value
  | none => catalog.ancestor.find name

/-- The variables of the selected environment; one that is not there has none. -/
def selectedVariables (name : String) : Datum → Except Misconfiguration VariableMap
  | .undefined => .ok []
  | .null => .ok []
  | value => variablesOf ("environment \"" ++ name ++ "\"") value

/-- The variables of an environment over those of a snapshot. -/
def merge (snapshot environment : VariableMap) : VariableMap :=
  Fields.ofEntries (snapshot ++ environment)

/-- Setting entries leaves a name alone that none of them sets. -/
theorem get?_foldl_insert {α : Type} {name : String} (entries start : Fields α)
    (h : ∀ entry ∈ entries, entry.1 ≠ name) :
    Fields.get? name (entries.foldl (fun fields (key, value) => Fields.insert key value fields)
      start) = Fields.get? name start := by
  induction entries generalizing start with
  | nil => rfl
  | cons entry rest ih =>
    obtain ⟨key, value⟩ := entry
    have hk : name ≠ key := fun he => h (key, value) List.mem_cons_self he.symm
    simp only [List.foldl_cons]
    rw [ih _ fun e he => h e (List.mem_cons_of_mem _ he), Fields.get?_insert_of_ne _ _ hk]

/-- **The reserved key is never a variable.** -/
theorem variablesOf_reserved {description : String} {value : Datum} {found : VariableMap}
    (h : variablesOf description value = .ok found) : Fields.get? reservedKey found = none := by
  cases value with
  | object fields =>
    simp only [variablesOf] at h
    injection h with h
    subst h
    rw [definitions, Fields.ofEntries, get?_foldl_insert]
    · rfl
    · intro entry he
      obtain ⟨⟨name, value⟩, _, hf⟩ := List.mem_filterMap.1 he
      simp only at hf
      split at hf
      · exact absurd hf (by simp)
      · next hne =>
        obtain ⟨copy, _, hc⟩ := Option.map_eq_some_iff.1 hf
        rw [← hc]
        exact hne
  | _ => exact absurd h (by simp [variablesOf])

/-- **A name that is defined selects its own value.** -/
theorem select_of_own {catalog : Catalog} {name : String} {value : Json}
    (h : Fields.get? name catalog.own = some value) :
    catalog.select name = .ofJson value := by
  simp [Catalog.select, h]

end Environment

end RequestRunner
