import RequestRunner.Json.Value

/-!
# Variable stores

A store is one named container of variables. It is filled with copies from a map of which null
values are left out, it never gives out what is shared, and it may be read-only. `Accessor` is the view of a script
on a store: names that are no texts are ignored, and a value that is absent is looked up in a second
store.

Main statements: what is set is got (`get?_set_self`), other names keep their values
(`get?_set_of_ne`), and an access without a fallback sees its store alone
(`Accessor.get?_none_fallback`).
-/

set_option autoImplicit false

namespace RequestRunner

/-- The one name that a map listing cannot carry. -/
def reservedKey : String := "__proto__"

/-- A container of variables. -/
structure Store where
  /-- The values by name, in order of insertion. -/
  values : List (String × Json)
  /-- Every change is refused. -/
  readOnly : Bool
  deriving Inhabited

/-- A change was refused because the store is read-only. -/
inductive StoreError where
  | readOnly
  deriving DecidableEq

/-- The wording of a refused change. -/
def StoreError.message : StoreError → String
  | readOnly => "Environment variables are read-only"

namespace Store

/-- Sets the value of a name; a new name goes to the end. -/
def put (name : String) (value : Json) : List (String × Json) → List (String × Json)
  | [] => [(name, value)]
  | (key, old) :: rest =>
    if key = name then (key, value) :: rest else (key, old) :: put name value rest

/-- The entries that a store is filled with: copies, of which null values are left out. -/
def keep (initial : VariableMap) : List (String × Json) :=
  (Json.copyFields initial).filter fun (_, value) => !value.isNull

/-- A store filled from a map. -/
def ofMap (initial : VariableMap) (readOnly : Bool) : Store := ⟨keep initial, readOnly⟩

/-- The store without variables. -/
def empty : Store := ⟨[], false⟩

/-- The value of a name. -/
def get? (s : Store) (name : String) : Option Json := Fields.get? name s.values

/-- The name has a value. -/
def has (s : Store) (name : String) : Bool := (s.get? name).isSome

/-- Sets a value. -/
def set (s : Store) (name : String) (value : Json) : Except StoreError Store :=
  if s.readOnly then .error .readOnly else .ok { s with values := put name value s.values }

/-- Removes a name. -/
def erase (s : Store) (name : String) : Except StoreError Store :=
  if s.readOnly then .error .readOnly else .ok { s with values := Fields.erase name s.values }

/-- Removes every name. -/
def clear (s : Store) : Except StoreError Store :=
  if s.readOnly then .error .readOnly else .ok { s with values := [] }

/-- The number of variables. -/
def size (s : Store) : Nat := s.values.length

/-- The variables as a map, in enumeration order; the reserved key is not carried over. -/
def toMap (s : Store) : VariableMap :=
  Fields.ofEntries (s.values.filter fun (name, _) => name != reservedKey)

theorem get?_put_self (name : String) (value : Json) (values : List (String × Json)) :
    Fields.get? name (put name value values) = some value := by
  induction values with
  | nil => simp [put, Fields.get?]
  | cons entry rest ih =>
    obtain ⟨key, old⟩ := entry
    by_cases h : key = name <;> simp [put, Fields.get?, h, ih]

theorem get?_put_of_ne {name other : String} (value : Json) (values : List (String × Json))
    (h : other ≠ name) : Fields.get? other (put name value values) = Fields.get? other values := by
  induction values with
  | nil => simp [put, Fields.get?, Ne.symm h]
  | cons entry rest ih =>
    obtain ⟨key, old⟩ := entry
    by_cases hk : key = name
    · subst hk
      simp [put, Fields.get?, Ne.symm h]
    · by_cases ho : key = other
      · subst ho
        simp [put, Fields.get?, hk]
      · simp [put, Fields.get?, hk, ho, ih]

/-- **What is set is got.** -/
theorem get?_set_self {s t : Store} {name : String} {value : Json}
    (h : s.set name value = .ok t) : t.get? name = some value := by
  unfold set at h
  split at h
  · exact absurd h (by simp)
  · injection h with h
    subst h
    exact get?_put_self name value s.values

/-- **Setting a name leaves the others alone.** -/
theorem get?_set_of_ne {s t : Store} {name other : String} {value : Json}
    (h : s.set name value = .ok t) (hne : other ≠ name) : t.get? other = s.get? other := by
  unfold set at h
  split at h
  · exact absurd h (by simp)
  · injection h with h
    subst h
    exact get?_put_of_ne value s.values hne

end Store

/-- The view of a script on a store, with a store to look into for what is absent. Names are texts or
nothing. -/
structure Accessor where
  /-- The store that is read and changed. -/
  store : Store
  /-- The store that is read when a name has no value. -/
  fallback : Option Store

namespace Accessor

/-- The value of a name; a null counts as no value. -/
def get? (a : Accessor) (name : Option String) : Option Json :=
  match name with
  | none => none
  | some name =>
    match a.store.get? name with
    | some .null => a.fallback.bind fun f => f.get? name
    | some value => some value
    | none => a.fallback.bind fun f => f.get? name

/-- Sets a value. A name that is no text, a value without a copy and null are ignored. -/
def set (a : Accessor) (name : Option String) (value : Option Json) :
    Except StoreError Accessor :=
  match name, value with
  | some name, some value =>
    if value.isNull then .ok a
    else (a.store.set name value).map fun store => { a with store := store }
  | _, _ => .ok a

/-- Removes a name; one that is no text is ignored. -/
def clear (a : Accessor) (name : Option String) : Except StoreError Accessor :=
  match name with
  | none => .ok a
  | some name => (a.store.erase name).map fun store => { a with store := store }

/-- Removes every name. -/
def clearAll (a : Accessor) : Except StoreError Accessor :=
  a.store.clear.map fun store => { a with store := store }

/-- The store holds nothing. -/
def isEmpty (a : Accessor) : Bool := a.store.size == 0

/-- **Without a fallback only the store is seen.** -/
theorem get?_none_fallback (store : Store) (name : String) (value : Json)
    (h : store.get? name = some value) (hv : value.isNull = false) :
    get? ⟨store, none⟩ (some name) = some value := by
  simp only [get?, h]
  cases value <;> simp_all [Json.isNull]

end Accessor

end RequestRunner
