/-!
# Ordered fields

The fields of a map, listed in the order in which they are enumerated: names that are array indices
come first in ascending order, all others follow in order of insertion. Setting a present name keeps
its place.

Main statements: what was inserted is found (`get?_insert_self`), other names keep their values
(`get?_insert_of_ne`), and erasing removes one name (`get?_erase_self`, `get?_erase_of_ne`).
-/

set_option autoImplicit false

namespace RequestRunner

/-- Named values in enumeration order. -/
abbrev Fields (α : Type) := List (String × α)

namespace Fields

variable {α : Type}

/-- The index that a name spells: canonical decimal digits below the largest array length. -/
def index? (name : String) : Option Nat :=
  match name.toList with
  | [] => none
  | ds =>
    if ds.all (fun c => '0' ≤ c && c ≤ '9') && (ds.length == 1 || ds.head? != some '0') &&
        ds.length ≤ 10 then
      let n := ds.foldl (fun n c => n * 10 + (c.toNat - '0'.toNat)) 0
      if n < 4294967295 then some n else none
    else none

/-- The value of a name. -/
def get? (name : String) : Fields α → Option α
  | [] => none
  | (key, value) :: rest => if key = name then some value else get? name rest

/-- The name is present. -/
def has (name : String) (fields : Fields α) : Bool := (get? name fields).isSome

/-- Replaces the value of a present name where it stands. -/
def replace (name : String) (value : α) : Fields α → Fields α
  | [] => []
  | (key, old) :: rest =>
    if key = name then (key, value) :: rest else (key, old) :: replace name value rest

/-- Places a new index before the first name that is no smaller index. -/
def placeIndex (index : Nat) (name : String) (value : α) : Fields α → Fields α
  | [] => [(name, value)]
  | (key, old) :: rest =>
    match index? key with
    | some other =>
      if other < index then (key, old) :: placeIndex index name value rest
      else (name, value) :: (key, old) :: rest
    | none => (name, value) :: (key, old) :: rest

/-- Sets a name: a present name keeps its place, a new index goes among the indices, any other new
name to the end. -/
def insert (name : String) (value : α) (fields : Fields α) : Fields α :=
  if has name fields then replace name value fields
  else
    match index? name with
    | some index => placeIndex index name value fields
    | none => fields ++ [(name, value)]

/-- The fields without a name. -/
def erase (name : String) : Fields α → Fields α
  | [] => []
  | (key, value) :: rest => if key = name then erase name rest else (key, value) :: erase name rest

/-- The fields that entries set one after the other leave behind. -/
def ofEntries (entries : List (String × α)) : Fields α :=
  entries.foldl (fun fields (name, value) => insert name value fields) []

/-- The names in enumeration order. -/
def names (fields : Fields α) : List String := fields.map (·.1)

@[simp] theorem get?_nil (name : String) : get? name ([] : Fields α) = none := rfl

/-- Replacing a present name sets it. -/
theorem get?_replace_self {name : String} {value : α} {fields : Fields α}
    (h : has name fields = true) : get? name (replace name value fields) = some value := by
  induction fields with
  | nil => simp [has] at h
  | cons entry rest ih =>
    obtain ⟨key, old⟩ := entry
    by_cases hk : key = name
    · simp [replace, get?, hk]
    · simp only [replace, hk, if_false, get?]
      exact ih (by simpa [has, get?, hk] using h)

/-- Replacing leaves other names alone. -/
theorem get?_replace_of_ne {name other : String} (value : α) (fields : Fields α)
    (h : other ≠ name) : get? other (replace name value fields) = get? other fields := by
  induction fields with
  | nil => rfl
  | cons entry rest ih =>
    obtain ⟨key, old⟩ := entry
    by_cases hk : key = name
    · subst hk
      simp [replace, get?, Ne.symm h]
    · by_cases ho : key = other
      · subst ho
        simp [replace, get?, hk]
      · simp [replace, get?, hk, ho, ih]

/-- Placing an absent index sets it. -/
theorem get?_placeIndex_self (index : Nat) (name : String) (value : α) (fields : Fields α)
    (h : get? name fields = none) :
    get? name (placeIndex index name value fields) = some value := by
  induction fields with
  | nil => simp [placeIndex, get?]
  | cons entry rest ih =>
    obtain ⟨key, old⟩ := entry
    by_cases hk : key = name
    · simp [get?, hk] at h
    · have hr : get? name rest = none := by simpa [get?, hk] using h
      simp only [placeIndex]
      split
      · split
        · simp [get?, hk, ih hr]
        · simp [get?]
      · simp [get?]

/-- Placing an index leaves other names alone. -/
theorem get?_placeIndex_of_ne {other : String} (index : Nat) (name : String) (value : α)
    (fields : Fields α) (h : other ≠ name) :
    get? other (placeIndex index name value fields) = get? other fields := by
  induction fields with
  | nil => simp [placeIndex, get?, Ne.symm h]
  | cons entry rest ih =>
    obtain ⟨key, old⟩ := entry
    simp only [placeIndex]
    split
    · split
      · by_cases ho : key = other <;> simp [get?, ho, ih]
      · simp [get?, Ne.symm h]
    · simp [get?, Ne.symm h]

/-- The value of a name in joined fields. -/
theorem get?_append (name : String) (xs ys : Fields α) :
    get? name (xs ++ ys) = (get? name xs).or (get? name ys) := by
  induction xs with
  | nil => simp
  | cons entry rest ih =>
    obtain ⟨key, old⟩ := entry
    by_cases hk : key = name <;> simp [get?, hk, ih]

/-- **What was inserted is found.** -/
@[simp] theorem get?_insert_self (name : String) (value : α) (fields : Fields α) :
    get? name (insert name value fields) = some value := by
  unfold insert
  split
  · next h => exact get?_replace_self h
  · next h =>
    have hn : get? name fields = none := by simpa [has] using h
    split
    · exact get?_placeIndex_self _ _ _ _ hn
    · simp [get?_append, hn, get?]

/-- **Inserting leaves other names alone.** -/
theorem get?_insert_of_ne {name other : String} (value : α) (fields : Fields α)
    (h : other ≠ name) : get? other (insert name value fields) = get? other fields := by
  unfold insert
  split
  · exact get?_replace_of_ne value fields h
  · split
    · exact get?_placeIndex_of_ne _ _ _ _ h
    · simp [get?_append, get?, Ne.symm h]

/-- **An erased name is absent.** -/
@[simp] theorem get?_erase_self (name : String) (fields : Fields α) :
    get? name (erase name fields) = none := by
  induction fields with
  | nil => rfl
  | cons entry rest ih =>
    obtain ⟨key, old⟩ := entry
    by_cases hk : key = name <;> simp [erase, get?, hk, ih]

/-- **Erasing leaves other names alone.** -/
theorem get?_erase_of_ne {name other : String} (fields : Fields α) (h : other ≠ name) :
    get? other (erase name fields) = get? other fields := by
  induction fields with
  | nil => rfl
  | cons entry rest ih =>
    obtain ⟨key, old⟩ := entry
    by_cases hk : key = name
    · simp [erase, hk, get?, Ne.symm h, ih]
    · by_cases ho : key = other
      · subst ho
        simp [erase, get?, hk]
      · simp [erase, get?, hk, ho, ih]

end Fields

end RequestRunner
