import Mathlib.Logic.Function.Basic
import RequestRunner.Proofs.Engine.Copies
import RequestRunner.Store

/-!
# Stored values as a map

The values of a store stand for a map from names to values: every name stands once, and what stands
there is a copy that is not null (`Represents`). Setting, removing and refilling keep this
(`Represents.put`, `Represents.erase`, `represents_keep`). A listing of a store carries the whole
map unless the reserved key has a value (`Represents.get?_toMap`), so a store that is filled from
the listing of another one holds the same map (`Represents.keep_toMap`).
-/

set_option autoImplicit false

namespace RequestRunner

/-! ## Names that stand once -/

namespace Fields

variable {α : Type}

theorem names_cons (name : String) (value : α) (fields : Fields α) :
    names ((name, value) :: fields) = name :: names fields := rfl

theorem get?_eq_none_iff {name : String} {fields : Fields α} :
    get? name fields = none ↔ name ∉ names fields := by
  induction fields with
  | nil => exact iff_of_true rfl List.not_mem_nil
  | cons head rest ih =>
    obtain ⟨key, value⟩ := head
    rw [names_cons, List.mem_cons, not_or, ← ih, get?]
    split
    · next hk => exact iff_of_false (by simp) fun h => h.1 hk.symm
    · next hk => exact (and_iff_right fun h => hk h.symm).symm

theorem has_eq_decide (name : String) (fields : Fields α) :
    has name fields = decide (name ∈ names fields) := by
  rw [has, Bool.eq_iff_iff, decide_eq_true_iff, Option.isSome_iff_ne_none, ne_eq,
    get?_eq_none_iff, not_not]

/-- Where every name stands once, the entries are the values by name. -/
theorem mem_iff_get?_eq {fields : Fields α} (h : (names fields).Nodup) {name : String} {value : α} :
    (name, value) ∈ fields ↔ get? name fields = some value := by
  induction fields with
  | nil => simp
  | cons head rest ih =>
    obtain ⟨key, old⟩ := head
    rw [names_cons, List.nodup_cons] at h
    rw [List.mem_cons, Prod.mk.injEq, ih h.2, get?]
    split
    · next hk =>
      subst hk
      rw [get?_eq_none_iff.2 h.1]
      simp [eq_comm]
    · next hk => simp [Ne.symm hk]

/-- A name that stands once keeps its value in a selection that holds its entry. -/
theorem get?_filter {fields : Fields α} (hnodup : (names fields).Nodup)
    (keeps : String × α → Bool) (name : String) :
    get? name (fields.filter keeps) =
      (get? name fields).filter fun value => keeps (name, value) := by
  induction fields with
  | nil => rfl
  | cons head rest ih =>
    obtain ⟨key, value⟩ := head
    rw [names_cons, List.nodup_cons] at hnodup
    have hrest := ih hnodup.2
    rw [List.filter_cons, get?]
    by_cases hk : key = name
    · subst hk
      rw [get?_eq_none_iff.2 hnodup.1] at hrest
      rw [if_pos rfl, Option.filter_some]
      split
      · rw [get?, if_pos rfl]
      · exact hrest
    · rw [if_neg hk, ← hrest]
      split
      · rw [get?, if_neg hk]
      · rfl

theorem names_replace (name : String) (value : α) (fields : Fields α) :
    names (replace name value fields) = names fields := by
  induction fields with
  | nil => rfl
  | cons head rest ih =>
    obtain ⟨key, old⟩ := head
    rw [replace]
    split
    · rfl
    · rw [names_cons, names_cons, ih]

/-- Setting a name keeps every name standing once. -/
theorem nodup_names_insert {fields : Fields α} (name : String) (value : α)
    (h : (names fields).Nodup) : (names (insert name value fields)).Nodup := by
  cases hn : has name fields with
  | true =>
    rw [insert, hn, if_pos rfl, names_replace]
    exact h
  | false =>
    have habsent : name ∉ names fields := of_decide_eq_false (has_eq_decide name fields ▸ hn)
    have hperm := (insert_perm value hn).map Prod.fst
    exact hperm.nodup_iff.2 (List.nodup_cons.2 ⟨habsent, h⟩)

/-- What is found behind setting entries with different names, one after the other. -/
theorem get?_foldl_insert {entries : List (String × α)} (h : (names entries).Nodup) (name : String)
    (fields : Fields α) :
    get? name (entries.foldl (fun fields head => insert head.1 head.2 fields) fields) =
      (get? name entries).or (get? name fields) := by
  induction entries generalizing fields with
  | nil => rfl
  | cons head rest ih =>
    obtain ⟨key, value⟩ := head
    rw [names_cons, List.nodup_cons] at h
    rw [List.foldl_cons, ih h.2, get?]
    show (get? name rest).or (get? name (insert key value fields)) = _
    rcases eq_or_ne key name with rfl | hne
    · rw [get?_eq_none_iff.2 h.1, get?_insert_self, if_pos rfl, Option.none_or, Option.some_or]
    · rw [get?_insert_of_ne value fields hne.symm, if_neg hne]

/-- Entries with different names are found as they were listed. -/
theorem get?_ofEntries {entries : List (String × α)} (h : (names entries).Nodup)
    (name : String) : get? name (ofEntries entries) = get? name entries :=
  (get?_foldl_insert h name []).trans Option.or_none

/-- Of two lists of entries the second one counts. -/
theorem get?_ofEntries_append {entries more : List (String × α)} (h : (names entries).Nodup)
    (hmore : (names more).Nodup) (name : String) :
    get? name (ofEntries (entries ++ more)) = (get? name more).or (get? name entries) := by
  rw [← get?_ofEntries h, ← get?_foldl_insert hmore, ofEntries, List.foldl_append]
  rfl

theorem nodup_names_ofEntries (entries : List (String × α)) :
    (names (ofEntries entries)).Nodup := by
  suffices ∀ fields : Fields α, (names fields).Nodup →
      (names (entries.foldl (fun fields head => insert head.1 head.2 fields) fields)).Nodup from
    this [] List.nodup_nil
  induction entries with
  | nil => exact fun fields h => h
  | cons head rest ih => exact fun fields h => ih _ (nodup_names_insert head.1 head.2 h)

theorem mem_names_insert {name other : String} (value : α) (fields : Fields α) :
    other ∈ names (insert name value fields) ↔ other = name ∨ other ∈ names fields := by
  have hmem : ∀ {xs : Fields α}, other ∈ names xs ↔ get? other xs ≠ none :=
    fun {xs} => (@get?_eq_none_iff α other xs).not_left.symm
  rw [hmem, hmem]
  rcases eq_or_ne other name with rfl | hne
  · rw [get?_insert_self]
    exact iff_of_true nofun (Or.inl rfl)
  · rw [get?_insert_of_ne value fields hne, or_iff_right hne]

/-- Entries leave behind the names that they set. -/
theorem mem_names_ofEntries {name : String} (entries : List (String × α)) :
    name ∈ names (ofEntries entries) ↔ name ∈ names entries := by
  suffices ∀ fields : Fields α,
      name ∈ names (entries.foldl (fun fields head => insert head.1 head.2 fields) fields) ↔
        name ∈ names fields ∨ name ∈ names entries from
    (this []).trans (or_iff_right List.not_mem_nil)
  induction entries with
  | nil => exact fun fields => (or_iff_left List.not_mem_nil).symm
  | cons head rest ih =>
    intro fields
    obtain ⟨key, value⟩ := head
    rw [List.foldl_cons, ih, mem_names_insert, names_cons, List.mem_cons, or_right_comm, or_comm,
      or_left_comm]

theorem erase_sublist (name : String) (fields : Fields α) :
    (erase name fields).Sublist fields := by
  induction fields with
  | nil => exact List.Sublist.refl _
  | cons head rest ih =>
    obtain ⟨key, value⟩ := head
    rw [erase]
    split
    · exact ih.cons _
    · exact ih.cons_cons _

end Fields

/-! ## The map of a store -/

namespace Store

/-- The values stand for a map: every name stands once, with a copy that is not null. -/
structure Represents (values : List (String × Json)) (map : String → Option Json) : Prop where
  nodup : (Fields.names values).Nodup
  get?_eq : ∀ name, Fields.get? name values = map name
  isNull_eq : ∀ {name value}, map name = some value → value.isNull = false
  copy_eq : ∀ {name value}, map name = some value → value.copy = value

/-- The map of a store that is filled from a listing: copies, without the null values. -/
def held (initial : VariableMap) (name : String) : Option Json :=
  ((Fields.get? name initial).map Json.copy).filter fun value => !value.isNull

theorem represents_nil : Represents [] (fun _ => none) :=
  ⟨List.nodup_nil, fun _ => rfl, nofun, nofun⟩

/-- A store represents what it is filled with. -/
theorem represents_keep {initial : VariableMap} (h : (Fields.names initial).Nodup) :
    Represents (keep initial) (held initial) := by
  have hcopies : (Fields.names (Json.copyFields initial)).Nodup := by
    rw [Json.names_copyFields]
    exact h
  constructor
  · exact hcopies.sublist (List.filter_sublist.map _)
  · intro name
    rw [keep, Fields.get?_filter hcopies, Json.get?_copyFields, held]
  · intro name value hvalue
    have hkept := (Option.filter_eq_some_iff.1 hvalue).2
    rw [Bool.not_eq_true'] at hkept
    exact hkept
  · intro name value hvalue
    obtain ⟨source, -, rfl⟩ := Option.map_eq_some_iff.1 (Option.filter_eq_some_iff.1 hvalue).1
    exact Json.copy_copy source

theorem put_eq (name : String) (value : Json) (values : List (String × Json)) :
    put name value values =
      if Fields.has name values then Fields.replace name value values
      else values ++ [(name, value)] := by
  induction values with
  | nil => rfl
  | cons head rest ih =>
    obtain ⟨key, old⟩ := head
    rw [put, Fields.replace, Fields.has, Fields.get?]
    split
    · rfl
    · rw [ih, Fields.has]
      split <;> rfl

/-- Setting a name keeps every name standing once. -/
theorem nodup_names_put {values : List (String × Json)} (name : String) (value : Json)
    (h : (Fields.names values).Nodup) : (Fields.names (put name value values)).Nodup := by
  rw [put_eq]
  split
  · rw [Fields.names_replace]
    exact h
  · next hn =>
    have habsent : name ∉ Fields.names values :=
      Fields.get?_eq_none_iff.1 (Option.not_isSome_iff_eq_none.1 hn)
    have hperm := (List.perm_append_singleton (name, value) values).map Prod.fst
    exact hperm.nodup_iff.2 (List.nodup_cons.2 ⟨habsent, h⟩)

theorem nodup_names_toMap (store : Store) : (Fields.names store.toMap).Nodup :=
  Fields.nodup_names_ofEntries _

/-- A listing carries every name but the reserved one. -/
theorem get?_toMap {store : Store} (h : (Fields.names store.values).Nodup) (name : String) :
    Fields.get? name store.toMap = if name = reservedKey then none else store.get? name := by
  have hnodup : (Fields.names
      (store.values.filter fun entry => entry.1 != reservedKey)).Nodup :=
    h.sublist (List.filter_sublist.map _)
  rw [toMap, Fields.get?_ofEntries hnodup, Fields.get?_filter h, get?]
  split
  · next hname =>
    subst hname
    cases Fields.get? reservedKey store.values <;> rfl
  · next hname =>
    have hkept : (name != reservedKey) = true := bne_iff_ne.2 hname
    cases Fields.get? name store.values with
    | none => rfl
    | some value => rw [Option.filter_some, if_pos hkept]

namespace Represents

variable {values : List (String × Json)} {map : String → Option Json}

theorem ne_null (h : Represents values map) (name : String) : map name ≠ some .null :=
  fun hnull => Bool.noConfusion (h.isNull_eq hnull)

/-- Setting a name to a copy that is not null changes the map there. -/
theorem put (h : Represents values map) (name : String) {value : Json}
    (hnull : value.isNull = false) (hcopy : value.copy = value) :
    Represents (put name value values) (Function.update map name (some value)) := by
  have hstored : ∀ {other stored}, Function.update map name (some value) other = some stored →
      stored = value ∨ map other = some stored := by
    intro other stored hvalue
    rcases eq_or_ne other name with rfl | hne
    · rw [Function.update_self] at hvalue
      exact Or.inl (Option.some.inj hvalue).symm
    · rw [Function.update_of_ne hne] at hvalue
      exact Or.inr hvalue
  constructor
  · exact nodup_names_put name value h.nodup
  · intro other
    rcases eq_or_ne other name with rfl | hne
    · rw [get?_put_self, Function.update_self]
    · rw [get?_put_of_ne value values hne, Function.update_of_ne hne, h.get?_eq]
  · intro other stored hvalue
    rcases hstored hvalue with rfl | hvalue
    · exact hnull
    · exact h.isNull_eq hvalue
  · intro other stored hvalue
    rcases hstored hvalue with rfl | hvalue
    · exact hcopy
    · exact h.copy_eq hvalue

/-- Removing a name empties the map there. -/
theorem erase (h : Represents values map) (name : String) :
    Represents (Fields.erase name values) (Function.update map name none) := by
  have hstored : ∀ {other value}, Function.update map name none other = some value →
      map other = some value := by
    intro other value hvalue
    rcases eq_or_ne other name with rfl | hne
    · rw [Function.update_self] at hvalue
      cases hvalue
    · rw [Function.update_of_ne hne] at hvalue
      exact hvalue
  constructor
  · exact h.nodup.sublist ((Fields.erase_sublist name values).map _)
  · intro other
    rcases eq_or_ne other name with rfl | hne
    · rw [Fields.get?_erase_self, Function.update_self]
    · rw [Fields.get?_erase_of_ne values hne, Function.update_of_ne hne, h.get?_eq]
  · exact fun hvalue => h.isNull_eq (hstored hvalue)
  · exact fun hvalue => h.copy_eq (hstored hvalue)

/-- The map is empty exactly if there are no values. -/
theorem eq_nil_iff (h : Represents values map) : values = [] ↔ ∀ name, map name = none := by
  constructor
  · rintro rfl name
    exact (h.get?_eq name).symm
  · intro hempty
    cases values with
    | nil => rfl
    | cons head rest =>
      have hhead := h.get?_eq head.1
      rw [hempty, Fields.get?, if_pos rfl] at hhead
      cases hhead

/-- A listing carries the map under every name but the reserved one. -/
theorem get?_toMap {store : Store} (h : Represents store.values map) (name : String) :
    Fields.get? name store.toMap = if name = reservedKey then none else map name := by
  rw [Store.get?_toMap h.nodup, Store.get?, h.get?_eq]

/-- **A store filled from the listing of another one holds the same map**, if the reserved key has
no value there. -/
theorem keep_toMap {store : Store} (h : Represents store.values map)
    (hreserved : map reservedKey = none) : Represents (keep store.toMap) map := by
  have hsame : held store.toMap = map := by
    funext name
    have hlisted : Fields.get? name store.toMap = map name := by
      rw [h.get?_toMap]
      split
      · next hname => rw [hname, hreserved]
      · rfl
    rw [held, hlisted]
    cases hvalue : map name with
    | none => rfl
    | some value =>
      rw [Option.map_some, h.copy_eq hvalue, Option.filter_some, h.isNull_eq hvalue]
      rfl
  rw [← hsame]
  exact represents_keep (nodup_names_toMap store)

end Represents

end Store

end RequestRunner
