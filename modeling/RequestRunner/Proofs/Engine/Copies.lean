import RequestRunner.Datum

/-!
# Copies

A value that was written as JSON and read again is a copy: a second writing and reading gives the
same value (`Json.copy_copy`). The copy of a loose value is such a copy as well
(`Datum.copy_of_json?`), also where it went through the fields of an object, of which the last with
a name counts (`Fields.mem_ofEntries`).
-/

set_option autoImplicit false

namespace RequestRunner

/-! ## Fields -/

namespace Fields

variable {α : Type}

theorem mem_replace {name : String} {value : α} {fields : Fields α} {entry : String × α}
    (h : entry ∈ replace name value fields) : entry = (name, value) ∨ entry ∈ fields := by
  induction fields with
  | nil => exact absurd h List.not_mem_nil
  | cons head rest ih =>
    obtain ⟨key, old⟩ := head
    simp only [replace] at h
    split at h
    · next hk =>
      subst hk
      rcases List.mem_cons.1 h with h | h
      · exact Or.inl h
      · exact Or.inr (List.mem_cons_of_mem _ h)
    · rcases List.mem_cons.1 h with h | h
      · exact Or.inr (h ▸ List.mem_cons_self)
      · exact (ih h).imp_right (List.mem_cons_of_mem _)

/-- Placing an index adds one entry. -/
theorem placeIndex_perm (index : Nat) (name : String) (value : α) (fields : Fields α) :
    (placeIndex index name value fields).Perm ((name, value) :: fields) := by
  induction fields with
  | nil => exact List.Perm.refl _
  | cons head rest ih =>
    obtain ⟨key, old⟩ := head
    simp only [placeIndex]
    split
    · split
      · exact (ih.cons _).trans (List.Perm.swap _ _ _)
      · exact List.Perm.refl _
    · exact List.Perm.refl _

/-- Setting a name that is absent adds one entry. -/
theorem insert_perm {name : String} {fields : Fields α} (value : α)
    (h : has name fields = false) : (insert name value fields).Perm ((name, value) :: fields) := by
  rw [insert, h, if_neg Bool.false_ne_true]
  split
  · exact placeIndex_perm _ _ _ _
  · exact List.perm_append_singleton _ _

theorem mem_insert {name : String} {value : α} {fields : Fields α} {entry : String × α}
    (h : entry ∈ insert name value fields) : entry = (name, value) ∨ entry ∈ fields := by
  cases hn : has name fields with
  | true =>
    rw [insert, hn, if_pos rfl] at h
    exact mem_replace h
  | false => exact List.mem_cons.1 ((insert_perm value hn).mem_iff.1 h)

/-- What entries leave behind comes from them. -/
theorem mem_ofEntries {entries : List (String × α)} {entry : String × α}
    (h : entry ∈ ofEntries entries) : entry ∈ entries := by
  -- from the middle on, an entry may also be among the fields that are there
  suffices ∀ fields : Fields α,
      entry ∈ entries.foldl (fun fields head => insert head.1 head.2 fields) fields →
        entry ∈ fields ∨ entry ∈ entries from
    (this [] h).resolve_left List.not_mem_nil
  clear h
  intro fields
  induction entries generalizing fields with
  | nil => exact Or.inl
  | cons head rest ih =>
    intro h
    rcases ih (insert head.1 head.2 fields) h with h | h
    · rcases mem_insert h with h | h
      · exact Or.inr (h ▸ List.mem_cons_self)
      · exact Or.inl h
    · exact Or.inr (List.mem_cons_of_mem _ h)

end Fields

/-! ## JSON values -/

namespace Json

/-- Finite numbers other than zero are kept as they are. -/
theorem ofFloat_eq_number {x : Float} (hfinite : ¬(x.isNaN || x.isInf) = true)
    (hzero : ¬(x == 0) = true) : ofFloat x = number x := by
  rw [ofFloat, if_neg hfinite, if_neg hzero]

theorem ofFloat_zero : ofFloat 0 = number 0 := by
  have hfinite : ¬((0 : Float).isNaN || (0 : Float).isInf) = true := by decide +kernel
  rw [ofFloat, if_neg hfinite, ite_self]

theorem ofFloat_one : ofFloat 1 = number 1 :=
  ofFloat_eq_number (by decide +kernel) (by decide +kernel)

/-- A kept number is kept as it is. -/
theorem copy_ofFloat (x : Float) : (ofFloat x).copy = ofFloat x := by
  unfold ofFloat
  split
  · rfl
  · split
    · exact ofFloat_zero
    · next hfinite hzero => exact ofFloat_eq_number hfinite hzero

mutual

/-- **The copy of a copy is the copy.** -/
theorem copy_copy : (value : Json) → value.copy.copy = value.copy
  | null => rfl
  | bool _ => rfl
  | number x => copy_ofFloat x
  | text _ => rfl
  | array items => by rw [copy, copy, copyItems_copyItems items]
  | object fields => by rw [copy, copy, copyFields_copyFields fields]

theorem copyItems_copyItems : (items : List Json) → copyItems (copyItems items) = copyItems items
  | [] => rfl
  | item :: rest => by
      rw [copyItems, copyItems, copy_copy item, copyItems_copyItems rest]

theorem copyFields_copyFields : (fields : List (String × Json)) →
    copyFields (copyFields fields) = copyFields fields
  | [] => rfl
  | (_, value) :: rest => by
      rw [copyFields, copyFields, copy_copy value, copyFields_copyFields rest]

end

/-- The fields of a copy hold copies. -/
theorem copy_of_mem_copyFields {fields : List (String × Json)} {entry : String × Json}
    (h : entry ∈ copyFields fields) : entry.2.copy = entry.2 := by
  induction fields with
  | nil => cases h
  | cons head rest ih =>
    rw [copyFields] at h
    rcases List.mem_cons.1 h with rfl | h
    · exact copy_copy head.2
    · exact ih h

/-- Fields whose values are copies are their own copy. -/
theorem copyFields_eq_self {fields : List (String × Json)}
    (h : ∀ entry ∈ fields, entry.2.copy = entry.2) : copyFields fields = fields := by
  induction fields with
  | nil => rfl
  | cons head rest ih =>
    obtain ⟨name, value⟩ := head
    have hvalue : value.copy = value := h (name, value) List.mem_cons_self
    rw [copyFields, hvalue, ih fun entry hmem => h entry (List.mem_cons_of_mem _ hmem)]

/-- The copied value of a name. -/
theorem get?_copyFields (name : String) (fields : List (String × Json)) :
    Fields.get? name (copyFields fields) = (Fields.get? name fields).map copy := by
  induction fields with
  | nil => rfl
  | cons head rest ih =>
    obtain ⟨key, value⟩ := head
    simp only [copyFields, Fields.get?]
    split
    · rfl
    · exact ih

theorem names_copyFields (fields : List (String × Json)) :
    Fields.names (copyFields fields) = Fields.names fields := by
  induction fields with
  | nil => rfl
  | cons head rest ih =>
    obtain ⟨key, value⟩ := head
    rw [copyFields]
    exact congrArg (key :: ·) ih

end Json

/-! ## Loose values -/

namespace Datum

mutual

/-- **The copy of a loose value is a copy.** -/
theorem copy_of_json? : (value : Datum) → (copy : Json) → value.json? = some copy →
    copy.copy = copy
  | undefined, _, h => by cases h
  | null, _, h => by cases h; rfl
  | bool _, _, h => by cases h; rfl
  | number x, _, h => by cases h; exact Json.copy_ofFloat x
  | text _, _, h => by cases h; rfl
  | function, _, h => by cases h
  | symbol, _, h => by cases h
  | array items, _, h => by
      cases h
      rw [Json.copy, copyItems_jsonItems items]
  | object fields, _, h => by
      rw [json?] at h
      split at h
      · cases h
        exact Json.ofFloat_one
      · cases h
        rw [Json.copy, Json.copyFields_eq_self]
        intro entry hmem
        exact copy_of_mem_jsonFields fields entry (Fields.mem_ofEntries hmem)

theorem copyItems_jsonItems : (items : List Datum) →
    Json.copyItems (jsonItems items) = jsonItems items
  | [] => rfl
  | item :: rest => by
      rw [jsonItems, Json.copyItems, copyItems_jsonItems rest]
      cases h : item.json? with
      | none => rfl
      | some copy => rw [Option.getD_some, copy_of_json? item copy h]

theorem copy_of_mem_jsonFields : (fields : List (String × Datum)) → (entry : String × Json) →
    entry ∈ jsonFields fields → entry.2.copy = entry.2
  | [], _, h => absurd h List.not_mem_nil
  | (_, value) :: rest, entry, h => by
      rw [jsonFields] at h
      split at h
      · next copy hcopy =>
        rcases List.mem_cons.1 h with h | h
        · subst h
          exact copy_of_json? value copy hcopy
        · exact copy_of_mem_jsonFields rest entry h
      · exact copy_of_mem_jsonFields rest entry h

end

end Datum

end RequestRunner
