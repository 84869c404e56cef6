import RequestRunner.Proofs.Json.Ordered

/-!
# Values that come back from their text

A text loses nothing of a value that lists its fields in order and whose numbers are read as they
were written (`Json.Exact`): the reread value is the value itself (`Json.Ordered.reread_eq`), and so
is its copy (`Json.Exact.copy_eq`). Every copy of a loose value lists its fields in order
(`Datum.ordered_of_json?`).
-/

set_option autoImplicit false

namespace RequestRunner

namespace Json

/-- Every number in the value is read as it was written. -/
inductive Exact : Json → Prop
  | null : Exact null
  | bool (b : Bool) : Exact (bool b)
  | number {x : Float} (h : rereadNumber x = .number x) : Exact (number x)
  | text (s : String) : Exact (text s)
  | array {items : List Json} : (∀ item ∈ items, Exact item) → Exact (array items)
  | object {fields : Fields Json} : (∀ field ∈ fields, Exact field.2) → Exact (object fields)

theorem rereadItems_eq_self {items : List Json} (h : ∀ item ∈ items, item.reread = item) :
    rereadItems items = items := by
  induction items with
  | nil => rfl
  | cons item rest ih =>
    rw [rereadItems, h item List.mem_cons_self, ih fun other hmem =>
      h other (List.mem_cons_of_mem _ hmem)]

theorem rereadFields_eq_self {fields : Fields Json}
    (h : ∀ field ∈ fields, field.2.reread = field.2) : rereadFields fields = fields := by
  induction fields with
  | nil => rfl
  | cons field rest ih =>
    obtain ⟨name, value⟩ := field
    have hvalue : value.reread = value := h (name, value) List.mem_cons_self
    rw [rereadFields, hvalue, ih fun other hmem => h other (List.mem_cons_of_mem _ hmem)]

/-- **An ordered value whose numbers are exact comes back from its text.** -/
theorem Ordered.reread_eq {value : Json} (h : value.Ordered) (hexact : value.Exact) :
    value.reread = value := by
  induction h with
  | null => rfl
  | bool b => rfl
  | text s => rfl
  | number x =>
    cases hexact with
    | number hx => exact hx
  | array _ ih =>
    cases hexact with
    | array hitems =>
      rw [reread, rereadItems_eq_self fun item hmem => ih item hmem (hitems item hmem)]
  | object hlisted _ ih =>
    cases hexact with
    | object hfields =>
      rw [reread, rereadFields_eq_self fun field hmem => ih field hmem (hfields field hmem),
        Fields.ofEntries_eq_self hlisted]

theorem copyItems_eq_self {items : List Json} (h : ∀ item ∈ items, item.copy = item) :
    copyItems items = items := by
  induction items with
  | nil => rfl
  | cons item rest ih =>
    rw [copyItems, h item List.mem_cons_self, ih fun other hmem =>
      h other (List.mem_cons_of_mem _ hmem)]

theorem ordered_ofFloat (x : Float) : (ofFloat x).Ordered := by
  unfold ofFloat
  split
  · exact .null
  · split <;> exact .number _

/-- A number that is exact is finite, and no negative zero. -/
theorem ofFloat_of_exact {x : Float} (h : rereadNumber x = .number x) : ofFloat x = .number x := by
  unfold ofFloat
  split
  · next hwild =>
    rw [rereadNumber, if_pos hwild] at h
    cases h
  · next hfinite =>
    split
    · next hzero =>
      have hread : (readNumber? "0".toList).map (·.1) = some 0 := rfl
      rw [rereadNumber, if_neg hfinite, Decimal.text_of_zero hzero, hread] at h
      exact h
    · rfl

/-- **An exact value is its own copy.** -/
theorem Exact.copy_eq {value : Json} (h : value.Exact) : value.copy = value := by
  induction h with
  | null => rfl
  | bool b => rfl
  | text s => rfl
  | number hx => exact ofFloat_of_exact hx
  | array _ ih => rw [copy, copyItems_eq_self ih]
  | object _ ih => rw [copy, copyFields_eq_self ih]

end Json

namespace Datum

mutual

/-- **The copy of a loose value lists its fields in order.** -/
theorem ordered_of_json? : (value : Datum) → (copy : Json) → value.json? = some copy →
    copy.Ordered
  | undefined, _, h => by cases h
  | null, _, h => by cases h; exact .null
  | bool b, _, h => by cases h; exact .bool b
  | number x, _, h => by cases h; exact Json.ordered_ofFloat x
  | text s, _, h => by cases h; exact .text s
  | function, _, h => by cases h
  | symbol, _, h => by cases h
  | array items, _, h => by
      cases h
      exact .array (ordered_of_mem_jsonItems items)
  | object fields, _, h => by
      rw [json?] at h
      split at h
      · cases h
        exact .number 1
      · cases h
        exact .object (Fields.listed_ofEntries _) fun field hmem =>
          ordered_of_mem_jsonFields fields field (Fields.mem_ofEntries hmem)

theorem ordered_of_mem_jsonItems : (items : List Datum) → ∀ item ∈ jsonItems items, item.Ordered
  | [], _, h => absurd h List.not_mem_nil
  | first :: rest, item, h => by
      rw [jsonItems] at h
      rcases List.mem_cons.1 h with rfl | h
      · cases hcopy : first.json? with
        | none => exact .null
        | some copy => exact ordered_of_json? first copy hcopy
      · exact ordered_of_mem_jsonItems rest item h

theorem ordered_of_mem_jsonFields : (fields : List (String × Datum)) →
    ∀ field ∈ jsonFields fields, field.2.Ordered
  | [], _, h => absurd h List.not_mem_nil
  | (_, value) :: rest, field, h => by
      rw [jsonFields] at h
      split at h
      · next copy hcopy =>
        rcases List.mem_cons.1 h with rfl | h
        · exact ordered_of_json? value copy hcopy
        · exact ordered_of_mem_jsonFields rest field h
      · exact ordered_of_mem_jsonFields rest field h

end

end Datum

end RequestRunner
