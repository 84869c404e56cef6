import RequestRunner.Proofs.Decimal.Packing
import RequestRunner.Proofs.Engine.Enumeration
import RequestRunner.Proofs.Json.Rereading

/-!
# Values that list their fields in order

A value comes out of a text with the fields of every object in enumeration order (`Json.Ordered`,
`Json.ordered_reread`). For such a value the two ways to a copy meet: the copy of a loose value is
the copy of the JSON value that it was made of (`Json.Ordered.json?_ofJson`), and the value is
substituted as the text of its copy (`Json.Ordered.stringify?_ofJson`). The sign of a zero is the
one thing that the copy loses, and no text shows it (`Decimal.text_of_zero`).
-/

set_option autoImplicit false

namespace RequestRunner

/-! ## The sign of zero -/

namespace Decimal

open Float.Model

/-- Only a zero equals zero. -/
theorem eq_zero_of_beq {x : UnpackedFloat} (h : x.beq (.zero .positive) = true) :
    ∃ sign, x = .zero sign := by
  cases x with
  | zero sign => exact ⟨sign, rfl⟩
  | infinity sign => cases sign <;> cases h
  | notANumber => cases h
  | finite sign mantissa exponent hpos => cases sign <;> cases h

/-- **Zero is written without its sign.** -/
theorem text_of_zero {x : Float} (h : (x == 0) = true) : text x = "0" := by
  have hunpack : x.toModel.unpack.beq (0 : Float).toModel.unpack = true := h
  rw [unpack_zero] at hunpack
  obtain ⟨sign, hsign⟩ := eq_zero_of_beq hunpack
  have hnan : x.isNaN = false := congrArg UnpackedFloat.isNaN hsign
  have hinf : x.isInf = false := congrArg UnpackedFloat.isInf hsign
  rw [text, Notation.write, hnan, hinf, ofFloat?_of_zero hsign]
  rfl

end Decimal

/-! ## Objects in order -/

namespace Datum

/-- A JSON value holds no function. -/
theorem isFunctionField_ofJsonFields (name : String) (fields : Fields Json) :
    isFunctionField name (ofJsonFields fields) = false := by
  induction fields with
  | nil => rfl
  | cons field rest ih =>
    obtain ⟨key, value⟩ := field
    rw [isFunctionField, ofJsonFields, Fields.get?]
    by_cases hkey : key = name
    · rw [if_pos hkey]
      cases value <;> rfl
    · rw [if_neg hkey]
      exact ih

theorem names_ofJsonFields (fields : Fields Json) :
    Fields.names (ofJsonFields fields) = Fields.names fields := by
  induction fields with
  | nil => rfl
  | cons field rest ih => exact congrArg (field.1 :: ·) ih

theorem get?_ofJsonFields (name : String) (fields : Fields Json) :
    Fields.get? name (ofJsonFields fields) = (Fields.get? name fields).map ofJson := by
  induction fields with
  | nil => rfl
  | cons field rest ih =>
    obtain ⟨key, value⟩ := field
    rw [ofJsonFields, Fields.get?, Fields.get?]
    split
    · rfl
    · exact ih

end Datum

namespace Json

/-- Every object in the value lists its fields in enumeration order. -/
inductive Ordered : Json → Prop
  | null : Ordered null
  | bool (b : Bool) : Ordered (bool b)
  | number (x : Float) : Ordered (number x)
  | text (s : String) : Ordered (text s)
  | array {items : List Json} : (∀ item ∈ items, Ordered item) → Ordered (array items)
  | object {fields : Fields Json} : fields.Listed → (∀ field ∈ fields, Ordered field.2) →
      Ordered (object fields)

theorem ordered_rereadNumber (x : Float) : (rereadNumber x).Ordered := by
  unfold rereadNumber
  split
  · exact .null
  · exact .number _

mutual

/-- **A value that comes out of a text is ordered.** -/
theorem ordered_reread : (value : Json) → value.reread.Ordered
  | null => .null
  | bool b => .bool b
  | number x => ordered_rereadNumber x
  | text s => .text s
  | array items => .array (ordered_of_mem_rereadItems items)
  | object fields => .object (Fields.listed_ofEntries _) fun field hmem =>
      ordered_of_mem_rereadFields fields field (Fields.mem_ofEntries hmem)

theorem ordered_of_mem_rereadItems : (items : List Json) →
    ∀ item ∈ rereadItems items, item.Ordered
  | [], _, hmem => absurd hmem List.not_mem_nil
  | first :: rest, item, hmem => by
      rcases List.mem_cons.1 hmem with rfl | hmem
      · exact ordered_reread first
      · exact ordered_of_mem_rereadItems rest item hmem

theorem ordered_of_mem_rereadFields : (fields : Fields Json) →
    ∀ field ∈ rereadFields fields, field.2.Ordered
  | [], _, hmem => absurd hmem List.not_mem_nil
  | (_, value) :: rest, field, hmem => by
      rcases List.mem_cons.1 hmem with rfl | hmem
      · exact ordered_reread value
      · exact ordered_of_mem_rereadFields rest field hmem

end

theorem jsonItems_ofJsonItems {items : List Json}
    (h : ∀ item ∈ items, (Datum.ofJson item).json? = some item.copy) :
    Datum.jsonItems (Datum.ofJsonItems items) = copyItems items := by
  induction items with
  | nil => rfl
  | cons item rest ih =>
    rw [Datum.ofJsonItems, Datum.jsonItems, copyItems, h item List.mem_cons_self,
      Option.getD_some, ih fun other hmem => h other (List.mem_cons_of_mem _ hmem)]

theorem jsonFields_ofJsonFields {fields : Fields Json}
    (h : ∀ field ∈ fields, (Datum.ofJson field.2).json? = some field.2.copy) :
    Datum.jsonFields (Datum.ofJsonFields fields) = copyFields fields := by
  induction fields with
  | nil => rfl
  | cons field rest ih =>
    obtain ⟨name, value⟩ := field
    have hvalue : (Datum.ofJson value).json? = some value.copy := h (name, value) List.mem_cons_self
    have hrest := ih fun other hmem => h other (List.mem_cons_of_mem _ hmem)
    rw [Datum.ofJsonFields, Datum.jsonFields, copyFields, hvalue]
    exact congrArg ((name, value.copy) :: ·) hrest

namespace Ordered

variable {value : Json}

theorem object_inv {fields : Fields Json} (h : (Json.object fields).Ordered) :
    fields.Listed ∧ ∀ field ∈ fields, field.2.Ordered := by
  cases h with
  | object hlisted hvalues => exact ⟨hlisted, hvalues⟩

/-- **The copy of an ordered value is the same on both ways.** -/
theorem json?_ofJson (h : value.Ordered) : (Datum.ofJson value).json? = some value.copy := by
  induction h with
  | array _ ih => rw [Datum.ofJson, Datum.json?, copy, jsonItems_ofJsonItems ih]
  | @object fields hlisted _ ih =>
    have hcopies : Fields.Listed (copyFields fields) := by
      rw [Fields.Listed, names_copyFields]
      exact hlisted
    rw [Datum.ofJson, Datum.json?, Datum.isFunctionField_ofJsonFields, copy,
      jsonFields_ofJsonFields ih, Fields.ofEntries_eq_self hcopies]
    rfl
  | _ => rfl

/-- **An ordered value is substituted as the text of its copy**, unless it is a number that is not
finite: such a number has a text of its own, and its copy is null. -/
theorem stringify?_ofJson (h : value.Ordered)
    (hfinite : ∀ x, value = .number x → (x.isNaN || x.isInf) = false) :
    (Datum.ofJson value).stringify? = .ok value.copy.stringify := by
  cases value with
  | number x =>
    have htext : (ofFloat x).stringify = Decimal.text x := by
      rw [ofFloat, hfinite x rfl]
      by_cases hzero : (x == 0) = true
      · rw [if_neg Bool.false_ne_true, if_pos hzero, stringify, Decimal.text_of_zero hzero,
          Decimal.text_of_zero (by decide +kernel)]
      · rw [if_neg Bool.false_ne_true, if_neg hzero, stringify]
    rw [copy, htext]
    rfl
  | array items =>
    have hcopy := h.json?_ofJson
    rw [Datum.ofJson] at hcopy ⊢
    rw [Datum.stringify?, hcopy]
    rfl
  | object fields =>
    have hcopy := h.json?_ofJson
    rw [Datum.ofJson] at hcopy ⊢
    rw [Datum.stringify?, hcopy]
    rfl
  | _ => rfl

end Ordered

end Json

end RequestRunner
