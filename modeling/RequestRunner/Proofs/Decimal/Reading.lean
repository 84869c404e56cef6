import Mathlib.Tactic.FinCases
import RequestRunner.Proofs.Decimal.Layout
import RequestRunner.Proofs.Decimal.Rounding
import RequestRunner.Proofs.Text.Trim

/-!
# Decimal texts are read as numbers

A written numeral behind a sign is read as the value of its digits (`ofText_text`). So it is read as
a number of its sign, never as something undefined (`sign?_signedValue`), and without a fraction and
an exponent it is read as a whole number, or as infinity (`integral_signedValue`).
-/

set_option autoImplicit false

namespace RequestRunner.Decimal

open Spelling
open Float.Model.UnpackedFloat (Sign)

/-! ## Characters -/

/-- The characters of a numeral are digits, the point, and the letter and signs of an exponent. -/
theorem mem_text {s : Spelling} (h : s.Complete) {c : Char} (hc : c ∈ s.text) :
    isDigit c = true ∨ c ∈ ['.', 'e', '+', '-'] := by
  obtain ⟨whole, fraction, exponent⟩ := s
  rcases List.mem_append.1 hc with hc | hc
  · exact .inl (h.whole.isDigit c hc)
  rcases List.mem_append.1 hc with hc | hc
  · cases fraction with
    | none => cases hc
    | some ds =>
      rcases List.mem_cons.1 hc with rfl | hc
      · exact .inr (by decide)
      · exact .inl ((h.fraction ds rfl).isDigit c hc)
  · cases exponent with
    | none => cases hc
    | some exponent =>
      obtain ⟨negative, ds⟩ := exponent
      rcases List.mem_cons.1 hc with rfl | hc
      · exact .inr (by decide)
      rcases List.mem_cons.1 hc with rfl | hc
      · exact .inr (by cases negative <;> decide)
      · exact .inl ((h.exponent negative ds rfl).isDigit c hc)

theorem mem_signText {negative : Bool} {c : Char} (hc : c ∈ signText negative) : c = '-' := by
  cases negative with
  | false => cases hc
  | true => exact List.mem_singleton.1 hc

/-- No blank is in a signed numeral. -/
theorem trimmed_text {s : Spelling} (h : s.Complete) (negative : Bool) :
    Text.Trimmed (signText negative ++ s.text) := by
  apply Text.Trimmed.of_forall
  intro c hc
  rcases List.mem_append.1 hc with hc | hc
  · rw [mem_signText hc]
    decide
  rcases mem_text h hc with hc | hc
  · exact isBlank_of_isDigit hc
  · fin_cases hc <;> decide

/-! ## Values -/

theorem decimal?_text {s : Spelling} (h : s.Complete) : decimal? s.text = some s.numeral.value := by
  have hscan : scan (s.text ++ []) = (s.numeral, []) := scan_text h nofun
  have hdigits : s.numeral.hasDigits = true := by
    have hwhole : s.numeral.whole.isEmpty = false := List.isEmpty_eq_false_iff.2 h.whole.ne_nil
    rw [Numeral.hasDigits, hwhole]
    rfl
  rw [List.append_nil] at hscan
  rw [decimal?, hscan]
  exact if_pos hdigits

/-- The value of a signed numeral. -/
def signedValue (negative : Bool) (s : Spelling) : Float :=
  if negative then -s.numeral.value else s.numeral.value

theorem signed?_text {s : Spelling} (h : s.Complete) (negative : Bool) :
    signed? (signText negative ++ s.text) = some (signedValue negative s) := by
  -- the first digit tells the numeral from a sign and from the word for infinity
  obtain ⟨c, more, htext, hc⟩ := text_begins h
  have hinfinity : s.text ≠ "Infinity".toList := by
    rw [htext]
    intro heq
    rw [(List.cons.inj heq).1] at hc
    revert hc
    decide
  have hmagnitude := decimal?_text h
  cases negative with
  | true =>
    change (if s.text = "Infinity".toList then some infinity else decimal? s.text).map _ = _
    rw [if_neg hinfinity, hmagnitude]
    rfl
  | false =>
    change signed? s.text = some s.numeral.value
    have hdigit : ∀ {d : Char} {r : List Char}, isDigit d = false → s.text ≠ d :: r := by
      intro d r hd heq
      rw [htext] at heq
      cases heq
      rw [hd] at hc
      cases hc
    rw [signed?]
    · exact (if_neg hinfinity).trans hmagnitude
    · exact fun r => hdigit (by decide)
    · exact fun r => hdigit (by decide)

/-- A numeral does not name a base. -/
theorem not_base {s : Spelling} (h : s.Complete) {c x : Char} {ds : List Char}
    (hx : x ∈ ['x', 'X', 'o', 'O', 'b', 'B']) : s.text ≠ c :: x :: ds := by
  intro heq
  have hmem : x ∈ s.text := by simp [heq]
  rcases mem_text h hmem with hdigit | hother
  · fin_cases hx <;> cases hdigit
  · fin_cases hx <;> simp at hother

/-- **A written numeral is read as its value.** -/
theorem ofText_text {s : Spelling} (h : s.Complete) (negative : Bool) :
    ofText (signText negative ++ s.text) = signedValue negative s := by
  have hsigned := signed?_text h negative
  rw [ofText, (trimmed_text h negative).trim_eq]
  split
  · next hnil =>
    obtain ⟨c, more, htext, -⟩ := text_begins h
    rw [htext] at hnil
    simp at hnil
  · next x ds heq =>
    have hx : x ∉ ['x', 'X', 'o', 'O', 'b', 'B'] := by
      intro hx
      cases negative with
      | true => cases heq
      | false => exact not_base h hx heq
    simp only [List.mem_cons, List.not_mem_nil, or_false, not_or] at hx
    obtain ⟨hx, hX, ho, hO, hb, hB⟩ := hx
    rw [← heq, hsigned]
    simp only [hx, hX, ho, hO, hb, hB, or_self, if_false, Option.getD_some]
  · rw [hsigned, Option.getD_some]

/-! ## Kinds of numbers -/

/-- The sign that a numeral is written with. -/
def signOf (negative : Bool) : Sign := if negative then .negative else .positive

/-- **A written numeral is read as a number of its sign.** -/
theorem sign?_signedValue (negative : Bool) (s : Spelling) :
    sign? (signedValue negative s).toModel.unpack = some (signOf negative) := by
  have hvalue : sign? s.numeral.value.toModel.unpack = some .positive := sign?_ofDecimal _ _
  cases negative with
  | true => exact sign?_neg hvalue
  | false => exact hvalue

/-- **Without fraction and exponent it is whole or infinite.** -/
theorem integral_signedValue (negative : Bool) (ds : List Char) :
    Integral (signOf negative) (signedValue negative ⟨ds, none, none⟩).toModel.unpack := by
  have hvalue : Integral .positive (Spelling.numeral ⟨ds, none, none⟩).value.toModel.unpack :=
    integral_ofDecimal _ (Int.le_refl 0)
  cases negative with
  | true => exact hvalue.unpack_neg
  | false => exact hvalue

end RequestRunner.Decimal
