import RequestRunner.Decimal.Notation
import RequestRunner.Decimal.Numeral
import RequestRunner.Proofs.Decimal.Digits
import RequestRunner.Proofs.Text.Trim

/-!
# Written numbers are numerals

A `Spelling` is an unsigned numeral part by part: digits, perhaps a fraction, perhaps an exponent.
It is complete if every part that is there has digits, and plain if besides no zero is superfluous.
A complete spelling is scanned part by part, whatever comes behind it that cannot go on with it
(`Spelling.scan_text`), and every finite number other than zero is written as a plain spelling
(`exists_spelling_of_layout`).
-/

set_option autoImplicit false

namespace RequestRunner.Decimal

open Text (takeWhile_run dropWhile_run)

/-- A digit is no blank. -/
theorem isBlank_of_isDigit {c : Char} (h : isDigit c = true) : Text.isBlank c = false := by
  rw [isDigit, Bool.and_eq_true, decide_eq_true_eq, decide_eq_true_eq] at h
  have hlower : 48 ≤ c.toNat := h.1
  have hupper : c.toNat ≤ 57 := h.2
  simp only [Text.isBlank, Bool.or_eq_false_iff, Bool.and_eq_false_iff, decide_eq_false_iff_not,
    beq_eq_false_iff_ne]
  omega

/-- The parts of a written numeral. -/
structure Spelling where
  /-- The digits in front of the point. -/
  whole : List Char
  /-- The digits behind the point, if there is a point. -/
  fraction : Option (List Char)
  /-- The digits of the exponent, if there is one, and whether it is negative. -/
  exponent : Option (Bool × List Char)

namespace Spelling

/-- The text of a fraction. -/
def fractionText : Option (List Char) → List Char
  | none => []
  | some ds => '.' :: ds

/-- The text of an exponent. -/
def exponentText : Option (Bool × List Char) → List Char
  | none => []
  | some (negative, ds) => 'e' :: (if negative then '-' else '+') :: ds

/-- The written numeral. -/
def text (s : Spelling) : List Char :=
  s.whole ++ (fractionText s.fraction ++ exponentText s.exponent)

/-- The value of an exponent. -/
def exponentValue : Bool × List Char → Int
  | (true, ds) => -natOfDigits ds
  | (false, ds) => natOfDigits ds

/-- The numeral that is spelled. -/
def numeral (s : Spelling) : Numeral := ⟨s.whole, s.fraction, s.exponent.map exponentValue⟩

/-- Digits, of which there is at least one. -/
structure Digital (ds : List Char) : Prop where
  ne_nil : ds ≠ []
  isDigit : ∀ c ∈ ds, isDigit c = true

/-- Every part that is there has digits. -/
structure Complete (s : Spelling) : Prop where
  whole : Digital s.whole
  fraction : ∀ ds, s.fraction = some ds → Digital ds
  exponent : ∀ negative ds, s.exponent = some (negative, ds) → Digital ds

/-- Every part has digits, and no zero is superfluous. -/
structure Plain (s : Spelling) : Prop extends Complete s where
  leading : s.whole.length = 1 ∨ s.whole.head? ≠ some '0'

/-- The text cannot go on with a numeral. -/
def Stops (rest : List Char) : Prop :=
  ∀ c, rest.head? = some c → isDigit c = false ∧ c ≠ '.' ∧ c ≠ 'e' ∧ c ≠ 'E'

/-- A numeral begins with a digit. -/
theorem text_begins {s : Spelling} (h : s.Complete) :
    ∃ c more, s.text = c :: more ∧ Decimal.isDigit c = true := by
  obtain ⟨whole, fraction, exponent⟩ := s
  cases whole with
  | nil => exact absurd rfl h.whole.ne_nil
  | cons c more => exact ⟨c, _, rfl, h.whole.isDigit c List.mem_cons_self⟩

theorem exponent?_of_stops {rest : List Char} (hrest : Stops rest) : exponent? rest = none := by
  cases rest with
  | nil => rfl
  | cons c more =>
    obtain ⟨-, -, he, hE⟩ := hrest c rfl
    simp [exponent?, he, hE]

theorem exponent?_text {negative : Bool} {ds rest : List Char} (hds : Digital ds)
    (hrest : Stops rest) :
    exponent? (exponentText (some (negative, ds)) ++ rest) =
      some (exponentValue (negative, ds), rest) := by
  have htake := takeWhile_run hds.isDigit fun c hc => (hrest c hc).1
  have hdrop := dropWhile_run hds.isDigit fun c hc => (hrest c hc).1
  have hne : ds.isEmpty = false := List.isEmpty_eq_false_iff.2 hds.ne_nil
  cases negative <;>
    simp [exponentText, exponent?, exponentValue, htake, hdrop, hne]

/-- What stands behind the digits and the fraction is no digit. -/
theorem head_exponentText {exponent : Option (Bool × List Char)} {rest : List Char}
    (hrest : Stops rest) {c : Char} (hc : (exponentText exponent ++ rest).head? = some c) :
    isDigit c = false ∧ c ≠ '.' := by
  cases exponent with
  | none =>
    obtain ⟨hdigit, hpoint, -⟩ := hrest c hc
    exact ⟨hdigit, hpoint⟩
  | some exponent =>
    cases hc
    exact ⟨by decide, by decide⟩

/-- **A complete spelling is scanned part by part.** -/
theorem scan_text {s : Spelling} (h : s.Complete) {rest : List Char} (hrest : Stops rest) :
    scan (s.text ++ rest) = (s.numeral, rest) := by
  obtain ⟨whole, fraction, exponent⟩ := s
  have hexponent : exponent? (exponentText exponent ++ rest) =
      exponent.map fun exponent => (exponentValue exponent, rest) := by
    cases exponent with
    | none => exact exponent?_of_stops hrest
    | some exponent => exact exponent?_text (h.exponent _ _ rfl) hrest
  have hbehind : ∀ c, (fractionText fraction ++ (exponentText exponent ++ rest)).head? = some c →
      isDigit c = false := by
    intro c hc
    cases fraction with
    | none => exact (head_exponentText hrest hc).1
    | some ds =>
      cases hc
      decide
  have htake := takeWhile_run h.whole.isDigit hbehind
  have hdrop := dropWhile_run h.whole.isDigit hbehind
  rw [text, List.append_assoc, List.append_assoc, scan]
  simp only [htake, hdrop]
  cases fraction with
  | none =>
    -- without a point, the next character must not be taken for one
    have hpoint : ∀ c, (exponentText exponent ++ rest).head? = some c → c ≠ '.' :=
      fun c hc => (head_exponentText hrest hc).2
    simp only [fractionText, List.nil_append]
    cases exponent with
    | some exponent =>
      obtain ⟨negative, ds⟩ := exponent
      simp only [exponentText, List.cons_append] at hexponent ⊢
      simp [hexponent, numeral]
    | none =>
      simp only [exponentText, List.nil_append] at hexponent hpoint ⊢
      cases rest with
      | nil => simp [hexponent, numeral]
      | cons c more =>
        have hc : c ≠ '.' := hpoint c rfl
        simp [hc, hexponent, numeral]
  | some ds =>
    have hdigits := h.fraction ds rfl
    have hinner : ∀ c, (exponentText exponent ++ rest).head? = some c → isDigit c = false :=
      fun c hc => (head_exponentText hrest hc).1
    simp only [fractionText, List.cons_append, takeWhile_run hdigits.isDigit hinner,
      dropWhile_run hdigits.isDigit hinner, hexponent]
    cases exponent <;> rfl

end Spelling

open Spelling

/-! ## Digits of natural numbers -/

theorem digital_digitChars (n : Nat) : Digital (digitChars n) := by
  constructor
  · exact Nat.toDigits_ne_nil
  · intro c hc
    have hdigit := Nat.isDigit_of_mem_toDigits (by decide) (by decide) hc
    simp only [Char.isDigit, Bool.and_eq_true, decide_eq_true_eq] at hdigit
    simp only [isDigit, Bool.and_eq_true, decide_eq_true_eq]
    exact hdigit

theorem head?_append_left {ds : List Char} (h : ds ≠ []) (more : List Char) :
    (ds ++ more).head? = ds.head? := by
  cases ds with
  | nil => exact absurd rfl h
  | cons d rest => rfl

/-- A number other than zero is written without a leading zero. -/
theorem head_digitChars {n : Nat} (hn : n ≠ 0) : (digitChars n).head? ≠ some '0' := by
  induction n using Nat.strongRecOn with
  | ind n ih =>
    rw [digitChars, Nat.toDigits_eq_if (by decide)]
    split
    · intro hzero
      exact hn (Nat.digitChar_eq_zero.1 (Option.some.inj hzero))
    · next hlarge =>
      rw [head?_append_left Nat.toDigits_ne_nil]
      exact ih (n / 10) (by omega) (by omega)

/-- A part of digits that is not empty. -/
theorem Spelling.Digital.of_subset {ds part : List Char} (h : Digital ds) (hne : part ≠ [])
    (hpart : part ⊆ ds) : Digital part :=
  ⟨hne, fun c hc => h.isDigit c (hpart hc)⟩

theorem Spelling.Digital.append_zeros {ds : List Char} (h : Digital ds) (n : Nat) :
    Digital (ds ++ List.replicate n '0') := by
  constructor
  · intro hnil
    exact h.ne_nil (List.append_eq_nil_iff.1 hnil).1
  · intro c hc
    rcases List.mem_append.1 hc with hc | hc
    · exact h.isDigit c hc
    · rw [List.eq_of_mem_replicate hc]
      decide

theorem Spelling.Digital.zeros_append {ds : List Char} (h : Digital ds) (n : Nat) :
    Digital (List.replicate n '0' ++ ds) :=
  (h.append_zeros n).of_subset (by simp [h.ne_nil]) (List.append_subset.2 (by simp))

theorem digital_singleton {d : Char} (h : isDigit d = true) : Digital [d] :=
  ⟨List.cons_ne_nil _ _, fun c hc => by rw [List.mem_singleton.1 hc]; exact h⟩

/-! ## Layouts -/

theorem exponentText_eq (e : Int) :
    exponentText e = Spelling.exponentText (some (decide (e < 0), digitChars e.natAbs)) := by
  simp [exponentText, Spelling.exponentText]

/-- Digits and zeros behind them. -/
theorem plain_zeros {d n : Nat} (h : d = 0 → n = 0) :
    Plain ⟨digitChars d ++ List.replicate n '0', none, none⟩ where
  whole := (digital_digitChars d).append_zeros n
  leading := by
    by_cases hd : d = 0
    · left
      rw [hd, h hd]
      rfl
    · right
      change (digitChars d ++ _).head? ≠ some '0'
      rw [head?_append_left (digital_digitChars d).ne_nil]
      exact head_digitChars hd
  fraction := nofun
  exponent := nofun

/-- Digits with a point between two of them. -/
theorem plain_cut {d p : Nat} (hd : d ≠ 0) (hbefore : 0 < p) (hbehind : p < (digitChars d).length) :
    Plain ⟨(digitChars d).take p, some ((digitChars d).drop p), none⟩ := by
  have hds := digital_digitChars d
  have htake : (digitChars d).take p ≠ [] := by
    rw [← List.length_pos_iff, List.length_take]
    omega
  have hdrop : (digitChars d).drop p ≠ [] := by
    rw [← List.length_pos_iff, List.length_drop]
    omega
  refine ⟨⟨hds.of_subset htake (List.take_subset p _), ?_, nofun⟩, Or.inr ?_⟩
  · rintro ds ⟨⟩
    exact hds.of_subset hdrop (List.drop_subset p _)
  · change ((digitChars d).take p).head? ≠ some '0'
    rw [← head?_append_left htake ((digitChars d).drop p), List.take_append_drop]
    exact head_digitChars hd

/-- Digits with a point and zeros in front of them. -/
theorem plain_point (d n : Nat) :
    Plain ⟨['0'], some (List.replicate n '0' ++ digitChars d), none⟩ where
  whole := digital_singleton (by decide)
  leading := Or.inl rfl
  fraction := by
    rintro ds ⟨⟩
    exact (digital_digitChars d).zeros_append n
  exponent := nofun

/-- A numeral in front of an exponent. -/
theorem plain_exponent {d : Char} (e : Int) (fraction : Option (List Char))
    (hd : isDigit d = true) (hfraction : ∀ ds, fraction = some ds → Digital ds) :
    Plain ⟨[d], fraction, some (decide (e < 0), digitChars e.natAbs)⟩ where
  whole := digital_singleton hd
  leading := Or.inl rfl
  fraction := hfraction
  exponent := by
    rintro negative ds ⟨⟩
    exact digital_digitChars _

/-- **A layout is a plain spelling**, unless it shows zeros for a positive exponent. -/
theorem exists_spelling_of_layout {x : Digits} (hx : x.digits = 0 → x.exponent ≤ 0) :
    ∃ s : Spelling, s.Plain ∧ common.layout x = s.text := by
  have hds := digital_digitChars x.digits
  have hzero : x.digits = 0 → (digitChars x.digits).length = 1 := by
    intro hdigits
    rw [hdigits]
    rfl
  unfold Notation.layout
  dsimp only
  split
  · -- only zeros behind the digits
    generalize hn : (((digitChars x.digits).length : Int) + x.exponent -
      (digitChars x.digits).length).toNat = n
    have hplain : Plain ⟨digitChars x.digits ++ List.replicate n '0', none, none⟩ := by
      apply plain_zeros
      intro hdigits
      have hexponent := hx hdigits
      omega
    refine ⟨_, hplain, ?_⟩
    rw [Spelling.text, fractionText, Spelling.exponentText, List.append_nil, List.append_nil]
  · split
    · -- the point stands between two digits
      next hlarge hpoint =>
      have hdigits : x.digits ≠ 0 := by
        intro hdigits
        have hone := hzero hdigits
        have hexponent := hx hdigits
        omega
      generalize hp : (((digitChars x.digits).length : Int) + x.exponent).toNat = p
      refine ⟨_, plain_cut (p := p) hdigits (by omega) (by omega), ?_⟩
      rw [Spelling.text, fractionText, Spelling.exponentText, List.append_nil]
    · split
      · -- the point stands in front of all digits
        generalize (-(((digitChars x.digits).length : Int) + x.exponent)).toNat = n
        refine ⟨_, plain_point x.digits n, ?_⟩
        rw [Spelling.text, fractionText, Spelling.exponentText, List.append_nil]
        rfl
      · -- one digit in front of the point, and an exponent
        generalize ((digitChars x.digits).length : Int) + x.exponent - 1 = e
        split
        · next hnil => exact absurd hnil hds.ne_nil
        · next d hd =>
          refine ⟨_, plain_exponent e none (hds.isDigit d (by simp [hd])) nofun, ?_⟩
          rw [exponentText_eq]
          rfl
        · next d rest hne hd =>
          have hrest : rest ⊆ digitChars x.digits := by simp [hd]
          refine ⟨_, plain_exponent e (some rest) (hds.isDigit d (by simp [hd])) ?_, ?_⟩
          · rintro ds ⟨⟩
            exact hds.of_subset hne hrest
          · rw [exponentText_eq]
            rfl

/-- The text of a sign. -/
def signText (negative : Bool) : List Char := if negative then ['-'] else []

/-- **The text of a finite number is a plain spelling behind a sign.** -/
theorem exists_spelling_of_text {x : Float} (hfinite : (x.isNaN || x.isInf) = false) :
    ∃ negative, ∃ s : Spelling, s.Plain ∧
      (Decimal.text x).toList = signText negative ++ s.text := by
  rw [Bool.or_eq_false_iff] at hfinite
  rw [Decimal.text, Notation.write, hfinite.1, hfinite.2]
  simp only [Bool.false_eq_true, if_false]
  cases hbinary : Binary.ofFloat? x with
  | none =>
    have hplain : Plain ⟨['0'], none, none⟩ :=
      ⟨⟨digital_singleton (by decide), nofun, nofun⟩, Or.inl rfl⟩
    have htext : "0".toList = ['0'] := by decide
    exact ⟨false, _, hplain, htext⟩
  | some b =>
    have hfits : b.Fits := Binary.fits_of_ofBits? (Nat.mod_lt _ (by decide)) hbinary
    obtain ⟨s, hplain, htext⟩ :=
      exists_spelling_of_layout (x := b.shortest) (Binary.exponent_shortest_nonpos hfits)
    refine ⟨decide (x < 0), s, hplain, ?_⟩
    rw [String.toList_append, String.toList_ofList, htext]
    by_cases hsign : x < 0 <;> simp [hsign, signText]

end RequestRunner.Decimal
