import RequestRunner.Generator.Call
import RequestRunner.Proofs.Decimal.Reading

/-!
# Which texts are generator calls

`Generator.IsWritten` says what a written call is: a dollar sign, a name, and perhaps literal
arguments in parentheses, with blanks around the parts, where the name stands for a generator that
takes so many arguments of such a form. It says nothing about whether the generator accepts the
numbers. The reader finds exactly the calls (`WrittenCall.read?_eq_some_iff`) and their numbers
(`WrittenCall.numbers?_eq_some_iff`).
-/

set_option autoImplicit false

namespace RequestRunner

open Text
open Decimal (Spelling isDigit signText ofText)
open Decimal.Spelling (Digital)

/-! ## Forms of numbers -/

/-- The text is a signed whole number. -/
def IntegerText (t : List Char) : Prop :=
  ∃ negative ds, Digital ds ∧ t = signText negative ++ ds

/-- The text is a signed number without exponent. -/
def DecimalText (t : List Char) : Prop :=
  ∃ negative, ∃ s : Spelling, s.Complete ∧ s.exponent = none ∧ t = signText negative ++ s.text

namespace WrittenCall

theorem isLength_iff (t : List Char) : isLength t = true ↔ Digital t := by
  rw [isLength, Bool.and_eq_true, Bool.not_eq_true', List.isEmpty_eq_false_iff, List.all_eq_true]
  exact ⟨fun h => ⟨h.1, h.2⟩, fun h => ⟨h.ne_nil, h.isDigit⟩⟩

/-- Digits do not begin with a sign. -/
theorem not_digital_minus (t : List Char) : ¬Digital ('-' :: t) := by
  intro h
  have hminus := h.isDigit '-' List.mem_cons_self
  revert hminus
  decide

theorem isInteger_iff (t : List Char) : isInteger t = true ↔ IntegerText t := by
  constructor
  · intro h
    rw [isInteger.eq_def] at h
    split at h
    · exact ⟨true, _, (isLength_iff _).1 h, rfl⟩
    · exact ⟨false, _, (isLength_iff _).1 h, rfl⟩
  · rintro ⟨negative, ds, hds, rfl⟩
    cases negative with
    | true => exact (isLength_iff ds).2 hds
    | false =>
      rw [signText, if_neg Bool.false_ne_true, List.nil_append, isInteger]
      · exact (isLength_iff ds).2 hds
      · rintro t rfl
        exact not_digital_minus t hds

/-- A number without sign and exponent. -/
theorem isMagnitude_iff (r : List Char) :
    (!(r.takeWhile isDigit).isEmpty &&
      match r.dropWhile isDigit with
      | [] => true
      | '.' :: fraction => isLength fraction
      | _ => false) = true ↔ ∃ s : Spelling, s.Complete ∧ s.exponent = none ∧ r = s.text := by
  rw [Bool.and_eq_true, Bool.not_eq_true', List.isEmpty_eq_false_iff]
  constructor
  · rintro ⟨hne, hrest⟩
    have hwhole : Digital (r.takeWhile isDigit) := ⟨hne, fun c => List.mem_takeWhile_imp⟩
    have hr : r = r.takeWhile isDigit ++ r.dropWhile isDigit := List.takeWhile_append_dropWhile.symm
    split at hrest
    · next hnil =>
      rw [hnil] at hr
      exact ⟨⟨_, none, none⟩, ⟨hwhole, nofun, nofun⟩, rfl, hr⟩
    · next fraction hpoint =>
      rw [hpoint] at hr
      refine ⟨⟨_, some fraction, none⟩, ⟨hwhole, ?_, nofun⟩, rfl, ?_⟩
      · rintro ds ⟨⟩
        exact (isLength_iff fraction).1 hrest
      · rw [Spelling.text, Spelling.exponentText, List.append_nil]
        exact hr
    · cases hrest
  · rintro ⟨⟨whole, fraction, exponent⟩, hs, rfl, rfl⟩
    have hbehind : ∀ c, (Spelling.fractionText fraction ++ []).head? = some c →
        isDigit c = false := by
      intro c hc
      cases fraction with
      | none => cases hc
      | some ds =>
        cases hc
        decide
    have htake := takeWhile_run hs.whole.isDigit hbehind
    have hdrop := dropWhile_run hs.whole.isDigit hbehind
    rw [Spelling.text, Spelling.exponentText, htake, hdrop]
    refine ⟨hs.whole.ne_nil, ?_⟩
    cases fraction with
    | none => rfl
    | some ds =>
      rw [List.append_nil]
      exact (isLength_iff ds).2 (hs.fraction ds rfl)

theorem isFloat_iff (t : List Char) : isFloat t = true ↔ DecimalText t := by
  apply (isMagnitude_iff _).trans
  constructor
  · rintro ⟨s, hs, hexponent, htext⟩
    split at htext
    · next r =>
      exact ⟨true, s, hs, hexponent, by rw [htext]; rfl⟩
    · exact ⟨false, s, hs, hexponent, htext⟩
  · rintro ⟨negative, s, hs, hexponent, rfl⟩
    refine ⟨s, hs, hexponent, ?_⟩
    cases negative with
    | true => rfl
    | false =>
      rw [signText, if_neg Bool.false_ne_true, List.nil_append]
      split
      · next r htext =>
        obtain ⟨c, more, hbegins, hdigit⟩ := Spelling.text_begins hs
        rw [hbegins] at htext
        cases htext
        cases hdigit
      · rfl

end WrittenCall

/-! ## Lists of numbers -/

section Lists

/-- The text is a number of the form, with blanks around it. -/
def IsItem (form : List Char → Prop) (t : List Char) (x : Float) : Prop :=
  ∃ before digits after, allBlank before = true ∧ allBlank after = true ∧ form digits ∧
    t = before ++ (digits ++ after) ∧ x = ofText digits

/-- The text is a list of numbers of the form, with commas between them. -/
inductive IsList (form : List Char → Prop) : List Char → List Float → Prop
  | last {t : List Char} {x : Float} (h : IsItem form t x) : IsList form t [x]
  | more {t rest : List Char} {x : Float} {xs : List Float} (h : IsItem form t x)
      (hrest : IsList form rest xs) : IsList form (t ++ ',' :: rest) (x :: xs)

/-- The arguments are numbers of the form: none without parentheses and for blank ones. -/
inductive AreNumbers (form : List Char → Prop) : Option (List Char) → List Float → Prop
  | absent : AreNumbers form none []
  | blank {t : List Char} (h : allBlank t = true) : AreNumbers form (some t) []
  | list {t : List Char} {xs : List Float} (h : IsList form t xs) : AreNumbers form (some t) xs

/-- Numbers of the form are trimmed and hold no comma; they are not empty. -/
structure IsForm (form : List Char → Prop) : Prop where
  trimmed : ∀ {t}, form t → Trimmed t
  comma : ∀ {t}, form t → ',' ∉ t
  ne_nil : ¬form []

theorem splitOn_ne_nil (c : Char) (s : List Char) : splitOn c s ≠ [] := by
  cases s with
  | nil => exact List.cons_ne_nil _ _
  | cons d s =>
    rw [splitOn]
    split
    · exact List.cons_ne_nil _ _
    · split <;> exact List.cons_ne_nil _ _

theorem splitOn_of_not_mem {c : Char} {s : List Char} (h : c ∉ s) : splitOn c s = [s] := by
  induction s with
  | nil => rfl
  | cons d s ih =>
    rw [List.mem_cons, not_or] at h
    rw [splitOn, ih h.2]
    exact if_neg (Ne.symm h.1)

theorem splitOn_append {c : Char} {s : List Char} (h : c ∉ s) (rest : List Char) :
    splitOn c (s ++ c :: rest) = s :: splitOn c rest := by
  induction s with
  | nil =>
    rw [List.nil_append, splitOn]
    cases hrest : splitOn c rest with
    | nil => exact absurd hrest (splitOn_ne_nil c rest)
    | cons piece pieces => exact if_pos rfl
  | cons d s ih =>
    rw [List.mem_cons, not_or] at h
    rw [List.cons_append, splitOn, ih h.2]
    exact if_neg (Ne.symm h.1)

/-- The text before the first separator is the first piece. -/
theorem splitOn_cases (c : Char) (s : List Char) :
    (c ∉ s ∧ splitOn c s = [s]) ∨
      ∃ before rest, c ∉ before ∧ s = before ++ c :: rest ∧
        splitOn c s = before :: splitOn c rest := by
  by_cases hc : c ∈ s
  · right
    obtain ⟨before, rest, rfl, hbefore⟩ := List.eq_append_cons_of_mem hc
    exact ⟨before, rest, hbefore, rfl, splitOn_append hbefore rest⟩
  · exact .inl ⟨hc, splitOn_of_not_mem hc⟩

/-- No other character is among blanks. -/
theorem not_mem_of_allBlank {s : List Char} (h : allBlank s = true) {c : Char}
    (hc : isBlank c = false) : c ∉ s := by
  intro hmem
  have hblank := List.all_eq_true.1 h c hmem
  rw [hc] at hblank
  cases hblank

/-- Every text is a trimmed one between blanks. -/
theorem exists_trim_eq (s : List Char) :
    ∃ before after, allBlank before = true ∧ allBlank after = true ∧
      s = before ++ (trim s ++ after) := by
  refine ⟨leadingBlank s, trailingBlank (trimStart s), allBlank_leadingBlank s,
    allBlank_trailingBlank _, ?_⟩
  rw [trim, trimEnd_append_blank, blank_append_trimStart]

variable {form : List Char → Prop} (hform : IsForm form)

include hform

theorem isItem_iff {t : List Char} {x : Float} :
    IsItem form t x ↔ form (trim t) ∧ x = ofText (trim t) := by
  constructor
  · rintro ⟨before, digits, after, hbefore, hafter, hdigits, rfl, rfl⟩
    rw [(hform.trimmed hdigits).trim_between before after hbefore hafter]
    exact ⟨hdigits, rfl⟩
  · rintro ⟨hdigits, rfl⟩
    obtain ⟨before, after, hbefore, hafter, ht⟩ := exists_trim_eq t
    exact ⟨before, trim t, after, hbefore, hafter, hdigits, ht, rfl⟩

theorem IsItem.comma_not_mem {t : List Char} {x : Float} (h : IsItem form t x) : ',' ∉ t := by
  obtain ⟨before, digits, after, hbefore, hafter, hdigits, rfl, -⟩ := h
  have hblank : ∀ {s : List Char}, allBlank s = true → ',' ∉ s :=
    fun hs => not_mem_of_allBlank hs (by decide)
  simp [hblank hbefore, hform.comma hdigits, hblank hafter]

/-- **Lists are read piece by piece.** -/
theorem isList_iff {t : List Char} {xs : List Float} :
    IsList form t xs ↔ (∀ piece ∈ splitOn ',' t, form (trim piece)) ∧
      xs = (splitOn ',' t).map fun piece => ofText (trim piece) := by
  constructor
  · intro h
    induction h with
    | last h =>
      rw [splitOn_of_not_mem (h.comma_not_mem hform)]
      obtain ⟨hdigits, rfl⟩ := (isItem_iff hform).1 h
      simp [hdigits]
    | more h _ ih =>
      rw [splitOn_append (h.comma_not_mem hform)]
      obtain ⟨hdigits, rfl⟩ := (isItem_iff hform).1 h
      obtain ⟨hpieces, rfl⟩ := ih
      exact ⟨List.forall_mem_cons.2 ⟨hdigits, hpieces⟩, rfl⟩
  · rintro ⟨hpieces, rfl⟩
    -- by the pieces, as each of them but the last is followed by the text that the others come from
    generalize hsplit : splitOn ',' t = pieces at hpieces ⊢
    induction pieces generalizing t with
    | nil => exact absurd hsplit (splitOn_ne_nil ',' t)
    | cons piece pieces ih =>
      obtain ⟨hpiece, hrest⟩ := List.forall_mem_cons.1 hpieces
      rcases splitOn_cases ',' t with ⟨-, heq⟩ | ⟨before, rest, -, rfl, heq⟩
      · obtain ⟨rfl, rfl⟩ := List.cons.inj (heq.symm.trans hsplit)
        exact .last ((isItem_iff hform).2 ⟨hpiece, rfl⟩)
      · obtain ⟨rfl, hmore⟩ := List.cons.inj (heq.symm.trans hsplit)
        exact .more ((isItem_iff hform).2 ⟨hpiece, rfl⟩) (ih hmore hrest)

end Lists

/-- **Numbers are read exactly where they are written.** -/
theorem WrittenCall.numbers?_eq_some_iff {form : List Char → Prop} {expected : List Char → Bool}
    (hform : IsForm form) (hexpected : ∀ t, expected t = true ↔ form t)
    {arguments : Option (List Char)} {xs : List Float} :
    numbers? expected arguments = some xs ↔ AreNumbers form arguments xs := by
  cases arguments with
  | none =>
    constructor
    · rintro ⟨⟩
      exact .absent
    · rintro ⟨⟩
      rfl
  | some t =>
    have hall : (∀ piece ∈ splitOn ',' t, form (trim piece)) ↔
        ((splitOn ',' t).map trim).all expected = true := by
      simp [List.all_eq_true, hexpected]
    have hmap : ((splitOn ',' t).map trim).map ofText =
        (splitOn ',' t).map fun piece => ofText (trim piece) := List.map_map
    rw [numbers?]
    constructor
    · intro h
      by_cases hblank : allBlank t = true
      · rw [if_pos hblank] at h
        cases h
        exact .blank hblank
      · rw [if_neg hblank] at h
        dsimp only at h
        split at h
        · next hpieces =>
          cases h
          exact .list ((isList_iff hform).2 ⟨hall.2 hpieces, hmap⟩)
        · cases h
    · intro h
      cases h with
      | blank hblank => exact if_pos hblank
      | list h =>
        obtain ⟨hpieces, rfl⟩ := (isList_iff hform).1 h
        -- a blank text has one piece, which is trimmed to nothing
        have hblank : ¬allBlank t = true := by
          intro hblank
          have hpiece := hpieces t (by
            rw [splitOn_of_not_mem (not_mem_of_allBlank hblank (by decide))]
            exact List.mem_singleton_self t)
          rw [trim, trimStart_of_allBlank hblank] at hpiece
          exact hform.ne_nil hpiece
        rw [if_neg hblank]
        dsimp only
        rw [if_pos (hall.1 hpieces), hmap]

/-! ## The forms -/

theorem IsForm.of_imp {form form' : List Char → Prop} (h : IsForm form')
    (himp : ∀ {t}, form t → form' t) : IsForm form where
  trimmed ht := h.trimmed (himp ht)
  comma ht := h.comma (himp ht)
  ne_nil hnil := h.ne_nil (himp hnil)

theorem isForm_decimalText : IsForm DecimalText where
  trimmed := by
    rintro t ⟨negative, s, hs, -, rfl⟩
    exact Decimal.trimmed_text hs negative
  comma := by
    rintro t ⟨negative, s, hs, -, rfl⟩ hmem
    rcases List.mem_append.1 hmem with hmem | hmem
    · cases Decimal.mem_signText hmem
    · rcases Decimal.mem_text hs hmem with hdigit | hother
      · cases hdigit
      · revert hother
        decide
  ne_nil := by
    rintro ⟨negative, s, hs, -, hnil⟩
    obtain ⟨c, more, htext, -⟩ := Spelling.text_begins hs
    rw [htext] at hnil
    simp at hnil

theorem IntegerText.decimalText {t : List Char} (h : IntegerText t) : DecimalText t := by
  obtain ⟨negative, ds, hds, rfl⟩ := h
  refine ⟨negative, ⟨ds, none, none⟩, ⟨hds, nofun, nofun⟩, rfl, ?_⟩
  rw [Spelling.text, Spelling.fractionText, Spelling.exponentText, List.append_nil, List.append_nil]

theorem integerText_of_digital {t : List Char} (h : Digital t) : IntegerText t :=
  ⟨false, t, h, rfl⟩

theorem isForm_integerText : IsForm IntegerText := isForm_decimalText.of_imp IntegerText.decimalText

theorem isForm_digital : IsForm Digital := isForm_integerText.of_imp integerText_of_digital

/-! ## Calls -/

namespace WrittenCall

/-- The text is a generator name: a letter, and then letters, digits, underscores and points. -/
def IsName : List Char → Prop
  | [] => False
  | c :: rest => c.isAlpha = true ∧ ∀ d ∈ rest, isNamePart d = true

/-- The text is a call. -/
inductive Spells : List Char → WrittenCall → Prop
  | bare {name : List Char} (hname : IsName name) : Spells ('$' :: name) ⟨name, none⟩
  | applied {name gap inner : List Char} (hname : IsName name) (hgap : allBlank gap = true)
      (hinner : ∀ c ∈ inner, c ≠ '(' ∧ c ≠ ')') :
      Spells ('$' :: name ++ (gap ++ '(' :: inner) ++ [')']) ⟨name, some inner⟩

theorem not_isBlank_of_isNamePart {c : Char} (h : isNamePart c = true) : isBlank c = false := by
  simp only [isNamePart, Char.isAlphanum, Char.isAlpha, Char.isUpper, Char.isLower, Char.isDigit,
    Bool.or_eq_true, Bool.and_eq_true, decide_eq_true_eq, beq_iff_eq, UInt32.le_iff_toNat_le,
    ge_iff_le] at h
  change ((((65 ≤ c.toNat ∧ c.toNat ≤ 90) ∨ (97 ≤ c.toNat ∧ c.toNat ≤ 122)) ∨
    (48 ≤ c.toNat ∧ c.toNat ≤ 57)) ∨ c = '_') ∨ c = '.' at h
  rcases h with (hrange | rfl) | rfl
  · simp only [isBlank, Bool.or_eq_false_iff, Bool.and_eq_false_iff, decide_eq_false_iff_not,
      beq_eq_false_iff_ne]
    omega
  · decide
  · decide

theorem isNamePart_of_isAlpha {c : Char} (h : c.isAlpha = true) : isNamePart c = true := by
  simp [isNamePart, Char.isAlphanum, h]

theorem IsName.isNamePart {name : List Char} (h : IsName name) :
    ∀ c ∈ name, isNamePart c = true := by
  cases name with
  | nil => exact h.elim
  | cons c rest => exact List.forall_mem_cons.2 ⟨isNamePart_of_isAlpha h.1, h.2⟩

theorem Spells.trimmed {t : List Char} {call : WrittenCall} (h : Spells t call) : Trimmed t := by
  have hdollar : isBlank '$' = false := by decide
  cases h with
  | bare hname =>
    apply Trimmed.of_forall
    intro c hc
    rcases List.mem_cons.1 hc with rfl | hc
    · exact hdollar
    · exact not_isBlank_of_isNamePart (hname.isNamePart c hc)
  | applied hname hgap hinner =>
    constructor
    · exact trimStart_cons_of_not_isBlank _ hdollar
    · exact trimEnd_append_singleton _ (by decide)

/-- What is trimmed to nothing is blank. -/
theorem allBlank_of_trimStart {s : List Char} (h : trimStart s = []) : allBlank s = true := by
  rw [← Bool.not_eq_false]
  intro hblank
  obtain ⟨c, rest, hstart, -⟩ := exists_trimStart_eq_cons hblank
  rw [h] at hstart
  cases hstart

/-- Arguments end with the closing parenthesis and hold no other one. -/
theorem exists_of_closed {name inner : List Char} {call : WrittenCall}
    (h : (match inner.reverse with
      | ')' :: body =>
        if body.any fun c => c == '(' || c == ')' then none else some ⟨name, some body.reverse⟩
      | _ => none) = some call) :
    ∃ body, inner = body ++ [')'] ∧ (∀ c ∈ body, c ≠ '(' ∧ c ≠ ')') ∧ call = ⟨name, some body⟩ := by
  split at h
  · next body hbody =>
    split at h
    · cases h
    · next hparens =>
      cases h
      refine ⟨body.reverse, ?_, ?_, rfl⟩
      · rw [← List.reverse_reverse inner, hbody, List.reverse_cons]
      · intro c hc
        have hmem := List.mem_reverse.1 hc
        simpa using List.any_eq_false.1 (Bool.eq_false_iff.2 hparens) c hmem
  · cases h

theorem spells_of_read? {t : List Char} {call : WrittenCall} (ht : Trimmed t)
    (h : read? t = some call) : Spells t call := by
  rw [read?.eq_def] at h
  split at h
  · next c rest =>
    split at h
    · next hc =>
      have hname : IsName (c :: rest.takeWhile isNamePart) :=
        ⟨hc, fun d => List.mem_takeWhile_imp⟩
      have hrest : rest = rest.takeWhile isNamePart ++ rest.dropWhile isNamePart :=
        List.takeWhile_append_dropWhile.symm
      generalize rest.takeWhile isNamePart = part at h hname hrest
      generalize rest.dropWhile isNamePart = behind at h hrest
      subst hrest
      dsimp only at h
      split at h
      · next hnil =>
        cases h
        -- blanks behind the name would have been trimmed
        have hempty : behind = [] := by
          by_contra hne
          have hblank := not_allBlank_of_trimEnd (s := '$' :: c :: part) ht.stop hne
          rw [allBlank_of_trimStart hnil] at hblank
          cases hblank
        rw [hempty, List.append_nil]
        exact .bare hname
      · next inner hinner =>
        obtain ⟨body, rfl, hbody, rfl⟩ := exists_of_closed h
        have hbehind : behind = leadingBlank behind ++ '(' :: (body ++ [')']) := by
          rw [← hinner, blank_append_trimStart]
        have htext : '$' :: c :: (part ++ behind) = '$' :: (c :: part) ++
            (leadingBlank behind ++ '(' :: body) ++ [')'] := by
          conv_lhs => rw [hbehind]
          simp
        rw [htext]
        exact .applied hname (allBlank_leadingBlank behind) hbody
      · cases h
    · cases h
  · cases h

theorem read?_of_spells {t : List Char} {call : WrittenCall} (h : Spells t call) :
    read? t = some call := by
  cases h with
  | @bare name hname =>
    cases name with
    | nil => exact hname.elim
    | cons c rest =>
      have htake : (rest ++ []).takeWhile isNamePart = rest := takeWhile_run hname.2 nofun
      have hdrop : (rest ++ []).dropWhile isNamePart = [] := dropWhile_run hname.2 nofun
      rw [List.append_nil] at htake hdrop
      rw [read?, if_pos hname.1, htake, hdrop]
      rfl
  | @applied name gap inner hname hgap hinner =>
    cases name with
    | nil => exact hname.elim
    | cons c rest =>
      -- neither a blank nor the parenthesis goes on with the name
      have hends : ∀ d, (gap ++ '(' :: inner ++ [')']).head? = some d → isNamePart d = false := by
        intro d hd
        cases gap with
        | nil =>
          cases hd
          decide
        | cons e gap =>
          cases hd
          rw [Bool.eq_false_iff]
          intro hpart
          have hblank := List.all_eq_true.1 hgap _ List.mem_cons_self
          rw [not_isBlank_of_isNamePart hpart] at hblank
          cases hblank
      have htake := takeWhile_run hname.2 hends
      have hdrop := dropWhile_run hname.2 hends
      have hgone : trimStart (gap ++ '(' :: inner ++ [')']) = '(' :: (inner ++ [')']) := by
        rw [List.append_assoc, trimStart_append_of_allBlank _ hgap]
        exact trimStart_cons_of_not_isBlank _ (by decide)
      have hplain : (inner.reverse.any fun c => c == '(' || c == ')') = false := by
        rw [List.any_eq_false]
        intro d hd
        simpa using hinner d (List.mem_reverse.1 hd)
      rw [List.append_assoc, List.cons_append, List.cons_append, read?, if_pos hname.1, htake,
        hdrop, hgone]
      simp only [List.reverse_append, List.reverse_singleton, List.singleton_append, hplain,
        List.reverse_reverse, Bool.false_eq_true, if_false]

/-- **Calls are read exactly where they are written.** -/
theorem read?_eq_some_iff {t : List Char} (ht : Trimmed t) {call : WrittenCall} :
    read? t = some call ↔ Spells t call :=
  ⟨spells_of_read? ht, read?_of_spells⟩

/-- The bounds that a range is given: none, the upper one, or both. -/
inductive AreBounds : List Float → Argument → Argument → Prop
  | none : AreBounds [] .absent .absent
  | upper (high : Float) : AreBounds [high] (.number high) .absent
  | both (low high : Float) : AreBounds [low, high] (.number low) (.number high)

/-- The call is one of the generator with the numbers that are written. -/
inductive Calls : WrittenCall → Generator → Prop
  | uuid : Calls ⟨"uuid".toList, none⟩ .uuid
  | randomUuid : Calls ⟨"random.uuid".toList, none⟩ .uuid
  | timestamp : Calls ⟨"timestamp".toList, none⟩ .timestamp
  | isoTimestamp : Calls ⟨"isoTimestamp".toList, none⟩ .isoTimestamp
  | email : Calls ⟨"random.email".toList, none⟩ .email
  | integer {arguments : Option (List Char)} {xs : List Float} {first second : Argument}
      (hxs : AreNumbers IntegerText arguments xs) (hbounds : AreBounds xs first second) :
      Calls ⟨"random.integer".toList, arguments⟩ (.integer first second)
  | float {arguments : Option (List Char)} {xs : List Float} {first second : Argument}
      (hxs : AreNumbers DecimalText arguments xs) (hbounds : AreBounds xs first second) :
      Calls ⟨"random.float".toList, arguments⟩ (.float first second)
  | alphabetic {arguments : Option (List Char)} {x : Float}
      (hx : AreNumbers Digital arguments [x]) :
      Calls ⟨"random.alphabetic".toList, arguments⟩ (.alphabetic (.number x))
  | alphanumeric {arguments : Option (List Char)} {x : Float}
      (hx : AreNumbers Digital arguments [x]) :
      Calls ⟨"random.alphanumeric".toList, arguments⟩ (.alphanumeric (.number x))
  | hexadecimal {arguments : Option (List Char)} {x : Float}
      (hx : AreNumbers Digital arguments [x]) :
      Calls ⟨"random.hexadecimal".toList, arguments⟩ (.hexadecimal (.number x))

theorem lengthCall?_eq_some_iff {make : Argument → Generator} {arguments : Option (List Char)}
    {g : Generator} :
    lengthCall? make arguments = some g ↔
      ∃ x, AreNumbers Digital arguments [x] ∧ g = make (.number x) := by
  rw [lengthCall?]
  constructor
  · intro h
    split at h
    · next x hx =>
      cases h
      exact ⟨x, (numbers?_eq_some_iff isForm_digital isLength_iff).1 hx, rfl⟩
    · cases h
  · rintro ⟨x, hx, rfl⟩
    rw [(numbers?_eq_some_iff isForm_digital isLength_iff).2 hx]

theorem exists_bounds_of_bounds? {xs : List Float} {range : Argument × Argument}
    (h : bounds? xs = some range) : ∃ first second, AreBounds xs first second := by
  rw [bounds?.eq_def] at h
  split at h
  · exact ⟨_, _, .none⟩
  · exact ⟨_, _, .upper _⟩
  · exact ⟨_, _, .both _ _⟩
  · cases h

/-- A name without parentheses. -/
theorem eq_none_of_bare {arguments : Option (List Char)} {made g : Generator}
    (h : (if arguments.isNone = true then some made else none) = some g) : arguments = none := by
  split at h
  · next hnone => exact Option.isNone_iff_eq_none.1 hnone
  · cases h

/-- A name with a range. -/
theorem exists_bounds_of_ranged {form : List Char → Prop} {expected : List Char → Bool}
    (hform : IsForm form) (hexpected : ∀ t, expected t = true ↔ form t)
    {make : Argument → Argument → Generator} {arguments : Option (List Char)} {g : Generator}
    (h : (do
      let (first, second) ← bounds? (← numbers? expected arguments)
      pure (make first second)) = some g) :
    ∃ xs first second, AreNumbers form arguments xs ∧ AreBounds xs first second := by
  obtain ⟨xs, hxs, hrest⟩ := Option.bind_eq_some_iff.1 h
  obtain ⟨range, hrange, -⟩ := Option.bind_eq_some_iff.1 hrest
  obtain ⟨first, second, hbounds⟩ := exists_bounds_of_bounds? hrange
  exact ⟨xs, first, second, (numbers?_eq_some_iff hform hexpected).1 hxs, hbounds⟩

/-- What is read as a generator is a call of one. -/
theorem calls_of_generator? {call : WrittenCall} {g : Generator} (h : call.generator? = some g) :
    ∃ g', Calls call g' := by
  obtain ⟨name, arguments⟩ := call
  have hname : ∀ {s : String}, String.ofList name = s → name = s.toList := by
    rintro s rfl
    exact String.toList_ofList.symm
  rw [generator?] at h
  dsimp only at h
  split at h
  · next heq =>
    obtain rfl := hname heq
    obtain rfl := eq_none_of_bare h
    exact ⟨_, .uuid⟩
  · next heq =>
    obtain rfl := hname heq
    obtain rfl := eq_none_of_bare h
    exact ⟨_, .randomUuid⟩
  · next heq =>
    obtain rfl := hname heq
    obtain rfl := eq_none_of_bare h
    exact ⟨_, .timestamp⟩
  · next heq =>
    obtain rfl := hname heq
    obtain rfl := eq_none_of_bare h
    exact ⟨_, .isoTimestamp⟩
  · next heq =>
    obtain rfl := hname heq
    obtain rfl := eq_none_of_bare h
    exact ⟨_, .email⟩
  · next heq =>
    obtain rfl := hname heq
    obtain ⟨xs, first, second, hxs, hbounds⟩ :=
      exists_bounds_of_ranged isForm_integerText isInteger_iff h
    exact ⟨_, .integer hxs hbounds⟩
  · next heq =>
    obtain rfl := hname heq
    obtain ⟨xs, first, second, hxs, hbounds⟩ :=
      exists_bounds_of_ranged isForm_decimalText isFloat_iff h
    exact ⟨_, .float hxs hbounds⟩
  · next heq =>
    obtain rfl := hname heq
    obtain ⟨x, hx, -⟩ := lengthCall?_eq_some_iff.1 h
    exact ⟨_, .alphabetic hx⟩
  · next heq =>
    obtain rfl := hname heq
    obtain ⟨x, hx, -⟩ := lengthCall?_eq_some_iff.1 h
    exact ⟨_, .alphanumeric hx⟩
  · next heq =>
    obtain rfl := hname heq
    obtain ⟨x, hx, -⟩ := lengthCall?_eq_some_iff.1 h
    exact ⟨_, .hexadecimal hx⟩
  · cases h

end WrittenCall

/-- The text is a call of the generator, with the numbers that are written. -/
def Generator.IsWritten (script : String) (g : Generator) : Prop :=
  ∃ before text after call, allBlank before = true ∧ allBlank after = true ∧
    script.toList = before ++ (text ++ after) ∧ WrittenCall.Spells text call ∧ call.Calls g

end RequestRunner
