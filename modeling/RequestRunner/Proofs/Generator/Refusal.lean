import RequestRunner.Generator.Draw
import RequestRunner.Proofs.Generator.Written

/-!
# What becomes of a written call

A written call is resolved without a host. Its numbers are numbers (`DecimalText.anyNumber`), the
whole ones among them are whole or infinite (`IntegerText.integer`), and lengths are not below zero
(`not_lt_zero_of_digital`), so the generator's own check can fail in two ways only: the range is
empty, or it has to be finite and is not (`checks_of_calls`). A call with an empty range is left
unresolved, and one that overflows is refused by the generator itself
(`Generator.runScript_answers`).
-/

set_option autoImplicit false

namespace RequestRunner

open Text
open Decimal (Spelling ofText)
open Decimal.Spelling (Digital)

/-! ## Checks of written numbers -/

theorem IsList.exists_text {form : List Char → Prop} {t : List Char} {xs : List Float}
    (h : IsList form t xs) : ∀ x ∈ xs, ∃ digits, form digits ∧ x = ofText digits := by
  induction h with
  | last h =>
    obtain ⟨before, digits, after, -, -, hdigits, -, rfl⟩ := h
    simpa using ⟨digits, hdigits, rfl⟩
  | more h _ ih =>
    obtain ⟨before, digits, after, -, -, hdigits, -, rfl⟩ := h
    exact List.forall_mem_cons.2 ⟨⟨digits, hdigits, rfl⟩, ih⟩

theorem AreNumbers.exists_text {form : List Char → Prop} {arguments : Option (List Char)}
    {xs : List Float} (h : AreNumbers form arguments xs) {x : Float} (hx : x ∈ xs) :
    ∃ digits, form digits ∧ x = ofText digits := by
  cases h with
  | absent => cases hx
  | blank => cases hx
  | list h => exact h.exists_text x hx

/-- A written number is a number. -/
theorem DecimalText.anyNumber {t : List Char} (h : DecimalText t) :
    (Argument.number (ofText t)).anyNumber = .ok (ofText t) := by
  obtain ⟨negative, s, hs, -, rfl⟩ := h
  have hnan := Decimal.isNaN_of_sign? (Decimal.sign?_signedValue negative s)
  rw [Decimal.ofText_text hs, Argument.anyNumber, hnan, if_neg Bool.false_ne_true]

/-- Digits are read as the value of their numeral. -/
theorem ofText_digits {ds : List Char} (hds : Digital ds) (negative : Bool) :
    ofText (Decimal.signText negative ++ ds) = Decimal.signedValue negative ⟨ds, none, none⟩ := by
  have hs : Spelling.Complete ⟨ds, none, none⟩ := ⟨hds, nofun, nofun⟩
  have hread := Decimal.ofText_text hs negative
  rw [Spelling.text, Spelling.fractionText, Spelling.exponentText, List.append_nil,
    List.append_nil] at hread
  exact hread

/-- A written whole number is one, unless it is too large. -/
theorem IntegerText.integer {t : List Char} (h : IntegerText t) :
    (Argument.number (ofText t)).integer =
      if (ofText t).isInf then .error .notInteger else .ok (ofText t) := by
  obtain ⟨negative, ds, hds, rfl⟩ := h
  rw [ofText_digits hds, Argument.integer, (Decimal.integral_signedValue negative ds).isWhole_eq]
  cases (Decimal.signedValue negative ⟨ds, none, none⟩).isInf <;> rfl

/-- A written length is not below zero. -/
theorem not_lt_zero_of_digital {t : List Char} (h : Digital t) : ¬ofText t < 0 := by
  have hread : ofText t = Decimal.signedValue false ⟨t, none, none⟩ := ofText_digits h false
  rw [hread]
  exact Decimal.not_lt_zero (Decimal.sign?_signedValue false _)

/-! ## Empty ranges and infinite bounds -/

/-- The argument is an infinite number. -/
def Argument.isInfinite : Argument → Bool
  | .number x => x.isInf
  | _ => false

/-- There is no number between the bounds. -/
def emptyBetween : Argument → Argument → Bool
  | .number high, .absent => 0 ≥ high
  | .number low, .number high => low ≥ high
  | _, _ => false

namespace Generator

/-- The call asks for a number between bounds that have none between them. -/
def hasEmptyRange : Generator → Bool
  | .integer first second => emptyBetween first second
  | .float first second => emptyBetween first second
  | _ => false

/-- The call asks for a whole number between bounds of which one is infinite, or for a text of
infinite length. -/
def overflows : Generator → Bool
  | .integer first second => !emptyBetween first second && (first.isInfinite || second.isInfinite)
  | .alphabetic length => length.isInfinite
  | .alphanumeric length => length.isInfinite
  | .hexadecimal length => length.isInfinite
  | _ => false

end Generator

open WrittenCall (AreBounds Calls)

/-- The outcome of a check: an empty range is refused, and what is infinite is refused as no whole
number. -/
structure Checks {α : Type} (check : Except GeneratorError α) (empty infinite : Bool) : Prop where
  refuses : empty = true → check.isOk = false
  passes : empty = false →
    (check.map fun _ => ()) = if infinite then .error .notInteger else .ok ()

theorem checks_between (low high : Float) :
    Checks (Bounds.between low high) (low ≥ high) false where
  refuses h := by
    rw [Bounds.between, if_pos (of_decide_eq_true h)]
    rfl
  passes h := by
    rw [Bounds.between, if_neg (of_decide_eq_false h)]
    rfl

/-- A bound that has to be whole is checked first. -/
theorem Checks.integer_bind {α : Type} {x : Float} {f : Float → Except GeneratorError α}
    {empty infinite : Bool} (hx : (Argument.number x).integer =
      if x.isInf then .error .notInteger else .ok x) (h : Checks (f x) empty infinite) :
    Checks ((Argument.number x).integer >>= f) empty (x.isInf || infinite) := by
  rw [hx]
  cases x.isInf with
  | true => exact ⟨fun _ => rfl, fun _ => rfl⟩
  | false => exact h

theorem checks_integerBounds {arguments : Option (List Char)} {xs : List Float}
    {first second : Argument} (hxs : AreNumbers IntegerText arguments xs)
    (hbounds : AreBounds xs first second) :
    Checks (integerBounds first second) (emptyBetween first second)
      (first.isInfinite || second.isInfinite) := by
  have hinteger : ∀ {x}, x ∈ xs → (Argument.number x).integer =
      if x.isInf then .error .notInteger else .ok x := by
    intro x hx
    obtain ⟨digits, hdigits, rfl⟩ := hxs.exists_text hx
    exact hdigits.integer
  cases hbounds with
  | none => exact ⟨nofun, fun _ => rfl⟩
  | upper high => exact (checks_between 0 high).integer_bind (hinteger (by simp))
  | both low high =>
    have hboth := ((checks_between low high).integer_bind (hinteger (by simp))).integer_bind
      (f := fun low => (Argument.number high).integer >>= Bounds.between low)
      (hinteger (by simp))
    rw [Bool.or_false] at hboth
    exact hboth

theorem checks_floatBounds {arguments : Option (List Char)} {xs : List Float}
    {first second : Argument} (hxs : AreNumbers DecimalText arguments xs)
    (hbounds : AreBounds xs first second) :
    Checks (floatBounds first second) (emptyBetween first second) false := by
  have hnumber : ∀ {x}, x ∈ xs → (Argument.number x).anyNumber = .ok x := by
    intro x hx
    obtain ⟨digits, hdigits, rfl⟩ := hxs.exists_text hx
    exact hdigits.anyNumber
  cases hbounds with
  | none => exact ⟨nofun, fun _ => rfl⟩
  | upper high =>
    change Checks ((Argument.number high).anyNumber >>= Bounds.between 0) _ _
    rw [hnumber (by simp)]
    exact checks_between 0 high
  | both low high =>
    change Checks ((Argument.number low).anyNumber >>= fun low =>
      (Argument.number high).anyNumber >>= Bounds.between low) _ _
    rw [hnumber (by simp), hnumber (by simp)]
    exact checks_between low high

theorem checks_length {arguments : Option (List Char)} {x : Float}
    (hx : AreNumbers Digital arguments [x]) :
    Checks (Argument.number x).length false x.isInf := by
  obtain ⟨digits, hdigits, rfl⟩ := hx.exists_text (List.mem_singleton_self x)
  have hinteger := (integerText_of_digital hdigits).integer
  have hpass : Checks (if ofText digits < 0 then .error (.negativeLength (ofText digits))
      else .ok (Decimal.wholePart (ofText digits)).toNat) false false := by
    rw [if_neg (not_lt_zero_of_digital hdigits)]
    exact ⟨nofun, fun _ => rfl⟩
  have hlength := hpass.integer_bind (f := fun x => if x < 0 then .error (.negativeLength x)
    else .ok (Decimal.wholePart x).toNat) hinteger
  rw [Bool.or_false] at hlength
  exact hlength

theorem Checks.map {α : Type} {check : Except GeneratorError α} {empty infinite : Bool}
    (h : Checks check empty infinite) : Checks (check.map fun _ => ()) empty infinite := by
  refine ⟨fun hempty => ?_, fun hfull => ?_⟩
  · have hrefused := h.refuses hempty
    cases check with
    | error e => rfl
    | ok a => cases hrefused
  · rw [← h.passes hfull]
    cases check <;> rfl

theorem checks_ok : Checks (Except.ok ()) false false := ⟨nofun, fun _ => rfl⟩

/-- **A generator refuses what is written for two reasons only.** -/
theorem checks_of_calls {call : WrittenCall} {g : Generator} (h : Calls call g) :
    Checks g.check g.hasEmptyRange g.overflows := by
  cases h with
  | uuid => exact checks_ok
  | randomUuid => exact checks_ok
  | timestamp => exact checks_ok
  | isoTimestamp => exact checks_ok
  | email => exact checks_ok
  | integer hxs hbounds =>
    -- an infinite bound counts only where the range is not empty
    have hrange := (checks_integerBounds hxs hbounds).map
    refine ⟨hrange.refuses, fun hfull => ?_⟩
    have hpass := hrange.passes hfull
    rw [Generator.overflows, show emptyBetween _ _ = false from hfull]
    exact hpass
  | float hxs hbounds => exact (checks_floatBounds hxs hbounds).map
  | alphabetic hx => exact (checks_length hx).map
  | alphanumeric hx => exact (checks_length hx).map
  | hexadecimal hx => exact (checks_length hx).map

/-! ## Resolution -/

/-- A range that is read, and the generator that is made for it: its upper bound alone stands for a
range from zero. -/
theorem ranged_of_bounds {form : List Char → Prop} {expected : List Char → Bool}
    (hform : IsForm form) (hexpected : ∀ t, expected t = true ↔ form t)
    {f : Argument → Argument → Generator}
    (hf : ∀ now high,
      (f (.number 0) (.number high)).prepare now = (f (.number high) .absent).prepare now)
    {arguments : Option (List Char)} {xs : List Float} {first second : Argument}
    (hxs : AreNumbers form arguments xs) (hbounds : AreBounds xs first second) :
    let made : Option Generator := do
      let (first, second) ← WrittenCall.bounds? (← WrittenCall.numbers? expected arguments)
      pure (f first second)
    (emptyBetween first second = true ∧ made = none) ∨
      (emptyBetween first second = false ∧ ∃ g, made = some g ∧
        ∀ now, g.prepare now = (f first second).prepare now) := by
  intro made
  have hmade : made = (WrittenCall.bounds? xs).bind fun range => some (f range.1 range.2) := by
    change (WrittenCall.numbers? expected arguments).bind _ = _
    rw [(WrittenCall.numbers?_eq_some_iff hform hexpected).2 hxs]
    rfl
  rw [hmade]
  cases hbounds with
  | none => exact .inr ⟨rfl, _, rfl, fun _ => rfl⟩
  | upper high =>
    rw [WrittenCall.bounds?]
    by_cases hempty : 0 ≥ high
    · exact .inl ⟨decide_eq_true hempty, by rw [if_pos hempty]; rfl⟩
    · exact .inr ⟨decide_eq_false hempty, _, by rw [if_neg hempty]; rfl, fun now => hf now high⟩
  | both low high =>
    rw [WrittenCall.bounds?]
    by_cases hempty : low ≥ high
    · exact .inl ⟨decide_eq_true hempty, by rw [if_pos hempty]; rfl⟩
    · exact .inr ⟨decide_eq_false hempty, _, by rw [if_neg hempty]; rfl, fun now => rfl⟩

theorem integerBounds_zero (high : Float) :
    integerBounds (.number 0) (.number high) = integerBounds (.number high) .absent := by
  have hzero : (Argument.number 0).integer = .ok 0 := by
    rw [Argument.integer, if_pos (by decide +kernel)]
  change ((Argument.number 0).integer >>= fun low =>
    (Argument.number high).integer >>= Bounds.between low) = _
  rw [hzero]
  rfl

theorem floatBounds_zero (high : Float) :
    floatBounds (.number 0) (.number high) = floatBounds (.number high) .absent := by
  have hzero : (Argument.number 0).anyNumber = .ok 0 := by
    rw [Argument.anyNumber, if_neg (by decide +kernel)]
  change ((Argument.number 0).anyNumber >>= fun low =>
    (Argument.number high).anyNumber >>= Bounds.between low) = _
  rw [hzero]
  rfl

/-- **What is read for a written call.** -/
theorem generator?_of_calls {call : WrittenCall} {g : Generator} (h : Calls call g) :
    (g.hasEmptyRange = true ∧ call.generator? = none) ∨
      (g.hasEmptyRange = false ∧ ∃ made, call.generator? = some made ∧
        ∀ now, made.prepare now = g.prepare now) := by
  have hsame : call.generator? = some g → g.hasEmptyRange = false →
      (g.hasEmptyRange = true ∧ call.generator? = none) ∨
        (g.hasEmptyRange = false ∧ ∃ made, call.generator? = some made ∧
          ∀ now, made.prepare now = g.prepare now) :=
    fun hread hfull => .inr ⟨hfull, g, hread, fun _ => rfl⟩
  cases h with
  | uuid => exact hsame rfl rfl
  | randomUuid => exact hsame rfl rfl
  | timestamp => exact hsame rfl rfl
  | isoTimestamp => exact hsame rfl rfl
  | email => exact hsame rfl rfl
  | integer hxs hbounds =>
    refine ranged_of_bounds isForm_integerText WrittenCall.isInteger_iff ?_ hxs hbounds
    intro now high
    rw [Generator.prepare, integerBounds_zero]
    rfl
  | float hxs hbounds =>
    refine ranged_of_bounds isForm_decimalText WrittenCall.isFloat_iff ?_ hxs hbounds
    intro now high
    rw [Generator.prepare, floatBounds_zero]
    rfl
  | alphabetic hx => exact hsame (WrittenCall.lengthCall?_eq_some_iff.2 ⟨_, hx, rfl⟩) rfl
  | alphanumeric hx => exact hsame (WrittenCall.lengthCall?_eq_some_iff.2 ⟨_, hx, rfl⟩) rfl
  | hexadecimal hx => exact hsame (WrittenCall.lengthCall?_eq_some_iff.2 ⟨_, hx, rfl⟩) rfl

namespace Generator

/-- What is found for a script is what is read in the call that it spells. -/
theorem ofScript?_of_isWritten {script : String} {g : Generator} (h : g.IsWritten script) :
    ∃ call, Calls call g ∧ ofScript? script = call.generator? := by
  obtain ⟨before, text, after, call, hbefore, hafter, hscript, hspells, hcalls⟩ := h
  refine ⟨call, hcalls, ?_⟩
  have hread := (WrittenCall.read?_eq_some_iff hspells.trimmed).2 hspells
  rw [ofScript?, hscript, hspells.trimmed.trim_between before after hbefore hafter, hread]
  rfl

theorem isWritten_of_ofScript? {script : String} {made : Generator}
    (h : ofScript? script = some made) : ∃ g : Generator, g.IsWritten script := by
  obtain ⟨call, hread, hmade⟩ := Option.bind_eq_some_iff.1 h
  obtain ⟨g, hcalls⟩ := WrittenCall.calls_of_generator? hmade
  obtain ⟨before, after, hbefore, hafter, hscript⟩ := exists_trim_eq script.toList
  exact ⟨g, before, _, after, call, hbefore, hafter, hscript,
    (WrittenCall.read?_eq_some_iff (trimmed_trim _)).1 hread, hcalls⟩

/-- A script that is no call has no value. -/
theorem runScript_of_not_isWritten {script : String} (h : ∀ g : Generator, ¬g.IsWritten script)
    (now : Int) (entropy : Entropy) : runScript now script entropy = (.ok none, entropy) := by
  cases hread : ofScript? script with
  | some made =>
    obtain ⟨g, hwritten⟩ := isWritten_of_ofScript? hread
    exact absurd hwritten (h g)
  | none => rw [runScript, hread]

/-- A call with an empty range has none either, and any other one has what its generator makes. -/
theorem runScript_of_isWritten {script : String} {g : Generator} (h : g.IsWritten script)
    (now : Int) (entropy : Entropy) :
    (runScript now script entropy).1 =
      if g.hasEmptyRange then .ok none
      else (g.run now entropy).1.map fun value => some value.toText := by
  obtain ⟨call, hcalls, hread⟩ := ofScript?_of_isWritten h
  rw [runScript, hread]
  rcases generator?_of_calls hcalls with ⟨hempty, hnone⟩ | ⟨hfull, made, hmade, hprepare⟩
  · rw [hnone, hempty]
    rfl
  · have hrun : made.run now entropy = g.run now entropy := by
      simp only [run, hprepare]
    rw [hmade, hfull]
    dsimp only
    rw [hrun]
    rcases g.run now entropy with ⟨_ | _, _⟩ <;> rfl

theorem hasEmptyRange_of_overflows {g : Generator} (h : g.overflows = true) :
    g.hasEmptyRange = false := by
  cases g with
  | integer first second =>
    rw [overflows, Bool.and_eq_true, Bool.not_eq_true'] at h
    exact h.1
  | float first second => cases h
  | _ => rfl

/-- The check of a written call whose range is not empty. -/
theorem check_of_calls {call : WrittenCall} {g : Generator} (h : Calls call g)
    (hfull : g.hasEmptyRange = false) :
    g.check = if g.overflows then .error .notInteger else .ok () := by
  rw [← (checks_of_calls h).passes hfull]
  cases g.check <;> rfl

/-- **A written call fails exactly for infinite numbers that have to be whole**, with a source that
supplies what passes the checks: the value of a call that passes its check is made, one that does not
has no value, and no more does a script that is no call. -/
theorem runScript_answers {entropy : Entropy} (hentropy : entropy.Supplies) (now : Int)
    (script : String) :
    (∀ g : Generator, g.IsWritten script →
      (g.check = .ok () → ∃ value, (g.run now entropy).1 = .ok value ∧
        (runScript now script entropy).1 = .ok (some value.toText)) ∧
      (g.check ≠ .ok () → g.overflows = false →
        (runScript now script entropy).1 = .ok none) ∧
      (g.overflows = true → g.check = .error .notInteger ∧
        (runScript now script entropy).1 = .error .notInteger)) ∧
    ((∀ g : Generator, ¬g.IsWritten script) → (runScript now script entropy).1 = .ok none) := by
  refine ⟨?_, fun hnone => by rw [runScript_of_not_isWritten hnone]⟩
  intro g hwritten
  obtain ⟨call, hcalls, -⟩ := ofScript?_of_isWritten hwritten
  have hanswer := runScript_of_isWritten hwritten now entropy
  have hrun := check_eq_run hentropy g now
  refine ⟨fun hok => ?_, fun hfails hfinite => ?_, fun hoverflows => ?_⟩
  · -- an empty range would have been refused
    have hfull : g.hasEmptyRange = false := by
      rw [← Bool.not_eq_true]
      intro hempty
      have hrefused := (checks_of_calls hcalls).refuses hempty
      rw [hok] at hrefused
      cases hrefused
    cases hmade : (g.run now entropy).1 with
    | error e =>
      rw [hok, hmade] at hrun
      cases hrun
    | ok value =>
      rw [hfull, hmade] at hanswer
      exact ⟨value, rfl, hanswer⟩
  · -- without an infinite number only an empty range is refused
    have hempty : g.hasEmptyRange = true := by
      rw [← Bool.not_eq_false]
      intro hfull
      apply hfails
      rw [check_of_calls hcalls hfull, hfinite]
      rfl
    rw [hanswer, hempty]
    rfl
  · -- the range is not empty, so the generator is called and refuses the number itself
    have hfull := hasEmptyRange_of_overflows hoverflows
    have hcheck : g.check = .error .notInteger := by
      rw [check_of_calls hcalls hfull, hoverflows]
      rfl
    refine ⟨hcheck, ?_⟩
    rw [hanswer, hfull]
    cases hmade : (g.run now entropy).1 with
    | error e =>
      rw [hcheck, hmade] at hrun
      cases hrun
      rfl
    | ok value =>
      rw [hcheck, hmade] at hrun
      cases hrun

/-- A roll of a die has a value. -/
theorem runScript_answers_roll :
    (Entropy.seeded 1).Supplies ∧
      ∃ value, ((integer (.number 1) (.number 7)).run 0 (.seeded 1)).1 = .ok value ∧
        (runScript 0 " $random.integer(1, 7)" (.seeded 1)).1 = .ok (some value.toText) := by
  have hnumbers : AreNumbers IntegerText (some "1, 7".toList) [1, 7] :=
    (WrittenCall.numbers?_eq_some_iff isForm_integerText WrittenCall.isInteger_iff).1
      (by decide +kernel)
  have htrimmed : Trimmed "$random.integer(1, 7)".toList :=
    ⟨by decide +kernel, by decide +kernel⟩
  have hspells : WrittenCall.Spells "$random.integer(1, 7)".toList
      ⟨"random.integer".toList, some "1, 7".toList⟩ :=
    (WrittenCall.read?_eq_some_iff htrimmed).1 (by decide +kernel)
  have hwritten : (integer (.number 1) (.number 7)).IsWritten " $random.integer(1, 7)" :=
    ⟨[' '], _, [], _, by decide, by decide, by decide +kernel, hspells,
      .integer hnumbers (.both 1 7)⟩
  have hsupplies := Entropy.supplies_seeded 1
  have hanswers := runScript_answers hsupplies 0 " $random.integer(1, 7)"
  exact ⟨hsupplies, (hanswers.1 _ hwritten).1 (by decide +kernel)⟩

/-- A bound of three hundred and nine nines is infinite. -/
example :
    let script := "$random.integer(".toList ++ List.replicate 309 '9' ++ [')']
    (runScript 0 (String.ofList script) (.seeded 1)).1 = .error .notInteger := by
  intro script
  rw [runScript, ofScript?, String.toList_ofList]
  decide +kernel

end Generator

end RequestRunner
