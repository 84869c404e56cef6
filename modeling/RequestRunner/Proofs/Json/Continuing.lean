import RequestRunner.Proofs.Json.Rereading
import RequestRunner.Proofs.Text.Occurrence

/-!
# Reading in front of more text

What a reader takes from a text does not depend on what stands further behind, as long as the text
shows where the value ends: a string or a bracket by its closing delimiter (`Json.Closes`), a number
by the comma or bracket behind it (`Json.Follows`). So a text that is one object can be continued:
the same value is read, and what was put behind it is left over (`Json.readValue?_append`). Main
statement: between other characters an object is read exactly if they are spaces of JSON
(`Json.read?_surrounded`).
-/

set_option autoImplicit false

namespace RequestRunner

/-! ## Runs -/

/-- A run that ends within a text ends there in every continuation. -/
theorem Text.run_append {α : Type} {p : α → Bool} {s : List α} (w : List α)
    (h : s.dropWhile p ≠ []) :
    (s ++ w).takeWhile p = s.takeWhile p ∧ (s ++ w).dropWhile p = s.dropWhile p ++ w := by
  have hrun : ∀ c ∈ s.takeWhile p, p c = true := fun c hc => List.mem_takeWhile_imp hc
  have hbehind : ∀ c, (s.dropWhile p ++ w).head? = some c → p c = false := by
    intro c hc
    rw [List.head?_append_of_ne_nil _ h] at hc
    have hhead := List.head?_dropWhile_not p s
    rw [hc] at hhead
    simpa using hhead
  have hsplit : s ++ w = s.takeWhile p ++ (s.dropWhile p ++ w) := by
    rw [← List.append_assoc, List.takeWhile_append_dropWhile]
  rw [hsplit]
  exact ⟨takeWhile_run hrun hbehind, dropWhile_run hrun hbehind⟩

/-- What stands first in a text is not changed by a continuation. -/
theorem Text.append_ne_cons {α : Type} {c : α} {s : List α} (hs : s ≠ [])
    (h : ∀ more, s ≠ c :: more) (w more : List α) : s ++ w ≠ c :: more := by
  obtain ⟨d, behind, rfl⟩ := List.exists_cons_of_ne_nil hs
  intro heq
  rw [List.cons_append, List.cons.injEq] at heq
  exact h behind (by rw [heq.1])

/-! ## Numerals -/

namespace Decimal

open Spelling (Stops exponent?_of_stops)

/-- The sign in front of an exponent, if one is written, and the rest. -/
def exponentSign : List Char → Bool × List Char
  | '+' :: r => (false, r)
  | '-' :: r => (true, r)
  | r => (false, r)

/-- The value of the digits behind the sign of an exponent, and the rest. -/
def exponentDigits? (negative : Bool) (s : List Char) : Option (Int × List Char) :=
  if (s.takeWhile isDigit).isEmpty then none
  else
    some (if negative then -(natOfDigits (s.takeWhile isDigit) : Int)
      else natOfDigits (s.takeWhile isDigit), s.dropWhile isDigit)

/-- The fraction of a numeral, if a point is written, and the rest. -/
def fraction : List Char → Option (List Char) × List Char
  | '.' :: r => (some (r.takeWhile isDigit), r.dropWhile isDigit)
  | r => (none, r)

theorem exponent?_cons (c : Char) (s : List Char) :
    exponent? (c :: s) =
      if c = 'e' ∨ c = 'E' then exponentDigits? (exponentSign s).1 (exponentSign s).2 else none :=
  rfl

theorem scan_eq (s : List Char) :
    scan s =
      match exponent? (fraction (s.dropWhile isDigit)).2 with
      | some (e, rest) =>
        (⟨s.takeWhile isDigit, (fraction (s.dropWhile isDigit)).1, some e⟩, rest)
      | none =>
        (⟨s.takeWhile isDigit, (fraction (s.dropWhile isDigit)).1, none⟩,
          (fraction (s.dropWhile isDigit)).2) :=
  rfl

theorem exponentSign_append {s : List Char} (hs : s ≠ []) (w : List Char) :
    exponentSign (s ++ w) = ((exponentSign s).1, (exponentSign s).2 ++ w) := by
  obtain ⟨c, s, rfl⟩ := List.exists_cons_of_ne_nil hs
  by_cases hplus : c = '+'
  · subst hplus
    rfl
  by_cases hminus : c = '-'
  · subst hminus
    rfl
  · simp [exponentSign, hplus, hminus]

theorem fraction_append {s : List Char} (hs : (fraction s).2 ≠ []) (w : List Char) :
    fraction (s ++ w) = ((fraction s).1, (fraction s).2 ++ w) := by
  cases s with
  | nil => exact absurd rfl hs
  | cons c s =>
    by_cases hpoint : c = '.'
    · subst hpoint
      obtain ⟨htake, hdrop⟩ := Text.run_append w (show s.dropWhile isDigit ≠ [] from hs)
      rw [List.cons_append, fraction, htake, hdrop, fraction]
    · simp [fraction, hpoint]

theorem exponent?_append {s rest : List Char} {e : Int} (w : List Char)
    (h : exponent? s = some (e, rest)) (hne : rest ≠ []) :
    exponent? (s ++ w) = some (e, rest ++ w) := by
  cases s with
  | nil => cases h
  | cons c s =>
    rw [List.cons_append, exponent?_cons] at *
    split at h
    · next he =>
      rw [if_pos he]
      have hs : s ≠ [] := by
        rintro rfl
        cases h
      rw [exponentSign_append hs]
      unfold exponentDigits? at h ⊢
      split at h
      · cases h
      · next hsome =>
        cases h
        obtain ⟨htake, hdrop⟩ := Text.run_append w hne
        dsimp only
        rw [htake, hdrop, if_neg hsome]
    · cases h

theorem Spelling.Stops.append {rest : List Char} (h : Stops rest) (hne : rest ≠ [])
    (w : List Char) : Stops (rest ++ w) := by
  intro c hc
  rw [List.head?_append_of_ne_nil _ hne] at hc
  exact h c hc

/-- A numeral ends where something else follows. -/
theorem scan_append {s rest : List Char} {n : Numeral} (w : List Char) (h : scan s = (n, rest))
    (hstops : Stops rest) (hne : rest ≠ []) : scan (s ++ w) = (n, rest ++ w) := by
  have hfraction : (fraction (s.dropWhile isDigit)).2 ≠ [] := by
    intro hnil
    rw [scan_eq, hnil] at h
    cases h
    exact hne rfl
  have hwhole : s.dropWhile isDigit ≠ [] := fun hnil => hfraction (by rw [hnil]; rfl)
  obtain ⟨htake, hdrop⟩ := Text.run_append w hwhole
  rw [scan_eq, htake, hdrop, fraction_append hfraction]
  rw [scan_eq] at h
  cases hexponent : exponent? (fraction (s.dropWhile isDigit)).2 with
  | none =>
    rw [hexponent] at h
    cases h
    dsimp only
    rw [exponent?_of_stops (hstops.append hne w)]
  | some found =>
    rw [hexponent] at h
    cases h
    dsimp only
    rw [exponent?_append w hexponent hne]

end Decimal

namespace Json

open Decimal (Spelling)

/-! ## Strings -/

theorem readUnit?_append {s rest : List Char} {u : Nat} (w : List Char)
    (h : readUnit? s = some (u, rest)) : readUnit? (s ++ w) = some (u, rest ++ w) := by
  match s, h with
  | a :: b :: c :: d :: s, h =>
    rw [readUnit?, Option.map_eq_some_iff] at h
    obtain ⟨u, hu, hfound⟩ := h
    cases hfound
    rw [List.cons_append, List.cons_append, List.cons_append, List.cons_append, readUnit?, hu]
    rfl

theorem readString?_unit (n : Nat) (done s : List Char) :
    readString? (n + 1) done ('\\' :: 'u' :: s) =
      (readUnit? s).bind fun found =>
        readString? n ((joinUnit found.1 found.2).1 :: done) (joinUnit found.1 found.2).2 := by
  cases hunit : readUnit? s <;> simp [readString?, hunit]

theorem readString?_letter (n : Nat) (done : List Char) {e : Char} (he : e ≠ 'u') (s : List Char) :
    readString? (n + 1) done ('\\' :: e :: s) =
      (letterEscape? e).bind fun c => readString? n (c :: done) s := by
  cases hletter : letterEscape? e <;> simp [readString?, hletter]

theorem readString?_plain (n : Nat) (done : List Char) {c : Char} (hquote : c ≠ '"')
    (hescape : c ≠ '\\') (s : List Char) :
    readString? (n + 1) done (c :: s) =
      if c.toNat < 0x20 then none else readString? n (c :: done) s := by
  rw [readString?.eq_def]
  simp [hquote, hescape]

/-- The text is that of a string up to its closing delimiter, with more text behind it. -/
def IsClosed (s : List Char) : Prop := ∃ n done found, readString? n done s = some found

theorem not_isClosed_nil : ¬ IsClosed [] := by
  rintro ⟨n, done, found, h⟩
  cases n <;> cases h

theorem not_isClosed_escape : ¬ IsClosed ['\\'] := by
  rintro ⟨n, done, found, h⟩
  cases n <;> cases h

theorem not_isClosed_unit {s : List Char} (hs : readUnit? s = none) :
    ¬ IsClosed ('\\' :: 'u' :: s) := by
  rintro ⟨n, done, found, h⟩
  cases n with
  | zero => cases h
  | succ n =>
    rw [readString?_unit, hs] at h
    cases h

/-- The character of a leading half with an escaped unit behind it. -/
theorem joinUnit_escape {u : Nat} (hlead : 0xD800 ≤ u ∧ u < 0xDC00) (more : List Char) :
    joinUnit u ('\\' :: 'u' :: more) =
      match readUnit? more with
      | some (low, after) =>
        if 0xDC00 ≤ low ∧ low < 0xE000 then
          (Char.ofNat (0x10000 + (u - 0xD800) * 0x400 + (low - 0xDC00)), after)
        else (Char.ofNat 0xFFFD, '\\' :: 'u' :: more)
      | none => (Char.ofNat 0xFFFD, '\\' :: 'u' :: more) :=
  if_pos hlead

theorem joinUnit_of_ne {u : Nat} {s : List Char} (hlead : 0xD800 ≤ u ∧ u < 0xDC00)
    (hs : ∀ more, s ≠ '\\' :: 'u' :: more) : joinUnit u s = (Char.ofNat 0xFFFD, s) := by
  unfold joinUnit
  rw [if_pos hlead]
  split
  · exact absurd rfl (hs _)
  · rfl

/-- A text that goes on with an escaped unit only in a continuation is that of no string. -/
theorem not_escape_append {s : List Char} (w : List Char) (hclosed : IsClosed s)
    (hs : ∀ more, s ≠ '\\' :: 'u' :: more) : ∀ more, s ++ w ≠ '\\' :: 'u' :: more := by
  intro more h
  match s, h with
  | [], _ => exact not_isClosed_nil hclosed
  | [c], h =>
    rw [List.singleton_append, List.cons.injEq] at h
    rw [h.1] at hclosed
    exact not_isClosed_escape hclosed
  | c :: d :: s, h =>
    rw [List.cons_append, List.cons_append, List.cons.injEq, List.cons.injEq] at h
    exact hs s (by rw [h.1, h.2.1])

/-- Which character a unit stands for does not depend on what follows the string. -/
theorem joinUnit_append {u : Nat} {s : List Char} (w : List Char)
    (hclosed : IsClosed (joinUnit u s).2) :
    joinUnit u (s ++ w) = ((joinUnit u s).1, (joinUnit u s).2 ++ w) := by
  by_cases hlead : 0xD800 ≤ u ∧ u < 0xDC00
  · by_cases hs : ∀ more, s ≠ '\\' :: 'u' :: more
    · rw [joinUnit_of_ne hlead hs] at hclosed ⊢
      rw [joinUnit_of_ne hlead (not_escape_append w hclosed hs)]
    · push Not at hs
      obtain ⟨more, rfl⟩ := hs
      rw [joinUnit_escape hlead] at hclosed ⊢
      rw [List.cons_append, List.cons_append, joinUnit_escape hlead]
      cases hunit : readUnit? more with
      | none =>
        rw [hunit] at hclosed
        exact absurd hclosed (not_isClosed_unit hunit)
      | some found =>
        obtain ⟨low, after⟩ := found
        rw [readUnit?_append w hunit]
        dsimp only
        by_cases hlow : 0xDC00 ≤ low ∧ low < 0xE000
        · rw [if_pos hlow, if_pos hlow]
        · rw [if_neg hlow, if_neg hlow, List.cons_append, List.cons_append]
  · unfold joinUnit
    rw [if_neg hlead, if_neg hlead]
    split <;> rfl

/-- **A string ends at its closing delimiter**, whatever stands behind it. -/
theorem readString?_append {n : Nat} {done s rest : List Char} {t : String} (w : List Char)
    (h : readString? n done s = some (t, rest)) {m : Nat} (hm : n ≤ m) :
    readString? m done (s ++ w) = some (t, rest ++ w) := by
  induction n generalizing m done s with
  | zero => cases h
  | succ n ih =>
    obtain ⟨m, rfl⟩ : ∃ k, m = k + 1 := ⟨m - 1, by omega⟩
    have hm : n ≤ m := Nat.le_of_succ_le_succ hm
    cases s with
    | nil => cases h
    | cons c s =>
      by_cases hquote : c = '"'
      · subst hquote
        cases h
        rfl
      by_cases hescape : c = '\\'
      · subst hescape
        cases s with
        | nil => cases h
        | cons e s =>
          by_cases hunit : e = 'u'
          · subst hunit
            rw [readString?_unit, Option.bind_eq_some_iff] at h
            obtain ⟨⟨u, after⟩, hfound, h⟩ := h
            rw [List.cons_append, List.cons_append, readString?_unit, readUnit?_append w hfound,
              Option.bind_some, joinUnit_append w ⟨n, _, _, h⟩]
            exact ih h hm
          · rw [readString?_letter n done hunit, Option.bind_eq_some_iff] at h
            obtain ⟨d, hletter, h⟩ := h
            rw [List.cons_append, List.cons_append, readString?_letter m done hunit, hletter,
              Option.bind_some]
            exact ih h hm
      · rw [readString?_plain n done hquote hescape] at h
        rw [List.cons_append, readString?_plain m done hquote hescape]
        split at h
        · cases h
        · next hcontrol =>
          rw [if_neg hcontrol]
          exact ih h hm

/-! ## Numbers -/

theorem readMagnitude?_append {s rest : List Char} {x : Float} (w : List Char)
    (h : readMagnitude? s = some (x, rest)) (hstops : Spelling.Stops rest) (hne : rest ≠ []) :
    readMagnitude? (s ++ w) = some (x, rest ++ w) := by
  cases hscan : Decimal.scan s with
  | mk numeral after =>
    unfold readMagnitude? at h ⊢
    rw [hscan] at h
    dsimp only at h
    split at h
    · cases h
    · next hnumeral =>
      cases h
      rw [Decimal.scan_append w hscan hstops hne]
      dsimp only
      rw [if_neg hnumeral]

theorem readNumber?_of_ne {s : List Char} (h : ∀ more, s ≠ '-' :: more) :
    readNumber? s = readMagnitude? s := by
  unfold readNumber?
  split
  · exact absurd rfl (h _)
  · rfl

theorem exists_digit_of_readMagnitude? {s rest : List Char} {x : Float}
    (h : readMagnitude? s = some (x, rest)) :
    ∃ c more, s = c :: more ∧ Decimal.isDigit c = true := by
  cases s with
  | nil => cases h
  | cons c more =>
    refine ⟨c, more, rfl, ?_⟩
    by_contra hc
    have hwhole : (Decimal.scan (c :: more)).1.whole = [] := by
      rw [Decimal.scan_eq, List.takeWhile_cons_of_neg hc]
      split <;> rfl
    unfold readMagnitude? at h
    dsimp only at h
    rw [hwhole] at h
    cases h

/-- A number begins like one. -/
theorem begins_of_readNumber? {s rest : List Char} {x : Float}
    (h : readNumber? s = some (x, rest)) : ∃ c more, s = c :: more ∧ Begins c := by
  by_cases hminus : ∀ more, s ≠ '-' :: more
  · rw [readNumber?_of_ne hminus] at h
    obtain ⟨c, more, hs, hdigit⟩ := exists_digit_of_readMagnitude? h
    exact ⟨c, more, hs, Or.inr hdigit⟩
  · push Not at hminus
    obtain ⟨more, hs⟩ := hminus
    exact ⟨'-', more, hs, Or.inl rfl⟩

/-- **A number ends where something else follows.** -/
theorem readNumber?_append {s rest : List Char} {x : Float} (w : List Char)
    (h : readNumber? s = some (x, rest)) (hstops : Spelling.Stops rest) (hne : rest ≠ []) :
    readNumber? (s ++ w) = some (x, rest ++ w) := by
  by_cases hminus : ∀ more, s ≠ '-' :: more
  · rw [readNumber?_of_ne hminus] at h
    have hs : s ≠ [] := by
      rintro rfl
      cases h
    rw [readNumber?_of_ne (Text.append_ne_cons hs hminus w), readMagnitude?_append w h hstops hne]
  · push Not at hminus
    obtain ⟨more, rfl⟩ := hminus
    rw [readNumber?, Option.map_eq_some_iff] at h
    obtain ⟨⟨y, after⟩, hread, hx⟩ := h
    cases hx
    rw [List.cons_append, readNumber?, readMagnitude?_append w hread hstops hne]
    rfl

/-! ## Between tokens -/

theorem skipSpace_append {s more : List Char} {c : Char} (w : List Char)
    (h : skipSpace s = c :: more) : skipSpace (s ++ w) = c :: (more ++ w) := by
  have hne : s.dropWhile isSpace ≠ [] := by
    rw [← skipSpace, h]
    exact List.cons_ne_nil c more
  rw [skipSpace, (Text.run_append w hne).2, ← skipSpace, h, List.cons_append]

theorem skipSpace_append_of_ne {s : List Char} (w : List Char) (h : skipSpace s ≠ []) :
    skipSpace (s ++ w) = skipSpace s ++ w := by
  obtain ⟨c, more, hs⟩ := List.exists_cons_of_ne_nil h
  rw [skipSpace_append w hs, hs, List.cons_append]

/-- The text behind a value in a bracket: a comma is next, or the end of the bracket. -/
def Follows (rest : List Char) : Prop :=
  ∃ c more, skipSpace rest = c :: more ∧ (c = ',' ∨ c = ']' ∨ c = '\x7d')

theorem Follows.ne_nil {rest : List Char} (h : Follows rest) : rest ≠ [] := by
  rintro rfl
  obtain ⟨c, more, h, -⟩ := h
  cases h

theorem Follows.stops {rest : List Char} (h : Follows rest) : Spelling.Stops rest := by
  intro d hd
  obtain ⟨d', behind, rfl⟩ := List.exists_cons_of_ne_nil h.ne_nil
  obtain ⟨c, more, hskip, hc⟩ := h
  cases hd
  by_cases hspace : isSpace d = true
  · simp only [isSpace, Bool.or_eq_true, beq_iff_eq] at hspace
    rcases hspace with ((rfl | rfl) | rfl) | rfl <;> decide
  · rw [skipSpace_of_token (Bool.eq_false_iff.2 hspace), List.cons.injEq] at hskip
    obtain ⟨rfl, -⟩ := hskip
    rcases hc with rfl | rfl | rfl <;> decide

/-- The text of a value that ends with a delimiter of its own. -/
def Closes (s : List Char) : Prop := ∃ c more, s = c :: more ∧ (c = '\x7b' ∨ c = '[' ∨ c = '"')

/-! ## Values -/

/-- The words that are values. -/
def words : List (String × Json) := [("true", bool true), ("false", bool false), ("null", null)]

theorem readValue?_word {word : String} {value : Json} (h : (word, value) ∈ words) (n : Nat)
    (rest : List Char) : readValue? (n + 1) (word.toList ++ rest) = some (value, rest) := by
  simp only [words, List.mem_cons, Prod.mk.injEq, List.not_mem_nil, or_false] at h
  rcases h with ⟨rfl, rfl⟩ | ⟨rfl, rfl⟩ | ⟨rfl, rfl⟩ <;> rfl

/-- A value that does not close itself is a word or a number. -/
theorem readValue?_open {n : Nat} {s rest : List Char} {value : Json} (hs : ¬ Closes s)
    (h : readValue? (n + 1) s = some (value, rest)) :
    (∃ word, (word, value) ∈ words ∧ s = word.toList ++ rest) ∨
      ∃ x, readNumber? s = some (x, rest) ∧ value = number x := by
  rw [readValue?.eq_def] at h
  dsimp only at h
  split at h
  · exact absurd ⟨_, _, rfl, Or.inl rfl⟩ hs
  · exact absurd ⟨_, _, rfl, Or.inr (Or.inl rfl)⟩ hs
  · exact absurd ⟨_, _, rfl, Or.inr (Or.inr rfl)⟩ hs
  · split at h
    · next htrue =>
      cases h
      exact Or.inl ⟨"true", by simp [words], Text.afterPrefix?_eq_some_iff.1 htrue⟩
    · next hfalse _ =>
      cases h
      exact Or.inl ⟨"false", by simp [words], Text.afterPrefix?_eq_some_iff.1 hfalse⟩
    · next hnull _ _ =>
      cases h
      exact Or.inl ⟨"null", by simp [words], Text.afterPrefix?_eq_some_iff.1 hnull⟩
    · rw [Option.map_eq_some_iff] at h
      obtain ⟨⟨x, after⟩, hread, hvalue⟩ := h
      cases hvalue
      exact Or.inr ⟨x, hread, rfl⟩

/-- A word or a number ends where something else follows. -/
theorem readValue?_open_append {n : Nat} {s rest : List Char} {value : Json} (w : List Char)
    (hs : ¬ Closes s) (h : readValue? (n + 1) s = some (value, rest)) (hrest : Follows rest)
    (m : Nat) : readValue? (m + 1) (s ++ w) = some (value, rest ++ w) := by
  rcases readValue?_open hs h with ⟨word, hword, rfl⟩ | ⟨x, hread, rfl⟩
  · rw [List.append_assoc]
    exact readValue?_word hword m (rest ++ w)
  · obtain ⟨c, more, rfl, hc⟩ := begins_of_readNumber? hread
    have hread := readNumber?_append w hread hrest.stops hrest.ne_nil
    rw [List.cons_append] at hread ⊢
    rw [readValue?_of_begins hc, hread]
    rfl

theorem readValue?_quote (n : Nat) (s : List Char) :
    readValue? (n + 1) ('"' :: s) =
      (readString? (s.length + 1) [] s).map fun (t, after) => (text t, after) :=
  rfl

theorem readValue?_bracket (n : Nat) (s : List Char) :
    readValue? (n + 1) ('[' :: s) =
      match skipSpace s with
      | ']' :: after => some (array [], after)
      | more => readItems? n [] more :=
  rfl

theorem readValue?_brace (n : Nat) (s : List Char) :
    readValue? (n + 1) ('\x7b' :: s) =
      match skipSpace s with
      | '\x7d' :: after => some (object [], after)
      | more => readFields? n [] more :=
  rfl

theorem readValue?_bracket_iff {n : Nat} {s rest : List Char} {value : Json} :
    readValue? (n + 1) ('[' :: s) = some (value, rest) ↔
      (skipSpace s = ']' :: rest ∧ value = array []) ∨
        (∀ more, skipSpace s ≠ ']' :: more) ∧
          readItems? n [] (skipSpace s) = some (value, rest) := by
  rw [readValue?_bracket]
  split
  · next after hclosed => simp [hclosed, eq_comm, and_comm]
  · next hopen => rw [or_iff_right fun h => hopen rest h.1, and_iff_right hopen]

theorem readValue?_brace_iff {n : Nat} {s rest : List Char} {value : Json} :
    readValue? (n + 1) ('\x7b' :: s) = some (value, rest) ↔
      (skipSpace s = '\x7d' :: rest ∧ value = object []) ∨
        (∀ more, skipSpace s ≠ '\x7d' :: more) ∧
          readFields? n [] (skipSpace s) = some (value, rest) := by
  rw [readValue?_brace]
  split
  · next after hclosed => simp [hclosed, eq_comm, and_comm]
  · next hopen => rw [or_iff_right fun h => hopen rest h.1, and_iff_right hopen]

theorem readItems?_eq_some_iff {n : Nat} {done : List Json} {s rest : List Char} {value : Json} :
    readItems? (n + 1) done s = some (value, rest) ↔
      ∃ item after, readValue? n s = some (item, after) ∧
        ((∃ more, skipSpace after = ',' :: more ∧
            readItems? n (item :: done) (skipSpace more) = some (value, rest)) ∨
          skipSpace after = ']' :: rest ∧ value = array (item :: done).reverse) := by
  rw [readItems?.eq_def]
  dsimp only
  cases readValue? n s with
  | none => simp
  | some found =>
    obtain ⟨item, after⟩ := found
    dsimp only
    constructor
    · intro h
      refine ⟨item, after, rfl, ?_⟩
      split at h
      · next more hmore => exact Or.inl ⟨more, hmore, h⟩
      · next hmore =>
        cases h
        exact Or.inr ⟨hmore, rfl⟩
      · cases h
    · rintro ⟨item', after', hfound, ⟨more, hmore, h⟩ | ⟨hmore, rfl⟩⟩
      · cases hfound
        rw [hmore]
        exact h
      · cases hfound
        rw [hmore]
        rfl

theorem readFields?_eq_some_iff {n : Nat} {done : Fields Json} {s rest : List Char}
    {value : Json} :
    readFields? (n + 1) done s = some (value, rest) ↔
      ∃ more name colon before field after, s = '"' :: more ∧
        readString? (more.length + 1) [] more = some (name, colon) ∧
        skipSpace colon = ':' :: before ∧
        readValue? n (skipSpace before) = some (field, after) ∧
        ((∃ next, skipSpace after = ',' :: next ∧
            readFields? n (Fields.insert name field done) (skipSpace next) = some (value, rest)) ∨
          skipSpace after = '\x7d' :: rest ∧ value = object (Fields.insert name field done)) := by
  rw [readFields?.eq_def]
  dsimp only
  constructor
  · intro h
    split at h
    · next more =>
      split at h
      · cases h
      · next name colon hname =>
        split at h
        · next before hcolon =>
          split at h
          · cases h
          · next field after hfield =>
            refine ⟨more, name, colon, before, field, after, rfl, hname, hcolon, hfield, ?_⟩
            split at h
            · next next hnext => exact Or.inl ⟨next, hnext, h⟩
            · next hnext =>
              cases h
              exact Or.inr ⟨hnext, rfl⟩
            · cases h
        · cases h
    · cases h
  · rintro ⟨more, name, colon, before, field, after, rfl, hname, hcolon, hfield,
      ⟨next, hnext, h⟩ | ⟨hnext, rfl⟩⟩
    · simp only [hname, hcolon, hfield, hnext]
      exact h
    · simp only [hname, hcolon, hfield, hnext]

theorem readValue?_nil (n : Nat) : readValue? n [] = none := by
  cases n <;> rfl

theorem ne_nil_of_readItems? {n : Nat} {done : List Json} {s : List Char}
    {found : Json × List Char} (h : readItems? n done s = some found) : s ≠ [] := by
  rintro rfl
  cases n with
  | zero => cases h
  | succ n =>
    obtain ⟨item, after, hitem, -⟩ := readItems?_eq_some_iff.1 h
    rw [readValue?_nil] at hitem
    cases hitem

theorem ne_nil_of_readFields? {n : Nat} {done : Fields Json} {s : List Char}
    {found : Json × List Char} (h : readFields? n done s = some found) : s ≠ [] := by
  rintro rfl
  cases n <;> cases h

/-! ## The whole text

The fuel of the readers goes down with every value, item and field, so what is read with some fuel
is read in front of more text with as much of it. Each value in a bracket is followed there by what
ends it; only the outermost one has to end by itself.
-/

mutual

/-- **A value ends at its own end, or where something else follows.** -/
theorem readValue?_append {n m : Nat} {s rest : List Char} {value : Json} (w : List Char)
    (h : readValue? n s = some (value, rest)) (hend : Closes s ∨ Follows rest) (hm : n ≤ m) :
    readValue? m (s ++ w) = some (value, rest ++ w) := by
  match n, m, hm with
  | 0, _, _ => cases h
  | n + 1, m + 1, hm =>
    have hm : n ≤ m := Nat.le_of_succ_le_succ hm
    by_cases hs : Closes s
    · obtain ⟨c, more, rfl, rfl | rfl | rfl⟩ := hs
      · rw [List.cons_append]
        rcases readValue?_brace_iff.1 h with ⟨hclosed, rfl⟩ | ⟨hopen, hfields⟩
        · exact readValue?_brace_iff.2 (Or.inl ⟨skipSpace_append w hclosed, rfl⟩)
        · have hne := ne_nil_of_readFields? hfields
          refine readValue?_brace_iff.2 (Or.inr ?_)
          rw [skipSpace_append_of_ne w hne]
          exact ⟨Text.append_ne_cons hne hopen w, readFields?_append w hfields hm⟩
      · rw [List.cons_append]
        rcases readValue?_bracket_iff.1 h with ⟨hclosed, rfl⟩ | ⟨hopen, hitems⟩
        · exact readValue?_bracket_iff.2 (Or.inl ⟨skipSpace_append w hclosed, rfl⟩)
        · have hne := ne_nil_of_readItems? hitems
          refine readValue?_bracket_iff.2 (Or.inr ?_)
          rw [skipSpace_append_of_ne w hne]
          exact ⟨Text.append_ne_cons hne hopen w, readItems?_append w hitems hm⟩
      · rw [readValue?_quote, Option.map_eq_some_iff] at h
        obtain ⟨⟨t, after⟩, hstring, hvalue⟩ := h
        cases hvalue
        rw [List.cons_append, readValue?_quote, readString?_append w hstring, Option.map_some]
        rw [List.length_append]
        omega
    · exact readValue?_open_append w hs h (hend.resolve_left hs) m

theorem readItems?_append {n m : Nat} {done : List Json} {s rest : List Char} {value : Json}
    (w : List Char) (h : readItems? n done s = some (value, rest)) (hm : n ≤ m) :
    readItems? m done (s ++ w) = some (value, rest ++ w) := by
  match n, m, hm with
  | 0, _, _ => cases h
  | n + 1, m + 1, hm =>
    have hm : n ≤ m := Nat.le_of_succ_le_succ hm
    obtain ⟨item, after, hitem, ⟨more, hmore, h⟩ | ⟨hmore, rfl⟩⟩ := readItems?_eq_some_iff.1 h
    · have hfollows : Follows after := ⟨',', more, hmore, Or.inl rfl⟩
      refine readItems?_eq_some_iff.2 ⟨item, after ++ w,
        readValue?_append w hitem (Or.inr hfollows) hm,
        Or.inl ⟨more ++ w, skipSpace_append w hmore, ?_⟩⟩
      rw [skipSpace_append_of_ne w (ne_nil_of_readItems? h)]
      exact readItems?_append w h hm
    · have hfollows : Follows after := ⟨']', rest, hmore, Or.inr (Or.inl rfl)⟩
      exact readItems?_eq_some_iff.2 ⟨item, after ++ w,
        readValue?_append w hitem (Or.inr hfollows) hm, Or.inr ⟨skipSpace_append w hmore, rfl⟩⟩

theorem readFields?_append {n m : Nat} {done : Fields Json} {s rest : List Char} {value : Json}
    (w : List Char) (h : readFields? n done s = some (value, rest)) (hm : n ≤ m) :
    readFields? m done (s ++ w) = some (value, rest ++ w) := by
  match n, m, hm with
  | 0, _, _ => cases h
  | n + 1, m + 1, hm =>
    have hm : n ≤ m := Nat.le_of_succ_le_succ hm
    obtain ⟨more, name, colon, before, field, after, rfl, hname, hcolon, hfield, hbehind⟩ :=
      readFields?_eq_some_iff.1 h
    have hfollows : Follows after := by
      rcases hbehind with ⟨next, hnext, -⟩ | ⟨hnext, -⟩
      · exact ⟨',', next, hnext, Or.inl rfl⟩
      · exact ⟨'\x7d', rest, hnext, Or.inr (Or.inr rfl)⟩
    have hbefore : skipSpace before ≠ [] := by
      intro hnil
      rw [hnil, readValue?_nil] at hfield
      cases hfield
    refine readFields?_eq_some_iff.2 ⟨more ++ w, name, colon ++ w, before ++ w, field, after ++ w,
      rfl, readString?_append w hname ?_, skipSpace_append w hcolon, ?_, ?_⟩
    · rw [List.length_append]
      omega
    · rw [skipSpace_append_of_ne w hbefore]
      exact readValue?_append w hfield (Or.inr hfollows) hm
    · rcases hbehind with ⟨next, hnext, h⟩ | ⟨hnext, rfl⟩
      · refine Or.inl ⟨next ++ w, skipSpace_append w hnext, ?_⟩
        rw [skipSpace_append_of_ne w (ne_nil_of_readFields? h)]
        exact readFields?_append w h hm
      · exact Or.inr ⟨skipSpace_append w hnext, rfl⟩

end

/-- A value does not begin with a blank. -/
theorem readValue?_blank {c : Char} (hc : Text.isBlank c = true) (n : Nat) (s : List Char) :
    readValue? n (c :: s) = none := by
  have hne : ∀ d, Text.isBlank d = false → c ≠ d := by
    rintro d hd rfl
    rw [hd] at hc
    cases hc
  cases n with
  | zero => rfl
  | succ n =>
    have hopen : ¬ Closes (c :: s) := by
      rintro ⟨d, more, heq, hd⟩
      obtain ⟨rfl, -⟩ := List.cons.inj heq
      rcases hd with rfl | rfl | rfl <;> exact hne _ (by decide) rfl
    cases hread : readValue? (n + 1) (c :: s) with
    | none => rfl
    | some found =>
      obtain ⟨value, rest⟩ := found
      rcases readValue?_open hopen hread with ⟨word, hword, heq⟩ | ⟨x, hnumber, -⟩
      · simp only [words, List.mem_cons, Prod.mk.injEq, List.not_mem_nil, or_false] at hword
        rcases hword with ⟨rfl, -⟩ | ⟨rfl, -⟩ | ⟨rfl, -⟩ <;>
          exact absurd (List.cons.inj heq).1 (hne _ (by decide))
      · obtain ⟨d, more, heq, hd⟩ := begins_of_readNumber? hnumber
        obtain ⟨rfl, -⟩ := List.cons.inj heq
        rcases hd with rfl | hdigit
        · exact absurd rfl (hne '-' (by decide))
        · rw [Decimal.isBlank_of_isDigit hdigit] at hc
          cases hc

theorem skipSpace_append_of_all {before : List Char} (h : before.all isSpace = true)
    (s : List Char) : skipSpace (before ++ s) = skipSpace s :=
  List.dropWhile_append_of_pos (List.all_eq_true.1 h)

theorem isEmpty_skipSpace (s : List Char) : (skipSpace s).isEmpty = s.all isSpace := by
  rw [Bool.eq_iff_iff, List.isEmpty_iff, skipSpace, List.dropWhile_eq_nil_iff, List.all_eq_true]

/-- **An object between other characters** is read exactly if these are spaces of JSON; before it
they are blanks at least. -/
theorem read?_surrounded {before after more : List Char} {value : Json}
    (hread : read? ('\x7b' :: more) = some value) (hbefore : Text.allBlank before = true) :
    read? (before ++ '\x7b' :: more ++ after) =
      if (before ++ after).all isSpace then some value else none := by
  cases hspaces : before.all isSpace with
  | true =>
    unfold read? at hread ⊢
    rw [List.append_assoc, skipSpace_append_of_all hspaces, List.cons_append,
      skipSpace_of_token rfl, List.all_append, hspaces, Bool.true_and]
    rw [skipSpace_of_token rfl] at hread
    split at hread
    · next found rest hvalue =>
      rw [← isEmpty_skipSpace]
      split at hread
      · next hrest =>
        cases hread
        rw [isEmpty_skipSpace] at hrest
        have hm : 2 * ('\x7b' :: more).length + 2 ≤
            2 * (before ++ '\x7b' :: (more ++ after)).length + 2 := by
          simp only [List.length_append, List.length_cons]
          omega
        have hsame := readValue?_append after hvalue (Or.inl ⟨_, _, rfl, Or.inl rfl⟩) hm
        rw [List.cons_append] at hsame
        rw [hsame]
        dsimp only
        rw [skipSpace_append_of_all hrest]
      · cases hread
    · cases hread
  | false =>
    -- What the spaces in front end at is a blank, and no value begins with one.
    rw [List.all_append, hspaces, Bool.false_and, if_neg Bool.false_ne_true]
    have hne : skipSpace before ≠ [] := by
      intro hnil
      rw [← isEmpty_skipSpace, hnil] at hspaces
      cases hspaces
    obtain ⟨c, behind, hskip⟩ := List.exists_cons_of_ne_nil hne
    have hc : Text.isBlank c = true := by
      have hmem : c ∈ skipSpace before := hskip ▸ List.mem_cons_self
      exact List.all_eq_true.1 hbefore c ((List.dropWhile_suffix isSpace).mem hmem)
    unfold read?
    rw [List.append_assoc, skipSpace_append _ hskip, readValue?_blank hc]

end Json

end RequestRunner
