import RequestRunner.Json.Printer
import RequestRunner.Json.Reader
import RequestRunner.Proofs.Decimal.Layout

/-!
# Reading what was printed

`Json.reread` is a value as it comes back from its text: numbers are what their texts are read as,
what is not finite has become null, and of the fields with one name the last one counts. Every value
has a text that is read, also one that no copy would be: `Json.read?_pretty` says that reading the
indented text of a value gives the reread value. The names of an object are not touched
(`Json.names_rereadFields`).
-/

set_option autoImplicit false

namespace RequestRunner.Json

/-! ## Strings -/

theorem natOfBase?_hex4 : ∀ n < 0x20, (hex4 n).length = 4 ∧
    Decimal.natOfBase? 16 (hex4 n) = some n := by
  decide

theorem readUnit?_hex4 {n : Nat} (hn : n < 0x20) (rest : List Char) :
    readUnit? (hex4 n ++ rest) = some (n, rest) := by
  obtain ⟨hlength, hvalue⟩ := natOfBase?_hex4 n hn
  match hdigits : hex4 n, hlength with
  | [a, b, c, d], _ =>
    rw [hdigits] at hvalue
    simp [readUnit?, hvalue]

theorem joinUnit_control {n : Nat} (hn : n < 0x20) (rest : List Char) :
    joinUnit n rest = (Char.ofNat n, rest) := by
  unfold joinUnit
  rw [if_neg (by omega), if_neg (by omega)]

theorem eq_ofNat {c : Char} {n : Nat} (h : c.toNat = n) : c = Char.ofNat n := by
  rw [← h, Char.ofNat_toNat]

/-- An escaped character is read in one step. -/
theorem readString?_escape (c : Char) (n : Nat) (done rest : List Char) :
    readString? (n + 1) done (escape c ++ rest) = readString? n (c :: done) rest := by
  unfold escape
  dsimp only
  split
  · next hc => subst hc; rfl
  · next hquote =>
    split
    · next hc => subst hc; rfl
    · next hslash =>
      split
      · next hc => rw [eq_ofNat hc]; rfl
      · split
        · next hc => rw [eq_ofNat hc]; rfl
        · split
          · next hc => rw [eq_ofNat hc]; rfl
          · split
            · next hc => rw [eq_ofNat hc]; rfl
            · split
              · next hc => rw [eq_ofNat hc]; rfl
              · split
                · next hcontrol =>
                  simp [readString?, readUnit?_hex4 hcontrol, joinUnit_control hcontrol,
                    Char.ofNat_toNat]
                · next hplain =>
                  rw [List.singleton_append, readString?.eq_def]
                  simp [hquote, hslash, hplain]

theorem length_escape_pos (c : Char) : 0 < (escape c).length := by
  unfold escape
  dsimp only
  repeat' split
  all_goals exact Nat.succ_pos _

/-- A quoted string is read up to its closing delimiter. -/
theorem readString?_escaped (s : List Char) {n : Nat} (hn : s.length < n) (done rest : List Char) :
    readString? n done (s.flatMap escape ++ '"' :: rest) =
      some (String.ofList (done.reverse ++ s), rest) := by
  induction s generalizing n done with
  | nil =>
    obtain ⟨n, rfl⟩ : ∃ k, n = k + 1 := ⟨n - 1, by simp at hn; omega⟩
    simp [readString?]
  | cons c s ih =>
    obtain ⟨n, rfl⟩ : ∃ k, n = k + 1 := ⟨n - 1, by simp at hn; omega⟩
    rw [List.flatMap_cons, List.append_assoc, readString?_escape,
      ih (by simpa using hn), List.reverse_cons, List.append_assoc]
    rfl

theorem length_le_flatMap_escape (s : List Char) : s.length ≤ (s.flatMap escape).length := by
  induction s with
  | nil => exact Nat.le_refl 0
  | cons c s ih =>
    have hpos := length_escape_pos c
    rw [List.flatMap_cons, List.length_append, List.length_cons]
    omega

theorem toList_quote (s : String) :
    (quote s).toList = '"' :: (s.toList.flatMap escape ++ ['"']) := by
  rw [quote, String.toList_ofList]

/-- A quoted string is read behind its opening delimiter. -/
theorem readString?_quoted (s : String) (rest : List Char) :
    readString? ((s.toList.flatMap escape ++ '"' :: rest).length + 1) []
      (s.toList.flatMap escape ++ '"' :: rest) = some (s, rest) := by
  have hlength := length_le_flatMap_escape s.toList
  have hfuel : s.toList.length < (s.toList.flatMap escape ++ '"' :: rest).length + 1 := by
    rw [List.length_append]
    omega
  rw [readString?_escaped s.toList hfuel, List.reverse_nil, List.nil_append, String.ofList_toList]

/-! ## Numbers -/

open Decimal (Spelling)

theorem readMagnitude?_text {s : Spelling} (h : s.Plain) {rest : List Char}
    (hrest : Spelling.Stops rest) :
    readMagnitude? (s.text ++ rest) = some (s.numeral.value, rest) := by
  have hwhole : s.numeral.whole.isEmpty = false := List.isEmpty_eq_false_iff.2 h.whole.ne_nil
  have hplain : (s.numeral.whole.length == 1 || s.numeral.whole.head? != some '0') = true := by
    rw [Bool.or_eq_true, beq_iff_eq, bne_iff_ne]
    exact h.leading
  have hfraction : (s.numeral.fraction == some []) = false := by
    rw [beq_eq_false_iff_ne]
    exact fun hnil => (h.fraction [] hnil).ne_nil rfl
  rw [readMagnitude?, Spelling.scan_text h.toComplete hrest]
  simp [hwhole, hplain, hfraction]

/-- The character begins the text of a number. -/
def Begins (c : Char) : Prop := c = '-' ∨ Decimal.isDigit c = true

theorem Begins.ne {c d : Char} (hc : Begins c) (hminus : d ≠ '-')
    (hdigit : Decimal.isDigit d = false) : c ≠ d := by
  rintro rfl
  rcases hc with hc | hc
  · exact hminus hc
  · rw [hdigit] at hc
    cases hc

/-- The text of a finite number is read, and what it is read as does not depend on what comes behind
it. -/
theorem exists_readNumber?_text {x : Float} (hfinite : (x.isNaN || x.isInf) = false) :
    (∃ c more, (Decimal.text x).toList = c :: more ∧ Begins c) ∧
      ∃ y, ∀ rest, Spelling.Stops rest →
        readNumber? ((Decimal.text x).toList ++ rest) = some (y, rest) := by
  obtain ⟨negative, s, hplain, htext⟩ := Decimal.exists_spelling_of_text hfinite
  obtain ⟨c, more, hhead, hdigit⟩ := Spelling.text_begins hplain.toComplete
  rw [htext]
  cases negative with
  | true =>
    refine ⟨⟨'-', s.text, rfl, Or.inl rfl⟩, -s.numeral.value, fun rest hrest => ?_⟩
    change (readMagnitude? (s.text ++ rest)).map _ = _
    rw [readMagnitude?_text hplain hrest]
    rfl
  | false =>
    refine ⟨⟨c, more, hhead, Or.inr hdigit⟩, s.numeral.value, fun rest hrest => ?_⟩
    have hminus : c ≠ '-' := by
      rintro rfl
      cases hdigit
    have hread := readMagnitude?_text hplain hrest
    change readNumber? (s.text ++ rest) = _
    rw [hhead, List.cons_append] at hread ⊢
    rw [← hread, readNumber?]
    simp [hminus]

/-- A number as it comes back from its text. -/
def rereadNumber (x : Float) : Json :=
  if x.isNaN || x.isInf then null
  else number (((readNumber? (Decimal.text x).toList).map (·.1)).getD x)

/-! ## Values -/

mutual

/-- The value as it comes back from its text. -/
def reread : Json → Json
  | null => null
  | bool b => bool b
  | number x => rereadNumber x
  | text s => text s
  | array items => array (rereadItems items)
  | object fields => object (Fields.ofEntries (rereadFields fields))

/-- The items of an array as they come back. -/
def rereadItems : List Json → List Json
  | [] => []
  | item :: rest => reread item :: rereadItems rest

/-- The fields of an object as they come back. -/
def rereadFields : List (String × Json) → List (String × Json)
  | [] => []
  | (name, value) :: rest => (name, reread value) :: rereadFields rest

end

theorem names_rereadFields (fields : List (String × Json)) :
    Fields.names (rereadFields fields) = Fields.names fields := by
  induction fields with
  | nil => rfl
  | cons field rest ih => exact congrArg (field.1 :: ·) ih

/-- What may stand behind a printed value: the end, a comma or the next line. -/
def Ends (rest : List Char) : Prop := ∀ c, rest.head? = some c → c = ',' ∨ c = '\n'

theorem Ends.stops {rest : List Char} (h : Ends rest) : Spelling.Stops rest := by
  intro c hc
  rcases h c hc with rfl | rfl <;> decide

theorem ends_nil : Ends [] := nofun

/-- A value that begins like a number is read as one. -/
theorem readValue?_of_begins {c : Char} (hc : Begins c) (n : Nat) (more : List Char) :
    readValue? (n + 1) (c :: more) =
      (readNumber? (c :: more)).map fun (x, after) => (number x, after) := by
  have hbrace : c ≠ '\x7b' := hc.ne (by decide) (by decide)
  have hbracket : c ≠ '[' := hc.ne (by decide) (by decide)
  have hquote : c ≠ '"' := hc.ne (by decide) (by decide)
  have ht : c ≠ 't' := hc.ne (by decide) (by decide)
  have hf : c ≠ 'f' := hc.ne (by decide) (by decide)
  have hn : c ≠ 'n' := hc.ne (by decide) (by decide)
  rw [readValue?.eq_def]
  simp [hbrace, hbracket, hquote, Text.afterPrefix?, ht.symm, hf.symm, hn.symm]

/-- A printed number is read as the reread number. -/
theorem readValue?_number (x : Float) (n : Nat) {rest : List Char} (hrest : Ends rest) :
    readValue? (n + 1) ((numberText x).toList ++ rest) = some (rereadNumber x, rest) := by
  rw [numberText, rereadNumber]
  cases hfinite : x.isNaN || x.isInf with
  | true =>
    rw [if_pos rfl, if_pos rfl]
    rfl
  | false =>
    obtain ⟨⟨c, more, hhead, hbegins⟩, y, hread⟩ := exists_readNumber?_text hfinite
    -- it is read alike alone, as the reread number is, and here
    have halone := hread [] ends_nil.stops
    have hhere := hread rest hrest.stops
    rw [List.append_nil] at halone
    rw [if_neg Bool.false_ne_true, if_neg Bool.false_ne_true, halone]
    rw [hhead, List.cons_append] at hhere ⊢
    rw [readValue?_of_begins hbegins, hhere]
    rfl

/-! ## Lines -/

/-- The next line, up to the margin of a depth. -/
def margin (depth : Nat) : List Char := '\n' :: List.replicate (2 * depth) ' '

/-- The lines of a bracket, joined by commas. -/
def lines (depth : Nat) (items : List String) : List Char :=
  List.intercalate (',' :: margin (depth + 1)) (items.map String.toList)

theorem lines_singleton (depth : Nat) (item : String) : lines depth [item] = item.toList := by
  simp [lines, List.intercalate]

theorem lines_cons_cons (depth : Nat) (item next : String) (more : List String) :
    lines depth (item :: next :: more) =
      item.toList ++ ',' :: (margin (depth + 1) ++ lines depth (next :: more)) := by
  rw [lines, List.map_cons, List.map_cons, List.intercalate_cons_cons, List.append_assoc]
  rfl

theorem toList_bracketLines_nil (opening closing : String) (depth : Nat) :
    (bracketLines opening closing depth []).toList = opening.toList ++ closing.toList := by
  simp [bracketLines]

theorem toList_bracketLines (opening closing : String) (depth : Nat) (item : String)
    (more : List String) :
    (bracketLines opening closing depth (item :: more)).toList =
      opening.toList ++ (margin (depth + 1) ++ (lines depth (item :: more) ++
        (margin depth ++ closing.toList))) := by
  simp [bracketLines, margin, lines, String.toList_intercalate]

theorem skipSpace_of_token {c : Char} (hc : isSpace c = false) (s : List Char) :
    skipSpace (c :: s) = c :: s := by
  rw [skipSpace, List.dropWhile_cons_of_neg (Bool.eq_false_iff.1 hc)]

theorem skipSpace_blank (s : List Char) : skipSpace (' ' :: s) = skipSpace s := rfl

theorem skipSpace_margin (depth : Nat) (s : List Char) :
    skipSpace (margin depth ++ s) = skipSpace s := by
  rw [skipSpace, margin, List.cons_append, List.dropWhile_cons_of_pos (by decide),
    List.dropWhile_append_of_pos]
  · rfl
  · intro c hc
    rw [List.eq_of_mem_replicate hc]
    decide

/-- The text starts with something that is no blank and closes nothing. -/
def Opens (s : List Char) : Prop :=
  ∃ c more, s = c :: more ∧ isSpace c = false ∧ c ≠ ']' ∧ c ≠ '\x7d'

theorem Opens.skipSpace {s : List Char} (h : Opens s) (rest : List Char) :
    skipSpace (s ++ rest) = s ++ rest := by
  obtain ⟨c, more, rfl, hspace, -⟩ := h
  exact skipSpace_of_token hspace (more ++ rest)

theorem opens_quote (name : String) (more : List Char) : Opens ((quote name).toList ++ more) := by
  rw [toList_quote]
  exact ⟨'"', _, rfl, by decide, by decide, by decide⟩

theorem opens_of_begins {c : Char} (hc : Begins c) (more : List Char) : Opens (c :: more) := by
  have hspace : c ≠ ' ' := hc.ne (by decide) (by decide)
  have htab : c ≠ '\t' := hc.ne (by decide) (by decide)
  have hfeed : c ≠ '\n' := hc.ne (by decide) (by decide)
  have hreturn : c ≠ '\r' := hc.ne (by decide) (by decide)
  refine ⟨c, more, rfl, ?_, hc.ne (by decide) (by decide), hc.ne (by decide) (by decide)⟩
  simp [isSpace, hspace, htab, hfeed, hreturn]

theorem opens_null : Opens "null".toList :=
  ⟨'n', ['u', 'l', 'l'], by decide, by decide, by decide, by decide⟩

theorem opens_numberText (x : Float) : Opens (numberText x).toList := by
  rw [numberText]
  cases hfinite : x.isNaN || x.isInf with
  | true => exact opens_null
  | false =>
    obtain ⟨⟨c, more, hhead, hbegins⟩, -⟩ := exists_readNumber?_text hfinite
    rw [if_neg Bool.false_ne_true, hhead]
    exact opens_of_begins hbegins more

theorem prefix_bracketLines (opening closing : String) (depth : Nat) (items : List String) :
    opening.toList <+: (bracketLines opening closing depth items).toList := by
  cases items with
  | nil =>
    rw [toList_bracketLines_nil]
    exact List.prefix_append _ _
  | cons item more =>
    rw [toList_bracketLines]
    exact List.prefix_append _ _

theorem opens_bracketLines {opening closing : String} {c : Char} (hopening : opening.toList = [c])
    (hc : isSpace c = false ∧ c ≠ ']' ∧ c ≠ '\x7d') (depth : Nat) (items : List String) :
    Opens (bracketLines opening closing depth items).toList := by
  obtain ⟨more, hmore⟩ := prefix_bracketLines opening closing depth items
  rw [hopening] at hmore
  exact ⟨c, more, hmore.symm, hc⟩

theorem opens_prettyAt (value : Json) (depth : Nat) : Opens (prettyAt depth value).toList := by
  cases value with
  | null => exact opens_null
  | bool b =>
    cases b with
    | false => exact ⟨'f', ['a', 'l', 's', 'e'], by simp [prettyAt], by decide⟩
    | true => exact ⟨'t', ['r', 'u', 'e'], by simp [prettyAt], by decide⟩
  | number x => exact opens_numberText x
  | text s => simpa [prettyAt] using opens_quote s []
  | array items => exact opens_bracketLines rfl (by decide) depth _
  | object fields => exact opens_bracketLines rfl (by decide) depth _

/-! ## One step of the reader -/

theorem readValue?_array {s : List Char} (hs : Opens s) (n depth : Nat) (rest : List Char) :
    readValue? (n + 1) ('[' :: (margin depth ++ (s ++ rest))) = readItems? n [] (s ++ rest) := by
  obtain ⟨c, more, rfl, -, hbracket, -⟩ := id hs
  rw [readValue?.eq_def]
  simp only [skipSpace_margin, hs.skipSpace]
  simp [hbracket]

theorem readValue?_object {s : List Char} (hs : Opens s) (n depth : Nat) (rest : List Char) :
    readValue? (n + 1) ('\x7b' :: (margin depth ++ (s ++ rest))) =
      readFields? n [] (s ++ rest) := by
  obtain ⟨c, more, rfl, -, -, hbrace⟩ := id hs
  rw [readValue?.eq_def]
  simp only [skipSpace_margin, hs.skipSpace]
  simp [hbrace]

theorem readItems?_last {n depth : Nat} {s rest : List Char} {item : Json} (done : List Json)
    (h : readValue? n s = some (item, margin depth ++ ']' :: rest)) :
    readItems? (n + 1) done s = some (array (item :: done).reverse, rest) := by
  have hbracket := skipSpace_of_token (c := ']') rfl
  rw [readItems?, h]
  simp only [skipSpace_margin, hbracket]

theorem readItems?_next {n depth : Nat} {s t rest : List Char} {item : Json} (done : List Json)
    (ht : Opens t) (h : readValue? n s = some (item, ',' :: (margin depth ++ (t ++ rest)))) :
    readItems? (n + 1) done s = readItems? n (item :: done) (t ++ rest) := by
  have hcomma := skipSpace_of_token (c := ',') rfl
  rw [readItems?, h]
  simp only [hcomma, skipSpace_margin, ht.skipSpace]

theorem readFields?_last {n depth : Nat} {s rest : List Char} {name : String} {value : Json}
    (done : Fields Json) (hs : Opens s) (more : List Char)
    (h : readValue? n (s ++ more) = some (value, margin depth ++ '\x7d' :: rest)) :
    readFields? (n + 1) done ((quote name).toList ++ ':' :: ' ' :: (s ++ more)) =
      some (object (Fields.insert name value done), rest) := by
  have hcolon := skipSpace_of_token (c := ':') rfl
  have hbrace := skipSpace_of_token (c := '\x7d') rfl
  rw [toList_quote, List.cons_append, List.append_assoc, List.singleton_append, readFields?]
  simp only [readString?_quoted, hcolon, skipSpace_blank, hs.skipSpace, h, skipSpace_margin,
    hbrace]

theorem readFields?_next {n depth : Nat} {s t rest : List Char} {name : String} {value : Json}
    (done : Fields Json) (hs : Opens s) (ht : Opens t) (more : List Char)
    (h : readValue? n (s ++ more) = some (value, ',' :: (margin depth ++ (t ++ rest)))) :
    readFields? (n + 1) done ((quote name).toList ++ ':' :: ' ' :: (s ++ more)) =
      readFields? n (Fields.insert name value done) (t ++ rest) := by
  have hcolon := skipSpace_of_token (c := ':') rfl
  have hcomma := skipSpace_of_token (c := ',') rfl
  rw [toList_quote, List.cons_append, List.append_assoc, List.singleton_append, readFields?]
  simp only [readString?_quoted, hcolon, skipSpace_blank, hs.skipSpace, h, hcomma, skipSpace_margin,
    ht.skipSpace]

/-! ## The whole text

A value and the items in it take turns with the fuel, so twice the length of a text is enough. Every
item but the last one is followed by a comma and the margin of the next one; the last one is followed
by the margin of the closing bracket.
-/

theorem readValue?_text (s : String) (n : Nat) (rest : List Char) :
    readValue? (n + 1) ((quote s).toList ++ rest) = some (text s, rest) := by
  rw [toList_quote, List.cons_append, List.append_assoc, List.singleton_append, readValue?.eq_def]
  simp only [readString?_quoted, Option.map_some]

theorem length_pos_of_opens {s : List Char} (h : Opens s) : 0 < s.length := by
  obtain ⟨c, more, rfl, -⟩ := h
  exact Nat.succ_pos _

theorem Opens.append {s : List Char} (h : Opens s) (rest : List Char) : Opens (s ++ rest) := by
  obtain ⟨c, more, rfl, hc⟩ := h
  exact ⟨c, more ++ rest, rfl, hc⟩

theorem opens_lines {item : String} (h : Opens item.toList) (depth : Nat) (more : List String) :
    Opens (lines depth (item :: more)) := by
  cases more with
  | nil =>
    rw [lines_singleton]
    exact h
  | cons next more =>
    rw [lines_cons_cons]
    exact h.append _

theorem ends_margin (depth : Nat) (s : List Char) : Ends (margin depth ++ s) := by
  intro c hc
  injection hc with hc
  exact Or.inr hc.symm

theorem ends_comma (s : List Char) : Ends (',' :: s) := by
  intro c hc
  injection hc with hc
  exact Or.inl hc.symm

/-- The two margins and brackets around printed lines leave fuel for reading the lines. -/
theorem fuel_lines {opening closing item : String} {more : List String} {depth n : Nat}
    (hopening : opening.toList.length = 1)
    (hn : 2 * (bracketLines opening closing depth (item :: more)).toList.length ≤ n + 1) :
    2 * (lines depth (item :: more)).length < n := by
  rw [toList_bracketLines] at hn
  simp only [List.length_append, margin, List.length_cons] at hn
  omega

/-- The written form of a field. -/
theorem toList_field (name value : String) :
    (quote name ++ ": " ++ value).toList = (quote name).toList ++ ':' :: ' ' :: value.toList := by
  simp

theorem opens_field (name value : String) : Opens (quote name ++ ": " ++ value).toList := by
  rw [toList_field]
  exact opens_quote name _

mutual

/-- **A printed value is read as the reread value.** -/
theorem readValue?_prettyAt : ∀ (value : Json) (depth n : Nat) (rest : List Char),
    2 * (prettyAt depth value).toList.length ≤ n + 1 → Ends rest →
    readValue? (n + 1) ((prettyAt depth value).toList ++ rest) = some (value.reread, rest)
  | null => by
    intro depth n rest hn hrest
    rw [prettyAt]
    rfl
  | bool b => by
    intro depth n rest hn hrest
    rw [prettyAt]
    cases b <;> rfl
  | number x => by
    intro depth n rest hn hrest
    exact readValue?_number x n hrest
  | text s => by
    intro depth n rest hn hrest
    exact readValue?_text s n rest
  | array items => by
    intro depth n rest hn hrest
    have hread := readItems?_lines items depth n [] rest
    rw [prettyAt] at hn ⊢
    cases items with
    | nil =>
      rw [prettyItems, toList_bracketLines_nil]
      rfl
    | cons item more =>
      have hopens := opens_lines (opens_prettyAt item (depth + 1)) depth (prettyItems depth more)
      rw [prettyItems] at hn hread ⊢
      simp only [toList_bracketLines, List.append_assoc]
      exact (readValue?_array hopens n _ _).trans (hread nofun (fuel_lines (by simp) hn))
  | object fields => by
    intro depth n rest hn hrest
    have hread := readFields?_lines fields depth n [] rest
    rw [prettyAt] at hn ⊢
    cases fields with
    | nil =>
      rw [prettyFields, toList_bracketLines_nil]
      rfl
    | cons field more =>
      obtain ⟨name, value⟩ := field
      have hopens := opens_lines (opens_field name (prettyAt (depth + 1) value)) depth
        (prettyFields depth more)
      rw [prettyFields] at hn hread ⊢
      simp only [toList_bracketLines, List.append_assoc]
      exact (readValue?_object hopens n _ _).trans (hread nofun (fuel_lines (by simp) hn))

/-- Printed items are read one after the other. -/
theorem readItems?_lines : ∀ (items : List Json) (depth n : Nat) (done : List Json)
    (rest : List Char), items ≠ [] → 2 * (lines depth (prettyItems depth items)).length < n →
    readItems? n done (lines depth (prettyItems depth items) ++ (margin depth ++ ']' :: rest)) =
      some (array (done.reverse ++ rereadItems items), rest)
  | [] => by
    intro depth n done rest hne
    exact absurd rfl hne
  | item :: more => by
    intro depth n done rest hne hn
    have hitem := readValue?_prettyAt item (depth + 1)
    have hmore := readItems?_lines more depth
    have hpos := length_pos_of_opens (opens_prettyAt item (depth + 1))
    cases more with
    | nil =>
      rw [prettyItems, prettyItems, lines_singleton] at hn ⊢
      obtain ⟨n, rfl⟩ : ∃ k, n = k + 2 := ⟨n - 2, by omega⟩
      rw [readItems?_last done (hitem n _ (by omega) (ends_margin _ _)), List.reverse_cons]
      rfl
    | cons next more =>
      have hopens := opens_lines (opens_prettyAt next (depth + 1)) depth (prettyItems depth more)
      rw [prettyItems, prettyItems, lines_cons_cons] at hn ⊢
      rw [prettyItems] at hmore
      simp only [List.length_append, List.length_cons] at hn
      obtain ⟨n, rfl⟩ : ∃ k, n = k + 2 := ⟨n - 2, by omega⟩
      simp only [List.append_assoc, List.cons_append]
      rw [readItems?_next done hopens (hitem n _ (by omega) (ends_comma _)),
        hmore (n + 1) _ rest nofun (by omega), List.reverse_cons, List.append_assoc]
      rfl

/-- Printed fields are read one after the other. -/
theorem readFields?_lines : ∀ (fields : List (String × Json)) (depth n : Nat)
    (done : Fields Json) (rest : List Char), fields ≠ [] →
    2 * (lines depth (prettyFields depth fields)).length < n →
    readFields? n done
        (lines depth (prettyFields depth fields) ++ (margin depth ++ '\x7d' :: rest)) =
      some (object ((rereadFields fields).foldl (fun fields (name, value) =>
        Fields.insert name value fields) done), rest)
  | [] => by
    intro depth n done rest hne
    exact absurd rfl hne
  | (name, value) :: more => by
    intro depth n done rest hne hn
    have hvalue := readValue?_prettyAt value (depth + 1)
    have hmore := readFields?_lines more depth
    have hs := opens_prettyAt value (depth + 1)
    have hpos := length_pos_of_opens hs
    cases more with
    | nil =>
      rw [prettyFields, prettyFields, lines_singleton, toList_field] at hn ⊢
      simp only [List.length_append, List.length_cons] at hn
      obtain ⟨n, rfl⟩ : ∃ k, n = k + 2 := ⟨n - 2, by omega⟩
      simp only [List.append_assoc, List.cons_append]
      rw [readFields?_last done hs _ (hvalue n _ (by omega) (ends_margin _ _))]
      rfl
    | cons next more =>
      obtain ⟨following, second⟩ := next
      have hopens := opens_lines (opens_field following (prettyAt (depth + 1) second)) depth
        (prettyFields depth more)
      rw [prettyFields, prettyFields, lines_cons_cons, toList_field] at hn ⊢
      rw [prettyFields] at hmore
      simp only [List.length_append, List.length_cons] at hn
      obtain ⟨n, rfl⟩ : ∃ k, n = k + 2 := ⟨n - 2, by omega⟩
      simp only [List.append_assoc, List.cons_append]
      rw [readFields?_next done hs hopens _ (hvalue n _ (by omega) (ends_comma _)),
        hmore (n + 1) _ rest nofun (by omega)]
      rfl

end

/-- **Reading the indented text of a value gives the reread value.** -/
theorem read?_pretty (value : Json) : read? (value.pretty ++ "\n").toList = some value.reread := by
  have hends : Ends ['\n'] := fun c hc => by
    injection hc with hc
    exact Or.inr hc.symm
  have htext : (value.pretty ++ "\n").toList = (prettyAt 0 value).toList ++ ['\n'] := by
    simp [pretty]
  have hread := readValue?_prettyAt value 0 (2 * (value.pretty ++ "\n").toList.length + 1) ['\n']
    (by rw [htext, List.length_append]; omega) hends
  rw [htext] at hread ⊢
  rw [read?, (opens_prettyAt value 0).skipSpace, hread]
  rfl

/-- The indented text of an object begins with its bracket. -/
theorem exists_pretty_object (fields : List (String × Json)) :
    ∃ more, (object fields).pretty.toList = '\x7b' :: more := by
  obtain ⟨more, hmore⟩ := prefix_bracketLines "\x7b" "\x7d" 0 (prettyFields 0 fields)
  exact ⟨more, hmore.symm⟩

end RequestRunner.Json
