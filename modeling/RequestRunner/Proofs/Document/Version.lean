import RequestRunner.Document.Line
import RequestRunner.Proofs.Decimal.Layout
import RequestRunner.Proofs.Text.Trim

/-!
# Version tokens

A version token ends the text it stands in: behind a blank in it there are only blanks
(`isVersionToken_blank`). So the token that is written behind a trimmed text is the one that is
found and taken away (`endsWithVersion_append`, `dropVersion_append`), whatever tokens the text
holds itself. No brace is in a token (`brace_notMem_of_isVersionToken`), and where no token stands
behind a blank, nothing is taken away (`endsWithVersion_eq_false`, `dropVersion_eq_self`).
-/

set_option autoImplicit false

namespace RequestRunner

open Text

/-- The version token that is written behind targets. -/
def versionToken : List Char := ['H', 'T', 'T', 'P', '/', '1', '.', '1']

/-- A blank is in no text without blanks. -/
theorem notMem_of_isBlank {p : List Char} {c : Char} (hp : p.any Text.isBlank = false)
    (hc : Text.isBlank c = true) : c ∉ p :=
  fun hmem => List.any_eq_false.1 hp c hmem hc

/-- An end that begins with another character is behind the first ones. -/
theorem suffix_dropWhile {p : Char → Bool} {c : Char} {s t : List Char} (hc : p c = false)
    (h : c :: t <:+ s) : c :: t <:+ s.dropWhile p := by
  induction s with
  | nil => exact absurd (List.suffix_nil.1 h) (List.cons_ne_nil _ _)
  | cons a s ih =>
    rcases List.suffix_cons_iff.1 h with heq | h
    · cases heq
      have hkeep : (c :: t).dropWhile p = c :: t :=
        List.dropWhile_cons_of_neg (Bool.eq_false_iff.1 hc)
      exact hkeep.symm ▸ List.suffix_refl (c :: t)
    · rw [List.dropWhile_cons]
      split
      · exact ih h
      · exact h.trans (List.suffix_cons _ _)

/-- An end that begins with a character outside of a beginning is behind it. -/
theorem suffix_of_suffix_append {p s t : List Char} {c : Char} (hc : c ∉ p)
    (h : c :: t <:+ p ++ s) : c :: t <:+ s := by
  induction p with
  | nil => exact h
  | cons a p ih =>
    rw [List.mem_cons, not_or] at hc
    rcases List.suffix_cons_iff.1 h with heq | h
    · cases heq
      exact absurd rfl hc.1
    · exact ih hc.2 h

/-- **A version token is its name, digits and a point**: from any other character on there are only
blanks. -/
theorem allBlank_of_isVersionToken {s t : List Char} {c : Char} (h : isVersionToken s = true)
    (hdigit : Decimal.isDigit c = false) (hname : c ∉ ['H', 'T', 'T', 'P', '/', '.'])
    (hs : c :: t <:+ s) : allBlank (c :: t) = true := by
  have hofAll : ∀ {r : List Char}, c :: t <:+ r → allBlank r = true →
      allBlank (c :: t) = true := by
    rintro r ⟨before, rfl⟩ hr
    rw [allBlank_append, Bool.and_eq_true] at hr
    exact hr.2
  have hbegins : c ∉ ['H', 'T', 'T', 'P', '/'] := fun hmem =>
    hname (List.mem_append_left ['.'] hmem)
  have hdot : c ∉ ['.'] := fun hmem => hname (List.mem_append_right ['H', 'T', 'T', 'P', '/'] hmem)
  rw [isVersionToken] at h
  split at h
  · cases h
  · next rest hrest =>
    rw [afterPrefix?_eq_some hrest] at hs
    -- neither the name nor the digits hold the character, so it comes behind them
    have hmajor := suffix_dropWhile hdigit (suffix_of_suffix_append hbegins hs)
    rw [Bool.and_eq_true, Bool.or_eq_true] at h
    rcases h.2 with hall | hminor
    · exact hofAll hmajor hall
    · split at hminor
      · next more hmore =>
        rw [hmore] at hmajor
        rw [Bool.and_eq_true] at hminor
        exact hofAll (suffix_dropWhile hdigit (suffix_of_suffix_append hdot hmajor)) hminor.2
      · cases hminor

/-- **Behind a blank in a version token there are only blanks.** -/
theorem isVersionToken_blank {s t : List Char} {c : Char} (h : isVersionToken s = true)
    (hc : Text.isBlank c = true) (hs : c :: t <:+ s) : allBlank t = true := by
  have hdigit : Decimal.isDigit c = false := by
    rw [Bool.eq_false_iff]
    intro hdigit
    rw [Decimal.isBlank_of_isDigit hdigit] at hc
    cases hc
  have hblank := allBlank_of_isVersionToken h hdigit (notMem_of_isBlank rfl hc) hs
  rw [allBlank, List.all_cons, Bool.and_eq_true] at hblank
  exact hblank.2

/-- No brace is in a version token. -/
theorem brace_notMem_of_isVersionToken {s : List Char} (h : isVersionToken s = true) :
    '\x7d' ∉ s := by
  intro hmem
  obtain ⟨front, back, rfl⟩ := List.append_of_mem hmem
  have hblank := allBlank_of_isVersionToken h (by decide) (by decide) (List.suffix_append front _)
  rw [allBlank, List.all_cons, Bool.and_eq_true] at hblank
  exact absurd hblank.1 (by decide)

/-- A text without a version token behind any of its blanks does not end with one. -/
theorem endsWithVersion_eq_false {s : List Char}
    (h : ∀ front c back, s = front ++ c :: back → Text.isBlank c = true →
      isVersionToken (trimStart back) = false) : endsWithVersion s = false := by
  induction s with
  | nil => rfl
  | cons c s ih =>
    have hrest : endsWithVersion s = false := by
      apply ih
      rintro front d back rfl hd
      exact h (c :: front) d back rfl hd
    rw [endsWithVersion, hrest, Bool.or_false]
    cases hc : Text.isBlank c with
    | false => rfl
    | true => rw [h [] c s rfl hc, Bool.and_false]

/-- Where no version token is at the end, none is taken away. -/
theorem dropVersion_eq_self {s : List Char} (h : endsWithVersion s = false) :
    dropVersion s = s := by
  induction s with
  | nil => rfl
  | cons c s ih =>
    rw [endsWithVersion, Bool.or_eq_false_iff] at h
    rw [dropVersion, h.1, ih h.2]
    rfl

theorem endsWithVersion_append (s : List Char) :
    endsWithVersion (s ++ ' ' :: versionToken) = true := by
  induction s with
  | nil => decide
  | cons c s ih => rw [List.cons_append, endsWithVersion, ih, Bool.or_true]

theorem dropVersion_isPrefix (s : List Char) : dropVersion s <+: s := by
  induction s with
  | nil => exact List.prefix_refl _
  | cons c s ih =>
    rw [dropVersion]
    split
    · exact List.nil_prefix
    · exact List.cons_prefix_cons.2 ⟨rfl, ih⟩

/-- **The version token behind a text is taken away**, and no other one. -/
theorem dropVersion_append {s : List Char} (h : trimEnd s = s) :
    dropVersion (s ++ ' ' :: versionToken) = s := by
  induction s with
  | nil => decide
  | cons c s ih =>
    have hrest : s ≠ [] → allBlank s = false :=
      not_allBlank_of_trimEnd (show trimEnd ([c] ++ s) = _ from h)
    have hkeep : (Text.isBlank c && isVersionToken (trimStart (s ++ ' ' :: versionToken))) =
        false := by
      rw [Bool.and_eq_false_iff]
      cases s with
      | nil =>
        have hc := not_allBlank_of_trimEnd (show trimEnd ([] ++ [c]) = _ from h)
          (List.cons_ne_nil _ _)
        rw [allBlank, List.all_cons, List.all_nil, Bool.and_true] at hc
        exact Or.inl hc
      | cons d s =>
        -- a token from here on would have the blank before the last one inside
        refine Or.inr ?_
        rw [trimStart_append _ (hrest (List.cons_ne_nil _ _)), Bool.eq_false_iff]
        intro htoken
        have hblank := isVersionToken_blank htoken (by decide) (List.suffix_append _ _)
        exact absurd hblank (by decide)
    have htrim : trimEnd s = s := by
      cases s with
      | nil => rfl
      | cons d s =>
        have happend := trimEnd_append [c] (hrest (List.cons_ne_nil _ _))
        exact (List.cons.inj (happend.symm.trans h)).2
    rw [List.cons_append, dropVersion, hkeep, ih htrim]
    rfl

end RequestRunner
