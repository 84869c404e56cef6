import RequestRunner.Proofs.Document.Lines
import RequestRunner.Proofs.Text.Occurrence
import RequestRunner.Proofs.Text.Trim

/-!
# Kinds of lines

What kind of line a text makes is read off its first characters: a comment and the opening of a
script have their marks right behind the indentation (`isComment_iff`, `opensScript_iff`). So a line
that starts with a letter is neither (`isTrivia_of_cons`, `opensScript_of_cons`), and the blanks at
its end change nothing about a line that is not blank (`isComment_trimEnd`,
`opensScript_of_trimEnd`, `isSeparator_trimEnd`).
-/

set_option autoImplicit false

namespace RequestRunner.Line

open Text

theorem isComment_iff (l : Line) :
    l.isComment = true ↔ ['#'] <+: l.content ∨ ['/', '/'] <+: l.content := by
  rw [isComment]
  split
  · next rest h => exact iff_of_true rfl (Or.inl ⟨rest, h.symm⟩)
  · next rest h => exact iff_of_true rfl (Or.inr ⟨rest, h.symm⟩)
  · next hhash hslashes =>
    refine iff_of_false Bool.false_ne_true ?_
    rintro (⟨rest, h⟩ | ⟨rest, h⟩)
    · exact hhash rest h.symm
    · exact hslashes rest h.symm

/-- A script opens with its marker, blanks and the delimiter. -/
theorem opensScript_iff (marker : Char) (l : Line) :
    l.opensScript marker = true ↔
      ∃ rest, l.content = marker :: rest ∧ ['\x7b', '%'] <+: trimStart rest := by
  rw [opensScript]
  split
  · next c rest h =>
    rw [Bool.and_eq_true, beq_iff_eq, startsWith_iff, h]
    constructor
    · rintro ⟨rfl, hrest⟩
      exact ⟨rest, rfl, hrest⟩
    · rintro ⟨_, heq, hrest⟩
      cases heq
      exact ⟨rfl, hrest⟩
  · next h =>
    rw [h]
    refine iff_of_false Bool.false_ne_true ?_
    rintro ⟨_, heq, -⟩
    cases heq

theorem isSeparator_iff (l : Line) : l.isSeparator = true ↔ ['#', '#', '#'] <+: l.text :=
  startsWith_iff

/-- A line of a section: no line end inside, and no separator. -/
structure IsInner (l : Line) : Prop where
  unbroken : Unbroken l.text
  inner : l.isSeparator = false

theorem opensScript_of_isBlank {l : Line} (h : l.isBlank = true) (marker : Char) :
    l.opensScript marker = false := by
  rw [opensScript, content, trimStart_of_allBlank h]

theorem isTrivia_of_isBlank {l : Line} (h : l.isBlank = true) : l.isTrivia = true := by
  rw [isTrivia, h, Bool.true_or]

/-- A line whose first character behind the indentation begins no comment. -/
theorem isTrivia_of_content {l : Line} {c : Char} {rest : List Char} (h : l.content = c :: rest)
    (hhash : c ≠ '#') (hslash : c ≠ '/') : l.isTrivia = false := by
  rw [isTrivia, Bool.or_eq_false_iff]
  constructor
  · rw [Bool.eq_false_iff]
    intro hblank
    rw [content, trimStart_of_allBlank hblank] at h
    cases h
  · rw [Bool.eq_false_iff, ne_eq, isComment_iff, h, List.cons_prefix_cons, List.cons_prefix_cons]
    rintro (⟨heq, -⟩ | ⟨heq, -⟩)
    · exact hhash heq.symm
    · exact hslash heq.symm

/-- The opening of a script is no trivia. -/
theorem isTrivia_of_opensScript {marker : Char} {l : Line} (h : l.opensScript marker = true)
    (hhash : marker ≠ '#') (hslash : marker ≠ '/') : l.isTrivia = false := by
  obtain ⟨rest, hcontent, -⟩ := (opensScript_iff _ _).1 h
  exact isTrivia_of_content hcontent hhash hslash

/-- A declaration is no trivia. -/
theorem isTrivia_of_opensDeclaration {l : Line} (h : l.opensDeclaration = true) :
    l.isTrivia = false := by
  rw [opensDeclaration] at h
  split at h
  · next rest hcontent => exact isTrivia_of_content hcontent (by decide) (by decide)
  · cases h

/-! ## Lines that are not indented -/

section Cons

variable {l : Line} {c : Char} {rest : List Char}

theorem content_of_cons (h : l.text = c :: rest) (hc : Text.isBlank c = false) :
    l.content = c :: rest := by
  rw [content, h, trimStart_cons_of_not_isBlank rest hc]

theorem isBlank_of_cons (h : l.text = c :: rest) (hc : Text.isBlank c = false) :
    l.isBlank = false := by
  rw [isBlank, h, allBlank, List.all_cons, hc, Bool.false_and]

theorem isComment_of_cons (h : l.text = c :: rest) (hc : Text.isBlank c = false) (hhash : c ≠ '#')
    (hslash : c ≠ '/') : l.isComment = false := by
  rw [Bool.eq_false_iff, ne_eq, isComment_iff, content_of_cons h hc, List.cons_prefix_cons,
    List.cons_prefix_cons]
  rintro (⟨heq, -⟩ | ⟨heq, -⟩)
  · exact hhash heq.symm
  · exact hslash heq.symm

theorem isTrivia_of_cons (h : l.text = c :: rest) (hc : Text.isBlank c = false) (hhash : c ≠ '#')
    (hslash : c ≠ '/') : l.isTrivia = false := by
  rw [isTrivia, isBlank_of_cons h hc, isComment_of_cons h hc hhash hslash]
  rfl

theorem opensScript_of_cons {marker : Char} (h : l.text = c :: rest)
    (hc : Text.isBlank c = false) (hmarker : c ≠ marker) : l.opensScript marker = false := by
  rw [Bool.eq_false_iff, ne_eq, opensScript_iff, content_of_cons h hc]
  rintro ⟨_, heq, -⟩
  cases heq
  exact hmarker rfl

theorem opensDeclaration_of_cons (h : l.text = c :: rest) (hc : Text.isBlank c = false)
    (hat : c ≠ '@') : l.opensDeclaration = false := by
  rw [opensDeclaration, content_of_cons h hc]
  split
  · next heq =>
    cases heq
    exact absurd rfl hat
  · rfl

end Cons

/-! ## Lines without the blanks at their ends -/

section TrimEnd

variable {l m : Line}

theorem isBlank_trimEnd (h : m.text = trimEnd l.text) : m.isBlank = l.isBlank := by
  rw [isBlank, h, allBlank_trimEnd]
  rfl

theorem content_trimEnd (h : m.text = trimEnd l.text) : m.content = trimEnd l.content := by
  rw [content, h, trimStart_trimEnd, trim]
  rfl

theorem isComment_trimEnd (h : m.text = trimEnd l.text) : m.isComment = l.isComment := by
  rw [Bool.eq_iff_iff, isComment_iff, isComment_iff, content_trimEnd h, prefix_trimEnd_iff rfl,
    prefix_trimEnd_iff rfl]

theorem isTrivia_trimEnd (h : m.text = trimEnd l.text) : m.isTrivia = l.isTrivia := by
  rw [isTrivia, isTrivia, isBlank_trimEnd h, isComment_trimEnd h]

theorem isSeparator_trimEnd (h : m.text = trimEnd l.text) : m.isSeparator = l.isSeparator := by
  rw [Bool.eq_iff_iff, isSeparator_iff, isSeparator_iff, h, prefix_trimEnd_iff rfl]

theorem opensScript_of_trimEnd {marker : Char} (h : m.text = trimEnd l.text)
    (hm : m.opensScript marker = true) : l.opensScript marker = true := by
  rw [opensScript_iff, content_trimEnd h] at hm
  obtain ⟨rest, hcontent, hrest⟩ := hm
  rw [opensScript_iff]
  refine ⟨rest ++ trailingBlank l.content, ?_, ?_⟩
  · rw [← List.cons_append, ← hcontent, trimEnd_append_blank]
  · have hnotblank : allBlank rest = false := by
      rw [Bool.eq_false_iff]
      intro hblank
      rw [trimStart_of_allBlank hblank] at hrest
      exact absurd (List.prefix_nil.1 hrest) (List.cons_ne_nil _ _)
    rw [trimStart_append _ hnotblank]
    exact hrest.trans (List.prefix_append _ _)

end TrimEnd

end RequestRunner.Line
