import RequestRunner.Proofs.Document.Body
import RequestRunner.Proofs.Document.Place

/-!
# Templates on lines

A template that is read from a place on some lines covers its text there (`Template.isOn_ofText`),
and each of its placeholders covers what is written of it (`Template.IsOn.placeholders`).

Where the text of a construct begins is found in a different way for each of them: behind the equals
sign and the blanks of a declaration, at the end of a line without a value, behind the colon of a
header counted from the end of the line, or at the start of the first line of a body. Each of these
columns is that of the text (`declarationParts?_text`, `readHeader?_isOn`, `readBody_isOn`).
-/

set_option autoImplicit false

namespace RequestRunner

open Text

variable {filename : String} {lines : List Line}

namespace Template

/-- The template is that of a text on the lines, and its selection covers this text. -/
structure IsOn (filename : String) (lines : List Line) (template : Template) : Prop where
  read : template = ofText filename template.text.toList template.selection.start
  covers : template.selection.Covers filename lines template.text.toList

/-- **The template of a text that is covered** from where it begins. -/
theorem isOn_ofText {text : List Char} {start : Position}
    (h : Selection.Covers filename lines text ⟨filename, start, start.after text⟩) :
    (ofText filename text start).IsOn filename lines := by
  have htext := toList_text_ofText filename text start
  constructor
  · rw [htext]
    rfl
  · rw [htext]
    exact h

/-- The placeholders behind literal stretches cover what is written of them. -/
theorem covers_placeholdersFrom {holes : List (List Char × List Char)} {last : List Char}
    {selection : Selection} (h : selection.Covers filename lines (Pieces.join ⟨holes, last⟩)) :
    ∀ placeholder ∈ placeholdersFrom filename selection.start holes,
      placeholder.selection.Covers filename lines placeholder.text.toList := by
  induction holes generalizing selection with
  | nil => exact List.forall_mem_nil _
  | cons hole more ih =>
    obtain ⟨before, inner⟩ := hole
    -- the first placeholder stands between its literal stretch and the pieces behind it
    have hjoin : Pieces.join ⟨(before, inner) :: more, last⟩ =
        before ++ ((openBraces ++ inner ++ closeBraces) ++ Pieces.join ⟨more, last⟩) := by
      simp only [Pieces.join, List.flatMap_cons, List.append_assoc]
    rw [placeholdersFrom, List.forall_mem_cons]
    constructor
    · rw [String.toList_ofList]
      exact h.part hjoin
    · rw [← List.append_assoc] at hjoin
      have hrest := h.part (hjoin.trans (by rw [List.append_nil]))
      rw [Position.after_append] at hrest
      exact ih hrest

/-- **The placeholders of a template** cover what is written of them. -/
theorem IsOn.placeholders {template : Template} (h : template.IsOn filename lines) :
    ∀ placeholder ∈ template.placeholders,
      placeholder.selection.Covers filename lines placeholder.text.toList := by
  have hplaceholders := congrArg Template.placeholders h.read
  have hcovers := h.covers
  rw [← join_pieces template.text.toList] at hcovers
  rw [hplaceholders]
  exact covers_placeholdersFrom hcovers

theorem IsOn.of_isInfix {template : Template} {block : List Line}
    (h : template.IsOn filename block) (hblock : block <:+: lines) (hlines : AreLines lines) :
    template.IsOn filename lines :=
  ⟨h.read, h.covers.of_isInfix hblock hlines⟩

end Template

/-! ## The constructs on one line -/

/-- A declared value stands behind its lead. -/
theorem declarationParts?_text {text name lead raw : List Char}
    (h : declarationParts? text = some (name, lead, raw)) :
    ∃ behind, text = lead ++ (raw ++ behind) := by
  have htext := blank_append_trimStart text
  unfold declarationParts? at h
  split at h
  · next c rest hcontent =>
    rw [hcontent, ← List.takeWhile_append_dropWhile (p := isNamePart) (l := rest)] at htext
    split at h
    · dsimp only at h
      generalize rest.takeWhile isNamePart = word at h htext
      generalize rest.dropWhile isNamePart = tail at h htext
      have htail := blank_append_trimStart tail
      split at h
      · next value hvalue =>
        rw [hvalue] at htail
        rw [← htail] at htext
        split at h
        · cases h
        · cases h
          have hvalue := blank_append_trimStart value
          have htrim := trimEnd_append_blank (trimStart value)
          rw [← trim] at htrim
          split
          · -- without a value, all that follows the equals sign is in front of its place
            next hempty =>
            refine ⟨[], htext.symm.trans ?_⟩
            rw [List.isEmpty_iff.1 hempty]
            simp only [List.append_assoc, List.cons_append, List.append_nil]
          · refine ⟨trailingBlank (trimStart value), htext.symm.trans ?_⟩
            rw [htrim]
            simp only [List.append_assoc, List.cons_append, hvalue]
      · cases h
    · cases h
  · cases h

/-- The value of a header stands behind its name and a colon, and the header begins behind the
indentation. -/
theorem headerParts?_text {text indent name raw : List Char}
    (h : headerParts? text = some (indent, name, raw)) :
    indent = leadingBlank text ∧ ∃ front, text = front ++ raw := by
  have htext := blank_append_trimStart text
  unfold headerParts? at h
  dsimp only at h
  split at h
  · cases h
  · split at h
    · next raw' hraw =>
      split at h
      · cases h
      · cases h
        refine ⟨rfl, ?_⟩
        have hsuffix : ':' :: raw <:+ text := by
          rw [← hraw]
          exact (trimStart_suffix _).trans ((List.dropWhile_suffix _).trans (trimStart_suffix _))
        obtain ⟨front, hfront⟩ := (List.suffix_cons ':' raw).trans hsuffix
        exact ⟨front, hfront.symm⟩
    · cases h

/-- **A header that was read** has its value on the line, and its selection is that of the line
without indentation. -/
theorem readHeader?_isOn {line : Line} {header : Header} (hunfed : '\n' ∉ line.text)
    (h : readHeader? filename line = some header) :
    header.value.IsOn filename [line] ∧ header.selection = line.select filename := by
  obtain ⟨⟨indent, name, raw⟩, hparts, rfl⟩ := Option.map_eq_some_iff.1 h
  obtain ⟨rfl, front, hfront⟩ := headerParts?_text hparts
  refine ⟨Template.isOn_ofText ?_, rfl⟩
  have hraw := blank_append_trimStart raw
  have htrim := trimEnd_append_blank (trimStart raw)
  rw [← trim] at htrim
  split
  · next hempty =>
    rw [List.isEmpty_iff.1 hempty]
    have hline : line.text = line.text ++ ([] ++ []) := by rw [List.append_nil, List.append_nil]
    exact Selection.covers_line filename hunfed hline
  · -- the column is counted from the end of the line
    have hline : line.text =
        (front ++ leadingBlank raw) ++ (trim raw ++ trailingBlank (trimStart raw)) := by
      rw [htrim, List.append_assoc, hraw, hfront]
    have hcolumn : Text.units line.text - Text.units (trimStart raw) =
        Text.units (front ++ leadingBlank raw) := by
      rw [hline, htrim, units_append, Nat.add_sub_cancel]
    rw [hcolumn]
    exact Selection.covers_line filename hunfed hline

/-! ## Bodies -/

/-- **A body that was read** stands on the lines that are kept of it, from the first one on. -/
theorem readBody_isOn {body : Template} (h : readBody filename lines = some body) :
    body.IsOn filename (bodyLines lines) := by
  rcases readBody_cases filename lines with
    ⟨-, hread⟩ | ⟨init, last, first, hkept, hfirst, -, -, hread⟩
  · rw [hread] at h
    cases h
  · rw [hread] at h
    cases h
    rw [hkept]
    refine Template.isOn_ofText ⟨?_, rfl, ⟨[], trailingBlank last.text, ?_, ?_⟩, rfl⟩
    · exact List.append_ne_nil_of_right_ne_nil _ (List.cons_ne_nil _ _)
    · rw [List.nil_append, joinLines_concat_append, trimEnd_append_blank, List.map_append,
        List.map_singleton]
    · show _ = linesStart (init ++ [last])
      rw [linesStart, hfirst]
      rfl

end RequestRunner
