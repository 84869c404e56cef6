import RequestRunner.Proofs.Document.Arrangement
import RequestRunner.Proofs.Document.RoundTrip

/-!
# Every significant line is used once

The readers of a section go on behind one another, so the lines that they use exhaust the section
(`Arranges.serves`): every significant line has exactly one use, and the uses follow each other in
the order of the source. The sections of a source share out its lines, so this holds of the source
as a whole (`Document.read_uses_lines`).

The text of a target that goes on over several lines is put together with line feeds, whatever
breaks the lines (`Document.read_target_crlf`).
-/

set_option autoImplicit false

namespace RequestRunner

open Text

namespace SectionUse

/-- The lines are put to use for the parts of the section that was read. Used lines follow each
other as in the section, and a significant line of the section is used exactly once. There is a line
for each declaration and for each header, in order; the target stands on the request line and those
that continue it; handlers and body have the lines that their selections span. -/
structure Serves (filename : String) (use : SectionUse) (part : RequestSection) : Prop where
  inOrder : use.lines.Sublist use.source.lines
  once : ∀ line ∈ use.source.lines, line.isTrivia = false → use.lines.count line = 1
  declarations : List.Forall₂ (Declaration.StandsOn filename) use.declarations part.declarations
  preHandler : use.preHandler =
    spannedLines (part.preHandler.map Handler.selection) use.source.lines
  request : part.request.target.StandsOn use.request use.continuations
  headers : List.Forall₂ (Header.StandsOn filename) use.headers part.request.headers
  body : use.body = spannedLines (part.request.body.map Template.selection) use.source.lines
  handler : use.handler = spannedLines (part.handler.map Handler.selection) use.source.lines

/-- **Lines that are arranged** are put to use. -/
theorem Arranges.serves {filename : String} {use : SectionUse} {part : RequestSection}
    (h : use.Arranges filename part) : use.Serves filename part := by
  have hlines := h.areLines.consecutive
  obtain ⟨hpreHandler, -, hbody, hhandler⟩ := h.neighbours
  refine ⟨h.exhausts.inOrder, ?_, h.declarations, ?_, h.request.target, h.request.headers, ?_, ?_⟩
  · intro line hline htrivia
    exact h.exhausts.count_eq_one hlines.nodup hline htrivia
  · exact h.preHandler.eq_spannedLines (fun _ hfound => hfound.spans) hlines hpreHandler
  · exact h.request.body.eq_spannedLines (fun _ hfound => hfound.spans) hlines hbody
  · exact h.handler.eq_spannedLines (fun _ hfound => hfound.spans) hlines hhandler

end SectionUse

variable {filename : String}

/-- **Sections** have a use of the lines of each one with a significant line, in order. -/
theorem readSections_uses {sources : List SectionLines} {parts : List RequestSection}
    (hlines : ∀ source ∈ sources, AreLines source.lines)
    (h : readSections filename sources = .ok parts) :
    ∃ uses : List SectionUse,
      uses.map SectionUse.source = sources.filter SectionLines.isSignificant ∧
        List.Forall₂ (SectionUse.Serves filename) uses parts := by
  obtain ⟨uses, hsources, harranges⟩ := readSections_arranges hlines h
  exact ⟨uses, hsources, harranges.imp fun _ _ hpart => hpart.serves⟩

/-- **Every significant line of a source is used once.** When a source is read, each of its sections
with a significant line is put to use for one section of the document, in order. The lines that are
used follow each other as in the source, and a line that is neither a separator nor trivia is used
exactly once. -/
theorem Document.read_uses_lines (filename source : String) (document : Document)
    (h : Document.read filename source = .ok document) :
    ∃ uses : List SectionUse,
      uses.map SectionUse.source =
          (sectionsOf (sourceLines source)).filter SectionLines.isSignificant ∧
        List.Forall₂ (SectionUse.Serves filename) uses document.sections ∧
          (uses.flatMap SectionUse.lines).Sublist (sourceLines source) ∧
            ∀ line ∈ sourceLines source, line.isSeparator = false → line.isTrivia = false →
              (uses.flatMap SectionUse.lines).count line = 1 := by
  rw [Document.read, Document.ofLines, bind_eq_ok] at h
  obtain ⟨parts, hparts, h⟩ := h
  cases h
  have hconsecutive : Consecutive (sourceLines source) := consecutive_numbered 1 _
  obtain ⟨uses, hsources, hserves⟩ := readSections_uses (fun section_ hsection => by
    have hwithin := infix_of_mem_sectionsOf hsection
    refine ⟨hconsecutive.of_isInfix hwithin, ?_⟩
    intro line hline
    exact lineFeed_notMem_of_mem_splitLines
      (text_mem_of_mem_numbered (hwithin.subset hline))) hparts
  have heach : ∀ use ∈ uses, use.lines.Sublist use.source.lines ∧
      ∀ line ∈ use.source.lines, line.isTrivia = false → use.lines.count line = 1 := by
    have hboth := hserves.imp fun use part hserve =>
      And.intro (And.intro hserve.inOrder hserve.once) hserve
    exact ((List.forall₂_and_left _ _).1 hboth).1
  have hinOrder : (uses.flatMap SectionUse.lines).Sublist (sourceLines source) := by
    have hsections : (uses.flatMap SectionUse.lines).Sublist
        ((uses.map SectionUse.source).flatMap SectionLines.lines) := by
      rw [List.flatMap_map]
      exact List.Sublist.flatMap_right _ fun use huse => (heach use huse).1
    rw [hsources] at hsections
    exact hsections.trans
      ((List.filter_sublist.flatMap _).trans (sublist_flatMap_sectionsOf (sourceLines source)))
  refine ⟨uses, hsources, hserves, hinOrder, ?_⟩
  intro line hline hseparator htrivia
  obtain ⟨part, hpart, hmem⟩ := exists_section_of_mem hline hseparator
  -- the section of the line is significant, since the line is
  have hsignificant : part.isSignificant = true :=
    List.any_eq_true.2 ⟨line, hmem, by rw [htrivia]; rfl⟩
  have hused : part ∈ uses.map SectionUse.source := by
    rw [hsources]
    exact List.mem_filter.2 ⟨hpart, hsignificant⟩
  obtain ⟨use, huse, rfl⟩ := List.mem_map.1 hused
  have honce := (heach use huse).2 line hmem htrivia
  have hline : line ∈ use.lines := List.count_pos_iff.1 (by rw [honce]; exact Nat.one_pos)
  apply List.count_eq_one_of_mem (hconsecutive.nodup.sublist hinOrder)
  exact List.mem_flatMap.2 ⟨use, huse, hline⟩

/-- The line that continues the target of the sample is used once. -/
theorem Document.read_uses_lines_sampleSource :
    ∃ document, Document.read "items.http" sampleSource = .ok document ∧
      ∃ uses : List SectionUse,
        List.Forall₂ (SectionUse.Serves "items.http") uses document.sections ∧
          (uses.flatMap SectionUse.lines).count ⟨5, "\t/a HTTP/1.1".toList⟩ = 1 := by
  have hread : (Document.read "items.http" sampleSource).isOk = true := by decide +kernel
  cases h : Document.read "items.http" sampleSource with
  | error e =>
    rw [h] at hread
    cases hread
  | ok document =>
    obtain ⟨uses, -, hserves, -, honce⟩ :=
      Document.read_uses_lines "items.http" sampleSource document h
    refine ⟨document, rfl, uses, hserves, ?_⟩
    apply honce
    · decide +kernel
    · decide +kernel
    · decide +kernel

/-- A target on two lines, the first of which ends with a carriage return and a line feed. -/
def crlfSource : String := "GET a\r\n\tb"

/-- The text of a target is not always that of the source: from the target's column on, the source
has a carriage return that the target has not. -/
theorem Document.read_target_crlf :
    ∃ document, Document.read "items.http" crlfSource = .ok document ∧
      ∃ part ∈ document.sections, part.request.target.selection.start = ⟨1, 5⟩ ∧
        ¬ part.request.target.text.toList <+: crlfSource.toList.drop 4 := by
  have hread : (Document.read "items.http" crlfSource).toOption.map (fun document =>
      document.sections.map fun part =>
        (part.request.target.selection.start, part.request.target.text)) =
          some [(⟨1, 5⟩, "a\n\tb")] := by decide +kernel
  cases h : Document.read "items.http" crlfSource with
  | error e =>
    rw [h] at hread
    cases hread
  | ok document =>
    rw [h] at hread
    obtain ⟨part, hpart, htarget⟩ := List.map_eq_singleton_iff.1 (Option.some.inj hread)
    obtain ⟨hstart, htext⟩ := Prod.mk.inj htarget
    refine ⟨document, rfl, part, hpart ▸ List.mem_cons_self, hstart, ?_⟩
    rw [htext]
    decide +kernel

end RequestRunner
