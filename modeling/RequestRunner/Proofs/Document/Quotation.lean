import Mathlib.Data.List.Infix
import RequestRunner.Proofs.Document.Arrangement
import RequestRunner.Proofs.Document.RoundTrip

/-!
# What selections quote

The text between the ends of a selection is the text that the selection describes. A value is quoted
with its line breaks and all its blanks, each of its placeholders is quoted on its own, and a
handler is quoted from its marker to the first closing delimiter behind the opening one, its script
being the trimmed text between the delimiters (`Document.read_quotes`).
-/

set_option autoImplicit false

namespace RequestRunner

open Text

variable {filename : String}

/-- The scripts of a section with their markers. -/
def RequestSection.handlers (part : RequestSection) : List (Marker × Handler) :=
  part.preHandler.toList.map (Prod.mk .before) ++ part.handler.toList.map (Prod.mk .after)

/-- The template is quoted from the lines, and so is each of its placeholders. -/
structure Template.IsQuoted (filename : String) (lines : List Line) (template : Template) :
    Prop where
  text : template.selection.Quotes filename lines template.text.toList
  placeholders : ∀ placeholder ∈ template.placeholders,
    placeholder.selection.Quotes filename lines placeholder.text.toList

/-- The handler is quoted from the lines: the marker, blanks, the opening delimiter, a text without
closing delimiter, and the closing one. The script is the text between them, trimmed. -/
def Handler.IsQuoted (filename : String) (lines : List Line) (marker : Marker)
    (handler : Handler) : Prop :=
  ∃ gap inner, allBlank gap = true ∧ ¬ scriptEnd <:+: inner ∧
    handler.selection.Quotes filename lines
      (marker.char :: gap ++ scriptStart ++ inner ++ scriptEnd) ∧
        handler.script = String.ofList (trim inner)

theorem Template.IsOn.isQuoted {lines : List Line} {template : Template}
    (h : template.IsOn filename lines) (hlines : AreLines lines) :
    template.IsQuoted filename lines :=
  ⟨h.covers.quotes hlines, fun placeholder hmem => (h.placeholders placeholder hmem).quotes hlines⟩

theorem Handler.StandsOn.isQuoted {marker : Marker} {handler : Handler} {block lines : List Line}
    (h : handler.StandsOn filename marker block) (hblock : block <:+: lines)
    (hlines : AreLines lines) : handler.IsQuoted filename lines marker := by
  obtain ⟨gap, inner, hgap, hinner, hcovers, hscript⟩ := h.text
  exact ⟨gap, inner, hgap, hinner, (hcovers.of_isInfix hblock hlines).quotes hlines, hscript⟩

namespace SectionUse.Arranges

variable {use : SectionUse} {part : RequestSection}

/-- **The values of a section** stand on its lines. -/
theorem templates_isOn (h : use.Arranges filename part) :
    ∀ template ∈ part.templates, template.IsOn filename use.source.lines := by
  have hlines := h.areLines
  obtain ⟨-, htarget, hbody, -⟩ := h.neighbours
  have hsingle : ∀ {line : Line}, line ∈ use.source.lines → [line] <:+: use.source.lines :=
    fun hline => (List.singleton_infix_iff _ _).2 hline
  simp only [RequestSection.templates, RequestTemplate.templates, List.forall_mem_append,
    List.forall_mem_cons, List.forall_mem_map]
  refine ⟨?_, ⟨?_, ?_⟩, ?_⟩
  · intro declaration hmem
    obtain ⟨line, hline, hstands⟩ := exists_of_mem_forall₂ h.declarations hmem
    have hline := h.declaration_mem hline
    exact (hstands.isOn (hlines.unfed line hline)).of_isInfix (hsingle hline) hlines
  · exact h.request.targetText.of_isInfix htarget hlines
  · intro header hmem
    obtain ⟨line, hline, hstands⟩ := exists_of_mem_forall₂ h.request.headers hmem
    have hline := h.header_mem hline
    exact (hstands.isOn (hlines.unfed line hline)).1.of_isInfix (hsingle hline) hlines
  · intro body hmem
    have hfills := h.request.body.of_some (Option.mem_toList.1 hmem)
    exact hfills.isOn.of_isInfix hbody hlines

/-- **The handlers of a section** are quoted from its lines and from all lines around them. -/
theorem handlers_isQuoted {lines : List Line} (h : use.Arranges filename part)
    (hwithin : use.source.lines <:+: lines) (hlines : AreLines lines) :
    ∀ marker handler, (marker, handler) ∈ part.handlers →
      handler.IsQuoted filename lines marker := by
  obtain ⟨hpreHandler, -, -, hhandler⟩ := h.neighbours
  intro marker handler hmem
  simp only [RequestSection.handlers, List.mem_append, List.mem_map, Option.mem_toList,
    Prod.mk.injEq] at hmem
  rcases hmem with ⟨_, hfound, rfl, rfl⟩ | ⟨_, hfound, rfl, rfl⟩
  · exact (h.preHandler.of_some hfound).isQuoted (hpreHandler.trans hwithin) hlines
  · exact (h.handler.of_some hfound).isQuoted (hhandler.trans hwithin) hlines

end SectionUse.Arranges

/-- **Selections point at the text they describe.** In a document that is read, the source between
the ends of a selection, its lines joined with line feeds, is the raw text of the value or of the
placeholder that has the selection. The selection of a handler holds the handler from its marker to
the first closing delimiter behind the opening one, and the script is the trimmed text between the
two. -/
theorem Document.read_quotes (filename source : String) (document : Document)
    (h : Document.read filename source = .ok document) :
    ∀ part ∈ document.sections,
      (∀ template ∈ part.templates, template.IsQuoted filename (sourceLines source)) ∧
        ∀ marker handler, (marker, handler) ∈ part.handlers →
          handler.IsQuoted filename (sourceLines source) marker := by
  intro part hpart
  have hlines := areLines_sourceLines source
  obtain ⟨use, huse, harranges⟩ := Document.exists_arrangement h hpart
  have hwithin := infix_of_mem_sectionsOf huse
  refine ⟨?_, harranges.handlers_isQuoted hwithin hlines⟩
  intro template hmem
  have hon := harranges.templates_isOn template hmem
  exact (hon.of_isInfix hwithin hlines).isQuoted hlines

/-- The target of the sample stands on two lines. -/
theorem Document.read_quotes_sampleSource :
    ∃ document, Document.read "items.http" sampleSource = .ok document ∧
      ∃ part ∈ document.sections,
        part.request.target.selection.excerpt (sourceLines sampleSource) = "host\n\t/a".toList := by
  have hread : (Document.read "items.http" sampleSource).toOption.map (fun document =>
      document.sections.head?.map fun part => part.request.target.text) =
        some (some "host\n\t/a") := by decide +kernel
  cases h : Document.read "items.http" sampleSource with
  | error e =>
    rw [h] at hread
    cases hread
  | ok document =>
    rw [h] at hread
    obtain ⟨part, hpart, htext⟩ := Option.map_eq_some_iff.1 (Option.some.inj hread)
    have hmem : part ∈ document.sections := List.mem_of_head? hpart
    have hquoted := (Document.read_quotes "items.http" sampleSource document h part hmem).1
      part.request.target (by simp [RequestSection.templates, RequestTemplate.templates])
    exact ⟨document, rfl, part, hmem, htext ▸ hquoted.text.text⟩

end RequestRunner
