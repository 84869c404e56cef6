import Mathlib.Data.List.Infix
import RequestRunner.Proofs.Document.Arrangement

/-!
# Selections within selections

Whether a selection lies within that of its request or of its section is decided by the lines that
its part stands on: a section reaches from its first to its last significant line
(`SectionLines.IsSelected.start_le`, `SectionLines.IsSelected.le_stop`), a request from its own line
to its last part. So almost every part lies within what it belongs to, and the others do under
conditions that can be told exactly (`RequestTemplate.Nests`, `RequestSection.Nests`): a request
stops on its line when neither a header nor a body follows, whatever lines continue its target, and
a section stops at its last significant line, although a body may go on with comments that touch it
and a script may close on a line that looks like a comment.
-/

set_option autoImplicit false

namespace RequestRunner

open Text

/-- The line on which the selection stops is neither blank nor a comment. -/
def Selection.StopsSignificantly (lines : List Line) (selection : Selection) : Prop :=
  ∃ line ∈ lines, line.number = selection.stop.line ∧ line.isTrivia = false

/-- The parts of a request lie within it. The target does so exactly if another part follows or it
stands on one line. -/
structure RequestTemplate.Nests (request : RequestTemplate) : Prop where
  method : request.methodSelection ≠ Selection.none →
    request.methodSelection.Within request.selection
  headers : ∀ header ∈ request.headers, header.selection.Within request.selection
  body : ∀ body ∈ request.body, body.selection.Within request.selection
  target : request.target.selection.Within request.selection ↔
    request.headers ≠ [] ∨ request.body ≠ none ∨
      request.target.selection.start.line = request.target.selection.stop.line

/-- The parts of a section lie within it. The last of them, a body or a response handler, does so
exactly if it stops on a significant line, and the request does so if its body does. -/
structure RequestSection.Nests (lines : List Line) (part : RequestSection) : Prop where
  declarations : ∀ declaration ∈ part.declarations, declaration.2.selection.Within part.selection
  preHandler : ∀ handler ∈ part.preHandler, handler.selection.Within part.selection
  target : part.request.target.selection.Within part.selection
  headers : ∀ header ∈ part.request.headers, header.selection.Within part.selection
  body : ∀ body ∈ part.request.body, (body.selection.Within part.selection ↔
    part.handler ≠ none ∨ body.selection.StopsSignificantly lines)
  request : part.request.selection.Within part.selection ↔ ∀ body ∈ part.request.body,
    part.handler ≠ none ∨ body.selection.StopsSignificantly lines
  handler : ∀ handler ∈ part.handler, (handler.selection.Within part.selection ↔
    handler.selection.StopsSignificantly lines)

/-! ## The extent of a section -/

namespace SectionLines

variable {filename : String} {source : SectionLines} {selection : Selection} {line : Line}

theorem mem_significant :
    line ∈ source.significant ↔ line ∈ source.lines ∧ line.isTrivia = false := by
  rw [significant, List.mem_filter, Bool.not_eq_true']

theorem pairwise_significant (hlines : Consecutive source.lines) :
    source.significant.Pairwise fun above below => above.number < below.number :=
  hlines.pairwise.sublist List.filter_sublist

/-- A section begins at or above each of its significant lines. -/
theorem IsSelected.start_le (h : source.IsSelected filename selection)
    (hlines : Consecutive (source.separator.toList ++ source.lines))
    (hline : line ∈ source.significant) : selection.start ≤ ⟨line.number, 1⟩ := by
  obtain ⟨first, last, hfirst, -, rfl⟩ := h
  have hinner : Consecutive source.lines := hlines.of_isInfix (List.suffix_append _ _).isInfix
  have hmem : first ∈ source.lines := (mem_significant.1 (List.mem_of_head? hfirst)).1
  have hstart : (source.separator.getD first).number ≤ first.number := by
    cases hseparator : source.separator with
    | none => exact Nat.le_refl _
    | some separator =>
      rw [hseparator] at hlines
      exact Nat.le_of_lt ((List.pairwise_append.1 hlines.pairwise).2.2 separator
        List.mem_cons_self first hmem)
  rw [Position.le_iff]
  rcases eq_or_lt_of_head? (pairwise_significant hinner) hfirst hline with rfl | habove
  · simp only
    omega
  · simp only
    omega

/-- A section stops at or below the end of each of its significant lines. -/
theorem IsSelected.le_stop (h : source.IsSelected filename selection)
    (hlines : Consecutive source.lines) (hline : line ∈ source.significant) :
    line.stop ≤ selection.stop := by
  obtain ⟨first, last, -, hlast, rfl⟩ := h
  rcases eq_or_lt_of_getLast? (pairwise_significant hlines) hlast hline with rfl | hbelow
  · exact le_refl _
  · exact Or.inl hbelow

end SectionLines

theorem Spans.exists_last {selection : Selection} {block : List Line} (h : Spans selection block) :
    ∃ last, block.getLast? = some last ∧ selection.stop.line = last.number := by
  obtain ⟨-, last, -, hlast, -, hstop⟩ := h
  exact ⟨last, hlast, hstop⟩

/-- A selection that spans lines stops significantly exactly if the last of them is significant. -/
theorem Spans.stopsSignificantly_iff {selection : Selection} {block lines : List Line} {last : Line}
    (h : Spans selection block) (hlast : block.getLast? = some last) (hblock : block <:+: lines)
    (hlines : Consecutive lines) :
    selection.StopsSignificantly lines ↔ last.isTrivia = false := by
  obtain ⟨bottom, hbottom, hstop⟩ := h.exists_last
  obtain rfl : last = bottom := Option.some.inj (hlast.symm.trans hbottom)
  have hmem : last ∈ lines := hblock.subset (List.mem_of_getLast? hlast)
  constructor
  · rintro ⟨line, hline, hnumber, htrivia⟩
    rw [← hlines.eq_of_number hline hmem (hnumber.trans hstop), htrivia]
  · exact fun htrivia => ⟨last, hmem, hstop.symm, htrivia⟩

/-! ## The order of the parts -/

namespace SectionUse

/-- The lines of the parts follow each other. -/
structure Ordered (use : SectionUse) : Prop where
  preHandler : ∀ line ∈ use.preHandler, line.number < use.request.number
  continuations : ∀ line ∈ use.request :: use.continuations,
    ∀ below ∈ use.headers ++ use.body, line.number < below.number
  headers : (use.request :: use.headers).Pairwise fun above below => above.number < below.number
  body : ∀ line ∈ use.request :: use.headers, ∀ below ∈ use.body, line.number < below.number
  handler : ∀ line ∈ use.body, ∀ below ∈ use.handler, line.number < below.number

variable {filename : String} {use : SectionUse} {part : RequestSection}

theorem Arranges.ordered (h : use.Arranges filename part) : use.Ordered := by
  have hpairwise := h.pairwise
  simp only [lines, List.pairwise_append, List.pairwise_cons, List.mem_append, List.mem_cons,
    List.cons_append] at hpairwise
  obtain ⟨-, ⟨-, ⟨hrequest, -, ⟨hheaders, ⟨-, -, hbody⟩, hheader⟩, hcontinuation⟩, hpre⟩, -⟩ :=
    hpairwise
  constructor
  · exact fun line hline => hpre line hline use.request (Or.inl rfl)
  · simp only [List.forall_mem_cons, List.mem_append]
    constructor
    · exact fun below hbelow => hrequest below (by tauto)
    · exact fun line hline below hbelow => hcontinuation line hline below (by tauto)
  · exact List.pairwise_cons.2 ⟨fun below hbelow => hrequest below (by tauto), hheaders⟩
  · simp only [List.forall_mem_cons]
    constructor
    · exact fun below hbelow => hrequest below (by tauto)
    · exact fun line hline below hbelow => hheader line hline below (Or.inl hbelow)
  · exact hbody

/-- **What is behind the last significant line** is not reached by the section. -/
theorem Arranges.stop_lt (h : use.Arranges filename part) {last : Line}
    (hlast : use.lines.getLast? = some last) (htrivia : last.isTrivia = true) :
    part.selection.stop.line < last.number := by
  obtain ⟨first, bottom, -, hbottom, hselection⟩ := h.selection
  -- the last significant line is used as well, and it is not this one
  have hsignificant : bottom ∈ use.source.significant := List.mem_of_getLast? hbottom
  rw [hselection]
  rcases eq_or_lt_of_getLast? h.pairwise hlast
    (h.exhausts.significant.subset hsignificant) with rfl | hbelow
  · rw [(SectionLines.mem_significant.1 hsignificant).2] at htrivia
    cases htrivia
  · exact hbelow

end SectionUse

/-! ## The parts of a request -/

/-- The last of the things that stand on lines stands on the last line. -/
theorem forall₂_getLast? {α β : Type} {R : α → β → Prop} {xs : List α} {ys : List β}
    (h : List.Forall₂ R xs ys) {y : β} (hy : ys.getLast? = some y) :
    ∃ x, xs.getLast? = some x ∧ R x y := by
  rw [List.getLast?_eq_head?_reverse] at hy
  have hreverse := List.forall₂_reverse_iff.2 h
  obtain ⟨rest, hrest⟩ := List.head?_eq_some_iff.1 hy
  rw [hrest] at hreverse
  obtain ⟨x, others, hx, -, hothers⟩ := List.forall₂_cons_right_iff.1 hreverse
  refine ⟨x, ?_, hx⟩
  rw [List.getLast?_eq_head?_reverse, hothers, List.head?_cons]

namespace SectionUse

variable {filename : String} {use : SectionUse} {part : RequestSection}

/-- A header reaches over its line from the indentation on. -/
theorem Arranges.exists_headerLine (h : use.Arranges filename part) {header : Header}
    (hheader : header ∈ part.request.headers) :
    ∃ line ∈ use.headers, line ∈ use.source.significant ∧
      header.selection = line.select filename := by
  obtain ⟨line, hline, hstands⟩ := exists_of_mem_forall₂ h.request.headers hheader
  have hmem := h.header_mem hline
  exact ⟨line, hline, SectionLines.mem_significant.2 ⟨hmem, hstands.1⟩,
    (hstands.isOn (h.areLines.unfed line hmem)).2⟩

/-- **Where a request stops**: at or below the end of its own line and of each header line, and
below them when there is a body. -/
theorem Arranges.stop_le_lastStop (h : use.Arranges filename part) {line : Line}
    (hline : line ∈ use.request :: use.headers) :
    line.stop ≤ part.request.lastStop use.request := by
  have hordered := h.ordered
  cases hbody : part.request.body with
  | some body =>
    obtain ⟨last, hlast, hstop⟩ := (h.request.body.of_some hbody).spans.exists_last
    have hless := hordered.body line hline last (List.mem_of_getLast? hlast)
    rw [RequestTemplate.lastStop, hbody, Position.le_iff]
    left
    show line.number < body.selection.stop.line
    omega
  | none =>
    cases hheader : part.request.headers.getLast? with
    | none =>
      -- only the request line is left
      have hnone : use.headers = [] := by
        have hheaders := h.request.headers
        rw [List.getLast?_eq_none_iff.1 hheader] at hheaders
        exact List.forall₂_nil_right_iff.1 hheaders
      rw [hnone, List.mem_singleton] at hline
      rw [RequestTemplate.lastStop, hbody, hheader, hline]
    | some header =>
      obtain ⟨last, hlast, hstands⟩ := forall₂_getLast? h.request.headers hheader
      have hmem := h.header_mem (List.mem_of_getLast? hlast)
      rw [RequestTemplate.lastStop, hbody, hheader]
      simp only [(hstands.isOn (h.areLines.unfed last hmem)).2, Line.select]
      have hlast : (use.request :: use.headers).getLast? = some last := by
        rw [List.getLast?_cons, hlast, Option.getD_some]
      rcases eq_or_lt_of_getLast? hordered.headers hlast hline with rfl | hbelow
      · exact le_refl _
      · exact Or.inl hbelow

/-- When another part follows, a request stops below the lines of its target. -/
theorem Arranges.lt_lastStop (h : use.Arranges filename part)
    (hfollows : part.request.headers ≠ [] ∨ part.request.body ≠ none) {line : Line}
    (hline : line ∈ use.request :: use.continuations) :
    line.number < (part.request.lastStop use.request).line := by
  have hordered := h.ordered
  cases hbody : part.request.body with
  | some body =>
    obtain ⟨last, hlast, hstop⟩ := (h.request.body.of_some hbody).spans.exists_last
    have hless := hordered.continuations line hline last
      (List.mem_append_right _ (List.mem_of_getLast? hlast))
    rw [RequestTemplate.lastStop, hbody]
    show line.number < body.selection.stop.line
    omega
  | none =>
    obtain ⟨header, hheader⟩ := List.exists_mem_of_ne_nil _ (hfollows.resolve_right (· hbody))
    obtain ⟨below, hbelow, -, -⟩ := h.exists_headerLine hheader
    have hless := hordered.continuations line hline below (List.mem_append_left _ hbelow)
    have hstop := h.stop_le_lastStop (List.mem_cons_of_mem _ hbelow)
    rw [Position.le_iff] at hstop
    simp only [Line.stop] at hstop
    omega

/-- A written method lies within the request. -/
theorem Arranges.method_within (h : use.Arranges filename part)
    (hmethod : part.request.methodSelection ≠ Selection.none) :
    part.request.methodSelection.Within part.request.selection := by
  obtain ⟨hstart, hcovers⟩ := h.request.method.resolve_left hmethod
  have hfirst : [use.request] <:+: use.request :: use.continuations :=
    (List.prefix_append [use.request] use.continuations).isInfix
  have hline : AreLines [use.request] := h.areLines.of_isInfix (hfirst.trans h.neighbours.2.1)
  rw [h.request.selection]
  refine ⟨hcovers.filename, hstart.symm.le, ?_⟩
  exact (hcovers.le_stop hline rfl).trans (h.stop_le_lastStop List.mem_cons_self)

/-- **Whether the target lies within the request.** -/
theorem Arranges.target_within_iff (h : use.Arranges filename part) :
    part.request.target.selection.Within part.request.selection ↔
      part.request.headers ≠ [] ∨ part.request.body ≠ none ∨
        part.request.target.selection.start.line = part.request.target.selection.stop.line := by
  have hblock := h.areLines.of_isInfix h.neighbours.2.1
  have hstartLine := h.request.target.startLine
  have hcovers := h.request.targetText.covers
  have hstart : (⟨use.request.number, use.request.firstColumn⟩ : Position) ≤
      part.request.target.selection.start :=
    Or.inr ⟨hstartLine.symm, h.request.targetColumn⟩
  rw [h.request.selection]
  constructor
  · -- without another part, the request stops on its line
    intro hwithin
    by_contra hnot
    simp only [not_or, not_not] at hnot
    obtain ⟨hheaders, hbody, hlonger⟩ := hnot
    have hstop := hwithin.stop
    have hforwards : part.request.target.selection.start ≤ part.request.target.selection.stop := by
      rw [hcovers.stop]
      exact Position.le_after _ _
    rw [RequestTemplate.lastStop, hbody, hheaders, List.getLast?_nil] at hstop
    simp only [Position.le_iff, Line.stop] at hstop hforwards
    omega
  · intro hshort
    refine ⟨hcovers.filename, hstart, ?_⟩
    obtain ⟨last, hlast⟩ : ∃ last, (use.request :: use.continuations).getLast? = some last :=
      ⟨_, List.getLast?_cons⟩
    have hstop := hcovers.le_stop hblock hlast
    rw [← or_assoc] at hshort
    rcases hshort with hfollows | hsame
    · have hbelow := h.lt_lastStop hfollows (List.mem_of_getLast? hlast)
      exact hstop.trans (Or.inl hbelow)
    · -- a target on one line stops on the request line
      obtain ⟨line, hline, hnumber, -, hcolumn⟩ := (hcovers.quotes hblock).stop
      obtain rfl : line = use.request := hblock.consecutive.eq_of_number hline List.mem_cons_self
        (by omega)
      exact le_trans (b := use.request.stop) (Or.inr ⟨hnumber, hcolumn⟩)
        (h.stop_le_lastStop List.mem_cons_self)

/-- **The parts of a request** lie within it. -/
theorem Arranges.request_nests (h : use.Arranges filename part) : part.request.Nests := by
  have hordered := h.ordered
  refine ⟨h.method_within, ?_, ?_, h.target_within_iff⟩
  · intro header hheader
    obtain ⟨line, hline, -, hselection⟩ := h.exists_headerLine hheader
    rw [h.request.selection, hselection]
    have hbelow := (List.pairwise_cons.1 hordered.headers).1 line hline
    exact ⟨rfl, Or.inl hbelow, h.stop_le_lastStop (List.mem_cons_of_mem _ hline)⟩
  · intro body hbody
    have hfills := h.request.body.of_some hbody
    obtain ⟨first, last, hfirst, -, hstart, -⟩ := hfills.spans
    have hbelow := hordered.body use.request List.mem_cons_self first (List.mem_of_head? hfirst)
    rw [h.request.selection]
    refine ⟨hfills.isOn.covers.filename, ?_, ?_⟩
    · left
      show use.request.number < body.selection.start.line
      omega
    · rw [RequestTemplate.lastStop, Option.mem_def.1 hbody]

/-! ## The parts of a section -/

theorem Arranges.request_significant (h : use.Arranges filename part) :
    use.request ∈ use.source.significant :=
  SectionLines.mem_significant.2
    ⟨h.neighbours.2.1.subset List.mem_cons_self, h.significant⟩

/-- The line that opens a response handler is significant. -/
theorem Arranges.exists_opening (h : use.Arranges filename part) {handler : Handler}
    (hhandler : part.handler = some handler) :
    ∃ line, use.handler.head? = some line ∧ line ∈ use.source.significant ∧
      handler.selection.start = ⟨line.number, line.firstColumn⟩ := by
  obtain ⟨line, hline, hopens, hstart⟩ := (h.handler.of_some hhandler).opens
  refine ⟨line, hline, SectionLines.mem_significant.2 ⟨?_, ?_⟩, hstart⟩
  · exact h.neighbours.2.2.2.subset (List.mem_of_head? hline)
  · exact Line.isTrivia_of_opensScript hopens (by decide) (by decide)

section Around

variable {around : List Line} (h : use.Arranges filename part)
  (hseparated : use.source.separator.toList ++ use.source.lines <:+: around)
  (haround : AreLines around)

include h hseparated haround

/-- What begins on a significant line lies within the section if it stops there. -/
theorem Arranges.within_iff {inner : Selection} (hfile : inner.filename = filename) {above : Line}
    (habove : above ∈ use.source.significant) (hstart : ⟨above.number, 1⟩ ≤ inner.start) :
    inner.Within part.selection ↔ inner.stop ≤ part.selection.stop := by
  have hlines := (haround.of_isInfix hseparated).consecutive
  have hsame : part.selection.filename = filename := by
    obtain ⟨first, last, -, -, hselection⟩ := h.selection
    rw [hselection]
  exact ⟨fun hwithin => hwithin.stop, fun hstop =>
    ⟨hfile.trans hsame.symm, (h.selection.start_le hlines habove).trans hstart, hstop⟩⟩

/-- What stands on neighbouring lines lies within the section if the first of these is significant
and they end at or above a significant line. -/
theorem Arranges.within_of_covers {inner : Selection} {block : List Line} {text : List Char}
    (hcovers : inner.Covers filename block text) (hblock : block <:+: use.source.lines)
    {first last below : Line} (hfirst : block.head? = some first)
    (hlast : block.getLast? = some last) (hsignificant : first ∈ use.source.significant)
    (hbelow : below ∈ use.source.significant) (hstop : last.stop ≤ below.stop) :
    inner.Within part.selection := by
  have hstart := hcovers.start_le
  rw [linesStart, hfirst] at hstart
  refine (h.within_iff hseparated haround hcovers.filename hsignificant hstart).2 ?_
  have hend := hcovers.le_stop (h.areLines.of_isInfix hblock) hlast
  exact hend.trans (hstop.trans (h.selection.le_stop h.areLines.consecutive hbelow))

/-- **Whether the last part stops within the section**: it stops on a significant line. -/
theorem Arranges.last_stop_le_iff {above block : List Line} (hend : use.lines = above ++ block)
    {inner : Selection} {text : List Char} (hcovers : inner.Covers filename block text)
    (hspans : Spans inner block) (hblock : block <:+: use.source.lines) :
    inner.stop ≤ part.selection.stop ↔ inner.StopsSignificantly around := by
  have hwithin := (List.suffix_append _ _).isInfix.trans hseparated
  obtain ⟨last, hlast, hstop⟩ := hspans.exists_last
  rw [hspans.stopsSignificantly_iff hlast (hblock.trans hwithin) haround.consecutive]
  constructor
  · -- a blank line or a comment at the end is the last line that is used
    intro hreached
    rw [Bool.eq_false_iff]
    intro htrivia
    have hless := h.stop_lt
      (by rw [hend, List.getLast?_append, hlast, Option.some_or]) htrivia
    rw [Position.le_iff] at hreached
    omega
  · intro htrivia
    refine (hcovers.le_stop (h.areLines.of_isInfix hblock) hlast).trans ?_
    refine h.selection.le_stop h.areLines.consecutive (SectionLines.mem_significant.2 ⟨?_, htrivia⟩)
    exact hblock.subset (List.mem_of_getLast? hlast)

/-- **Whether a body stops within the section**: it stops on a significant line, or the response
handler stands below it. -/
theorem Arranges.body_stop_le_iff {body : Template} (hbody : part.request.body = some body) :
    body.selection.stop ≤ part.selection.stop ↔
      part.handler ≠ none ∨ body.selection.StopsSignificantly around := by
  have hfills := h.request.body.of_some hbody
  have hblock := h.neighbours.2.2.1
  cases hhandler : part.handler with
  | none =>
    have hend : use.lines = use.declarations ++ (use.preHandler ++
        (use.request :: use.continuations ++ use.headers)) ++ use.body := by
      simp [lines, h.handler.of_none hhandler]
    rw [h.last_stop_le_iff hseparated haround hend hfills.isOn.covers hfills.spans hblock]
    simp
  | some handler =>
    obtain ⟨last, hlast, -⟩ := hfills.spans.exists_last
    obtain ⟨opening, hopening, hsignificant, -⟩ := h.exists_opening hhandler
    have hbelow := h.ordered.handler last (List.mem_of_getLast? hlast)
      opening (List.mem_of_head? hopening)
    have hopeningStop := h.selection.le_stop h.areLines.consecutive hsignificant
    refine iff_of_true ?_ (Or.inl (Option.some_ne_none handler))
    exact (hfills.isOn.covers.le_stop (h.areLines.of_isInfix hblock) hlast).trans
      (le_trans (b := opening.stop) (Or.inl hbelow) hopeningStop)

/-! ### Part by part -/

theorem Arranges.declaration_within {declaration : Declaration}
    (hdeclaration : declaration ∈ part.declarations) :
    declaration.2.selection.Within part.selection := by
  obtain ⟨line, hline, hstands⟩ := exists_of_mem_forall₂ h.declarations hdeclaration
  have hmem := h.declaration_mem hline
  have hsignificant : line ∈ use.source.significant :=
    SectionLines.mem_significant.2 ⟨hmem, Line.isTrivia_of_opensDeclaration hstands.1⟩
  exact h.within_of_covers hseparated haround (hstands.isOn (h.areLines.unfed line hmem)).covers
    ((List.singleton_infix_iff _ _).2 hmem) rfl rfl hsignificant hsignificant (le_refl _)

theorem Arranges.preHandler_within {handler : Handler} (hfound : part.preHandler = some handler) :
    handler.selection.Within part.selection := by
  have hblock := h.neighbours.1
  have hstands := h.preHandler.of_some hfound
  obtain ⟨first, hfirst, hopens, -⟩ := hstands.opens
  obtain ⟨gap, inner, -, -, hcovers, -⟩ := hstands.text
  obtain ⟨last, hlast, -⟩ := hstands.spans.exists_last
  have hsignificant : first ∈ use.source.significant :=
    SectionLines.mem_significant.2 ⟨hblock.subset (List.mem_of_head? hfirst),
      Line.isTrivia_of_opensScript hopens (by decide) (by decide)⟩
  have habove := h.ordered.preHandler last (List.mem_of_getLast? hlast)
  exact h.within_of_covers hseparated haround hcovers hblock hfirst hlast hsignificant
    h.request_significant (Or.inl habove)

/-- A target lies within the section, since the lines that continue it are no trivia. -/
theorem Arranges.target_within : part.request.target.selection.Within part.selection := by
  have hblock := h.neighbours.2.1
  obtain ⟨last, hlast⟩ : ∃ last, (use.request :: use.continuations).getLast? = some last :=
    ⟨_, List.getLast?_cons⟩
  have hmem := List.mem_of_getLast? hlast
  have hsignificant : last.isTrivia = false := by
    rcases List.mem_cons.1 hmem with rfl | hcontinues
    · exact h.significant
    · exact Line.isTrivia_of_continuesTarget (h.request.target.continues last hcontinues)
  exact h.within_of_covers hseparated haround h.request.targetText.covers hblock rfl hlast
    h.request_significant (SectionLines.mem_significant.2 ⟨hblock.subset hmem, hsignificant⟩)
    (le_refl _)

theorem Arranges.header_within {header : Header} (hheader : header ∈ part.request.headers) :
    header.selection.Within part.selection := by
  obtain ⟨line, -, hsignificant, hselection⟩ := h.exists_headerLine hheader
  have hstart : (⟨line.number, 1⟩ : Position) ≤ ⟨line.number, line.firstColumn⟩ :=
    Or.inr ⟨rfl, Nat.le_add_left _ _⟩
  rw [hselection]
  exact (h.within_iff hseparated haround rfl hsignificant hstart).2
    (h.selection.le_stop h.areLines.consecutive hsignificant)

theorem Arranges.body_within_iff {body : Template} (hbody : part.request.body = some body) :
    body.selection.Within part.selection ↔
      part.handler ≠ none ∨ body.selection.StopsSignificantly around := by
  have hfills := h.request.body.of_some hbody
  obtain ⟨first, -, hfirst, -, hstart, -⟩ := hfills.spans
  have hbelow := h.ordered.body use.request List.mem_cons_self first
    (List.mem_of_head? hfirst)
  rw [← h.body_stop_le_iff hseparated haround hbody]
  refine h.within_iff hseparated haround hfills.isOn.covers.filename h.request_significant ?_
  left
  show use.request.number < body.selection.start.line
  omega

/-- A request lies within the section exactly if its body does. -/
theorem Arranges.request_within_iff :
    part.request.selection.Within part.selection ↔ ∀ body ∈ part.request.body,
      part.handler ≠ none ∨ body.selection.StopsSignificantly around := by
  have hstart : (⟨use.request.number, 1⟩ : Position) ≤
      ⟨use.request.number, use.request.firstColumn⟩ := Or.inr ⟨rfl, Nat.le_add_left _ _⟩
  rw [h.request.selection, h.within_iff hseparated haround rfl h.request_significant hstart]
  cases hbody : part.request.body with
  | some body =>
    rw [RequestTemplate.lastStop, hbody]
    simp only [Option.mem_some_iff, forall_eq']
    exact h.body_stop_le_iff hseparated haround hbody
  | none =>
    refine iff_of_true ?_ (fun _ hmem => absurd hmem (Option.not_mem_none _))
    rw [RequestTemplate.lastStop, hbody]
    cases hheader : part.request.headers.getLast? with
    | none => exact h.selection.le_stop h.areLines.consecutive h.request_significant
    | some header =>
      obtain ⟨line, -, hsignificant, hselection⟩ :=
        h.exists_headerLine (List.mem_of_getLast? hheader)
      simp only [hselection]
      exact h.selection.le_stop h.areLines.consecutive hsignificant

theorem Arranges.handler_within_iff {handler : Handler} (hhandler : part.handler = some handler) :
    handler.selection.Within part.selection ↔ handler.selection.StopsSignificantly around := by
  have hstands := h.handler.of_some hhandler
  obtain ⟨line, -, hsignificant, hstart⟩ := h.exists_opening hhandler
  obtain ⟨gap, inner, -, -, hcovers, -⟩ := hstands.text
  have hend : use.lines = use.declarations ++ (use.preHandler ++
      (use.request :: use.continuations ++ (use.headers ++ use.body))) ++ use.handler := by
    simp [lines]
  rw [← h.last_stop_le_iff hseparated haround hend hcovers hstands.spans h.neighbours.2.2.2]
  refine h.within_iff hseparated haround hcovers.filename hsignificant ?_
  rw [hstart]
  exact Or.inr ⟨rfl, Nat.le_add_left _ _⟩

/-- **The parts of a section** lie within it. -/
theorem Arranges.nests : part.Nests around where
  declarations _ := h.declaration_within hseparated haround
  preHandler _ := h.preHandler_within hseparated haround
  target := h.target_within hseparated haround
  headers _ := h.header_within hseparated haround
  body _ := h.body_within_iff hseparated haround
  request := h.request_within_iff hseparated haround
  handler _ := h.handler_within_iff hseparated haround

end Around

end SectionUse

/-- **Selections nest.** In a document that is read, the parts of each request lie within the
request, but for a target on several lines that no other part follows. The parts of each section lie
within the section, but for a body with a comment as its last line that no response handler follows,
the request of such a body, and a response handler that closes on a line which looks like a
comment. -/
theorem Document.read_nests (filename source : String) (document : Document)
    (h : Document.read filename source = .ok document) :
    ∀ part ∈ document.sections, part.request.Nests ∧ part.Nests (sourceLines source) := by
  intro part hpart
  have hlines := areLines_sourceLines source
  obtain ⟨use, huse, harranges⟩ := Document.exists_arrangement h hpart
  have hseparated := separated_infix_of_mem_sectionsOf huse
  exact ⟨harranges.request_nests, harranges.nests hseparated hlines⟩

/-- A target on two lines, a body that ends with a comment, and a script that closes on a line which
looks like a comment. -/
def nestingSource : String :=
  "GET a\n\tb\n###\nPOST a\n\nc\n# d\n###\nGET a\n\n> \x7b%\n// %\x7d"

/-- None of the three lies within what it belongs to. -/
theorem Document.read_nests_nestingSource :
    ∃ document, Document.read "items.http" nestingSource = .ok document ∧
      ∃ first second third, document.sections = [first, second, third] ∧
        ¬ first.request.target.selection.Within first.request.selection ∧
          ¬ second.request.selection.Within second.selection ∧
            ∀ handler ∈ third.handler, ¬ handler.selection.Within third.selection := by
  let stops (part : RequestSection) : List Nat :=
    [part.request.headers.length, part.request.target.selection.start.line,
      part.request.target.selection.stop.line,
      part.request.body.elim 0 fun body => body.selection.stop.line + 1,
      part.handler.elim 0 fun handler => handler.selection.stop.line + 1]
  have hread : (Document.read "items.http" nestingSource).toOption.map (fun document =>
      document.sections.map stops) = some [[0, 1, 2, 0, 0], [0, 4, 4, 8, 0], [0, 9, 9, 0, 13]] := by
    decide +kernel
  have htrivia : ∀ n ∈ [7, 12], ∀ line ∈ sourceLines nestingSource,
      line.number = n → line.isTrivia = true := by decide +kernel
  cases h : Document.read "items.http" nestingSource with
  | error e =>
    rw [h] at hread
    cases hread
  | ok document =>
    have hnests := Document.read_nests "items.http" nestingSource document h
    rw [h] at hread
    obtain ⟨first, rest, hsections, hfirst, hrest⟩ :=
      List.map_eq_cons_iff.1 (Option.some.inj hread)
    obtain ⟨second, more, rfl, hsecond, hmore⟩ := List.map_eq_cons_iff.1 hrest
    obtain ⟨third, none, rfl, hthird, hnone⟩ := List.map_eq_cons_iff.1 hmore
    obtain rfl := List.map_eq_nil_iff.1 hnone
    rw [hsections] at hnests
    simp only [stops, List.cons.injEq, List.length_eq_zero_iff, and_true] at hfirst hsecond hthird
    refine ⟨document, rfl, first, second, third, hsections, ?_, ?_, ?_⟩
    · obtain ⟨hheaders, hstart, hstop, hbody, -⟩ := hfirst
      obtain ⟨hrequest, -⟩ := hnests first (by simp)
      rw [hrequest.target, hheaders, hstart, hstop]
      cases hfound : first.request.body with
      | none => simp
      | some body => simp [hfound] at hbody
    · obtain ⟨-, -, -, hbody, hhandler⟩ := hsecond
      obtain ⟨-, hsection⟩ := hnests second (by simp)
      rw [hsection.request]
      intro hstops
      cases hfound : second.request.body with
      | none => simp [hfound] at hbody
      | some body =>
        rw [hfound, Option.elim_some] at hbody
        rcases hstops body hfound with hsome | ⟨line, hline, hnumber, hsignificant⟩
        · cases hresponse : second.handler with
          | none => exact hsome hresponse
          | some handler => simp [hresponse] at hhandler
        · rw [htrivia 7 (by simp) line hline (by omega)] at hsignificant
          cases hsignificant
    · obtain ⟨-, -, -, -, hhandler⟩ := hthird
      obtain ⟨-, hsection⟩ := hnests third (by simp)
      intro handler hfound
      rw [hsection.handler handler hfound]
      rw [Option.mem_def.1 hfound, Option.elim_some] at hhandler
      rintro ⟨line, hline, hnumber, hsignificant⟩
      rw [htrivia 12 (by simp) line hline (by omega)] at hsignificant
      cases hsignificant

end RequestRunner
