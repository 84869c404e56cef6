import RequestRunner.Proofs.Document.Arrangement
import RequestRunner.Proofs.Document.Lowering

/-!
# Making room for a line

When a line is put in directly below line `k`, the lines below it are counted one further and those
above keep their numbers. `shifted k` counts the parts of a document in this way. Parts that stand
below the gap are moved one line down, and a reader that is carried down gives shifted parts there
(`read_shifted`). Parts that stand above the gap are not changed at all: what a section has is
arranged on its lines, so a section above the gap is the same section
(`SectionUse.Arranges.shifted_eq`).
-/

set_option autoImplicit false

namespace RequestRunner

/-! ## Shifting -/

/-- The number of a line when another one is put in directly below line `k`. -/
def shift (k n : Nat) : Nat := if k < n then n + 1 else n

/-- The position when a line is put in below line `k`. -/
def Position.shifted (k : Nat) (p : Position) : Position := ⟨shift k p.line, p.column⟩

/-- The selection when a line is put in below line `k`. -/
def Selection.shifted (k : Nat) (s : Selection) : Selection :=
  ⟨s.filename, s.start.shifted k, s.stop.shifted k⟩

/-- The line when another one is put in below line `k`. -/
def Line.shifted (k : Nat) (l : Line) : Line := ⟨shift k l.number, l.text⟩

/-- The placeholder when a line is put in below line `k`. -/
def Placeholder.shifted (k : Nat) (placeholder : Placeholder) : Placeholder :=
  { placeholder with selection := placeholder.selection.shifted k }

/-- The template when a line is put in below line `k`. -/
def Template.shifted (k : Nat) (template : Template) : Template :=
  ⟨template.text, template.placeholders.map (Placeholder.shifted k), template.selection.shifted k⟩

/-- The declaration when a line is put in below line `k`. -/
def Declaration.shifted (k : Nat) (declaration : Declaration) : Declaration :=
  (declaration.1, declaration.2.shifted k)

/-- The header when a line is put in below line `k`. -/
def Header.shifted (k : Nat) (header : Header) : Header :=
  ⟨header.name, header.value.shifted k, header.selection.shifted k⟩

/-- The handler when a line is put in below line `k`. -/
def Handler.shifted (k : Nat) (handler : Handler) : Handler :=
  ⟨handler.script, handler.selection.shifted k⟩

/-- The request when a line is put in below line `k`. -/
def RequestTemplate.shifted (k : Nat) (request : RequestTemplate) : RequestTemplate :=
  ⟨request.method, request.methodSelection.shifted k, request.target.shifted k,
    request.headers.map (Header.shifted k), request.body.map (Template.shifted k),
    request.selection.shifted k⟩

/-- The section when a line is put in below line `k`. -/
def RequestSection.shifted (k : Nat) (part : RequestSection) : RequestSection :=
  ⟨part.name, part.declarations.map (Declaration.shifted k),
    part.preHandler.map (Handler.shifted k), part.request.shifted k,
    part.handler.map (Handler.shifted k), part.selection.shifted k⟩

/-- The document when a line is put in below line `k`: every line number of a selection that is
greater than `k` is one larger. -/
def Document.shifted (k : Nat) (document : Document) : Document :=
  ⟨document.filename, document.sections.map (RequestSection.shifted k)⟩

variable {k n : Nat}

theorem shift_of_lt (h : k < n) : shift k n = n + 1 := if_pos h

theorem shift_of_le (h : n ≤ k) : shift k n = n := if_neg (Nat.not_lt.2 h)

theorem shift_add (k n : Nat) : shift k (n + (k + 1)) = n + (k + 2) :=
  shift_of_lt (by omega)

/-! ## Below the gap -/

@[simp] theorem Position.shifted_down (p : Position) :
    (p.down (k + 1)).shifted k = p.down (k + 2) := by
  simp only [shifted, down, shift_add]

@[simp] theorem Selection.shifted_down (s : Selection) :
    (s.down (k + 1)).shifted k = s.down (k + 2) := by
  simp only [shifted, down, Position.shifted_down]

@[simp] theorem Line.shifted_down (l : Line) : (l.down (k + 1)).shifted k = l.down (k + 2) := by
  simp only [shifted, down, shift_add]

@[simp] theorem Placeholder.shifted_down (placeholder : Placeholder) :
    (placeholder.down (k + 1)).shifted k = placeholder.down (k + 2) := by
  simp only [shifted, down, Selection.shifted_down]

@[simp] theorem Template.shifted_down (template : Template) :
    (template.down (k + 1)).shifted k = template.down (k + 2) := by
  simp [shifted, down, Function.comp_def]

@[simp] theorem Declaration.shifted_down (declaration : Declaration) :
    Declaration.shifted k (declaration.down (k + 1)) = declaration.down (k + 2) := by
  simp [shifted, down]

@[simp] theorem Header.shifted_down (header : Header) :
    (header.down (k + 1)).shifted k = header.down (k + 2) := by
  simp [shifted, down]

@[simp] theorem Handler.shifted_down (handler : Handler) :
    (handler.down (k + 1)).shifted k = handler.down (k + 2) := by
  simp [shifted, down]

theorem Selection.shifted_none : Selection.none.shifted k = Selection.none := by
  have hline : shift k 0 = 0 := shift_of_le (Nat.zero_le k)
  simp [shifted, Position.shifted, none, hline]

@[simp] theorem Selection.shifted_downIfWritten (s : Selection) :
    (s.downIfWritten (k + 1)).shifted k = s.downIfWritten (k + 2) := by
  unfold downIfWritten
  split
  · exact shifted_none
  · exact shifted_down s

@[simp] theorem RequestTemplate.shifted_down (request : RequestTemplate) :
    (request.down (k + 1)).shifted k = request.down (k + 2) := by
  simp [shifted, down, Function.comp_def]

@[simp] theorem RequestSection.shifted_down (part : RequestSection) :
    (part.down (k + 1)).shifted k = part.down (k + 2) := by
  simp [shifted, down, Function.comp_def]

theorem RequestTemplate.lastStop_shifted (request : RequestTemplate) (line : Line) :
    (request.shifted k).lastStop (line.shifted k) = (request.lastStop line).shifted k := by
  unfold lastStop shifted
  dsimp only
  rw [List.getLast?_map]
  cases request.body with
  | some body => rfl
  | none =>
    cases request.headers.getLast? with
    | some header => rfl
    | none => rfl

/-- Lines below the gap are some other lines that were moved down, and shifting them moves those
lines once more. -/
theorem exists_map_down {lines : List Line} (h : ∀ l ∈ lines, k < l.number) :
    ∃ above : List Line, lines = above.map (Line.down (k + 1)) ∧
      lines.map (Line.shifted k) = above.map (Line.down (k + 2)) := by
  have hback : ∀ l ∈ lines, Line.down (k + 1) ⟨l.number - (k + 1), l.text⟩ = l := by
    intro l hl
    have hnumber := h l hl
    have hsub : l.number - (k + 1) + (k + 1) = l.number := by omega
    simp only [Line.down, hsub]
  have hlines : lines =
      (lines.map fun l => Line.mk (l.number - (k + 1)) l.text).map (Line.down (k + 1)) := by
    rw [List.map_map]
    exact ((List.map_congr_left hback).trans (List.map_id _)).symm
  refine ⟨_, hlines, ?_⟩
  conv_lhs => rw [hlines]
  simp [Function.comp_def]

/-- **A reader that is carried down** gives shifted parts below the gap. -/
theorem read_shifted {α β : Type} (read : α → Except ParseError β) (lower : Nat → α → α)
    (down : Nat → β → β) (shifted : β → β) {a : α} {b : β}
    (hread : ∀ n a, read (lower n a) = lowered n (down n) (read a))
    (hshifted : ∀ b, shifted (down (k + 1) b) = down (k + 2) b)
    (h : read (lower (k + 1) a) = .ok b) : read (lower (k + 2) a) = .ok (shifted b) := by
  rw [hread] at h ⊢
  cases hok : read a with
  | error e =>
    rw [hok] at h
    cases h
  | ok above =>
    rw [hok] at h
    cases h
    exact congrArg Except.ok (hshifted above).symm

/-! ## Above the gap -/

theorem Line.shifted_eq {l : Line} (h : l.number ≤ k) : l.shifted k = l := by
  simp only [shifted, shift_of_le h]

theorem Position.shifted_eq {p : Position} (h : p.line ≤ k) : p.shifted k = p := by
  simp only [shifted, shift_of_le h]

theorem Selection.shifted_eq {s : Selection} (hstart : s.start.line ≤ k)
    (hstop : s.stop.line ≤ k) : s.shifted k = s := by
  simp only [shifted, Position.shifted_eq hstart, Position.shifted_eq hstop]

/-- Nothing that stands above the gap is changed. -/
theorem map_shifted_eq {α : Type} {shifted : α → α} {parts : List α}
    (h : ∀ part ∈ parts, shifted part = part) : parts.map shifted = parts :=
  (List.map_congr_left h).trans (List.map_id _)

section Above

variable {filename : String} {lines : List Line}

theorem Selection.Covers.shifted_eq {selection : Selection} {text : List Char}
    (h : selection.Covers filename lines text) (hlines : AreLines lines)
    (habove : ∀ l ∈ lines, l.number ≤ k) : selection.shifted k = selection := by
  have hquotes := h.quotes hlines
  obtain ⟨first, hfirst, hstart, -⟩ := hquotes.start
  obtain ⟨last, hlast, hstop, -⟩ := hquotes.stop
  apply Selection.shifted_eq
  · rw [hstart]
    exact habove first hfirst
  · rw [hstop]
    exact habove last hlast

theorem Template.IsOn.shifted_eq {template : Template} (h : template.IsOn filename lines)
    (hlines : AreLines lines) (habove : ∀ l ∈ lines, l.number ≤ k) :
    template.shifted k = template := by
  have hplaceholders : template.placeholders.map (Placeholder.shifted k) =
      template.placeholders := by
    refine map_shifted_eq fun placeholder hmem => ?_
    simp only [Placeholder.shifted, (h.placeholders placeholder hmem).shifted_eq hlines habove]
  simp only [Template.shifted, hplaceholders, h.covers.shifted_eq hlines habove]

/-- One line is a line of a source, if it has no line feed inside. -/
theorem areLines_singleton {line : Line} (hunfed : '\n' ∉ line.text) : AreLines [line] :=
  ⟨List.isChain_singleton _, List.forall_mem_singleton.2 hunfed⟩

theorem Declaration.StandsOn.shifted_eq {line : Line} {declaration : Declaration}
    (h : Declaration.StandsOn filename line declaration) (hunfed : '\n' ∉ line.text)
    (habove : line.number ≤ k) : declaration.shifted k = declaration := by
  have hvalue := (h.isOn hunfed).shifted_eq (areLines_singleton hunfed)
    (List.forall_mem_singleton.2 habove)
  simp only [Declaration.shifted, hvalue]

theorem Header.StandsOn.shifted_eq {line : Line} {header : Header}
    (h : Header.StandsOn filename line header) (hunfed : '\n' ∉ line.text)
    (habove : line.number ≤ k) : header.shifted k = header := by
  obtain ⟨hvalue, hselection⟩ := h.isOn hunfed
  have hvalue := hvalue.shifted_eq (areLines_singleton hunfed)
    (List.forall_mem_singleton.2 habove)
  have hselection : header.selection.shifted k = header.selection := by
    rw [hselection]
    exact Selection.shifted_eq habove habove
  simp only [Header.shifted, hvalue, hselection]

theorem Method.StandsOn.shifted_eq {line : Line} {method : Method} {selection : Selection}
    (h : method.StandsOn filename line selection) (hunfed : '\n' ∉ line.text)
    (habove : line.number ≤ k) : selection.shifted k = selection := by
  rcases h with rfl | ⟨-, hcovers⟩
  · exact Selection.shifted_none
  · exact hcovers.shifted_eq (areLines_singleton hunfed) (List.forall_mem_singleton.2 habove)

theorem Spans.shifted_eq {selection : Selection} (h : Spans selection lines)
    (habove : ∀ l ∈ lines, l.number ≤ k) : selection.shifted k = selection := by
  obtain ⟨first, last, hfirst, hlast, hstart, hstop⟩ := h
  apply Selection.shifted_eq
  · rw [hstart]
    exact habove first (List.mem_of_head? hfirst)
  · rw [hstop]
    exact habove last (List.mem_of_getLast? hlast)

theorem Handler.StandsOn.shifted_eq {marker : Marker} {handler : Handler}
    (h : handler.StandsOn filename marker lines) (habove : ∀ l ∈ lines, l.number ≤ k) :
    handler.shifted k = handler := by
  simp only [Handler.shifted, h.spans.shifted_eq habove]

/-- A part that may be missing is not changed above the gap. -/
theorem PartOn.map_shifted_eq {α : Type} {stands : List Line → α → Prop} {part : Option α}
    (h : PartOn stands lines part) (shifted : α → α)
    (hshifted : ∀ found, stands lines found → shifted found = found) :
    part.map shifted = part := by
  cases part with
  | none => rfl
  | some found => exact congrArg some (hshifted found h)

theorem RequestTemplate.StandsOn.shifted_eq {request : RequestTemplate} {line : Line}
    {continuations headers body : List Line} (hlines : AreLines lines)
    (h : request.StandsOn filename line continuations headers body)
    (htarget : line :: continuations <:+: lines) (hheaders : ∀ l ∈ headers, l ∈ lines)
    (hbody : body <:+: lines) (habove : ∀ l ∈ lines, l.number ≤ k) :
    request.shifted k = request := by
  have hline : line ∈ lines := htarget.subset List.mem_cons_self
  have hmethod := h.method.shifted_eq (hlines.unfed line hline) (habove line hline)
  have htext := (h.targetText.of_isInfix htarget hlines).shifted_eq hlines habove
  have hvalues : request.headers.map (Header.shifted k) = request.headers := by
    refine RequestRunner.map_shifted_eq fun header hmem => ?_
    obtain ⟨l, hl, hstands⟩ := exists_of_mem_forall₂ h.headers hmem
    exact hstands.shifted_eq (hlines.unfed l (hheaders l hl)) (habove l (hheaders l hl))
  have hfills := h.body.map_shifted_eq (Template.shifted k) fun body hbodyOn =>
    (hbodyOn.isOn.of_isInfix hbody hlines).shifted_eq hlines habove
  -- the request stops with one of its parts, none of which is changed
  have hstop : (request.lastStop line).shifted k = request.lastStop line := by
    rw [← lastStop_shifted, Line.shifted_eq (habove line hline)]
    simp only [lastStop, RequestTemplate.shifted, hvalues, hfills]
  have hstart : Position.shifted k ⟨line.number, line.firstColumn⟩ =
      ⟨line.number, line.firstColumn⟩ := Position.shifted_eq (habove line hline)
  have hselection : request.selection.shifted k = request.selection := by
    rw [h.selection, Selection.shifted, hstart, hstop]
  simp only [RequestTemplate.shifted, hmethod, htext, hvalues, hfills, hselection]

/-- **A section above the gap** is not changed. -/
theorem SectionUse.Arranges.shifted_eq {use : SectionUse} {part : RequestSection}
    (h : use.Arranges filename part) (habove : ∀ l ∈ use.source.lines, l.number ≤ k)
    (hseparator : ∀ l ∈ use.source.separator, l.number ≤ k) : part.shifted k = part := by
  have hlines := h.areLines
  obtain ⟨hpre, hrequest, hbody, hpost⟩ := h.neighbours
  have hdeclarations : part.declarations.map (Declaration.shifted k) = part.declarations := by
    refine map_shifted_eq fun declaration hmem => ?_
    obtain ⟨line, hline, hstands⟩ := exists_of_mem_forall₂ h.declarations hmem
    have hline := h.declaration_mem hline
    exact hstands.shifted_eq (hlines.unfed line hline) (habove line hline)
  have hpreHandler := h.preHandler.map_shifted_eq (Handler.shifted k)
    fun handler hstands => hstands.shifted_eq fun l hl => habove l (hpre.subset hl)
  have hrequest := h.request.shifted_eq hlines hrequest (fun l => h.header_mem) hbody habove
  have hhandler := h.handler.map_shifted_eq (Handler.shifted k)
    fun handler hstands => hstands.shifted_eq fun l hl => habove l (hpost.subset hl)
  obtain ⟨first, last, hfirst, hlast, hselected⟩ := h.selection
  have hmem : ∀ l ∈ use.source.significant, l.number ≤ k :=
    fun l hl => habove l (List.mem_filter.1 hl).1
  have hselection : part.selection.shifted k = part.selection := by
    rw [hselected]
    refine Selection.shifted_eq ?_ (hmem last (List.mem_of_getLast? hlast))
    cases hsource : use.source.separator with
    | none => exact hmem first (List.mem_of_head? hfirst)
    | some separator => exact hseparator separator (hsource ▸ rfl)
  simp only [RequestSection.shifted, hdeclarations, hpreHandler, hrequest, hhandler, hselection]

end Above

end RequestRunner
