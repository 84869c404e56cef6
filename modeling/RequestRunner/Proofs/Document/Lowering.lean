import RequestRunner.Document.Reader

/-!
# Reading further down

Lines that stand so many lines further down are read as they were before: whatever is read of them,
and every fault that is found in them, stands that number of lines further down, and nothing else
changes. `down` moves the parts of a document, `lowered` what a reader gives. There is one lemma for
each reader, and a reader that goes on behind another one is carried by `lowered_bind`. Main
statement: sections further down are the same sections further down (`readSections_down`).
-/

set_option autoImplicit false

namespace RequestRunner

/-! ## Moving down -/

/-- The position so many lines further down. -/
def Position.down (n : Nat) (p : Position) : Position := ⟨p.line + n, p.column⟩

/-- The selection so many lines further down. -/
def Selection.down (n : Nat) (s : Selection) : Selection :=
  ⟨s.filename, s.start.down n, s.stop.down n⟩

/-- The line so many lines further down. -/
def Line.down (n : Nat) (l : Line) : Line := ⟨l.number + n, l.text⟩

/-- The fault so many lines further down. -/
def ParseError.down (n : Nat) (e : ParseError) : ParseError := ⟨e.cause, e.selection.down n⟩

/-- The placeholder so many lines further down. -/
def Placeholder.down (n : Nat) (placeholder : Placeholder) : Placeholder :=
  { placeholder with selection := placeholder.selection.down n }

/-- The template so many lines further down. -/
def Template.down (n : Nat) (template : Template) : Template :=
  ⟨template.text, template.placeholders.map (Placeholder.down n), template.selection.down n⟩

/-- The declaration so many lines further down. -/
def Declaration.down (n : Nat) (declaration : Declaration) : Declaration :=
  (declaration.1, declaration.2.down n)

/-- The header so many lines further down. -/
def Header.down (n : Nat) (header : Header) : Header :=
  ⟨header.name, header.value.down n, header.selection.down n⟩

/-- The handler so many lines further down. -/
def Handler.down (n : Nat) (handler : Handler) : Handler :=
  ⟨handler.script, handler.selection.down n⟩

/-- The place of a method so many lines further down. A method that is not written anywhere stays
there. -/
def Selection.downIfWritten (n : Nat) (s : Selection) : Selection :=
  if s = Selection.none then Selection.none else s.down n

/-- The request so many lines further down. -/
def RequestTemplate.down (n : Nat) (request : RequestTemplate) : RequestTemplate :=
  ⟨request.method, request.methodSelection.downIfWritten n, request.target.down n,
    request.headers.map (Header.down n), request.body.map (Template.down n),
    request.selection.down n⟩

/-- The section so many lines further down. -/
def RequestSection.down (n : Nat) (part : RequestSection) : RequestSection :=
  ⟨part.name, part.declarations.map (Declaration.down n), part.preHandler.map (Handler.down n),
    part.request.down n, part.handler.map (Handler.down n), part.selection.down n⟩

/-- The lines of a section so many lines further down. -/
def SectionLines.down (n : Nat) (source : SectionLines) : SectionLines :=
  ⟨source.separator.map (Line.down n), source.lines.map (Line.down n)⟩

/-- What a reader gives, with the fault moved down, or else what was read. -/
def lowered {α β : Type} (n : Nat) (f : α → β) : Except ParseError α → Except ParseError β
  | .ok a => .ok (f a)
  | .error e => .error (e.down n)

section Lowering

variable {n : Nat}

/-- A reader that goes on behind another one is moved down with it. -/
theorem lowered_bind {α β γ δ : Type} {f : α → γ} {g : β → δ} {first : Except ParseError α}
    {again : Except ParseError γ} {next : α → Except ParseError β} {below : γ → Except ParseError δ}
    (hfirst : again = lowered n f first) (hnext : ∀ a, below (f a) = lowered n g (next a)) :
    again >>= below = lowered n g (first >>= next) := by
  subst hfirst
  cases first with
  | ok a => exact hnext a
  | error e => rfl

/-- A reader that goes one of two ways is moved down on both of them. -/
theorem lowered_ite {α β : Type} {c : Prop} [Decidable c] {f : α → β} {x y : Except ParseError α}
    {u v : Except ParseError β} (hx : u = lowered n f x) (hy : v = lowered n f y) :
    (if c then u else v) = lowered n f (if c then x else y) := by
  split
  · exact hx
  · exact hy

/-! ## Lines and texts -/

@[simp] theorem Line.text_down (l : Line) : (l.down n).text = l.text := rfl

@[simp] theorem Line.isBlank_down (l : Line) : (l.down n).isBlank = l.isBlank := rfl

@[simp] theorem Line.isTrivia_down (l : Line) : (l.down n).isTrivia = l.isTrivia := rfl

@[simp] theorem Line.isComment_down (l : Line) : (l.down n).isComment = l.isComment := rfl

@[simp] theorem Line.isSeparator_down (l : Line) : (l.down n).isSeparator = l.isSeparator := rfl

@[simp] theorem Line.opensDeclaration_down (l : Line) :
    (l.down n).opensDeclaration = l.opensDeclaration := rfl

@[simp] theorem Line.opensHandler_down (l : Line) : (l.down n).opensHandler = l.opensHandler := rfl

@[simp] theorem Line.continuesTarget_down (l : Line) :
    (l.down n).continuesTarget = l.continuesTarget := rfl

theorem Position.after_down (p : Position) (s : List Char) :
    (p.down n).after s = (p.after s).down n := by
  induction s generalizing p with
  | nil => rfl
  | cons c s ih =>
    have hstep : (p.down n).step c = (p.step c).down n := by
      simp only [step, down]
      split
      · simp only [Nat.add_right_comm]
      · rfl
    have hcons : (p.down n).after (c :: s) = ((p.down n).step c).after s := rfl
    rw [hcons, hstep, ih]
    rfl

theorem Template.placeholdersFrom_down (filename : String) (start : Position)
    (holes : List (List Char × List Char)) :
    placeholdersFrom filename (start.down n) holes =
      (placeholdersFrom filename start holes).map (Placeholder.down n) := by
  induction holes generalizing start with
  | nil => rfl
  | cons hole more ih =>
    simp only [placeholdersFrom, Position.after_down, ih, List.map_cons]
    rfl

/-- A template keeps its text when it is moved down. -/
theorem Template.ofText_down (filename : String) (text : List Char) (start : Position) :
    ofText filename text (start.down n) = (ofText filename text start).down n := by
  simp only [ofText, placeholdersFrom_down, Position.after_down]
  rfl

theorem skipTrivia_down (lines : List Line) :
    skipTrivia (lines.map (Line.down n)) = (skipTrivia lines).map (Line.down n) := by
  rw [skipTrivia, List.dropWhile_map]
  rfl

/-! ## Declarations and handlers -/

variable (filename : String)

theorem readDeclarations_down (lines : List Line) :
    readDeclarations filename (lines.map (Line.down n)) =
      lowered n (Prod.map (List.map (Declaration.down n)) (List.map (Line.down n)))
        (readDeclarations filename lines) := by
  induction lines with
  | nil => rfl
  | cons line rest ih =>
    rw [List.map_cons, readDeclarations, readDeclarations]
    simp only [Line.isTrivia_down, Line.opensDeclaration_down, Line.text_down]
    refine lowered_ite ih (lowered_ite ?_ rfl)
    cases declarationParts? line.text with
    | none => rfl
    | some parts =>
      obtain ⟨name, lead, raw⟩ := parts
      refine lowered_bind ih ?_
      intro read
      have hvalue := Template.ofText_down (n := n) filename raw ⟨line.number, Text.units lead + 1⟩
      exact congrArg (fun value => Except.ok ((String.ofList name, value) :: _, _)) hvalue

theorem readScript_down (marker : Marker) (opening : Selection) (line : Line) (inside : List Char)
    (more : List Line) :
    readScript filename marker (opening.down n) (line.down n) inside (more.map (Line.down n)) =
      lowered n (Prod.map id (Prod.map (Position.down n) (List.map (Line.down n))))
        (readScript filename marker opening line inside more) := by
  induction more generalizing line inside with
  | nil =>
    rw [List.map_nil, readScript, readScript]
    cases Text.cut? ['%', '\x7d'] inside with
    | none => rfl
    | some cut => exact lowered_ite rfl rfl
  | cons next rest ih =>
    rw [List.map_cons, readScript, readScript]
    cases Text.cut? ['%', '\x7d'] inside with
    | none =>
      exact lowered_bind (ih next next.text) fun read => rfl
    | some cut => exact lowered_ite rfl rfl

theorem readHandler_down (marker : Marker) (line : Line) (more : List Line) :
    readHandler filename marker (line.down n) (more.map (Line.down n)) =
      lowered n (Prod.map (Handler.down n) (List.map (Line.down n)))
        (readHandler filename marker line more) := by
  rw [readHandler, readHandler, Line.text_down]
  obtain ⟨before, inside⟩ := (Text.cut? ['\x7b', '%'] line.text).getD ([], line.text)
  have hread := readScript_down (n := n) filename marker
    ⟨filename, ⟨line.number, line.firstColumn⟩, ⟨line.number, Text.units before + 3⟩⟩ line inside
    more
  exact lowered_bind hread fun read => rfl

theorem readHandler?_down (marker : Marker) (lines : List Line) :
    readHandler? filename marker (lines.map (Line.down n)) =
      lowered n (Prod.map (Option.map (Handler.down n)) (List.map (Line.down n)))
        (readHandler? filename marker lines) := by
  rw [readHandler?, readHandler?, skipTrivia_down]
  cases skipTrivia lines with
  | nil => rfl
  | cons line more =>
    refine lowered_ite ?_ rfl
    exact lowered_bind (readHandler_down filename marker line more) fun read => rfl

/-! ## Requests -/

/-- What stands of a request on its first line, so many lines further down. -/
def TargetStart.down (n : Nat) (start : TargetStart) : TargetStart :=
  { start with methodSelection := start.methodSelection.downIfWritten n }

theorem Selection.downIfWritten_of_column {s : Selection} (h : s.start.column ≠ 0) :
    s.downIfWritten n = s.down n := by
  refine if_neg ?_
  rintro rfl
  exact h rfl

theorem readRequestLine_down (line : Line) :
    readRequestLine filename (line.down n) =
      lowered n (TargetStart.down n) (readRequestLine filename line) := by
  rw [readRequestLine, readRequestLine, Line.text_down]
  cases requestLine? line.text with
  | none => rfl
  | some parts =>
    refine lowered_ite ?_ rfl
    dsimp only
    cases Method.ofName? (String.ofList parts.word) with
    | none => rfl
    | some method =>
      cases parts.tail with
      | none => rfl
      | some tail =>
        refine lowered_ite rfl ?_
        rw [lowered, TargetStart.down, Selection.downIfWritten_of_column (Nat.succ_ne_zero _)]
        rfl

theorem extendTarget_down (text : List Char) (lines : List Line) :
    extendTarget text (lines.map (Line.down n)) =
      Prod.map id (List.map (Line.down n)) (extendTarget text lines) := by
  induction lines generalizing text with
  | nil => rfl
  | cons line rest ih =>
    rw [List.map_cons, extendTarget, extendTarget, Line.continuesTarget_down, Line.text_down]
    by_cases hversion : endsWithVersion text = true
    · rw [if_pos hversion, if_pos hversion]
      rfl
    · rw [if_neg hversion, if_neg hversion, apply_ite (Prod.map id (List.map (Line.down n))), ih]
      rfl

theorem readHeader?_down (line : Line) :
    readHeader? filename (line.down n) = (readHeader? filename line).map (Header.down n) := by
  rw [readHeader?, readHeader?, Line.text_down, Option.map_map]
  refine congrArg (fun f => Option.map f (headerParts? line.text)) ?_
  funext parts
  obtain ⟨indent, name, raw⟩ := parts
  exact congrArg (fun value => Header.mk (String.ofList name) value _)
    (Template.ofText_down filename (Text.trim raw) ⟨line.number, _⟩)

theorem readHeaders_down (lines : List Line) :
    readHeaders filename (lines.map (Line.down n)) =
      lowered n (Prod.map (List.map (Header.down n)) (List.map (Line.down n)))
        (readHeaders filename lines) := by
  induction lines with
  | nil => rfl
  | cons line rest ih =>
    rw [List.map_cons, readHeaders, readHeaders, readHeader?_down]
    simp only [Line.isBlank_down, Line.opensHandler_down, Line.isComment_down]
    refine lowered_ite rfl (lowered_ite ih ?_)
    cases readHeader? filename line with
    | none => rfl
    | some header =>
      exact lowered_bind ih fun read => rfl

theorem bodyLines_down (lines : List Line) :
    bodyLines (lines.map (Line.down n)) = (bodyLines lines).map (Line.down n) := by
  have hblank : Line.isBlank ∘ Line.down n = Line.isBlank := rfl
  have htrivia : Line.isTrivia ∘ Line.down n = Line.isTrivia := rfl
  have hink : (fun l : Line => !l.isBlank) ∘ Line.down n = fun l => !l.isBlank := rfl
  simp only [bodyLines, List.dropWhile_map, hblank, ← List.map_reverse, List.takeWhile_map, htrivia,
    List.isEmpty_map, hink]
  split
  · rfl
  · rw [List.map_append]

theorem readBody_down (lines : List Line) :
    readBody filename (lines.map (Line.down n)) =
      (readBody filename lines).map (Template.down n) := by
  rw [readBody, readBody, bodyLines_down]
  cases bodyLines lines with
  | nil => rfl
  | cons first rest =>
    have htexts : (Line.text ∘ Line.down n) = Line.text := rfl
    simp only [List.map_cons, Line.text_down, List.map_map, htexts]
    exact congrArg some (Template.ofText_down filename _ ⟨first.number, 1⟩)

theorem readRequest_down (line : Line) (more : List Line) :
    readRequest filename (line.down n) (more.map (Line.down n)) =
      lowered n (Prod.map (RequestTemplate.down n) (List.map (Line.down n)))
        (readRequest filename line more) := by
  rw [readRequest, readRequest]
  refine lowered_bind (readRequestLine_down filename line) ?_
  intro start
  have htext : (start.down n).text = start.text := rfl
  rw [htext, extendTarget_down]
  obtain ⟨text, below⟩ := extendTarget start.text more
  refine lowered_bind (readHeaders_down filename below) ?_
  rintro ⟨headers, rest⟩
  have hinner : (fun l : Line => !l.opensHandler) ∘ Line.down n = fun l => !l.opensHandler := rfl
  have htarget : Template.ofText filename (cleanTarget text)
      ⟨(line.down n).number, (start.down n).column⟩ =
        (Template.ofText filename (cleanTarget text) ⟨line.number, start.column⟩).down n :=
    Template.ofText_down filename (cleanTarget text) ⟨line.number, start.column⟩
  simp only [Prod.map_apply, id_eq, List.takeWhile_map, List.dropWhile_map, hinner, readBody_down,
    List.getLast?_map, htarget]
  -- the request stops with its body, else with its last header, else with its line
  cases readBody filename (rest.takeWhile fun l => !l.opensHandler) with
  | some body => rfl
  | none =>
    cases headers.getLast? with
    | some header => rfl
    | none => rfl

theorem expectRequest_down (last : Line) (lines : List Line) :
    expectRequest filename (last.down n) (lines.map (Line.down n)) =
      lowered n (Prod.map (Line.down n) (List.map (Line.down n)))
        (expectRequest filename last lines) := by
  rw [expectRequest, expectRequest, skipTrivia_down]
  cases skipTrivia lines with
  | nil => rfl
  | cons line more => exact lowered_ite rfl (lowered_ite rfl rfl)

theorem expectNothing_down (lines : List Line) :
    expectNothing filename (lines.map (Line.down n)) =
      lowered n id (expectNothing filename lines) := by
  rw [expectNothing, expectNothing, skipTrivia_down]
  cases skipTrivia lines with
  | nil => rfl
  | cons line more => rfl

/-! ## Sections -/

theorem SectionLines.name_down (source : SectionLines) : (source.down n).name = source.name := by
  obtain ⟨separator, lines⟩ := source
  cases separator with
  | none => rfl
  | some line => rfl

theorem readSignificant_down (source : SectionLines) (first last : Line) :
    readSignificant filename (source.down n) (first.down n) (last.down n) =
      lowered n (RequestSection.down n) (readSignificant filename source first last) := by
  have hstart : ((source.down n).separator.getD (first.down n)) =
      (source.separator.getD first).down n := Option.getD_map _ _ _
  have hlines : (source.down n).lines = source.lines.map (Line.down n) := rfl
  rw [readSignificant, readSignificant, SectionLines.name_down, hstart, hlines]
  -- reader by reader, each from what the one before it left
  refine lowered_bind (readDeclarations_down filename source.lines) ?_
  rintro ⟨declarations, afterDeclarations⟩
  refine lowered_bind (readHandler?_down filename .before afterDeclarations) ?_
  rintro ⟨preHandler, afterPreHandler⟩
  refine lowered_bind (expectRequest_down filename last afterPreHandler) ?_
  rintro ⟨line, more⟩
  refine lowered_bind (readRequest_down filename line more) ?_
  rintro ⟨request, afterRequest⟩
  refine lowered_bind (readHandler?_down filename .after afterRequest) ?_
  rintro ⟨handler, rest⟩
  exact lowered_bind (expectNothing_down filename rest) fun _ => rfl

theorem readSection_down (source : SectionLines) :
    readSection filename (source.down n) =
      lowered n (Option.map (RequestSection.down n)) (readSection filename source) := by
  have hfilter : (source.down n).lines.filter (fun line => !line.isTrivia) =
      (source.lines.filter fun line => !line.isTrivia).map (Line.down n) := List.filter_map
  rw [readSection, readSection, hfilter]
  cases source.lines.filter fun line => !line.isTrivia with
  | nil => rfl
  | cons first more =>
    have hlast : ((more.map (Line.down n)).getLast?).getD (first.down n) =
        (more.getLast?.getD first).down n := by
      rw [List.getLast?_map, Option.getD_map]
    have hread := readSignificant_down (n := n) filename source first (more.getLast?.getD first)
    rw [← hlast] at hread
    exact lowered_bind hread fun read => rfl

/-- **Sections further down** are the same sections, further down. -/
theorem readSections_down (sources : List SectionLines) :
    readSections filename (sources.map (SectionLines.down n)) =
      lowered n (List.map (RequestSection.down n)) (readSections filename sources) := by
  induction sources with
  | nil => rfl
  | cons source rest ih =>
    rw [List.map_cons, readSections, readSections]
    refine lowered_bind (readSection_down filename source) ?_
    intro part
    refine lowered_bind ih ?_
    intro more
    cases part with
    | none => rfl
    | some part => rfl

end Lowering

end RequestRunner
