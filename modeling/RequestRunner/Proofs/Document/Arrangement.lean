import RequestRunner.Proofs.Document.LineUse
import RequestRunner.Proofs.Document.Section

/-!
# The arrangement of a section

The readers of a section go on behind one another. `SectionUse.Arranges` says all at once what they
make of its lines: which lines each part of the section stands on, that these lines are all of it
but trivia, that the lines from the request line on are its continuations, lines that open no
handler and the lines of the response handler, and where the request and the section begin and
stop.

Main statement: a document that is read arranges each of its sections with a significant line, in
order (`Document.read_arranges`).
-/

set_option autoImplicit false

namespace RequestRunner

open Text

/-! ## What is arranged -/

/-- The use of the lines of a section: those of each of its constructs. -/
structure SectionUse where
  /-- The section. -/
  source : SectionLines
  /-- The lines of the declarations. -/
  declarations : List Line
  /-- The lines of the script that runs before the request. -/
  preHandler : List Line
  /-- The request line. -/
  request : Line
  /-- The lines that continue the target. -/
  continuations : List Line
  /-- The lines of the headers. -/
  headers : List Line
  /-- The lines of the body. -/
  body : List Line
  /-- The lines of the script that handles the response. -/
  handler : List Line

namespace SectionUse

/-- The lines that are used, construct by construct in the order of the source. -/
def lines (use : SectionUse) : List Line :=
  use.declarations ++ (use.preHandler ++ (use.request :: use.continuations ++
    (use.headers ++ (use.body ++ use.handler))))

end SectionUse

/-- Where the last part of a request stops: its body, its last header, or the request line. -/
def RequestTemplate.lastStop (request : RequestTemplate) (line : Line) : Position :=
  match request.body, request.headers.getLast? with
  | some body, _ => body.selection.stop
  | none, some header => header.selection.stop
  | none, none => line.stop

/-- The request stands on its line and on those of its parts. It begins behind the indentation of
its line and stops where the last of its parts does. -/
structure RequestTemplate.StandsOn (filename : String) (request : RequestTemplate) (line : Line)
    (continuations headers body : List Line) : Prop where
  method : Method.StandsOn filename line request.method request.methodSelection
  target : request.target.StandsOn line continuations
  targetText : request.target.IsOn filename (line :: continuations)
  targetColumn : line.firstColumn ≤ request.target.selection.start.column
  headers : List.Forall₂ (Header.StandsOn filename) headers request.headers
  body : PartOn (Template.Fills filename) body request.body
  selection : request.selection =
    ⟨filename, ⟨line.number, line.firstColumn⟩, request.lastStop line⟩

/-- Lines among which those of a request are told apart. -/
structure RequestLines where
  /-- The lines above the request. -/
  above : List Line
  /-- The request line. -/
  line : Line
  /-- The lines that continue the target. -/
  continuations : List Line
  /-- The lines of the headers. -/
  headers : List Line
  /-- The lines of the headers with the comments among them. -/
  heading : List Line
  /-- The lines from the blank line that ends the headers up to the response handler. -/
  stretch : List Line
  /-- The lines from the response handler on. -/
  below : List Line

/-- The lines are told apart as the request was read from them: the target takes in all that it can,
the headers go on to the first line that is blank or opens a handler, and the stretch behind them to
the first that opens a handler. -/
structure RequestLines.Holds (filename : String) (place : RequestLines) (lines : List Line)
    (request : RequestTemplate) : Prop where
  split : lines = place.above ++ (place.line :: (place.continuations ++
    (place.heading ++ (place.stretch ++ place.below))))
  begins : request.selection.start = ⟨place.line.number, place.line.firstColumn⟩
  target : request.target.TakesIn place.line place.continuations
    (place.heading ++ (place.stretch ++ place.below))
  headers : List.Forall₂ (Header.StandsOn filename) place.headers request.headers
  among : Exhausts place.headers place.heading
  heading : ∀ l ∈ place.heading, l.isBlank = false ∧ l.opensHandler = false
  opening : ∀ l ∈ place.stretch.head?, l.isBlank = true
  unopened : ∀ l ∈ place.stretch, l.opensHandler = false
  closing : ∀ l ∈ place.below.head?, l.opensHandler = true

/-- The lines of a section that are not trivia. -/
def SectionLines.significant (source : SectionLines) : List Line :=
  source.lines.filter fun line => !line.isTrivia

/-- The selection of a section: from the start of its separator, or of its first significant line,
to the end of its last significant line. -/
def SectionLines.IsSelected (filename : String) (source : SectionLines) (selection : Selection) :
    Prop :=
  ∃ first last, source.significant.head? = some first ∧ source.significant.getLast? = some last ∧
    selection = ⟨filename, ⟨(source.separator.getD first).number, 1⟩, last.stop⟩

namespace SectionUse

/-- The lines from the request line on: the continuations of the target, which takes in all that it
can, lines that open no handler and hold the headers and the body, and the response handler. Without
a response handler there is nothing behind them. -/
structure Ends (use : SectionUse) (part : RequestSection) (between behind : List Line) : Prop where
  target : part.request.target.TakesIn use.request use.continuations
    (between ++ (use.handler ++ behind))
  inOrder : (use.headers ++ use.body).Sublist between
  body : use.body <:+: between
  unopened : ∀ line ∈ between, line.opensHandler = false
  behind : part.handler = none → behind = []

/-- The lines are arranged as the parts of the section: those that each part stands on exhaust the
lines of the section. -/
structure Arranges (filename : String) (use : SectionUse) (part : RequestSection) : Prop where
  areLines : AreLines use.source.lines
  exhausts : Exhausts use.lines use.source.lines
  declarations : List.Forall₂ (Declaration.StandsOn filename) use.declarations part.declarations
  preHandler : PartOn (Handler.StandsOn filename .before) use.preHandler part.preHandler
  significant : use.request.isTrivia = false
  request : part.request.StandsOn filename use.request use.continuations use.headers use.body
  handler : PartOn (Handler.StandsOn filename .after) use.handler part.handler
  split : ∃ above between behind, use.source.lines =
      above ++ (use.request :: use.continuations ++ (between ++ (use.handler ++ behind))) ∧
    use.preHandler <:+: above ∧ use.Ends part between behind
  selection : use.source.IsSelected filename part.selection

variable {filename : String} {use : SectionUse} {part : RequestSection}

/-- The lines of a part are neighbours in the section. -/
theorem Arranges.neighbours (h : use.Arranges filename part) :
    use.preHandler <:+: use.source.lines ∧
      use.request :: use.continuations <:+: use.source.lines ∧
        use.body <:+: use.source.lines ∧ use.handler <:+: use.source.lines := by
  obtain ⟨above, between, behind, hsplit, hpreHandler, hends⟩ := h.split
  rw [hsplit]
  refine ⟨hpreHandler.trans (List.prefix_append _ _).isInfix, ?_, hends.body.trans ?_, ?_⟩
  · exact ⟨above, between ++ (use.handler ++ behind), by simp⟩
  · exact ⟨above ++ use.request :: use.continuations, use.handler ++ behind, by simp⟩
  · exact ⟨above ++ (use.request :: use.continuations ++ between), behind, by simp⟩

/-- A line that is used is a line of the section. -/
theorem Arranges.mem (h : use.Arranges filename part) {line : Line} (hline : line ∈ use.lines) :
    line ∈ use.source.lines :=
  h.exhausts.inOrder.subset hline

/-- The lines that are used are in order. -/
theorem Arranges.pairwise (h : use.Arranges filename part) :
    use.lines.Pairwise fun above below => above.number < below.number :=
  h.areLines.consecutive.pairwise.sublist h.exhausts.inOrder

theorem Arranges.declaration_mem (h : use.Arranges filename part) {line : Line}
    (hline : line ∈ use.declarations) : line ∈ use.source.lines :=
  h.mem (List.mem_append_left _ hline)

theorem Arranges.header_mem (h : use.Arranges filename part) {line : Line}
    (hline : line ∈ use.headers) : line ∈ use.source.lines :=
  h.mem (by simp [lines, hline])

end SectionUse

/-! ## Reading -/

variable {filename : String}

/-- Lines behind the headers: those in front of the first that opens a handler, and the rest. -/
theorem exists_inBody_split (lines : List Line) :
    lines = lines.takeWhile Line.inBody ++ lines.dropWhile Line.inBody ∧
      (∀ line ∈ lines.takeWhile Line.inBody, line.opensHandler = false) ∧
        ∀ line ∈ (lines.dropWhile Line.inBody).head?, line.opensHandler = true := by
  refine ⟨List.takeWhile_append_dropWhile.symm, ?_, ?_⟩
  · intro line hline
    have hinBody := List.mem_takeWhile_imp hline
    rwa [Line.inBody, Bool.not_eq_true'] at hinBody
  · intro line hline
    have hinBody := head?_dropWhile lines line hline
    rwa [Line.inBody, Bool.not_eq_false'] at hinBody

/-- **The lines of a request that was read.** The body is read from those that are kept of the
stretch behind the headers. -/
theorem readRequest_parts {line : Line} {more rest : List Line} {request : RequestTemplate}
    (hlines : AreLines (line :: more)) (h : readRequest filename line more = .ok (request, rest)) :
    ∃ place : RequestLines, place.Holds filename (line :: more) request ∧
      place.above = [] ∧ place.line = line ∧ place.below = rest ∧
        request.StandsOn filename line place.continuations place.headers
          (bodyLines place.stretch) ∧
          request.body = readBody filename place.stretch := by
  rw [readRequest, bind_eq_ok] at h
  obtain ⟨start, hstart, h⟩ := h
  generalize hextend : extendTarget start.text more = extended at h
  obtain ⟨text, below⟩ := extended
  dsimp only at h
  rw [bind_eq_ok] at h
  obtain ⟨⟨headers, behind⟩, hheaders, h⟩ := h
  cases h
  obtain ⟨hmethod, lead, -, hcolumn, hlead⟩ :=
    readRequestLine_standsOn (hlines.unfed line List.mem_cons_self) hstart
  obtain ⟨continuations, rfl, htarget, hon, htakes⟩ :=
    Template.standsOn_of_read hlines hstart hextend
  obtain ⟨headerLines, ⟨front, rfl, hfront⟩, hstand⟩ := readHeaders_takes hheaders
  obtain ⟨passed, hpassed, hheading, hstop⟩ := readHeaders_passes hheaders
  obtain rfl : front = passed := List.append_cancel_right hpassed
  obtain ⟨hsplit, hinBody, hopens⟩ := exists_inBody_split behind
  -- the body ends before the first line that opens a handler
  have hwithin :
      behind.takeWhile Line.inBody <:+: line :: (continuations ++ (front ++ behind)) := by
    refine (List.takeWhile_prefix _).isInfix.trans (List.IsSuffix.isInfix ?_)
    exact ((List.suffix_append _ _).trans (List.suffix_append _ _)).trans (List.suffix_cons _ _)
  have hfills := readBody_fills filename (hlines.of_isInfix hwithin)
  refine ⟨⟨[], line, continuations, headerLines, front, behind.takeWhile Line.inBody,
    behind.dropWhile Line.inBody⟩, ?_, rfl, rfl, rfl, ?_, rfl⟩
  · refine ⟨?_, rfl, ?_, hstand, hfront, hheading, ?_, hinBody, hopens⟩
    · rw [← hsplit]
      rfl
    · rw [← hsplit]
      exact htakes
    · -- the stretch begins where the headers ended, and opens no handler there
      intro first hfirst
      rw [hsplit] at hstop
      refine (hstop first (List.mem_head?_append_of_mem_head? hfirst)).resolve_right ?_
      rw [hinBody first (List.mem_of_mem_head? hfirst)]
      exact Bool.false_ne_true
  · refine ⟨hmethod, htarget, hon, ?_, hstand, hfills, rfl⟩
    obtain ⟨gap, rfl⟩ := hlead
    show line.firstColumn ≤ start.column
    rw [hcolumn, Line.firstColumn, units_append]
    omega

/-- **A request** stands on its line and on what follows up to the response handler. -/
theorem readRequest_arranges {line : Line} {more rest : List Line} {request : RequestTemplate}
    (hlines : AreLines (line :: more)) (h : readRequest filename line more = .ok (request, rest)) :
    ∃ continuations headers body between, more = continuations ++ (between ++ rest) ∧
      Exhausts (headers ++ body) between ∧ body <:+: between ∧
      (∀ l ∈ between, l.opensHandler = false) ∧ (∀ l ∈ rest.head?, l.opensHandler = true) ∧
        request.StandsOn filename line continuations headers body ∧
          request.target.TakesIn line continuations (between ++ rest) := by
  obtain ⟨⟨above, first, continuations, headers, heading, stretch, below⟩, hplace, habove, hfirst,
    hbelow, hstands, -⟩ := readRequest_parts hlines h
  obtain rfl : above = [] := habove
  obtain rfl : first = line := hfirst
  obtain rfl : below = rest := hbelow
  obtain ⟨hexhausts, hwithin⟩ := bodyLines_exhausts stretch
  refine ⟨continuations, headers, bodyLines stretch, heading ++ stretch, ?_,
    hplace.among.append hexhausts, hwithin.trans (List.suffix_append _ _).isInfix, ?_,
    hplace.closing, hstands, ?_⟩
  · rw [List.append_assoc]
    exact (List.cons.inj hplace.split).2
  · exact List.forall_mem_append.2 ⟨fun l hl => (hplace.heading l hl).2, hplace.unopened⟩
  · rw [List.append_assoc]
    exact hplace.target

/-- The line of a request is the next significant one. -/
theorem expectRequest_takes {last line : Line} {lines more : List Line}
    (h : expectRequest filename last lines = .ok (line, more)) :
    Takes [] lines (line :: more) ∧ line.isTrivia = false := by
  have hskipped := takes_skipTrivia lines
  rw [expectRequest] at h
  split at h
  · cases h
  · next first rest hskip =>
    rw [hskip] at hskipped
    split at h
    · cases h
    · split at h
      · cases h
      · cases h
        exact ⟨hskipped, isTrivia_of_skipTrivia hskip⟩

theorem expectNothing_takes {lines : List Line} (h : expectNothing filename lines = .ok ()) :
    Takes [] lines [] := by
  have hskipped := takes_skipTrivia lines
  rw [expectNothing] at h
  split at h
  · next hskip =>
    rw [hskip] at hskipped
    exact hskipped
  · cases h

/-- **A response handler** stands on the lines at the opening that ends a request, and when there is
no handler nothing is left. -/
theorem readHandler?_of_opening {handler : Option Handler} {lines left : List Line}
    (hlines : AreLines lines) (hopens : ∀ line ∈ lines.head?, line.opensHandler = true)
    (h : readHandler? filename .after lines = .ok (handler, left)) :
    ∃ used, lines = used ++ left ∧ PartOn (Handler.StandsOn filename .after) used handler ∧
      (handler = none → left = []) := by
  obtain ⟨skipped, used, rfl, hskipped, hstands, hnone⟩ := readHandler?_stands hlines h
  -- nothing is skipped, since an opening is no trivia
  obtain rfl : skipped = [] := by
    cases skipped with
    | nil => rfl
    | cons line skipped =>
      have htrivia := hskipped line List.mem_cons_self
      rw [Line.isTrivia_of_opensScript (hopens line rfl) (by decide) (by decide)] at htrivia
      cases htrivia
  refine ⟨used, rfl, hstands, ?_⟩
  rintro rfl
  obtain rfl : used = [] := hstands
  cases left with
  | nil => rfl
  | cons line left =>
    have hclosed : line.opensHandler = false := hnone rfl line rfl
    have hopen : line.opensHandler = true := hopens line rfl
    rw [hclosed] at hopen
    cases hopen

/-- **Significant lines of a section** are arranged as its parts. -/
theorem readSignificant_arranges {source : SectionLines} {first last : Line}
    {part : RequestSection} (hlines : AreLines source.lines)
    (hfirst : source.significant.head? = some first)
    (hlast : source.significant.getLast? = some last)
    (h : readSignificant filename source first last = .ok part) :
    ∃ use : SectionUse, use.source = source ∧ use.Arranges filename part := by
  rw [readSignificant, bind_eq_ok] at h
  obtain ⟨⟨declarations, afterDeclarations⟩, hdeclarations, h⟩ := h
  obtain ⟨⟨preHandler, afterPreHandler⟩, hpreHandler, h⟩ := bind_eq_ok.1 h
  obtain ⟨⟨line, more⟩, hline, h⟩ := bind_eq_ok.1 h
  obtain ⟨⟨request, afterRequest⟩, hrequest, h⟩ := bind_eq_ok.1 h
  obtain ⟨⟨handler, rest⟩, hhandler, h⟩ := bind_eq_ok.1 h
  obtain ⟨⟨⟩, hnothing, h⟩ := bind_eq_ok.1 h
  cases h
  -- every reader takes the front of what is left, so that what is left is an end of the section
  obtain ⟨declarationLines, ⟨front, hfront, hexhausts⟩, hdeclared⟩ :=
    readDeclarations_takes hdeclarations
  have hleft : AreLines afterDeclarations :=
    hlines.of_isInfix (hfront ▸ (List.suffix_append _ _).isInfix)
  obtain ⟨skipped, preHandlerLines, rfl, hskipped, hpre, -⟩ :=
    readHandler?_stands hleft hpreHandler
  obtain ⟨⟨gap, rfl, hgap⟩, hsignificant⟩ := expectRequest_takes hline
  have hbelow : AreLines (line :: more) := by
    refine hleft.of_isInfix (List.IsSuffix.isInfix ?_)
    exact ((List.suffix_append _ _).trans (List.suffix_append _ _)).trans (List.suffix_append _ _)
  obtain ⟨continuations, headers, body, between, rfl, hused, hbody, hunopened, hopens, hstands,
    htarget⟩ := readRequest_arranges hbelow hrequest
  have hafter : AreLines afterRequest := by
    refine hbelow.of_isInfix (List.IsSuffix.isInfix ?_)
    exact ((List.suffix_append _ _).trans (List.suffix_append _ _)).trans (List.suffix_cons _ _)
  obtain ⟨handlerLines, rfl, hresponse, hnone⟩ := readHandler?_of_opening hafter hopens hhandler
  obtain ⟨trailing, rfl, htrailing⟩ := expectNothing_takes hnothing
  rw [List.append_nil] at hfront htarget hnone
  have hsplit : source.lines = (front ++ (skipped ++ (preHandlerLines ++ gap))) ++
      (line :: continuations ++ (between ++ (handlerLines ++ trailing))) := by
    rw [hfront]
    simp only [List.append_assoc, List.cons_append]
  let use : SectionUse := ⟨source, declarationLines, preHandlerLines, line, continuations,
    headers, body, handlerLines⟩
  have huse : Exhausts use.lines source.lines := by
    have hbefore := hexhausts.append ((exhausts_nil hskipped).append
      ((exhausts_refl preHandlerLines).append hgap))
    have hbehind := (exhausts_refl (line :: continuations)).append
      (hused.append ((exhausts_refl handlerLines).append htrailing))
    have hall := hbefore.append hbehind
    rw [← hsplit] at hall
    simpa only [use, SectionUse.lines, List.append_nil, List.nil_append, List.append_assoc]
      using hall
  refine ⟨use, rfl, hlines, huse, hdeclared, hpre, hsignificant, hstands, hresponse,
    ⟨front ++ (skipped ++ (preHandlerLines ++ gap)), between, trailing, hsplit, ?_, ?_⟩,
    first, last, hfirst, hlast, rfl⟩
  · exact ⟨front ++ skipped, gap, by simp only [use, List.append_assoc]⟩
  · exact ⟨htarget, hused.inOrder, hbody, hunopened, hnone⟩

/-- A line of the section is neither blank nor a comment. -/
def SectionLines.isSignificant (source : SectionLines) : Bool :=
  source.lines.any fun line => !line.isTrivia

/-- **A section** is arranged exactly if one of its lines is significant. -/
theorem readSection_arranges {source : SectionLines} {found : Option RequestSection}
    (hlines : AreLines source.lines) (h : readSection filename source = .ok found) :
    ∃ uses : List SectionUse,
      uses.map SectionUse.source = [source].filter SectionLines.isSignificant ∧
        List.Forall₂ (SectionUse.Arranges filename) uses found.toList := by
  rw [readSection] at h
  split at h
  · next hfilter =>
    cases h
    have hnone : source.isSignificant = false := by
      apply List.any_eq_false.2
      exact List.filter_eq_nil_iff.1 hfilter
    refine ⟨[], ?_, List.Forall₂.nil⟩
    rw [List.map_nil, List.filter_cons, hnone]
    rfl
  · next first more hfilter =>
    obtain ⟨part, hpart, h⟩ := bind_eq_ok.1 h
    cases h
    have hfirst : first ∈ source.lines.filter fun line => !line.isTrivia :=
      hfilter ▸ List.mem_cons_self
    have hsome : source.isSignificant = true :=
      List.any_eq_true.2 ⟨first, List.mem_filter.1 hfirst⟩
    have hsignificant : source.significant = first :: more := hfilter
    obtain ⟨use, hsource, harranges⟩ := readSignificant_arranges hlines
      (by rw [hsignificant]; rfl) (by rw [hsignificant, List.getLast?_cons]) hpart
    refine ⟨[use], ?_, List.Forall₂.cons harranges List.Forall₂.nil⟩
    rw [List.map_singleton, hsource, List.filter_cons, hsome]
    rfl

/-- **Sections** are arranged in order, those with a significant line. -/
theorem readSections_arranges {sources : List SectionLines} {parts : List RequestSection}
    (hlines : ∀ source ∈ sources, AreLines source.lines)
    (h : readSections filename sources = .ok parts) :
    ∃ uses : List SectionUse,
      uses.map SectionUse.source = sources.filter SectionLines.isSignificant ∧
        List.Forall₂ (SectionUse.Arranges filename) uses parts := by
  induction sources generalizing parts with
  | nil =>
    cases h
    exact ⟨[], rfl, List.Forall₂.nil⟩
  | cons source rest ih =>
    rw [readSections, bind_eq_ok] at h
    obtain ⟨found, hfound, h⟩ := h
    obtain ⟨more, hmore, h⟩ := bind_eq_ok.1 h
    cases h
    rw [List.forall_mem_cons] at hlines
    obtain ⟨uses, hsource, harranges⟩ := readSection_arranges hlines.1 hfound
    obtain ⟨below, hbelow, harrangesBelow⟩ := ih hlines.2 hmore
    refine ⟨uses ++ below, ?_, List.rel_append harranges harrangesBelow⟩
    rw [List.map_append, hsource, hbelow, ← List.filter_append, List.singleton_append]

/-- The sections that are used are among those of the source. -/
theorem SectionUse.source_mem {uses : List SectionUse} {sources : List SectionLines}
    (h : uses.map source = sources.filter SectionLines.isSignificant) :
    ∀ use ∈ uses, use.source ∈ sources := by
  intro use huse
  have hmem : use.source ∈ sources.filter SectionLines.isSignificant :=
    h ▸ List.mem_map_of_mem huse
  exact (List.mem_filter.1 hmem).1

/-- **A document that is read** arranges each of its sections with a significant line, in order. -/
theorem Document.read_arranges {source : String} {document : Document}
    (h : Document.read filename source = .ok document) :
    ∃ uses : List SectionUse,
      uses.map SectionUse.source =
          (sectionsOf (sourceLines source)).filter SectionLines.isSignificant ∧
        List.Forall₂ (SectionUse.Arranges filename) uses document.sections := by
  rw [Document.read, Document.ofLines, bind_eq_ok] at h
  obtain ⟨parts, hparts, h⟩ := h
  cases h
  refine readSections_arranges ?_ hparts
  exact fun part hpart => (areLines_sourceLines source).of_isInfix (infix_of_mem_sectionsOf hpart)

/-- A section of a document that is read has its lines arranged. -/
theorem Document.exists_arrangement {source : String} {document : Document}
    (h : Document.read filename source = .ok document) {part : RequestSection}
    (hpart : part ∈ document.sections) :
    ∃ use : SectionUse, use.source ∈ sectionsOf (sourceLines source) ∧
      use.Arranges filename part := by
  obtain ⟨uses, hsources, harranges⟩ := Document.read_arranges h
  obtain ⟨use, huse, harranged⟩ := exists_of_mem_forall₂ harranges hpart
  exact ⟨use, SectionUse.source_mem hsources use huse, harranged⟩

end RequestRunner
