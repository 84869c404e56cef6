import RequestRunner.Proofs.Document.Body
import RequestRunner.Proofs.Document.Declaration
import RequestRunner.Proofs.Document.Handler
import RequestRunner.Proofs.Document.Header
import RequestRunner.Proofs.Document.Target

/-!
# Sections are read as they are written

The readers of a section go on one behind another, so a section that was read consists of parts that
were read (`IsSection`, `readSection_sound`). Below its separator such a section is read again
(`readSection_written`): every reader stops where the next part was written, since the parts begin
with characters that tell them apart and the body and the response handler stand behind blank lines.
-/

set_option autoImplicit false

namespace RequestRunner

open Text

/-- A request as it is read. -/
structure IsRequest (request : RequestTemplate) : Prop where
  isRead : request.target.IsRead
  target : IsTarget request.target.text.toList
  headers : ∀ header ∈ request.headers, IsHeader header
  body : ∀ body ∈ request.body, body.IsRead ∧ IsBody body.text.toList

/-- A section as it is read. -/
structure IsSection (part : RequestSection) : Prop where
  name : ∀ name ∈ part.name, name.toList ≠ [] ∧ IsValue name.toList
  declarations : ∀ declaration ∈ part.declarations, IsDeclaration declaration
  preHandler : ∀ handler ∈ part.preHandler, IsHandler handler
  request : IsRequest part.request
  handler : ∀ handler ∈ part.handler, IsHandler handler

/-! ## Reading -/

section Read

variable {filename : String}

theorem forall_isInner_of_suffix {lines rest : List Line} (h : ∀ l ∈ lines, l.IsInner)
    (hrest : rest <:+ lines) : ∀ l ∈ rest, l.IsInner :=
  fun l hl => h l (hrest.subset hl)

/-- **A request that was read** is a request. -/
theorem readRequest_sound {line : Line} {more rest : List Line} {request : RequestTemplate}
    (hline : line.IsInner) (hmore : ∀ l ∈ more, l.IsInner)
    (h : readRequest filename line more = .ok (request, rest)) :
    IsRequest request ∧ rest <:+ more := by
  rw [readRequest, bind_eq_ok] at h
  obtain ⟨start, hstart, h⟩ := h
  generalize hextend : extendTarget start.text more = extended at h
  obtain ⟨text, below⟩ := extended
  dsimp only at h
  rw [bind_eq_ok] at h
  obtain ⟨⟨headers, behind⟩, hheaders, h⟩ := h
  cases h
  obtain ⟨hunbroken, hfirst⟩ := readRequestLine_sound hline.unbroken hstart
  obtain ⟨htarget, hbelow⟩ :=
    isTarget_of_read hunbroken hfirst (fun l hl => (hmore l hl).unbroken) hextend
  obtain ⟨hheader, hbehind⟩ := readHeaders_sound hheaders
  have hsuffix : behind <:+ more := hbehind.trans hbelow
  refine ⟨⟨Template.isRead_ofText _ _ _, ?_, hheader, ?_⟩, (List.dropWhile_suffix _).trans hsuffix⟩
  · rw [Template.toList_text_ofText]
    exact htarget
  · intro body hbody
    -- the body ends before the first line that opens a handler
    refine readBody_sound ?_ hbody
    intro l hl
    have hopens := List.mem_takeWhile_imp (p := fun l : Line => !l.opensHandler) hl
    rw [Bool.not_eq_true'] at hopens
    exact ⟨hmore l (hsuffix.subset (List.takeWhile_subset _ hl)), hopens⟩

/-- The line on which the request is expected. -/
theorem expectRequest_sound {last line : Line} {lines more : List Line}
    (h : expectRequest filename last lines = .ok (line, more)) : line :: more <:+ lines := by
  have hsuffix := skipTrivia_suffix lines
  rw [expectRequest] at h
  split at h
  · cases h
  · next first rest hskip =>
    rw [hskip] at hsuffix
    split at h
    · cases h
    · split at h
      · cases h
      · cases h
        exact hsuffix

/-- The name on a separator is a trimmed text. -/
theorem SectionLines.name_sound {source : SectionLines}
    (hseparator : ∀ line ∈ source.separator, Unbroken line.text) :
    ∀ name ∈ source.name, name.toList ≠ [] ∧ IsValue name.toList := by
  intro name hname
  rw [SectionLines.name] at hname
  split at hname
  · cases hname
  · next line hline =>
    split at hname
    · cases hname
    · next hne =>
      cases hname
      rw [String.toList_ofList]
      refine ⟨hne, trimmed_trim _, ?_⟩
      refine (hseparator line hline).of_isInfix ((trim_isInfix _).trans ?_)
      exact (List.drop_suffix 3 line.text).isInfix

/-- **A section that was read** is a section. -/
theorem readSection_sound {source : SectionLines} {found : Option RequestSection}
    (hseparator : ∀ line ∈ source.separator, Unbroken line.text)
    (hlines : ∀ l ∈ source.lines, l.IsInner) (h : readSection filename source = .ok found) :
    ∀ part ∈ found, IsSection part := by
  rw [readSection] at h
  split at h
  · cases h
    exact fun _ hpart => absurd hpart (Option.not_mem_none _)
  · obtain ⟨part, hpart, h⟩ := bind_eq_ok.1 h
    cases h
    rw [readSignificant, bind_eq_ok] at hpart
    -- every reader hands on an end of its lines, so the lines stay inner from part to part
    obtain ⟨⟨declarations, afterDeclarations⟩, hdeclarations, hpart⟩ := hpart
    obtain ⟨⟨preHandler, afterPreHandler⟩, hpreHandler, hpart⟩ := bind_eq_ok.1 hpart
    obtain ⟨⟨line, more⟩, hline, hpart⟩ := bind_eq_ok.1 hpart
    obtain ⟨⟨request, afterRequest⟩, hrequest, hpart⟩ := bind_eq_ok.1 hpart
    obtain ⟨⟨handler, rest⟩, hhandler, hpart⟩ := bind_eq_ok.1 hpart
    obtain ⟨-, -, hpart⟩ := bind_eq_ok.1 hpart
    cases hpart
    obtain ⟨hdeclared, hsuffix⟩ := readDeclarations_sound hdeclarations
    have hinner := forall_isInner_of_suffix hlines hsuffix
    obtain ⟨hbefore, hsuffix⟩ := readHandler?_sound hinner hpreHandler
    have hinner := forall_isInner_of_suffix hinner hsuffix
    have hinner := forall_isInner_of_suffix hinner (expectRequest_sound hline)
    rw [List.forall_mem_cons] at hinner
    obtain ⟨hisRequest, hsuffix⟩ := readRequest_sound hinner.1 hinner.2 hrequest
    have hinner := forall_isInner_of_suffix hinner.2 hsuffix
    obtain ⟨hafter, -⟩ := readHandler?_sound hinner hhandler
    rintro _ ⟨⟩
    exact ⟨SectionLines.name_sound hseparator, hdeclared, hbefore, hisRequest, hafter⟩

end Read

/-! ## The lines of the parts -/

/-- A part of a section: its line ends are line feeds, and none of its lines is a separator. -/
structure IsPart (s : List Char) : Prop where
  plain : Plain s
  inner : ∀ l ∈ splitLines s, ¬ ['#', '#', '#'] <+: l

/-- A line that is no separator is a part. -/
theorem Text.Unbroken.isPart {s : List Char} (h : Unbroken s)
    (hseparator : ¬ ['#', '#', '#'] <+: s) : IsPart s := by
  refine ⟨h.plain, ?_⟩
  intro l hl
  rw [splitLines_of_unbroken h, List.mem_singleton] at hl
  exact hl ▸ hseparator

theorem IsHandler.isPart {handler : Handler} (h : IsHandler handler) (marker : Marker) :
    IsPart (handler.written marker) :=
  ⟨plain_written marker h.script, fun _ hl => not_separator_of_mem_written marker h.script hl⟩

theorem IsDeclaration.isPart {declaration : Declaration} (h : IsDeclaration declaration) :
    IsPart declaration.written := by
  refine (Declaration.unbroken_written h).isPart ?_
  intro hseparator
  exact absurd (List.cons_prefix_cons.1 hseparator).1 (by decide)

theorem IsBody.isPart {s : List Char} (h : IsBody s) : IsPart s := by
  refine ⟨h.plain, ?_⟩
  obtain ⟨lines, hlines, -, hinner⟩ := h.splitLines_eq
  intro l hl hseparator
  rw [hlines] at hl
  obtain ⟨line, hline, rfl⟩ := List.mem_map.1 hl
  have hopens := (Line.isSeparator_iff line).2 hseparator
  rw [(hinner line hline).1.inner] at hopens
  cases hopens

theorem isPart_nil : IsPart [] := unbroken_nil.isPart (by decide)

/-- Every part of a written request is one. -/
theorem IsRequest.isPart {request : RequestTemplate} (h : IsRequest request) :
    ∀ s ∈ request.written, IsPart s := by
  rw [RequestTemplate.written, List.forall_mem_cons, List.forall_mem_append]
  refine ⟨?_, ?_, ?_⟩
  · exact ⟨plain_writtenLine h.target, fun _ hl => not_separator_of_mem_writtenLine h.target hl⟩
  · rw [List.forall_mem_map]
    intro header hheader
    have hheader := h.headers header hheader
    exact (Header.unbroken_written hheader).isPart (Header.not_separator_written hheader)
  · simp only [List.forall_mem_flatMap, Option.mem_toList, List.forall_mem_cons]
    exact fun body hbody => ⟨isPart_nil, (h.body body hbody).2.isPart, List.forall_mem_nil _⟩

/-- **Every part of a written section** has line feeds as its line ends and no separator in it. -/
theorem IsSection.isPart {part : RequestSection} (h : IsSection part) :
    ∀ s ∈ part.writtenParts, IsPart s := by
  rw [RequestSection.writtenParts, List.forall_mem_append, List.forall_mem_append,
    List.forall_mem_append]
  refine ⟨?_, ?_, h.request.isPart, ?_⟩
  · rw [List.forall_mem_map]
    exact fun declaration hdeclaration => (h.declarations declaration hdeclaration).isPart
  · rw [List.forall_mem_map]
    intro handler hhandler
    exact (h.preHandler handler (Option.mem_toList.1 hhandler)).isPart .before
  · simp only [List.forall_mem_flatMap, Option.mem_toList, List.forall_mem_cons]
    exact fun handler hhandler =>
      ⟨isPart_nil, (h.handler handler hhandler).isPart .after, List.forall_mem_nil _⟩

/-! ## Reading back -/

section Written

variable (filename : String)

/-- Lines are parts on one line. -/
theorem flatMap_splitLines {lines : List (List Char)} (h : ∀ l ∈ lines, Unbroken l) :
    lines.flatMap splitLines = lines := by
  rw [List.flatMap_congr fun l hl => splitLines_of_unbroken (h l hl), List.flatMap_singleton']

/-- The lines of a part behind a blank line. -/
theorem exists_blank_of_part {s : List Char} {lines : List Line}
    (h : lines.map Line.text = [[], s].flatMap splitLines) :
    ∃ blank below, lines = blank :: below ∧ blank.isBlank = true ∧
      below.map Line.text = splitLines s := by
  rw [List.flatMap_cons, List.flatMap_singleton] at h
  obtain ⟨blank, below, rfl, htext, hbelow⟩ := List.map_eq_cons_iff.1 h
  refine ⟨blank, below, rfl, ?_, hbelow⟩
  rw [Line.isBlank, htext]
  rfl

/-- A line on which a request begins is nothing else. -/
structure Line.BeginsRequest (line : Line) : Prop where
  trivia : line.isTrivia = false
  declaration : line.opensDeclaration = false
  preHandler : line.opensPreHandler = false
  handler : line.opensHandler = false

theorem Line.beginsRequest_of_cons {line : Line} {c : Char} {rest : List Char}
    (h : line.text = c :: rest) (hc : c ∈ ['G', 'P', 'D', 'O']) : line.BeginsRequest := by
  have hmarks : Text.isBlank c = false ∧ c ≠ '#' ∧ c ≠ '/' ∧ c ≠ '@' ∧ c ≠ '<' ∧ c ≠ '>' := by
    simp only [List.mem_cons, List.not_mem_nil, or_false] at hc
    rcases hc with rfl | rfl | rfl | rfl <;> decide
  obtain ⟨hblank, hhash, hslash, hat, hbefore, hafter⟩ := hmarks
  exact ⟨Line.isTrivia_of_cons h hblank hhash hslash, Line.opensDeclaration_of_cons h hblank hat,
    Line.opensScript_of_cons h hblank hbefore, Line.opensScript_of_cons h hblank hafter⟩

/-- The lines that stand between the headers and a response handler. -/
def Line.inBody (line : Line) : Bool := !line.opensHandler

theorem Line.inBody_of_isBlank {line : Line} (h : line.isBlank = true) : line.inBody = true := by
  rw [Line.inBody, Line.opensHandler, Line.opensScript_of_isBlank h]
  rfl

/-- A body that was written behind a blank line is read up to the response handler. -/
theorem readBody_part {body : Option Template}
    (h : ∀ found ∈ body, found.IsRead ∧ IsBody found.text.toList) {lines rest : List Line}
    (hlines : lines.map Line.text =
      (body.toList.flatMap fun found => [[], found.text.toList]).flatMap splitLines)
    (hhead : ∀ l ∈ rest.head?, l.isBlank = true)
    (hblank : ∀ l ∈ rest.takeWhile Line.inBody, l.isBlank = true) :
    (∀ l ∈ (lines ++ rest).head?, l.isBlank = true) ∧
      (lines ++ rest).dropWhile Line.inBody = rest.dropWhile Line.inBody ∧
        (readBody filename ((lines ++ rest).takeWhile Line.inBody)).map Template.unplaced =
          body.map Template.unplaced := by
  cases body with
  | none =>
    obtain rfl := List.map_eq_nil_iff.1 hlines
    refine ⟨hhead, rfl, ?_⟩
    rw [List.nil_append, readBody_of_blank filename hblank]
  | some body =>
    obtain ⟨hread, hbody⟩ := h body rfl
    rw [Option.toList_some, List.flatMap_singleton] at hlines
    obtain ⟨blank, below, rfl, hempty, hbelow⟩ := exists_blank_of_part hlines
    obtain ⟨others, hothers, -, hinner⟩ := hbody.splitLines_eq
    have hinBody : ∀ l ∈ blank :: below, l.inBody = true := by
      rw [List.forall_mem_cons]
      refine ⟨Line.inBody_of_isBlank hempty, ?_⟩
      intro l hl
      -- whether a line opens a handler is read off its text, which is a line of the body
      have hmem : l.text ∈ others.map Line.text := by
        rw [← hothers, ← hbelow]
        exact List.mem_map_of_mem hl
      obtain ⟨other, hother, hsame⟩ := List.mem_map.1 hmem
      have hopens : l.opensHandler = other.opensHandler := by
        rw [Line.opensHandler, Line.opensScript, Line.content, ← hsame]
        rfl
      rw [Line.inBody, hopens, (hinner other hother).2]
      rfl
    have hbefore : ∀ l ∈ [blank], l.isBlank = true := by
      intro l hl
      rw [List.mem_singleton.1 hl, hempty]
    obtain ⟨start, hagain⟩ := readBody_written filename hbody hbelow hbefore hblank
    refine ⟨?_, List.dropWhile_append_of_pos hinBody, ?_⟩
    · rintro _ ⟨⟩
      exact hempty
    · rw [List.takeWhile_append_of_pos hinBody, ← List.singleton_append, List.append_assoc, hagain,
        Option.map_some, Option.map_some, Template.unplaced_ofText hread]

/-- A request is read part by part. -/
theorem readRequest_of_parts {line : Line} {more below rest : List Line}
    {start : TargetStart} {text : List Char} {headers : List Header}
    (hstart : readRequestLine filename line = .ok start)
    (hextend : extendTarget start.text more = (text, below))
    (hheaders : readHeaders filename below = .ok (headers, rest)) :
    ∃ selection, readRequest filename line more =
      .ok (⟨start.method, start.methodSelection,
        Template.ofText filename (cleanTarget text) ⟨line.number, start.column⟩, headers,
        readBody filename (rest.takeWhile Line.inBody), selection⟩,
        rest.dropWhile Line.inBody) := by
  rw [readRequest, hstart]
  simp only [bind, Except.bind, hextend, hheaders]
  exact ⟨_, rfl⟩

/-- **A written request is read** up to the response handler. -/
theorem readRequest_written {request : RequestTemplate} (h : IsRequest request)
    {lines rest : List Line}
    (hlines : lines.map Line.text = request.written.flatMap splitLines)
    (hhead : ∀ l ∈ rest.head?, l.isBlank = true)
    (hblank : ∀ l ∈ rest.takeWhile Line.inBody, l.isBlank = true) :
    ∃ line more again, lines = line :: more ∧ line.BeginsRequest ∧
      readRequest filename line (more ++ rest) = .ok (again, rest.dropWhile Line.inBody) ∧
        again.unplaced = request.unplaced := by
  rw [RequestTemplate.written, List.flatMap_cons, List.flatMap_append] at hlines
  obtain ⟨targetLines, below, rfl, htarget, hbelow⟩ := List.map_eq_append_iff.1 hlines
  obtain ⟨headerLines, bodyLines, rfl, hheaders, hbody⟩ := List.map_eq_append_iff.1 hbelow
  have hunbroken : ∀ l ∈ request.headers.map Header.written, Unbroken l :=
    List.forall_mem_map.2 fun header hheader => Header.unbroken_written (h.headers header hheader)
  rw [flatMap_splitLines hunbroken] at hheaders
  -- what follows the headers begins with a blank line, whether there is a body or not
  obtain ⟨hfirst, hdrop, hsame⟩ := readBody_part filename h.body hbody hhead hblank
  obtain ⟨headers, hread, hunplaced⟩ := readHeaders_written filename h.headers hheaders hfirst
  obtain ⟨line, more, start, rfl, ⟨c, text, hline, hc⟩, hstart, hmethod, hextend⟩ :=
    readTarget_written filename h.target (headerLines ++ (bodyLines ++ rest)) htarget
  obtain ⟨selection, hrequest⟩ := readRequest_of_parts filename hstart hextend hread
  rw [hdrop, ← List.append_assoc headerLines, ← List.append_assoc more] at hrequest
  refine ⟨line, _, _, rfl, Line.beginsRequest_of_cons hline hc, hrequest, ?_⟩
  rw [RequestTemplate.unplaced, hmethod, hunplaced, hsame, cleanTarget_written h.target,
    Template.unplaced_ofText h.isRead, RequestTemplate.unplaced]

/-- The handler before the request, if there is one, begins with no declaration and is read up to
the request line. -/
theorem readHandler?_before {handler : Option Handler} (h : ∀ found ∈ handler, IsHandler found)
    {lines : List Line} {line : Line} (rest : List Line) (hline : line.BeginsRequest)
    (hlines : lines.map Line.text =
      (handler.toList.map (Handler.written .before)).flatMap splitLines) :
    (∃ first more, lines ++ line :: rest = first :: more ∧ first.isTrivia = false ∧
      first.opensDeclaration = false) ∧
      ∃ again, readHandler? filename .before (lines ++ line :: rest) = .ok (again, line :: rest) ∧
        again.map Handler.unplaced = handler.map Handler.unplaced := by
  cases handler with
  | none =>
    obtain rfl := List.map_eq_nil_iff.1 hlines
    refine ⟨⟨line, rest, rfl, hline.trivia, hline.declaration⟩, none, ?_, rfl⟩
    have hskip := skipTrivia_of_cons rest hline.trivia
    have hopens : line.opensScript Marker.before.char = false := hline.preHandler
    rw [List.nil_append, readHandler?, hskip]
    simp only [hopens, Bool.false_eq_true, if_false]
  | some found =>
    have hfound := h found rfl
    rw [Option.toList_some, List.map_singleton, List.flatMap_singleton] at hlines
    obtain ⟨first, more, text, rfl, hfirst⟩ := exists_line_of_written .before hfound.script hlines
    obtain ⟨again, hread, hsame⟩ :=
      readHandler?_written filename .before hfound (line :: rest) hlines
    have hblank : Text.isBlank Marker.before.char = false := by decide
    refine ⟨⟨first, more ++ line :: rest, rfl, ?_, ?_⟩, some again, hread, congrArg some hsame⟩
    · exact Line.isTrivia_of_cons hfirst hblank (by decide) (by decide)
    · exact Line.opensDeclaration_of_cons hfirst hblank (by decide)

/-- The response handler, if there is one, ends the body and is read. -/
theorem readHandler?_after {handler : Option Handler} (h : ∀ found ∈ handler, IsHandler found)
    {lines : List Line}
    (hlines : lines.map Line.text =
      (handler.toList.flatMap fun found => [[], found.written .after]).flatMap splitLines) :
    (∀ l ∈ lines.head?, l.isBlank = true) ∧ (∀ l ∈ lines.takeWhile Line.inBody, l.isBlank = true) ∧
      ∃ again, readHandler? filename .after (lines.dropWhile Line.inBody) = .ok (again, []) ∧
        again.map Handler.unplaced = handler.map Handler.unplaced := by
  cases handler with
  | none =>
    obtain rfl := List.map_eq_nil_iff.1 hlines
    exact ⟨fun _ hl => absurd hl (Option.not_mem_none _), List.forall_mem_nil _, none, rfl, rfl⟩
  | some found =>
    have hfound := h found rfl
    rw [Option.toList_some, List.flatMap_singleton] at hlines
    obtain ⟨blank, below, rfl, hempty, hbelow⟩ := exists_blank_of_part hlines
    obtain ⟨first, more, text, rfl, hfirst⟩ := exists_line_of_written .after hfound.script hbelow
    obtain ⟨again, hread, hsame⟩ := readHandler?_written filename .after hfound [] hbelow
    have hopens : first.opensHandler = true := by
      rw [Line.opensHandler, Line.opensScript_iff, Line.content_of_cons hfirst (by decide)]
      exact ⟨_, rfl, text, rfl⟩
    have hend : ¬ first.inBody = true := by
      rw [Line.inBody, hopens]
      exact Bool.false_ne_true
    have hstart : blank.inBody = true := Line.inBody_of_isBlank hempty
    refine ⟨?_, ?_, some again, ?_, congrArg some hsame⟩
    · rintro _ ⟨⟩
      exact hempty
    · rw [List.takeWhile_cons_of_pos hstart, List.takeWhile_cons_of_neg hend]
      intro l hl
      rw [List.mem_singleton.1 hl, hempty]
    · rw [List.dropWhile_cons_of_pos hstart, List.dropWhile_cons_of_neg hend,
        ← List.append_nil (first :: more), hread]

/-- The name on a written separator is read. -/
theorem SectionLines.name_written {name : Option String}
    (h : ∀ found ∈ name, found.toList ≠ [] ∧ IsValue found.toList) {separator : Line}
    (hseparator : separator.text = writtenSeparator name) (lines : List Line) :
    SectionLines.name ⟨some separator, lines⟩ = name := by
  cases name with
  | none =>
    have hempty : trim ((writtenSeparator none).drop 3) = [] := rfl
    simp only [SectionLines.name, hseparator, hempty]
  | some found =>
    obtain ⟨hne, hvalue⟩ := h found rfl
    have htrim : trim ((writtenSeparator (some found)).drop 3) = found.toList :=
      hvalue.trimmed.trim_append [' '] rfl
    simp only [SectionLines.name, hseparator, htrim, String.ofList_toList]

/-- The request is found on the line where it begins. -/
theorem Line.BeginsRequest.expectRequest {line : Line} (h : line.BeginsRequest) (last : Line)
    (more : List Line) : expectRequest filename last (line :: more) = .ok (line, more) := by
  have hskip := skipTrivia_of_cons more h.trivia
  rw [RequestRunner.expectRequest, hskip]
  simp only [h.handler, h.preHandler, h.declaration, Bool.or_self, Bool.false_eq_true, if_false]

/-- A section is read part by part. -/
theorem readSignificant_of_parts (source : SectionLines) {last line : Line} (first : Line)
    {afterDeclarations afterPreHandler more afterRequest : List Line}
    {declarations : List Declaration} {preHandler handler : Option Handler}
    {request : RequestTemplate}
    (hdeclarations : readDeclarations filename source.lines = .ok (declarations, afterDeclarations))
    (hpreHandler : readHandler? filename .before afterDeclarations =
      .ok (preHandler, afterPreHandler))
    (hline : expectRequest filename last afterPreHandler = .ok (line, more))
    (hrequest : readRequest filename line more = .ok (request, afterRequest))
    (hhandler : readHandler? filename .after afterRequest = .ok (handler, [])) :
    ∃ selection, readSignificant filename source first last =
      .ok ⟨source.name, declarations, preHandler, request, handler, selection⟩ := by
  rw [readSignificant, hdeclarations]
  simp only [bind, Except.bind, hpreHandler, hline, hrequest, hhandler]
  exact ⟨_, rfl⟩

/-- **A written section is read.** -/
theorem readSection_written {part : RequestSection} (h : IsSection part) {separator : Line}
    {lines : List Line} (hseparator : separator.text = writtenSeparator part.name)
    (hlines : lines.map Line.text = part.writtenParts.flatMap splitLines) :
    ∃ again, readSection filename ⟨some separator, lines⟩ = .ok (some again) ∧
      again.unplaced = part.unplaced := by
  rw [RequestSection.writtenParts, List.flatMap_append, List.flatMap_append,
    List.flatMap_append] at hlines
  obtain ⟨declarationLines, below, rfl, hdeclarations, hbelow⟩ := List.map_eq_append_iff.1 hlines
  obtain ⟨beforeLines, below, rfl, hbefore, hbelow⟩ := List.map_eq_append_iff.1 hbelow
  obtain ⟨requestLines, afterLines, rfl, hrequest, hafter⟩ := List.map_eq_append_iff.1 hbelow
  have hunbroken : ∀ l ∈ part.declarations.map Declaration.written, Unbroken l :=
    List.forall_mem_map.2 fun declaration hmem =>
      Declaration.unbroken_written (h.declarations declaration hmem)
  rw [flatMap_splitLines hunbroken] at hdeclarations
  -- from the last part to the first, since each reader has to know what follows its part
  obtain ⟨hhead, hblank, handler, hreadAfter, hsameAfter⟩ :=
    readHandler?_after filename h.handler hafter
  obtain ⟨line, more, request, rfl, hline, hreadRequest, hsameRequest⟩ :=
    readRequest_written filename h.request hrequest hhead hblank
  obtain ⟨⟨first, rest, hfirst, htrivia, hopens⟩, preHandler, hreadBefore, hsameBefore⟩ :=
    readHandler?_before filename h.preHandler (more ++ afterLines) hline hbefore
  obtain ⟨declarations, hreadDeclarations, hsameDeclarations⟩ :=
    readDeclarations_written filename h.declarations rest hdeclarations htrivia hopens
  rw [← hfirst] at hreadDeclarations
  have hsignificant : ∀ first last, ∃ again, readSignificant filename ⟨some separator,
      declarationLines ++ (beforeLines ++ (line :: more ++ afterLines))⟩ first last = .ok again ∧
        again.unplaced = part.unplaced := by
    intro first last
    have hexpect := hline.expectRequest filename last (more ++ afterLines)
    obtain ⟨selection, hread⟩ := readSignificant_of_parts filename ⟨some separator, _⟩ first
      hreadDeclarations hreadBefore hexpect hreadRequest hreadAfter
    refine ⟨_, hread, ?_⟩
    rw [RequestSection.unplaced, hsameDeclarations, hsameBefore, hsameRequest, hsameAfter,
      SectionLines.name_written h.name hseparator, RequestSection.unplaced]
  -- the request line is significant, so the section is not left out
  have hmem : line ∈ (declarationLines ++ (beforeLines ++ (line :: more ++ afterLines))).filter
      fun l => !l.isTrivia := by
    rw [List.mem_filter, hline.trivia]
    simp only [List.mem_append, List.mem_cons, true_or, or_true, Bool.not_false, and_self]
  rw [readSection]
  split
  · next hnone =>
    rw [hnone] at hmem
    exact absurd hmem List.not_mem_nil
  · next first others hsome =>
    obtain ⟨again, hread, hsame⟩ := hsignificant first (others.getLast?.getD first)
    exact ⟨again, bind_eq_ok.2 ⟨again, hread, rfl⟩, hsame⟩

end Written

end RequestRunner
