import RequestRunner.Proofs.Document.Arrangement
import RequestRunner.Proofs.Document.Cursor

/-!
# Where a source is malformed

Every reader that fails does so on one of its lines: the selection of its fault is not empty, lies
on the line, and the line is not blank (`Selection.MarksOn`). Most faults mark the line without its
indentation (`Line.marksOn_select`); the others mark a word or an opening on it, whose columns are
found by counting (`Selection.marksOn_of_text`). A source that is read either is a document or fails
in its first section that does not read, and no reader steps beyond the last line of a section
(`Document.read_total`).
-/

set_option autoImplicit false

namespace RequestRunner

open Text

variable {filename : String}

/-! ## Marks on a line -/

/-- The selection marks something on the line of the file: it begins and stops on the line, which is
not blank, and it is not empty. -/
structure Selection.MarksOn (filename : String) (line : Line) (selection : Selection) : Prop where
  filename : selection.filename = filename
  ink : line.isBlank = false
  start : selection.start.line = line.number
  stop : selection.stop.line = line.number
  column : 1 ≤ selection.start.column
  nonempty : selection.start.column < selection.stop.column
  inside : selection.stop.column ≤ Text.units line.text + 1

theorem Text.units_pos {s : List Char} (h : s ≠ []) : 0 < Text.units s := by
  cases s with
  | nil => exact absurd rfl h
  | cons c s => exact Nat.lt_of_lt_of_le (charUnits_pos c) (Nat.le_add_right _ _)

/-- A part of the line that is not blank is marked between its columns. -/
theorem Selection.marksOn_of_text (filename : String) {line : Line}
    {before marked behind : List Char} (htext : line.text = before ++ (marked ++ behind))
    (hink : allBlank marked = false) :
    MarksOn filename line ⟨filename, ⟨line.number, Text.units before + 1⟩,
      ⟨line.number, Text.units before + Text.units marked + 1⟩⟩ := by
  have hmarked : marked ≠ [] := by
    rintro rfl
    cases hink
  have hpos := Text.units_pos hmarked
  constructor
  case filename => rfl
  case ink => rw [Line.isBlank, htext, allBlank_append, allBlank_append, hink, Bool.false_and,
    Bool.and_false]
  case start => rfl
  case stop => rfl
  case column => exact Nat.le_add_left 1 _
  case nonempty =>
    simp only
    omega
  case inside =>
    simp only [htext, units_append]
    omega

/-- A line that is not blank is marked from its first character on. -/
theorem Line.marksOn_select {line : Line} (h : line.isBlank = false) :
    (line.select filename).MarksOn filename line := by
  have htext := blank_append_trimStart line.text
  -- the indentation is blank, so the ink of the line is behind it
  have hink : allBlank (trimStart line.text) = false := by
    rw [isBlank, ← htext, allBlank_append, allBlank_leadingBlank, Bool.true_and] at h
    exact h
  have hline : line.text = leadingBlank line.text ++ (trimStart line.text ++ []) := by
    rw [List.append_nil, htext]
  have hmarks := Selection.marksOn_of_text filename hline hink
  rw [← units_append, htext] at hmarks
  exact hmarks

theorem Line.marksOn_of_significant {line : Line} (h : line.isTrivia = false) :
    (line.select filename).MarksOn filename line := by
  rw [isTrivia, Bool.or_eq_false_iff] at h
  exact marksOn_select h.1

/-- The fault is on one of the lines. -/
def ParseError.IsOn (filename : String) (lines : List Line) (e : ParseError) : Prop :=
  ∃ line ∈ lines, e.selection.MarksOn filename line

theorem ParseError.IsOn.mono {lines more : List Line} {e : ParseError} (h : e.IsOn filename lines)
    (hlines : lines ⊆ more) : e.IsOn filename more := by
  obtain ⟨line, hline, hmarks⟩ := h
  exact ⟨line, hlines hline, hmarks⟩

/-! ## Readers that fail -/

theorem isOn_select {line : Line} {lines : List Line} {cause : Malformation} (hline : line ∈ lines)
    (htrivia : line.isTrivia = false) :
    ParseError.IsOn filename lines ⟨cause, line.select filename⟩ :=
  ⟨line, hline, Line.marksOn_of_significant htrivia⟩

theorem readDeclarations_fails {lines : List Line} {e : ParseError}
    (h : readDeclarations filename lines = .error e) : e.IsOn filename lines := by
  induction lines with
  | nil => cases h
  | cons line lines ih =>
    have hbelow : readDeclarations filename lines = .error e → e.IsOn filename (line :: lines) :=
      fun h => (ih h).mono (List.subset_cons_self _ _)
    rw [readDeclarations] at h
    split at h
    · exact hbelow h
    · next htrivia =>
      split at h
      · split at h
        · cases h
          exact isOn_select List.mem_cons_self (Bool.eq_false_iff.2 htrivia)
        · rcases bind_eq_error.1 h with h | ⟨_, -, h⟩
          · exact hbelow h
          · cases h
      · cases h

/-- Behind a closing delimiter, a script fails on the line of the delimiter, which is not blank. -/
theorem readScript_fails_of_cut {marker : Marker} {opening : Selection} {line : Line}
    {inside : List Char} {more : List Line} {e : ParseError} {cut : List Char × List Char}
    (hinside : inside <:+: line.text) (hcut : cut? scriptEnd inside = some cut)
    (h : readScript filename marker opening line inside more = .error e) :
    e.selection.MarksOn filename line := by
  rw [readScript_of_cut _ _ _ _ _ hcut] at h
  split at h
  · cases h
  · cases h
    -- the delimiter itself is no blank
    have hpercent : '%' ∈ line.text := by
      refine hinside.subset ?_
      rw [cut?_eq_some hcut]
      simp [scriptEnd]
    exact Line.marksOn_select (List.all_eq_false.2 ⟨'%', hpercent, by decide⟩)

/-- **A script that fails** does so on its opening, or on the line of its closing delimiter. -/
theorem readScript_fails {marker : Marker} {opening : Selection} {line : Line}
    {inside : List Char} {more : List Line} {e : ParseError} (hinside : inside <:+: line.text)
    (h : readScript filename marker opening line inside more = .error e) :
    e.selection = opening ∨ e.IsOn filename (line :: more) := by
  induction more generalizing line inside with
  | nil =>
    cases hcut : cut? scriptEnd inside with
    | none =>
      rw [scriptEnd] at hcut
      rw [readScript, hcut] at h
      cases h
      exact Or.inl rfl
    | some cut => exact Or.inr ⟨line, List.mem_cons_self, readScript_fails_of_cut hinside hcut h⟩
  | cons next more ih =>
    cases hcut : cut? scriptEnd inside with
    | none =>
      rw [readScript_cons hcut] at h
      rcases bind_eq_error.1 h with h | ⟨_, -, h⟩
      · exact (ih (List.infix_refl _) h).imp_right fun hbelow =>
          hbelow.mono (List.subset_cons_self _ _)
      · cases h
    | some cut => exact Or.inr ⟨line, List.mem_cons_self, readScript_fails_of_cut hinside hcut h⟩

/-- The opening of a handler is marked from the marker to behind the delimiter. -/
theorem readHandler_fails {marker : Marker} {line : Line} {more : List Line} {e : ParseError}
    (hopens : line.opensScript marker.char = true)
    (h : readHandler filename marker line more = .error e) : e.IsOn filename (line :: more) := by
  obtain ⟨gap, inside, -, htext, hcut⟩ := Line.cut?_of_opensScript hopens
  have hinside : inside <:+: line.text := (List.IsSuffix.isInfix ⟨_, htext.symm⟩)
  rw [scriptStart] at hcut
  rw [readHandler, hcut, Option.getD_some] at h
  rcases bind_eq_error.1 h with h | ⟨_, -, h⟩
  · rcases readScript_fails hinside h with hopening | hbelow
    · -- the marker is ink, and the opening stops behind the two characters of the delimiter
      refine ⟨line, List.mem_cons_self, ?_⟩
      have hink : allBlank (marker.char :: gap ++ scriptStart) = false := by
        cases marker <;> rfl
      have hline : line.text =
          leadingBlank line.text ++ (marker.char :: gap ++ scriptStart ++ inside) := by
        refine htext.trans ?_
        simp only [List.append_assoc, List.cons_append]
      have hmarks := Selection.marksOn_of_text filename hline hink
      have hstart : Text.units scriptStart = 2 := by decide
      rw [units_append, hstart, ← Nat.add_assoc, ← units_append] at hmarks
      rw [hopening]
      exact hmarks
    · exact hbelow
  · cases h

theorem readHandler?_fails {marker : Marker} {lines : List Line} {e : ParseError}
    (h : readHandler? filename marker lines = .error e) : e.IsOn filename lines := by
  have hsuffix := skipTrivia_suffix lines
  rw [readHandler?] at h
  split at h
  · cases h
  · next line more hskip =>
    rw [hskip] at hsuffix
    split at h
    · next hopens =>
      rcases bind_eq_error.1 h with h | ⟨_, -, h⟩
      · exact (readHandler_fails hopens h).mono hsuffix.subset
      · cases h
    · cases h

/-- The request is missed on the line that stands in its place, or on the last significant line. -/
theorem expectRequest_fails {last : Line} {lines : List Line} {e : ParseError}
    (hlast : last.isTrivia = false) (h : expectRequest filename last lines = .error e) :
    e.IsOn filename (last :: lines) := by
  have hsuffix := skipTrivia_suffix lines
  rw [expectRequest] at h
  split at h
  · -- no line is left to be at fault
    cases h
    exact isOn_select List.mem_cons_self hlast
  · next line more hskip =>
    rw [hskip] at hsuffix
    have hline : line ∈ last :: lines :=
      List.mem_cons_of_mem _ (hsuffix.subset List.mem_cons_self)
    have htrivia := isTrivia_of_skipTrivia hskip
    split at h
    · cases h
      exact isOn_select hline htrivia
    · split at h
      · cases h
        exact isOn_select hline htrivia
      · cases h

theorem expectNothing_fails {lines : List Line} {e : ParseError}
    (h : expectNothing filename lines = .error e) : e.IsOn filename lines := by
  have hsuffix := skipTrivia_suffix lines
  rw [expectNothing] at h
  split at h
  · cases h
  · next line more hskip =>
    rw [hskip] at hsuffix
    cases h
    exact isOn_select (hsuffix.subset List.mem_cons_self) (isTrivia_of_skipTrivia hskip)

/-- A request line fails as a whole, or on the word that is meant as a method. -/
theorem readRequestLine_fails {line : Line} {e : ParseError} (htrivia : line.isTrivia = false)
    (h : readRequestLine filename line = .error e) : e.selection.MarksOn filename line := by
  rw [readRequestLine] at h
  split at h
  · cases h
    exact Line.marksOn_of_significant htrivia
  · next parts hparts =>
    -- the word behind the indentation is at fault, whatever is wrong with it
    obtain ⟨⟨c, rest, hword, hc⟩, hcontent, -⟩ := requestLine?_sound hparts
    have htext := blank_append_trimStart line.text
    rw [hcontent, ← requestLine?_indent hparts] at htext
    have hink : allBlank parts.word = false := by
      rw [hword, allBlank, List.all_cons, hc, Bool.false_and]
    have hmarks := Selection.marksOn_of_text filename htext.symm hink
    rw [Nat.add_right_comm] at hmarks
    dsimp only at h
    split at h
    · split at h
      · cases h
        exact hmarks
      · cases h
        exact hmarks
      · split at h
        · cases h
          exact hmarks
        · cases h
    · cases h

theorem readHeaders_fails {lines : List Line} {e : ParseError}
    (h : readHeaders filename lines = .error e) : e.IsOn filename lines := by
  induction lines with
  | nil => cases h
  | cons line lines ih =>
    have hbelow : readHeaders filename lines = .error e → e.IsOn filename (line :: lines) :=
      fun h => (ih h).mono (List.subset_cons_self _ _)
    rw [readHeaders] at h
    split at h
    · cases h
    · next hend =>
      rw [Bool.or_eq_true, not_or, Bool.not_eq_true] at hend
      split at h
      · exact hbelow h
      · split at h
        · cases h
          exact ⟨line, List.mem_cons_self, Line.marksOn_select hend.1⟩
        · rcases bind_eq_error.1 h with h | ⟨_, -, h⟩
          · exact hbelow h
          · cases h

/-- **A request that fails** does so on its line or on one of its headers. -/
theorem readRequest_fails {line : Line} {more : List Line} {e : ParseError}
    (htrivia : line.isTrivia = false) (h : readRequest filename line more = .error e) :
    e.IsOn filename (line :: more) := by
  rw [readRequest, bind_eq_error] at h
  rcases h with h | ⟨start, -, h⟩
  · exact ⟨line, List.mem_cons_self, readRequestLine_fails htrivia h⟩
  · -- a target always ends, so that only a header is left to fail
    generalize hextend : extendTarget start.text more = extended at h
    obtain ⟨text, below⟩ := extended
    obtain ⟨taken, rfl, -, -⟩ := extendTarget_sound hextend
    dsimp only at h
    rcases bind_eq_error.1 h with h | ⟨_, -, h⟩
    · refine (readHeaders_fails h).mono ?_
      exact List.Subset.trans (List.subset_append_right _ _) (List.subset_cons_self _ _)
    · cases h

/-! ## Sections that fail -/

theorem readHandler?_suffix {marker : Marker} {handler : Option Handler} {lines left : List Line}
    (hlines : AreLines lines) (h : readHandler? filename marker lines = .ok (handler, left)) :
    left <:+ lines := by
  obtain ⟨skipped, used, hsplit, -⟩ := readHandler?_stands hlines h
  rw [hsplit, ← List.append_assoc]
  exact List.suffix_append _ _

theorem readRequest_suffix {line : Line} {more rest : List Line} {request : RequestTemplate}
    (hlines : AreLines (line :: more)) (h : readRequest filename line more = .ok (request, rest)) :
    rest <:+ more := by
  obtain ⟨continuations, -, -, between, hsplit, -⟩ := readRequest_arranges hlines h
  rw [hsplit, ← List.append_assoc]
  exact List.suffix_append _ _

/-- **A section that fails** does so on one of its lines, whichever of its readers fails. -/
theorem readSignificant_fails {source : SectionLines} {first last : Line} {e : ParseError}
    (hlines : AreLines source.lines) (hlast : last ∈ source.lines) (htrivia : last.isTrivia = false)
    (h : readSignificant filename source first last = .error e) :
    e.IsOn filename source.lines := by
  rw [readSignificant, bind_eq_error] at h
  rcases h with h | ⟨⟨declarations, afterDeclarations⟩, hdeclarations, h⟩
  · exact readDeclarations_fails h
  -- what is left to the next reader is an end of the section
  obtain ⟨declarationLines, htakes₁, -⟩ := readDeclarations_takes hdeclarations
  have hsuffix₁ := htakes₁.suffix
  rcases bind_eq_error.1 h with h | ⟨⟨preHandler, afterPreHandler⟩, hpreHandler, h⟩
  · exact (readHandler?_fails h).mono hsuffix₁.subset
  have hsuffix₂ :=
    (readHandler?_suffix (hlines.of_isInfix hsuffix₁.isInfix) hpreHandler).trans hsuffix₁
  rcases bind_eq_error.1 h with h | ⟨⟨line, more⟩, hline, h⟩
  · exact (expectRequest_fails htrivia h).mono (List.cons_subset.2 ⟨hlast, hsuffix₂.subset⟩)
  obtain ⟨htakes₃, hsignificant⟩ := expectRequest_takes hline
  have hsuffix₃ := htakes₃.suffix.trans hsuffix₂
  have hbelow := hlines.of_isInfix hsuffix₃.isInfix
  rcases bind_eq_error.1 h with h | ⟨⟨request, afterRequest⟩, hrequest, h⟩
  · exact (readRequest_fails hsignificant h).mono hsuffix₃.subset
  have hsuffix₄ :=
    ((readRequest_suffix hbelow hrequest).trans (List.suffix_cons line more)).trans hsuffix₃
  rcases bind_eq_error.1 h with h | ⟨⟨handler, rest⟩, hhandler, h⟩
  · exact (readHandler?_fails h).mono hsuffix₄.subset
  have hsuffix₅ :=
    (readHandler?_suffix (hlines.of_isInfix hsuffix₄.isInfix) hhandler).trans hsuffix₄
  rcases bind_eq_error.1 h with h | ⟨_, -, h⟩
  · exact (expectNothing_fails h).mono hsuffix₅.subset
  · cases h

theorem readSection_fails {source : SectionLines} {e : ParseError}
    (hlines : AreLines source.lines) (h : readSection filename source = .error e) :
    e.IsOn filename source.lines := by
  rw [readSection] at h
  split at h
  · cases h
  · next first more hfilter =>
    rcases bind_eq_error.1 h with h | ⟨_, -, h⟩
    · have hlast : more.getLast?.getD first ∈ first :: more :=
        List.mem_of_getLast? List.getLast?_cons
      rw [← hfilter, List.mem_filter, Bool.not_eq_true'] at hlast
      exact readSignificant_fails hlines hlast.1 hlast.2 h
    · cases h

/-- Sections fail where the first of them does. -/
theorem readSections_fails {sources : List SectionLines} {e : ParseError}
    (h : readSections filename sources = .error e) :
    ∃ before source after, sources = before ++ source :: after ∧
      (∀ earlier ∈ before, ∃ found, readSection filename earlier = .ok found) ∧
        readSection filename source = .error e := by
  induction sources with
  | nil => cases h
  | cons source sources ih =>
    rw [readSections, bind_eq_error] at h
    rcases h with h | ⟨found, hfound, h⟩
    · exact ⟨[], source, sources, rfl, List.forall_mem_nil _, h⟩
    · rcases bind_eq_error.1 h with h | ⟨_, -, h⟩
      · obtain ⟨before, failing, after, rfl, hbefore, hfails⟩ := ih h
        refine ⟨source :: before, failing, after, rfl, ?_, hfails⟩
        exact List.forall_mem_cons.2 ⟨⟨found, hfound⟩, hbefore⟩
      · cases h

/-- A source that fails does so on a line of its first section that does not read. -/
theorem Document.read_fails {source : String} {e : ParseError}
    (h : Document.read filename source = .error e) :
    ∃ before part after, sectionsOf (sourceLines source) = before ++ part :: after ∧
      (∀ earlier ∈ before, ∃ found, readSection filename earlier = .ok found) ∧
        readSection filename part = .error e ∧
          ∃ line ∈ part.lines, line ∈ sourceLines source ∧ e.selection.MarksOn filename line := by
  rw [Document.read, Document.ofLines, bind_eq_error] at h
  rcases h with h | ⟨_, -, h⟩
  · obtain ⟨before, part, after, hsections, hbefore, hfails⟩ := readSections_fails h
    have hpart : part ∈ sectionsOf (sourceLines source) := by
      rw [hsections]
      exact List.mem_append_right _ List.mem_cons_self
    have hneighbours := infix_of_mem_sectionsOf hpart
    obtain ⟨line, hline, hmarks⟩ :=
      readSection_fails ((areLines_sourceLines source).of_isInfix hneighbours) hfails
    exact ⟨before, part, after, hsections, hbefore, hfails, line, hline, hneighbours.subset hline,
      hmarks⟩
  · cases h

/-- **A source is a document or malformed in one place.** Reading a source gives a document, or a
fault in its first section that does not read. The fault is on a line of this section that is not
blank: its selection begins and stops on this line, within its columns, and is not empty. A cursor
that reads the source has the same outcome, so that it never steps beyond the last line of a
section. -/
theorem Document.read_total (filename source : String) :
    LineCursor.readDocument filename source =
        (Document.read filename source).mapError CursorFault.malformed ∧
      ((∃ document, Document.read filename source = .ok document) ∨
        ∃ e before part after, Document.read filename source = .error e ∧
          sectionsOf (sourceLines source) = before ++ part :: after ∧
            (∀ earlier ∈ before, ∃ found, readSection filename earlier = .ok found) ∧
              readSection filename part = .error e ∧
                ∃ line ∈ part.lines, line ∈ sourceLines source ∧
                  e.selection.MarksOn filename line) := by
  refine ⟨LineCursor.readDocument_eq filename source, ?_⟩
  cases h : Document.read filename source with
  | ok document => exact Or.inl ⟨document, rfl⟩
  | error e =>
    obtain ⟨before, part, after, hplace⟩ := Document.read_fails h
    exact Or.inr ⟨e, before, part, after, rfl, hplace⟩

end RequestRunner
