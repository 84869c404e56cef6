import RequestRunner.Document.Reader
import RequestRunner.Proofs.Document.Coverage
import RequestRunner.Proofs.Document.Handler
import RequestRunner.Proofs.Document.Target

/-!
# The lines that the readers use

Each reader of a section uses some lines for what it returns and leaves out nothing but trivia:
a line for each declaration (`readDeclarations_takes`), the lines that the selection of a handler
spans (`readHandler?_stands`), the request line with the lines that continue it
(`Template.standsOn_of_read`), a line for each header (`readHeaders_takes`), and the lines that the
selection of the body spans (`readBody_fills`).
-/

set_option autoImplicit false

namespace RequestRunner

open Text

/-! ## What stands on the lines -/

/-- The declaration stands on the line. -/
def Declaration.StandsOn (filename : String) (line : Line) (declaration : Declaration) : Prop :=
  line.opensDeclaration = true ∧ ∃ name lead raw,
    declarationParts? line.text = some (name, lead, raw) ∧
      declaration = (String.ofList name,
        Template.ofText filename raw ⟨line.number, Text.units lead + 1⟩)

/-- The header stands on the line. -/
def Header.StandsOn (filename : String) (line : Line) (header : Header) : Prop :=
  line.isTrivia = false ∧ readHeader? filename line = some header

/-- What stands behind a target: blanks, and at most one version token. -/
def IsTargetEnding (s : List Char) : Prop :=
  allBlank s = true ∨
    ∃ gap token, s = gap ++ token ∧ allBlank gap = true ∧ isVersionToken token = true

/-- The target stands on the request line and on the lines directly below it that continue it. From
where it starts to the end of these lines there is nothing but the target and its ending. -/
structure Template.StandsOn (target : Template) (line : Line) (continuations : List Line) :
    Prop where
  startLine : target.selection.start.line = line.number
  below : Consecutive (line :: continuations)
  continues : ∀ next ∈ continuations, next.continuesTarget = true
  text : ∃ lead tail ending, line.text = lead ++ tail ∧
    target.selection.start.column = Text.units lead + 1 ∧
      joinLines (tail :: continuations.map Line.text) = target.text.toList ++ ending ∧
        IsTargetEnding ending

/-- The target takes in the lines below its own one after the other: until its text ends with a
version token or the next line does not continue a target. -/
def Template.TakesIn (target : Template) (line : Line) (continuations below : List Line) : Prop :=
  ∃ lead tail, line.text = lead ++ tail ∧
    target.selection.start.column = Text.units lead + 1 ∧
      Continues tail (continuations.map Line.text) ∧
        (endsWithVersion (joinLines (tail :: continuations.map Line.text)) = true ∨
          ∀ next ∈ below.head?, next.continuesTarget = false)

/-- The method is written on the line behind its indentation, or nowhere. -/
def Method.StandsOn (filename : String) (line : Line) (method : Method) (selection : Selection) :
    Prop :=
  selection = Selection.none ∨ selection.start = ⟨line.number, line.firstColumn⟩ ∧
    selection.Covers filename [line] method.name.toList

/-- The handler stands on the lines: the first one opens it and the last one closes it. Its
selection covers the text from the marker to the first closing delimiter behind the opening one,
with nothing but blanks between the marker and the latter. The script is the trimmed text between
the delimiters. -/
structure Handler.StandsOn (filename : String) (marker : Marker) (lines : List Line)
    (handler : Handler) : Prop where
  opens : ∃ first, lines.head? = some first ∧ first.opensScript marker.char = true ∧
    handler.selection.start = ⟨first.number, first.firstColumn⟩
  spans : Spans handler.selection lines
  text : ∃ gap inner, allBlank gap = true ∧ ¬ scriptEnd <:+: inner ∧
    handler.selection.Covers filename lines
      (marker.char :: gap ++ scriptStart ++ inner ++ scriptEnd) ∧
        handler.script = String.ofList (trim inner)

/-- The template reaches from the start of the first line to the end of the last one. -/
structure Template.Fills (filename : String) (lines : List Line) (template : Template) : Prop where
  isOn : template.IsOn filename lines
  spans : Spans template.selection lines

/-- A part that may be missing stands on the lines; when it is missing there are none. -/
def PartOn {α : Type} (stands : List Line → α → Prop) (lines : List Line) (part : Option α) :
    Prop :=
  part.elim (lines = []) (stands lines)

theorem PartOn.of_some {α : Type} {stands : List Line → α → Prop} {used : List Line}
    {part : Option α} {found : α} (h : PartOn stands used part) (hfound : part = some found) :
    stands used found := by
  rw [hfound] at h
  exact h

theorem PartOn.of_none {α : Type} {stands : List Line → α → Prop} {used : List Line}
    {part : Option α} (h : PartOn stands used part) (hnone : part = none) : used = [] := by
  rw [hnone] at h
  exact h

/-- The lines that a selection spans; without a selection there are none. -/
def spannedLines (selection : Option Selection) (lines : List Line) : List Line :=
  selection.elim [] fun selection => selection.spanned lines

/-- The lines of a part are those that its selection spans. -/
theorem PartOn.eq_spannedLines {α : Type} {stands : List Line → α → Prop} {used lines : List Line}
    {part : Option α} {selection : α → Selection} (h : PartOn stands used part)
    (hspans : ∀ found, stands used found → Spans (selection found) used)
    (hlines : Consecutive lines) (hused : used <:+: lines) :
    used = spannedLines (part.map selection) lines := by
  cases part with
  | none => exact h
  | some found => exact ((hspans found h).spanned_eq hlines hused).symm

/-- What stands on a list of lines, one for each, stands on one of them. -/
theorem exists_of_mem_forall₂ {α β : Type} {R : α → β → Prop} {xs : List α} {ys : List β}
    (h : List.Forall₂ R xs ys) {y : β} (hy : y ∈ ys) : ∃ x ∈ xs, R x y := by
  induction h with
  | nil => exact absurd hy List.not_mem_nil
  | cons hfirst _ ih =>
    rcases List.mem_cons.1 hy with rfl | hy
    · exact ⟨_, List.mem_cons_self, hfirst⟩
    · obtain ⟨x, hx, hR⟩ := ih hy
      exact ⟨x, List.mem_cons_of_mem _ hx, hR⟩

/-! ## Declarations -/

variable {filename : String}

theorem Declaration.StandsOn.isOn {line : Line} {declaration : Declaration}
    (h : Declaration.StandsOn filename line declaration) (hunfed : '\n' ∉ line.text) :
    declaration.2.IsOn filename [line] := by
  obtain ⟨-, name, lead, raw, hparts, rfl⟩ := h
  obtain ⟨behind, htext⟩ := declarationParts?_text hparts
  exact Template.isOn_ofText (Selection.covers_line filename hunfed htext)

/-- **Declarations** use a line each. -/
theorem readDeclarations_takes {lines rest : List Line} {declarations : List Declaration}
    (h : readDeclarations filename lines = .ok (declarations, rest)) :
    ∃ used, Takes used lines rest ∧
      List.Forall₂ (Declaration.StandsOn filename) used declarations := by
  induction lines generalizing declarations with
  | nil =>
    cases h
    exact ⟨[], takes_refl [], List.Forall₂.nil⟩
  | cons line lines ih =>
    rw [readDeclarations] at h
    split at h
    · next htrivia =>
      obtain ⟨used, htakes, hstand⟩ := ih h
      exact ⟨used, htakes.skip htrivia, hstand⟩
    · split at h
      · next hopens =>
        split at h
        · cases h
        · next name lead raw hparts =>
          obtain ⟨⟨more, left⟩, hmore, h⟩ := bind_eq_ok.1 h
          cases h
          obtain ⟨used, htakes, hstand⟩ := ih hmore
          have hline : Declaration.StandsOn filename line (String.ofList name,
              Template.ofText filename raw ⟨line.number, Text.units lead + 1⟩) :=
            ⟨hopens, name, lead, raw, hparts, rfl⟩
          exact ⟨line :: used, htakes.cons line, List.Forall₂.cons hline hstand⟩
      · cases h
        exact ⟨[], takes_refl _, List.Forall₂.nil⟩

/-! ## Handlers -/

/-- A script that closes on its line. -/
theorem closes_of_cut {line : Line} {inside : List Char} {cut : List Char × List Char}
    (hinside : inside <:+ line.text) (hcut : cut? scriptEnd inside = some cut) :
    joinLines [inside] = cut.1 ++ (scriptEnd ++ cut.2) ∧ ¬ scriptEnd <:+: cut.1 ∧
      cut.2 <:+ line.text := by
  have hwhole : inside = cut.1 ++ (scriptEnd ++ cut.2) := by
    rw [cut?_eq_some hcut, List.append_assoc]
  refine ⟨?_, not_infix_of_cut? hcut (List.cons_ne_nil _ _), ?_⟩
  · rw [joinLines_singleton, hwhole]
  · refine List.IsSuffix.trans ?_ hinside
    rw [hwhole, ← List.append_assoc]
    exact List.suffix_append _ _

/-- **The text of a script** on the lines that it uses: it goes on to the first closing delimiter,
behind which the last line has nothing but blanks. -/
theorem readScript_takes {marker : Marker} {opening : Selection} {line : Line}
    {inside script : List Char} {more left : List Line} {stop : Position}
    (hinside : inside <:+ line.text)
    (h : readScript filename marker opening line inside more = .ok (script, stop, left)) :
    ∃ used last trailing, more = used ++ left ∧ (line :: used).getLast? = some last ∧
      joinLines (inside :: used.map Line.text) = script ++ (scriptEnd ++ trailing) ∧
        ¬ scriptEnd <:+: script ∧ trailing <:+ last.text ∧
          stop = ⟨last.number, Text.units last.text - Text.units trailing + 1⟩ := by
  induction more generalizing line inside script with
  | nil =>
    cases hcut : cut? scriptEnd inside with
    | none =>
      rw [scriptEnd] at hcut
      rw [readScript, hcut] at h
      cases h
    | some cut =>
      rw [readScript_of_cut _ _ _ _ _ hcut] at h
      split at h
      · cases h
        obtain ⟨hjoin, hopen, htrailing⟩ := closes_of_cut hinside hcut
        exact ⟨[], line, cut.2, rfl, rfl, hjoin, hopen, htrailing, rfl⟩
      · cases h
  | cons next more ih =>
    cases hcut : cut? scriptEnd inside with
    | none =>
      rw [readScript_cons hcut] at h
      obtain ⟨⟨below, stop', left'⟩, hread, h⟩ := bind_eq_ok.1 h
      cases h
      obtain ⟨used, last, trailing, rfl, hlast, hjoin, hopen, htrailing, hstop⟩ :=
        ih (List.suffix_refl _) hread
      refine ⟨next :: used, last, trailing, rfl, hlast, ?_, ?_, htrailing, hstop⟩
      · rw [List.map_cons, joinLines_cons _ (List.cons_ne_nil _ _), hjoin, List.append_assoc,
          List.cons_append]
      · -- the delimiter holds no line feed, so it lies in the line or below it
        intro hclosed
        rcases infix_append_cons (by decide) hclosed with hclosed | hclosed
        · exact cut?_eq_none_iff.1 hcut hclosed
        · exact hopen hclosed
    | some cut =>
      rw [readScript_of_cut _ _ _ _ _ hcut] at h
      split at h
      · cases h
        obtain ⟨hjoin, hopen, htrailing⟩ := closes_of_cut hinside hcut
        exact ⟨[], line, cut.2, rfl, rfl, hjoin, hopen, htrailing, rfl⟩
      · cases h

/-- **A handler that was read** stands on the line that opens it and on some lines below. -/
theorem readHandler_standsOn {marker : Marker} {line : Line} {more left : List Line}
    {handler : Handler} (hlines : AreLines (line :: more))
    (hopens : line.opensScript marker.char = true)
    (h : readHandler filename marker line more = .ok (handler, left)) :
    ∃ used, more = used ++ left ∧ handler.StandsOn filename marker (line :: used) := by
  obtain ⟨gap, inside, hgap, htext, hcut⟩ := Line.cut?_of_opensScript hopens
  rw [scriptStart] at hcut
  rw [readHandler, hcut, Option.getD_some] at h
  obtain ⟨⟨script, stop, left'⟩, hscript, h⟩ := bind_eq_ok.1 h
  cases h
  obtain ⟨used, last, trailing, rfl, hlast, hjoin, hopen, htrailing, rfl⟩ :=
    readScript_takes ⟨_, htext.symm⟩ hscript
  refine ⟨used, rfl, ⟨line, rfl, hopens, rfl⟩, ⟨line, last, rfl, hlast, rfl, rfl⟩,
    gap, script, hgap, hopen, ?_, rfl⟩
  have hused : AreLines (line :: used) :=
    hlines.of_isInfix (List.prefix_append (line :: used) left).isInfix
  -- the indentation, the handler and the blanks behind it make up the lines
  have hwhole : joinLines ((line :: used).map Line.text) = leadingBlank line.text ++
      (marker.char :: gap ++ scriptStart ++ script ++ scriptEnd ++ trailing) := by
    have hline := append_joinLines_cons
      (leadingBlank line.text ++ marker.char :: gap ++ scriptStart) inside (used.map Line.text)
    rw [← htext, hjoin] at hline
    rw [List.map_cons, ← hline]
    simp only [List.append_assoc, List.cons_append]
  have hindent : '\n' ∉ leadingBlank line.text := fun hmem =>
    hused.unfed line List.mem_cons_self ((List.takeWhile_prefix _).subset hmem)
  have hstart : (⟨line.number, line.firstColumn⟩ : Position) =
      (linesStart (line :: used)).after (leadingBlank line.text) := by
    rw [Position.after_of_unfed hindent, Line.firstColumn, Nat.add_comm]
    rfl
  refine ⟨List.cons_ne_nil _ _, rfl, ⟨_, _, hwhole, hstart⟩, ?_⟩
  have hend : Position.after ⟨line.number, line.firstColumn⟩
      (marker.char :: gap ++ scriptStart ++ script ++ scriptEnd ++ trailing) = last.stop := by
    rw [hstart, ← Position.after_append, ← hwhole, hused.after_joinLines hlast]
  have htail : '\n' ∉ trailing := fun hmem =>
    hused.unfed last (List.mem_of_getLast? hlast) (htrailing.subset hmem)
  rw [Position.after_append] at hend
  rw [Position.eq_of_after_unfed htail hend]
  obtain ⟨front, hfront⟩ := htrailing
  simp only [Line.stop, ← hfront, units_append]
  congr 1
  omega

theorem isTrivia_of_skipTrivia {lines more : List Line} {line : Line}
    (h : skipTrivia lines = line :: more) : line.isTrivia = false := by
  have hhead := head?_dropWhile (p := Line.isTrivia) lines
  rw [← skipTrivia, h] at hhead
  exact hhead line rfl

/-- **A handler** stands on the next significant lines, if they open one. -/
theorem readHandler?_stands {marker : Marker} {handler : Option Handler} {lines left : List Line}
    (hlines : AreLines lines) (h : readHandler? filename marker lines = .ok (handler, left)) :
    ∃ skipped used, lines = skipped ++ (used ++ left) ∧
      (∀ line ∈ skipped, line.isTrivia = true) ∧
        PartOn (Handler.StandsOn filename marker) used handler ∧
          (handler = none → ∀ line ∈ left.head?, line.opensScript marker.char = false) := by
  have hsplit : lines = lines.takeWhile Line.isTrivia ++ skipTrivia lines :=
    List.takeWhile_append_dropWhile.symm
  have hskipped : ∀ line ∈ lines.takeWhile Line.isTrivia, line.isTrivia = true :=
    fun line hline => List.mem_takeWhile_imp hline
  rw [readHandler?] at h
  split at h
  · next hskip =>
    cases h
    rw [hskip] at hsplit
    exact ⟨_, [], hsplit, hskipped, rfl, fun _ _ hline => absurd hline (Option.not_mem_none _)⟩
  · next line more hskip =>
    rw [hskip] at hsplit
    split at h
    · next hopens =>
      obtain ⟨⟨found, left'⟩, hread, h⟩ := bind_eq_ok.1 h
      cases h
      have hbelow : AreLines (line :: more) :=
        hlines.of_isInfix (hskip ▸ (skipTrivia_suffix lines).isInfix)
      obtain ⟨used, rfl, hstands⟩ := readHandler_standsOn hbelow hopens hread
      refine ⟨_, line :: used, hsplit, hskipped, hstands, ?_⟩
      exact fun hnone => absurd hnone (Option.some_ne_none found)
    · next hopens =>
      cases h
      refine ⟨_, [], hsplit, hskipped, rfl, ?_⟩
      rintro - _ ⟨⟩
      exact Bool.eq_false_iff.2 hopens

/-! ## The target -/

theorem requestLine?_indent {text : List Char} {parts : RequestLine}
    (h : requestLine? text = some parts) : parts.indent = leadingBlank text := by
  rw [requestLine?] at h
  dsimp only at h
  split at h
  · cases h
  · split at h
    · cases h
      rfl
    · split at h
      · cases h
      · cases h
        rfl

theorem Method.name_of_ofName? {name : List Char} {method : Method}
    (h : ofName? (String.ofList name) = some method) : method.name.toList = name := by
  have hname := List.find?_some h
  rw [beq_iff_eq.1 hname, String.toList_ofList]

/-- **A request line that was read**: the method stands behind the indentation, and what stands of
the target is the end of the line from its column on. -/
theorem readRequestLine_standsOn {line : Line} {start : TargetStart} (hunfed : '\n' ∉ line.text)
    (h : readRequestLine filename line = .ok start) :
    Method.StandsOn filename line start.method start.methodSelection ∧
      ∃ lead, line.text = lead ++ start.text ∧ start.column = Text.units lead + 1 ∧
        leadingBlank line.text <+: lead := by
  rw [readRequestLine] at h
  split at h
  · cases h
  · next parts hparts =>
    have hindent := requestLine?_indent hparts
    obtain ⟨-, hcontent, -⟩ := requestLine?_sound hparts
    have htext := blank_append_trimStart line.text
    rw [hcontent] at htext
    dsimp only at h
    rw [hindent] at h
    split at h
    · split at h
      · cases h
      · cases h
      · next method gap remainder hmethod htail =>
        split at h
        · cases h
        · cases h
          rw [htail, Option.elim_some] at htext
          constructor
          · -- the word that names the method stands between the indentation and the gap
            have hcovers := Selection.covers_line filename hunfed htext.symm
            have hword : '\n' ∉ parts.word := fun hmem =>
              hunfed (htext ▸ List.mem_append_right _ (List.mem_append_left _ hmem))
            rw [Position.after_of_unfed hword] at hcovers
            rw [← Method.name_of_ofName? hmethod] at hcovers ⊢
            exact Or.inr ⟨rfl, hcovers⟩
          · refine ⟨leadingBlank line.text ++ (parts.word ++ gap), ?_, ?_,
              List.prefix_append _ _⟩
            · simp only [List.append_assoc, htext]
            · simp only [units_append]
              omega
    · cases h
      refine ⟨Or.inl rfl, leadingBlank line.text, ?_, rfl, List.prefix_refl _⟩
      refine htext.symm.trans ?_
      cases parts.tail with
      | none => rfl
      | some tail => rfl

/-- What is taken away with a version token: the blanks before it and the token. -/
theorem exists_dropVersion_append (s : List Char) :
    ∃ rest, s = dropVersion s ++ rest ∧
      (rest = [] ∨ ∃ gap token, rest = gap ++ token ∧ allBlank gap = true ∧
        isVersionToken token = true) := by
  induction s with
  | nil => exact ⟨[], rfl, Or.inl rfl⟩
  | cons c s ih =>
    rw [dropVersion]
    split
    · next h =>
      rw [Bool.and_eq_true] at h
      refine ⟨c :: s, rfl, Or.inr ⟨c :: leadingBlank s, trimStart s, ?_, ?_, h.2⟩⟩
      · rw [List.cons_append, blank_append_trimStart]
      · rw [allBlank, List.all_cons, h.1, Bool.true_and]
        exact allBlank_leadingBlank s
    · obtain ⟨rest, hrest, hending⟩ := ih
      exact ⟨rest, congrArg (c :: ·) hrest, hending⟩

/-- **What is left out of a target** is its ending. -/
theorem exists_cleanTarget_append (s : List Char) :
    ∃ ending, s = cleanTarget s ++ ending ∧ IsTargetEnding ending := by
  obtain ⟨rest, hrest, hending⟩ := exists_dropVersion_append s
  have hclean := trimEnd_append_blank (dropVersion s)
  have hblank := allBlank_trailingBlank (dropVersion s)
  refine ⟨trailingBlank (dropVersion s) ++ rest, ?_, ?_⟩
  · rw [cleanTarget, ← List.append_assoc, hclean, ← hrest]
  · rcases hending with rfl | ⟨gap, token, rfl, hgap, htoken⟩
    · left
      rw [List.append_nil, hblank]
    · right
      refine ⟨trailingBlank (dropVersion s) ++ gap, token, ?_, ?_, htoken⟩
      · rw [List.append_assoc]
      · rw [allBlank_append, hblank, hgap]
        rfl

theorem Continues.forall_mem {text : List Char} {lines : List Line}
    (h : Continues text (lines.map Line.text)) : ∀ line ∈ lines, line.continuesTarget = true := by
  induction lines generalizing text with
  | nil => exact List.forall_mem_nil _
  | cons line lines ih =>
    rw [List.map_cons, Continues] at h
    exact List.forall_mem_cons.2 ⟨h.2.1, ih h.2.2⟩

/-- A target stops behind a version token or in front of a line that does not continue it. -/
theorem extendTarget_stops {text whole : List Char} {lines rest : List Line}
    (h : extendTarget text lines = (whole, rest)) :
    endsWithVersion whole = true ∨ ∀ next ∈ rest.head?, next.continuesTarget = false := by
  induction lines generalizing text with
  | nil =>
    cases h
    exact Or.inr fun _ hnext => absurd hnext (Option.not_mem_none _)
  | cons line lines ih =>
    rw [extendTarget] at h
    split at h
    · next hversion =>
      cases h
      exact Or.inl hversion
    · split at h
      · exact ih h
      · next hcontinues =>
        cases h
        right
        rintro _ ⟨⟩
        exact Bool.eq_false_iff.2 hcontinues

/-- **A target** uses the request line and the lines that continue it. -/
theorem Template.standsOn_of_read {line : Line} {more rest : List Line} {start : TargetStart}
    {text : List Char} (hmore : AreLines (line :: more))
    (hstart : readRequestLine filename line = .ok start)
    (h : extendTarget start.text more = (text, rest)) :
    ∃ continuations, more = continuations ++ rest ∧
      (ofText filename (cleanTarget text) ⟨line.number, start.column⟩).StandsOn line
        continuations ∧
      (ofText filename (cleanTarget text) ⟨line.number, start.column⟩).IsOn filename
        (line :: continuations) ∧
      (ofText filename (cleanTarget text) ⟨line.number, start.column⟩).TakesIn line
        continuations rest := by
  have hstops := extendTarget_stops h
  obtain ⟨continuations, rfl, rfl, htaken⟩ := extendTarget_sound h
  obtain ⟨-, lead, htext, hcolumn, -⟩ :=
    readRequestLine_standsOn (hmore.unfed line List.mem_cons_self) hstart
  obtain ⟨ending, hending, hisEnding⟩ :=
    exists_cleanTarget_append (joinLines (start.text :: continuations.map Line.text))
  have hbegins : line :: continuations <+: line :: (continuations ++ rest) :=
    List.prefix_append _ rest
  have hlead : '\n' ∉ lead := fun hmem =>
    hmore.unfed line List.mem_cons_self (htext ▸ List.mem_append_left _ hmem)
  refine ⟨continuations, rfl, ?_, isOn_ofText ?_, lead, start.text, htext, hcolumn, htaken, hstops⟩
  · refine ⟨rfl, hmore.consecutive.of_isInfix hbegins.isInfix, htaken.forall_mem, ?_⟩
    refine ⟨lead, start.text, ending, htext, hcolumn, ?_, hisEnding⟩
    rw [toList_text_ofText]
    exact hending
  · refine ⟨List.cons_ne_nil _ _, rfl, ⟨lead, ending, ?_, ?_⟩, rfl⟩
    · rw [List.map_cons, htext, ← append_joinLines_cons, ← hending]
    · rw [Position.after_of_unfed hlead, hcolumn, Nat.add_comm]
      rfl

/-! ## Headers -/

theorem Header.StandsOn.isOn {line : Line} {header : Header}
    (h : Header.StandsOn filename line header) (hunfed : '\n' ∉ line.text) :
    header.value.IsOn filename [line] ∧ header.selection = line.select filename :=
  readHeader?_isOn hunfed h.2

/-- Headers end in front of the first line that is blank or opens a response handler. -/
theorem readHeaders_passes {lines rest : List Line} {headers : List Header}
    (h : readHeaders filename lines = .ok (headers, rest)) :
    ∃ passed, lines = passed ++ rest ∧
      (∀ line ∈ passed, line.isBlank = false ∧ line.opensHandler = false) ∧
        ∀ line ∈ rest.head?, line.isBlank = true ∨ line.opensHandler = true := by
  induction lines generalizing headers with
  | nil =>
    cases h
    exact ⟨[], rfl, List.forall_mem_nil _, fun _ hline => absurd hline (Option.not_mem_none _)⟩
  | cons line lines ih =>
    rw [readHeaders] at h
    split at h
    · next hend =>
      cases h
      refine ⟨[], rfl, List.forall_mem_nil _, ?_⟩
      rintro _ ⟨⟩
      rwa [Bool.or_eq_true] at hend
    · next hend =>
      rw [Bool.or_eq_true, not_or, Bool.not_eq_true, Bool.not_eq_true] at hend
      -- a comment and a header line are passed in the same way
      suffices hpassed : ∃ found, readHeaders filename lines = .ok (found, rest) by
        obtain ⟨found, hfound⟩ := hpassed
        obtain ⟨passed, rfl, hpassed, hstop⟩ := ih hfound
        exact ⟨line :: passed, rfl, List.forall_mem_cons.2 ⟨hend, hpassed⟩, hstop⟩
      split at h
      · exact ⟨headers, h⟩
      · split at h
        · cases h
        · obtain ⟨⟨more, left⟩, hmore, h⟩ := bind_eq_ok.1 h
          cases h
          exact ⟨more, hmore⟩

/-- **Headers** use a line each. -/
theorem readHeaders_takes {lines rest : List Line} {headers : List Header}
    (h : readHeaders filename lines = .ok (headers, rest)) :
    ∃ used, Takes used lines rest ∧ List.Forall₂ (Header.StandsOn filename) used headers := by
  induction lines generalizing headers with
  | nil =>
    cases h
    exact ⟨[], takes_refl [], List.Forall₂.nil⟩
  | cons line lines ih =>
    rw [readHeaders] at h
    split at h
    · cases h
      exact ⟨[], takes_refl _, List.Forall₂.nil⟩
    · next hend =>
      rw [Bool.or_eq_true, not_or, Bool.not_eq_true, Bool.not_eq_true] at hend
      split at h
      · next hcomment =>
        have htrivia : line.isTrivia = true := by rw [Line.isTrivia, hcomment, Bool.or_true]
        obtain ⟨used, htakes, hstand⟩ := ih h
        exact ⟨used, htakes.skip htrivia, hstand⟩
      · next hcomment =>
        rw [Bool.not_eq_true] at hcomment
        split at h
        · cases h
        · next header hheader =>
          obtain ⟨⟨more, left⟩, hmore, h⟩ := bind_eq_ok.1 h
          cases h
          obtain ⟨used, htakes, hstand⟩ := ih hmore
          have htrivia : line.isTrivia = false := by
            rw [Line.isTrivia, hend.1, hcomment]
            rfl
          exact ⟨line :: used, htakes.cons line, List.Forall₂.cons ⟨htrivia, hheader⟩ hstand⟩

/-! ## The body -/

/-- **The lines of a body** are neighbours, and nothing but trivia is left out around them. -/
theorem bodyLines_exhausts (lines : List Line) :
    Exhausts (bodyLines lines) lines ∧ bodyLines lines <:+: lines := by
  rcases bodyLines_cases lines with
    ⟨hnone, htrivia⟩ | ⟨before, after, hsplit, -, hbefore, hafter, -⟩
  · rw [hnone]
    exact ⟨exhausts_nil htrivia, List.nil_infix⟩
  · have hblank : ∀ l ∈ before, l.isTrivia = true :=
      fun l hl => Line.isTrivia_of_isBlank (hbefore l hl)
    have hexhausts := (exhausts_nil hblank).append
      ((exhausts_refl (bodyLines lines)).append (exhausts_nil hafter))
    rw [List.append_nil, List.nil_append, ← hsplit] at hexhausts
    exact ⟨hexhausts, before, after, by rw [List.append_assoc, ← hsplit]⟩

/-- **A body** fills the lines that are kept of a stretch. -/
theorem readBody_fills (filename : String) {lines : List Line} (hlines : AreLines lines) :
    PartOn (Template.Fills filename) (bodyLines lines) (readBody filename lines) := by
  obtain ⟨-, hwithin⟩ := bodyLines_exhausts lines
  rcases readBody_cases filename lines with
    ⟨hnone, hread⟩ | ⟨init, last, first, hkept, hfirst, -, -, hread⟩
  · rw [hnone, hread]
    rfl
  · have hon := readBody_isOn hread
    rw [hkept] at hwithin hon ⊢
    rw [hread]
    have hused := hlines.of_isInfix hwithin
    refine ⟨hon, first, last, hfirst, List.getLast?_concat, rfl, ?_⟩
    change (Position.after _ (joinLines (init.map Line.text ++ [trimEnd last.text]))).line = _
    rw [Position.line_after, count_joinLines, List.length_map,
      hused.consecutive.number_last hfirst]
    -- trimming leaves no line feed where there was none
    intro text htext
    rw [List.mem_append, List.mem_map, List.mem_singleton] at htext
    rcases htext with ⟨line, hline, rfl⟩ | rfl
    · exact hused.unfed line (List.mem_append_left _ hline)
    · intro hmem
      apply hused.unfed last (List.mem_append_right _ List.mem_cons_self)
      exact (trimEnd_isPrefix last.text).subset hmem

end RequestRunner
