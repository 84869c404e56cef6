import RequestRunner.Proofs.Document.LineKind
import RequestRunner.Proofs.Document.Written

/-!
# Handlers are read as they are written

The script of a handler is the text up to the first closing delimiter, and none of its lines but the
first can be a separator (`IsScript`); this stays so when the script is trimmed. Such a script is
found again between the delimiters, on however many lines it stands (`readScript_written`,
`readHandler?_written`).
-/

set_option autoImplicit false

namespace RequestRunner

open Text

/-- What opens a script. -/
def scriptStart : List Char := ['\x7b', '%']

/-- What closes a script. -/
def scriptEnd : List Char := ['%', '\x7d']

/-- The text of a script: no closing delimiter and no separator behind a line feed. -/
structure IsScript (s : List Char) : Prop where
  plain : Plain s
  unclosed : ¬ scriptEnd <:+: s
  unseparated : ¬ ['\n', '#', '#', '#'] <:+: s

theorem IsScript.of_isInfix {s t : List Char} (h : IsScript t) (hs : s <:+: t) : IsScript s :=
  ⟨h.plain.of_isInfix hs, fun hclosed => h.unclosed (hclosed.trans hs),
    fun hseparated => h.unseparated (hseparated.trans hs)⟩

/-- A handler as it is read. -/
structure IsHandler (handler : Handler) : Prop where
  script : IsScript handler.script.toList
  trimmed : Trimmed handler.script.toList

/-! ## Reading -/

/-- **The line of an opening**: behind the indentation stand the marker, blanks and the delimiter,
and it is this delimiter that a search finds. -/
theorem Line.cut?_of_opensScript {marker : Marker} {line : Line}
    (h : line.opensScript marker.char = true) :
    ∃ gap inside, allBlank gap = true ∧
      line.text = leadingBlank line.text ++ marker.char :: gap ++ scriptStart ++ inside ∧
        cut? scriptStart line.text =
          some (leadingBlank line.text ++ marker.char :: gap, inside) := by
  obtain ⟨rest, hcontent, inside, hinside⟩ := (Line.opensScript_iff _ _).1 h
  have htext : line.text =
      leadingBlank line.text ++ marker.char :: leadingBlank rest ++ scriptStart ++ inside := by
    rw [List.append_assoc _ scriptStart, scriptStart, hinside, List.append_assoc, List.cons_append,
      blank_append_trimStart, ← hcontent]
    exact (blank_append_trimStart line.text).symm
  have hbrace : '\x7b' ∉ leadingBlank line.text ++ marker.char :: leadingBlank rest := by
    have hblank : ∀ s, '\x7b' ∉ leadingBlank s := fun s hmem =>
      absurd (List.all_eq_true.1 (allBlank_leadingBlank s) _ hmem) (by decide)
    have hmarker : '\x7b' ≠ marker.char := by cases marker <;> decide
    simp [hblank, hmarker]
  -- in front of the delimiter there is no brace that could open one
  have hfree : ¬ scriptStart <:+: leadingBlank line.text ++ marker.char :: leadingBlank rest :=
    fun hfound => hbrace (hfound.subset List.mem_cons_self)
  refine ⟨leadingBlank rest, inside, allBlank_leadingBlank rest, htext, ?_⟩
  have hcut := cut?_pair (by decide) inside hfree
  rw [← scriptStart, ← htext] at hcut
  exact hcut

section Read

variable {filename : String} {marker : Marker} {opening : Selection} {line : Line}
  {inside : List Char}

theorem readScript_of_cut (filename : String) (marker : Marker) (opening : Selection)
    (line : Line) {inside before trailing : List Char} (more : List Line)
    (h : cut? scriptEnd inside = some (before, trailing)) :
    readScript filename marker opening line inside more =
      if allBlank trailing then
        .ok (before, ⟨line.number, Text.units line.text - Text.units trailing + 1⟩, more)
      else .error ⟨.textAfterHandler marker, line.select filename⟩ := by
  rw [scriptEnd] at h
  cases more <;> rw [readScript, h]

theorem readScript_cons {next : Line} {more : List Line} (h : cut? scriptEnd inside = none) :
    readScript filename marker opening line inside (next :: more) = (do
      let (script, stop, left) ← readScript filename marker opening next next.text more
      pure (inside ++ '\n' :: script, stop, left)) := by
  rw [scriptEnd] at h
  rw [readScript, h]

/-- A script that ends on its first line. -/
theorem isScript_of_cut {before trailing script : List Char} {more left : List Line}
    {stop : Position} (hinside : Unbroken inside)
    (hcut : cut? scriptEnd inside = some (before, trailing))
    (h : readScript filename marker opening line inside more = .ok (script, stop, left)) :
    IsScript script ∧ script <+: inside ∧ left = more := by
  rw [readScript_of_cut _ _ _ _ _ hcut] at h
  split at h
  · cases h
    have hbegins : before <+: inside := by
      rw [cut?_eq_some hcut, List.append_assoc]
      exact List.prefix_append _ _
    have hbefore : Unbroken before := hinside.of_isInfix hbegins.isInfix
    refine ⟨⟨hbefore.plain, not_infix_of_cut? hcut (List.cons_ne_nil _ _), ?_⟩, hbegins, rfl⟩
    intro hseparated
    exact absurd (hbefore '\n' (hseparated.subset List.mem_cons_self)) (by decide)
  · cases h

/-- A line without a closing delimiter before the text of a script that does not begin as a
separator. -/
theorem IsScript.cons_line {script : List Char} (hinside : Unbroken inside)
    (hcut : cut? scriptEnd inside = none) (hscript : IsScript script)
    (hseparator : ¬ ['#', '#', '#'] <+: script) : IsScript (inside ++ '\n' :: script) := by
  constructor
  · exact hinside.plain.append hscript.plain.cons_lineFeed
  · intro hclosed
    -- the delimiter holds no line feed, so it lies in the line or in the script
    rcases infix_append_cons (by decide) hclosed with hclosed | hclosed
    · exact cut?_eq_none_iff.1 hcut hclosed
    · exact hscript.unclosed hclosed
  · intro hseparated
    have hfeed : '\n' ∉ inside := fun hmem => absurd (hinside '\n' hmem) (by decide)
    rcases cons_infix_append_cons hfeed hseparated with hseparated | hseparated
    · exact hseparator hseparated
    · exact hscript.unseparated hseparated

/-- **The text of a script that was read.** It begins as a separator only if the line does on which
it starts. -/
theorem readScript_sound {script : List Char} {more left : List Line} {stop : Position}
    (hinside : Unbroken inside) (hmore : ∀ l ∈ more, l.IsInner)
    (h : readScript filename marker opening line inside more = .ok (script, stop, left)) :
    IsScript script ∧ (['#', '#', '#'] <+: script → ['#', '#', '#'] <+: inside) ∧
      left <:+ more := by
  induction more generalizing line inside script with
  | nil =>
    cases hcut : cut? scriptEnd inside with
    | none =>
      rw [scriptEnd] at hcut
      rw [readScript, hcut] at h
      cases h
    | some cut =>
      obtain ⟨hscript, hbegins, rfl⟩ := isScript_of_cut hinside hcut h
      exact ⟨hscript, fun hseparator => hseparator.trans hbegins, List.suffix_refl _⟩
  | cons next more ih =>
    cases hcut : cut? scriptEnd inside with
    | none =>
      rw [readScript_cons hcut] at h
      rw [List.forall_mem_cons] at hmore
      obtain ⟨⟨below, stop', left'⟩, hread, h⟩ := bind_eq_ok.1 h
      cases h
      obtain ⟨hbelow, hfirst, hleft⟩ := ih hmore.1.unbroken hmore.2 hread
      -- the script goes on at the start of the next line, which is no separator
      have hseparator : ¬ ['#', '#', '#'] <+: below := by
        intro hstart
        have hnext := (Line.isSeparator_iff next).2 (hfirst hstart)
        rw [hmore.1.inner] at hnext
        cases hnext
      refine ⟨hbelow.cons_line hinside hcut hseparator, ?_, hleft.trans (List.suffix_cons _ _)⟩
      exact prefix_of_prefix_append_cons (by decide)
    | some cut =>
      obtain ⟨hscript, hbegins, rfl⟩ := isScript_of_cut hinside hcut h
      exact ⟨hscript, fun hseparator => hseparator.trans hbegins, List.suffix_refl _⟩

/-- **A handler that was read** has the trimmed text of a script. -/
theorem readHandler_sound {handler : Handler} {more left : List Line} (hline : line.IsInner)
    (hmore : ∀ l ∈ more, l.IsInner)
    (h : readHandler filename marker line more = .ok (handler, left)) :
    IsHandler handler ∧ left <:+ more := by
  have hinside : ((cut? ['\x7b', '%'] line.text).getD ([], line.text)).2 <:+: line.text := by
    cases hcut : cut? ['\x7b', '%'] line.text with
    | none => exact List.infix_refl _
    | some cut =>
      have hcut := cut?_eq_some hcut
      exact ⟨cut.1 ++ ['\x7b', '%'], [], by rw [List.append_nil]; exact hcut.symm⟩
  rw [readHandler] at h
  generalize (cut? ['\x7b', '%'] line.text).getD ([], line.text) = cut at hinside h
  obtain ⟨before, inside⟩ := cut
  dsimp only at h
  generalize hopening : Selection.mk filename ⟨line.number, line.firstColumn⟩
    ⟨line.number, Text.units before + 3⟩ = opening at h
  obtain ⟨⟨script, stop, left'⟩, hread, h⟩ := bind_eq_ok.1 h
  cases h
  obtain ⟨hscript, -, hleft⟩ := readScript_sound (hline.unbroken.of_isInfix hinside) hmore hread
  refine ⟨⟨?_, ?_⟩, hleft⟩
  · rw [String.toList_ofList]
    exact hscript.of_isInfix (trim_isInfix script)
  · rw [String.toList_ofList]
    exact trimmed_trim script

theorem skipTrivia_of_cons {line : Line} (rest : List Line) (h : line.isTrivia = false) :
    skipTrivia (line :: rest) = line :: rest := by
  rw [skipTrivia, List.dropWhile_cons_of_neg]
  rw [h]
  exact Bool.false_ne_true

theorem skipTrivia_suffix (lines : List Line) : skipTrivia lines <:+ lines :=
  List.dropWhile_suffix _

/-- **The handler that was read**, if there is one. -/
theorem readHandler?_sound {handler : Option Handler} {lines left : List Line}
    (hlines : ∀ l ∈ lines, l.IsInner)
    (h : readHandler? filename marker lines = .ok (handler, left)) :
    (∀ found ∈ handler, IsHandler found) ∧ left <:+ lines := by
  have hsuffix := skipTrivia_suffix lines
  rw [readHandler?] at h
  split at h
  · cases h
    exact ⟨fun _ hfound => absurd hfound (Option.not_mem_none _), List.nil_suffix⟩
  · next line more hskip =>
    rw [hskip] at hsuffix
    have hinner : ∀ l ∈ line :: more, l.IsInner := fun l hl => hlines l (hsuffix.subset hl)
    rw [List.forall_mem_cons] at hinner
    split at h
    · obtain ⟨⟨found, left'⟩, hread, h⟩ := bind_eq_ok.1 h
      cases h
      obtain ⟨hfound, hleft⟩ := readHandler_sound hinner.1 hinner.2 hread
      refine ⟨?_, (hleft.trans (List.suffix_cons _ _)).trans hsuffix⟩
      rintro _ ⟨⟩
      exact hfound
    · cases h
      exact ⟨fun _ hfound => absurd hfound (Option.not_mem_none _), hsuffix⟩

end Read

/-! ## Reading back -/

section Written

variable (filename : String) (marker : Marker)

/-- A script whose lines are given is read up to its closing delimiter. -/
theorem readScript_written (opening : Selection) (line : Line) {init : List (List Char)}
    {last : List Char} (h : ∀ l ∈ init ++ [last], ¬ scriptEnd <:+: l) {inside : List Char}
    {more : List Line} (rest : List Line)
    (hlines : inside :: more.map Line.text = init ++ [last ++ scriptEnd]) :
    ∃ stop, readScript filename marker opening line inside (more ++ rest) =
      .ok (joinLines (init ++ [last]), stop, rest) := by
  induction init generalizing line inside more with
  | nil =>
    rw [List.nil_append, List.cons.injEq, List.map_eq_nil_iff] at hlines
    obtain ⟨rfl, rfl⟩ := hlines
    have hcut := cut?_pair (by decide) [] (h last List.mem_cons_self)
    rw [List.append_nil] at hcut
    have hread := readScript_of_cut filename marker opening line rest hcut
    rw [if_pos allBlank_nil] at hread
    rw [List.nil_append [last], joinLines_singleton]
    exact ⟨_, hread⟩
  | cons first init ih =>
    rw [List.cons_append, List.cons.injEq] at hlines
    obtain ⟨rfl, hmore⟩ := hlines
    rw [List.cons_append, List.forall_mem_cons] at h
    have hcut := cut?_eq_none_iff.2 h.1
    cases more with
    | nil => exact absurd hmore.symm (by simp)
    | cons next more =>
      obtain ⟨stop, hread⟩ : ∃ stop, readScript filename marker opening next next.text
          (more ++ rest) = .ok (joinLines (init ++ [last]), stop, rest) := ih next h.2 hmore
      refine ⟨stop, ?_⟩
      have hne : init ++ [last] ≠ [] := List.append_ne_nil_of_right_ne_nil _ (List.cons_ne_nil _ _)
      rw [List.cons_append, List.cons_append, readScript_cons hcut, hread, joinLines_cons _ hne]
      rfl

/-- A pattern without a blank lies in one of two texts that blanks set off. -/
theorem infix_of_infix_between {p s t : List Char} (hp : ' ' ∉ p)
    (h : p <:+: ' ' :: (s ++ ' ' :: t)) : p <:+: s ∨ p <:+: t := by
  have hfirst : p <:+: [] ++ ' ' :: (s ++ ' ' :: t) := h
  rcases infix_append_cons hp hfirst with h | h
  · rw [List.infix_nil.1 h]
    exact Or.inl List.nil_infix
  · exact infix_append_cons hp h

/-- The lines of a script between its delimiters: the text up to the closing one, and the lines
with it. -/
structure ScriptLines (script : List Char) (init : List (List Char)) (last first : List Char)
    (more : List (List Char)) : Prop where
  lines : init ++ [last ++ scriptEnd] = first :: more
  text : joinLines (init ++ [last]) = ' ' :: (script ++ [' '])
  unclosed : ∀ l ∈ init ++ [last], ¬ scriptEnd <:+: l
  unbroken : ∀ l ∈ first :: more, Unbroken l
  inner : ∀ l ∈ more, ¬ ['#', '#', '#'] <+: l

theorem exists_scriptLines {script : List Char} (h : IsScript script) :
    ∃ init last first more, ScriptLines script init last first more := by
  have hblank : Plain [' '] := fun c hc => Or.inr (List.mem_singleton.1 hc ▸ by decide)
  have hplain : Plain (' ' :: (script ++ [' '])) := hblank.append (h.plain.append hblank)
  obtain ⟨hjoin, hunbroken⟩ := joinLines_splitLines hplain
  obtain ⟨init, last, hlines⟩ :=
    (List.eq_nil_or_concat' (splitLines (' ' :: (script ++ [' '])))).resolve_left
      (splitLines_ne_nil _)
  rw [hlines] at hjoin hunbroken
  obtain ⟨first, more, hmore⟩ :=
    List.exists_cons_of_ne_nil (List.append_ne_nil_of_right_ne_nil init
      (List.cons_ne_nil (last ++ scriptEnd) []))
  have hwhole : joinLines (first :: more) = ' ' :: (script ++ ' ' :: scriptEnd) := by
    rw [← hmore, ← joinLines_concat_append, hjoin, List.cons_append, List.append_assoc,
      List.singleton_append]
  -- blanks set the script off from its delimiters, so nothing new arises at its ends
  refine ⟨init, last, first, more, hmore, hjoin, ?_, ?_, ?_⟩
  · intro l hl hclosed
    have hclosed := hclosed.trans (infix_joinLines hl)
    rw [hjoin] at hclosed
    rcases infix_of_infix_between (by decide) hclosed with hclosed | hclosed
    · exact h.unclosed hclosed
    · exact absurd (List.infix_nil.1 hclosed) (List.cons_ne_nil _ _)
  · intro l hl
    rw [← hmore, List.mem_append, List.mem_singleton] at hl
    rcases hl with hl | rfl
    · exact hunbroken l (List.mem_append_left _ hl)
    · refine (hunbroken last (List.mem_append_right _ List.mem_cons_self)).append ?_
      exact unbroken_iff.2 rfl
  · intro l hl hseparator
    have hfeed : ['\n', '#', '#', '#'] <:+: joinLines (first :: more) :=
      (List.cons_prefix_cons.2 ⟨rfl, hseparator⟩).isInfix.trans (lineFeed_infix_joinLines hl)
    rw [hwhole] at hfeed
    rcases infix_of_infix_between (by decide) hfeed with hfeed | hfeed
    · exact h.unseparated hfeed
    · exact absurd hfeed (by decide)

/-- The lines of a written handler. -/
theorem splitLines_written {handler : Handler} {init more : List (List Char)}
    {last first : List Char} (h : ScriptLines handler.script.toList init last first more) :
    splitLines (handler.written marker) =
      ([marker.char, ' ', '\x7b', '%'] ++ first) :: more := by
  have hwritten : handler.written marker =
      [marker.char, ' ', '\x7b', '%'] ++ joinLines (first :: more) := by
    rw [← h.lines, ← joinLines_concat_append, h.text, Handler.written]
    simp only [scriptEnd, List.cons_append, List.nil_append, List.append_assoc]
  have hmarker : Unbroken [marker.char, ' ', '\x7b', '%'] := by
    cases marker <;> exact unbroken_iff.2 rfl
  rw [hwritten]
  exact splitLines_append hmarker (splitLines_joinLines (List.cons_ne_nil _ _) h.unbroken)

theorem plain_written {handler : Handler} (h : IsScript handler.script.toList) :
    Plain (handler.written marker) := by
  have hopen : Plain [marker.char, ' ', '\x7b', '%', ' '] := by
    cases marker <;> exact (unbroken_iff.2 rfl).plain
  have hclose : Plain [' ', '%', '\x7d'] := (unbroken_iff.2 rfl).plain
  exact (hopen.append h.plain).append hclose

/-- No line of a written handler is a separator. -/
theorem not_separator_of_mem_written {handler : Handler} (h : IsScript handler.script.toList)
    {l : List Char} (hl : l ∈ splitLines (handler.written marker)) : ¬ ['#', '#', '#'] <+: l := by
  obtain ⟨init, last, first, more, hscript⟩ := exists_scriptLines h
  rw [splitLines_written marker hscript, List.mem_cons] at hl
  rcases hl with rfl | hl
  · intro hseparator
    have hmarker : '#' = marker.char := (List.cons_prefix_cons.1 hseparator).1
    cases marker <;> exact absurd hmarker (by decide)
  · exact hscript.inner l hl

/-- The first line of a written handler opens it. -/
theorem exists_line_of_written {handler : Handler} (h : IsScript handler.script.toList)
    {lines : List Line} (hlines : lines.map Line.text = splitLines (handler.written marker)) :
    ∃ line more rest, lines = line :: more ∧
      line.text = marker.char :: ' ' :: '\x7b' :: '%' :: rest := by
  obtain ⟨init, last, first, below, hscript⟩ := exists_scriptLines h
  rw [splitLines_written marker hscript] at hlines
  obtain ⟨line, more, rfl, hline, -⟩ := List.map_eq_cons_iff.1 hlines
  exact ⟨line, more, first, rfl, hline⟩

/-- **A written handler is read.** -/
theorem readHandler?_written {handler : Handler} (h : IsHandler handler) {lines : List Line}
    (rest : List Line) (hlines : lines.map Line.text = splitLines (handler.written marker)) :
    ∃ again, readHandler? filename marker (lines ++ rest) = .ok (some again, rest) ∧
      again.unplaced = handler.unplaced := by
  obtain ⟨init, last, first, more, hscript⟩ := exists_scriptLines h.script
  rw [splitLines_written marker hscript] at hlines
  obtain ⟨line, below, rfl, hline, hbelow⟩ := List.map_eq_cons_iff.1 hlines
  have htext : line.text = marker.char :: ' ' :: '\x7b' :: '%' :: first := hline
  have hblank : Text.isBlank marker.char = false := by cases marker <;> rfl
  have htrivia : line.isTrivia = false :=
    Line.isTrivia_of_cons htext hblank (by cases marker <;> decide) (by cases marker <;> decide)
  have hopens : line.opensScript marker.char = true := by
    rw [Line.opensScript_iff, Line.content_of_cons htext hblank]
    exact ⟨_, rfl, first, rfl⟩
  have hcut : cut? ['\x7b', '%'] line.text = some ([marker.char, ' '], first) := by
    have hne : ('\x7b' : Char) ≠ '%' := by decide
    have hfree : ¬ ['\x7b', '%'] <:+: [marker.char, ' '] := by cases marker <;> decide
    rw [hline]
    exact cut?_pair hne first hfree
  have hread : first :: below.map Line.text = init ++ [last ++ scriptEnd] := by
    rw [hbelow, hscript.lines]
  let opening : Selection := ⟨filename, ⟨line.number, line.firstColumn⟩,
    ⟨line.number, Text.units [marker.char, ' '] + 3⟩⟩
  obtain ⟨stop, hstop⟩ :=
    readScript_written filename marker opening line hscript.unclosed rest hread
  have hskip : skipTrivia (line :: below ++ rest) = line :: (below ++ rest) :=
    skipTrivia_of_cons (below ++ rest) htrivia
  have htrim : trim (joinLines (init ++ [last])) = handler.script.toList := by
    rw [hscript.text]
    exact h.trimmed.trim_between [' '] [' '] rfl rfl
  have hhandler : readHandler filename marker line (below ++ rest) =
      .ok (⟨handler.script, ⟨filename, ⟨line.number, line.firstColumn⟩, stop⟩⟩, rest) := by
    rw [readHandler, hcut, Option.getD_some]
    dsimp only [opening] at hstop ⊢
    rw [hstop]
    simp only [bind, Except.bind, pure, Except.pure, htrim, String.ofList_toList]
  refine ⟨⟨handler.script, ⟨filename, ⟨line.number, line.firstColumn⟩, stop⟩⟩, ?_, rfl⟩
  rw [readHandler?, hskip]
  simp only [hopens, if_true, hhandler]
  rfl

end Written

end RequestRunner
