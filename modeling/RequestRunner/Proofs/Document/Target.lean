import RequestRunner.Proofs.Document.LineKind
import RequestRunner.Proofs.Document.Written

/-!
# Targets are read as they are written

A target stands on the request line and on indented lines below it, as long as the text so far does
not end with a version token (`Continues`). What is left when the version token and the blanks
before it are taken away is a beginning of that text, and a beginning of such a text is such a text
(`exists_continues_of_prefix`). So behind a method, and with a version token of its own, a target
that was read is read again (`readTarget_written`).
-/

set_option autoImplicit false

namespace RequestRunner

open Text

/-! ## Continuation lines -/

theorem Line.continuesTarget_iff (l : Line) :
    l.continuesTarget = true ↔
      (∃ c rest, l.text = c :: rest ∧ Text.isBlank c = true) ∧ l.isBlank = false ∧
        l.isComment = false := by
  rw [continuesTarget, isIndented]
  split
  · next c rest htext =>
    rw [Bool.and_eq_true, Bool.and_eq_true, Bool.not_eq_true', Bool.not_eq_true', and_assoc]
    refine and_congr_left fun _ => ?_
    constructor
    · exact fun hc => ⟨c, rest, htext, hc⟩
    · rintro ⟨d, more, hmore, hd⟩
      cases htext.symm.trans hmore
      exact hd
  · next htext =>
    refine iff_of_false Bool.false_ne_true ?_
    rintro ⟨⟨c, rest, hrest, -⟩, -⟩
    cases htext.symm.trans hrest

/-- A line that continues a target is no trivia. -/
theorem Line.isTrivia_of_continuesTarget {l : Line} (h : l.continuesTarget = true) :
    l.isTrivia = false := by
  obtain ⟨-, hblank, hcomment⟩ := (continuesTarget_iff l).1 h
  rw [isTrivia, hblank, hcomment]
  rfl

/-- The line continues a target. -/
def ContinuesTarget (s : List Char) : Prop := (Line.mk 0 s).continuesTarget = true

/-- A beginning of a continuation line is one, unless it is blank. -/
theorem ContinuesTarget.of_isPrefix {s t : List Char} (h : ContinuesTarget t) (hs : s <+: t)
    (hblank : allBlank s = false) : ContinuesTarget s := by
  obtain ⟨rest, rfl⟩ := hs
  obtain ⟨⟨c, more, hmore, hc⟩, -, hcomment⟩ := (Line.continuesTarget_iff _).1 h
  refine (Line.continuesTarget_iff _).2 ⟨?_, hblank, ?_⟩
  · cases s with
    | nil => cases hblank
    | cons d s =>
      cases hmore
      exact ⟨_, s, rfl, hc⟩
  · rw [Bool.eq_false_iff, ne_eq, Line.isComment_iff] at hcomment ⊢
    have hcontent : trimStart (s ++ rest) = trimStart s ++ rest := trimStart_append rest hblank
    have hbegins : ∀ {p : List Char}, p <+: trimStart s → p <+: trimStart (s ++ rest) := by
      intro p hp
      rw [hcontent]
      exact hp.trans (List.prefix_append _ _)
    exact fun h => hcomment (h.imp hbegins hbegins)

/-- A continuation line with a version token behind it. -/
theorem ContinuesTarget.append_version {s : List Char} (h : ContinuesTarget s) :
    ContinuesTarget (s ++ ' ' :: versionToken) := by
  obtain ⟨⟨c, rest, hrest, hc⟩, hblank, hcomment⟩ := (Line.continuesTarget_iff _).1 h
  have hblank : allBlank s = false := hblank
  refine (Line.continuesTarget_iff _).2 ⟨?_, ?_, ?_⟩
  · have hrest : s = c :: rest := hrest
    exact ⟨c, rest ++ ' ' :: versionToken, by rw [hrest]; rfl, hc⟩
  · show allBlank (s ++ ' ' :: versionToken) = false
    rw [allBlank_append, hblank, Bool.false_and]
  · rw [Bool.eq_false_iff, ne_eq, Line.isComment_iff] at hcomment ⊢
    have hcontent : trimStart (s ++ ' ' :: versionToken) = trimStart s ++ ' ' :: versionToken :=
      trimStart_append _ hblank
    have hbegins : ∀ {p : List Char}, ' ' ∉ p → p <+: trimStart (s ++ ' ' :: versionToken) →
        p <+: trimStart s := by
      intro p hp hbegins
      rw [hcontent] at hbegins
      exact prefix_of_prefix_append_cons hp hbegins
    exact fun h => hcomment (h.imp (hbegins (by decide)) (hbegins (by decide)))

/-- The lines continue a target whose text so far is given: none of them stands behind a version
token. -/
def Continues : List Char → List (List Char) → Prop
  | _, [] => True
  | text, line :: lines =>
    endsWithVersion text = false ∧ ContinuesTarget line ∧ Continues (text ++ '\n' :: line) lines

theorem continues_concat {text line : List Char} {lines : List (List Char)} :
    Continues text (lines ++ [line]) ↔
      Continues text lines ∧ endsWithVersion (joinLines (text :: lines)) = false ∧
        ContinuesTarget line := by
  induction lines generalizing text with
  | nil =>
    rw [List.nil_append, Continues, joinLines_singleton]
    simp only [Continues, and_true, true_and]
  | cons first more ih =>
    rw [List.cons_append, Continues, Continues, ih, joinLines_cons_cons]
    simp only [and_assoc]

/-- A target: a text that starts with no blank and the lines that continue it, without blanks at its
end. -/
structure IsTarget (s : List Char) : Prop where
  lines : ∃ c first more, s = joinLines ((c :: first) :: more) ∧ Text.isBlank c = false ∧
    Continues (c :: first) more ∧ ∀ l ∈ (c :: first) :: more, Unbroken l
  stop : trimEnd s = s

/-- **A beginning of a continued text is a continued text**, unless it ends with a blank. -/
theorem exists_continues_of_prefix {text s : List Char} {lines : List (List Char)}
    (h : Continues text lines) (hlines : ∀ l ∈ text :: lines, Unbroken l)
    (hs : s <+: joinLines (text :: lines)) (hstop : trimEnd s = s) :
    ∃ first more, s = joinLines (first :: more) ∧ first <+: text ∧ Continues first more ∧
      ∀ l ∈ first :: more, Unbroken l := by
  induction lines using List.reverseRecOn with
  | nil =>
    rw [joinLines_singleton] at hs
    refine ⟨s, [], (joinLines_singleton s).symm, hs, trivial, ?_⟩
    intro l hl
    rw [List.mem_singleton.1 hl]
    exact (hlines text List.mem_cons_self).of_isInfix hs.isInfix
  | append_singleton lines line ih =>
    obtain ⟨hcontinues, hversion, hline⟩ := continues_concat.1 h
    have hunbroken : ∀ l ∈ text :: lines, Unbroken l := fun l hl =>
      hlines l (by
        rw [← List.cons_append]
        exact List.mem_append_left _ hl)
    have hjoin : joinLines (text :: (lines ++ [line])) =
        joinLines (text :: lines) ++ '\n' :: line := by
      rw [← List.cons_append, joinLines_append (List.cons_ne_nil _ _) (List.cons_ne_nil _ _),
        joinLines_singleton]
    rw [hjoin] at hs
    obtain ⟨rest, hrest⟩ := hs
    -- the beginning ends before the last line or inside of it
    rcases List.append_eq_append_iff.1 hrest with ⟨below, hbelow, -⟩ | ⟨below, hbelow, hline'⟩
    · exact ih hcontinues hunbroken ⟨below, hbelow.symm⟩
    · cases below with
      | nil =>
        rw [List.append_nil] at hbelow
        exact ih hcontinues hunbroken ⟨[], by rw [hbelow, List.append_nil]⟩
      | cons c below =>
        cases hline'
        rw [hbelow] at hstop
        -- without a blank at its end, it leaves more of the last line than its indentation
        have hblank : allBlank ('\n' :: below) = false :=
          not_allBlank_of_trimEnd hstop (List.cons_ne_nil _ _)
        rw [allBlank, List.all_cons, Bool.and_eq_false_iff] at hblank
        have hblank : allBlank below = false := hblank.resolve_left (by decide)
        have hbegins : below <+: below ++ rest := List.prefix_append _ _
        refine ⟨text, lines ++ [below], ?_, List.prefix_refl text, ?_, ?_⟩
        · rw [hbelow, ← List.cons_append, joinLines_append (List.cons_ne_nil _ _)
            (List.cons_ne_nil _ _), joinLines_singleton]
        · exact continues_concat.2 ⟨hcontinues, hversion, hline.of_isPrefix hbegins hblank⟩
        · intro l hl
          rw [← List.cons_append, List.mem_append, List.mem_singleton] at hl
          rcases hl with hl | rfl
          · exact hunbroken l hl
          · refine (hlines (l ++ rest) ?_).of_isInfix hbegins.isInfix
            exact List.mem_cons_of_mem _ (List.mem_append_right _ List.mem_cons_self)

/-! ## Reading -/

/-- The lines that a target takes continue it. -/
theorem extendTarget_sound {text whole : List Char} {lines rest : List Line}
    (h : extendTarget text lines = (whole, rest)) :
    ∃ taken, lines = taken ++ rest ∧ whole = joinLines (text :: taken.map Line.text) ∧
      Continues text (taken.map Line.text) := by
  induction lines generalizing text with
  | nil =>
    cases h
    exact ⟨[], rfl, (joinLines_singleton _).symm, trivial⟩
  | cons line lines ih =>
    rw [extendTarget] at h
    split at h
    · cases h
      exact ⟨[], rfl, (joinLines_singleton _).symm, trivial⟩
    · next hversion =>
      split at h
      · next hcontinues =>
        obtain ⟨taken, rfl, hwhole, htaken⟩ := ih h
        refine ⟨line :: taken, rfl, ?_, ?_⟩
        · rw [List.map_cons, joinLines_cons_cons, hwhole]
        · exact ⟨Bool.eq_false_iff.2 hversion, hcontinues, htaken⟩
      · cases h
        exact ⟨[], rfl, (joinLines_singleton _).symm, trivial⟩

theorem extendTarget_of_version {text : List Char} (lines : List Line)
    (h : endsWithVersion text = true) : extendTarget text lines = (text, lines) := by
  cases lines with
  | nil => rfl
  | cons line lines => rw [extendTarget, h, if_pos rfl]

/-- **The lines that continue a target are taken**, if it stops behind them: with a version token or
in front of a line that does not continue it. -/
theorem extendTarget_of_continues {text : List Char} {lines rest : List Line}
    (h : Continues text (lines.map Line.text))
    (hstop : endsWithVersion (joinLines (text :: lines.map Line.text)) = true ∨
      ∀ next ∈ rest.head?, next.continuesTarget = false) :
    extendTarget text (lines ++ rest) = (joinLines (text :: lines.map Line.text), rest) := by
  induction lines generalizing text with
  | nil =>
    rw [List.map_nil, joinLines_singleton] at hstop ⊢
    rw [List.nil_append]
    rcases hstop with hversion | hnext
    · exact extendTarget_of_version rest hversion
    · cases rest with
      | nil => rfl
      | cons next rest =>
        rw [extendTarget, hnext next rfl]
        split <;> rfl
  | cons line lines ih =>
    obtain ⟨hversion, hline, hmore⟩ := h
    have hcontinues : line.continuesTarget = true := hline
    rw [List.map_cons, joinLines_cons_cons] at hstop ⊢
    rw [← ih hmore hstop, List.cons_append, extendTarget, hversion, hcontinues]
    rfl

/-- The parts of a request line make up its content, and neither the word nor what follows the
blanks behind it starts with a blank. -/
theorem requestLine?_sound {text : List Char} {parts : RequestLine}
    (h : requestLine? text = some parts) :
    (∃ c rest, parts.word = c :: rest ∧ Text.isBlank c = false) ∧
      trimStart text = parts.word ++ (parts.tail.elim [] fun tail => tail.1 ++ tail.2) ∧
        ∀ gap c rest, parts.tail = some (gap, c :: rest) → Text.isBlank c = false := by
  have hsplit : (trimStart text).takeWhile (fun c => !Text.isBlank c) ++
      (trimStart text).dropWhile (fun c => !Text.isBlank c) = trimStart text :=
    List.takeWhile_append_dropWhile
  rw [requestLine?] at h
  generalize hword : (trimStart text).takeWhile (fun c => !Text.isBlank c) = word at h hsplit
  generalize (trimStart text).dropWhile (fun c => !Text.isBlank c) = tail at h hsplit
  have hink : ∀ c ∈ word, Text.isBlank c = false := by
    intro c hc
    rw [← hword] at hc
    have hnot := List.mem_takeWhile_imp (p := fun c => !Text.isBlank c) hc
    rw [Bool.not_eq_true'] at hnot
    exact hnot
  have hstart : word.isEmpty = false → ∃ c rest, word = c :: rest ∧ Text.isBlank c = false := by
    intro hne
    obtain ⟨c, rest, rfl⟩ := List.exists_cons_of_ne_nil (List.isEmpty_eq_false_iff.1 hne)
    exact ⟨c, rest, rfl, hink c List.mem_cons_self⟩
  dsimp only at h
  split at h
  · cases h
  · next hne =>
    have hstart := hstart (Bool.eq_false_iff.2 hne)
    split at h
    · next htail =>
      cases h
      rw [List.isEmpty_iff.1 htail] at hsplit
      exact ⟨hstart, hsplit.symm, nofun⟩
    · split at h
      · cases h
      · cases h
        refine ⟨hstart, ?_, ?_⟩
        · show _ = word ++ (leadingBlank tail ++ trimStart tail)
          rw [blank_append_trimStart, hsplit]
        · rintro gap c rest heq
          rw [Option.some_inj, Prod.mk.injEq] at heq
          exact trimStart_head_not_blank tail c rest heq.2

/-- What stands of a target on the request line starts with no blank. -/
theorem readRequestLine_sound {filename : String} {line : Line} {start : TargetStart}
    (hline : Unbroken line.text) (h : readRequestLine filename line = .ok start) :
    Unbroken start.text ∧ ∃ c rest, start.text = c :: rest ∧ Text.isBlank c = false := by
  rw [readRequestLine] at h
  split at h
  · cases h
  · next parts hparts =>
    obtain ⟨⟨c, rest, hword, hc⟩, hcontent, htail⟩ := requestLine?_sound hparts
    have hinfix : parts.word ++ (parts.tail.elim [] fun tail => tail.1 ++ tail.2) <:+: line.text :=
      hcontent ▸ (trimStart_suffix line.text).isInfix
    dsimp only at h
    split at h
    · split at h
      · cases h
      · cases h
      · next method gap remainder hmethod hremainder =>
        split at h
        · cases h
        · next hempty =>
          cases h
          rw [hremainder] at hinfix
          obtain ⟨d, more, rfl⟩ := List.exists_cons_of_ne_nil (mt List.isEmpty_iff.2 hempty)
          refine ⟨hline.of_isInfix (List.IsInfix.trans ?_ hinfix), d, more, rfl, ?_⟩
          · exact (List.suffix_append_of_suffix (List.suffix_append _ _)).isInfix
          · exact htail gap d more hremainder
    · cases h
      have hstart : ∀ tail, ∃ d more, parts.word ++ tail = d :: more ∧ Text.isBlank d = false :=
        fun tail => ⟨c, rest ++ tail, by rw [hword, List.cons_append], hc⟩
      refine ⟨hline.of_isInfix ?_, hstart _⟩
      revert hinfix
      cases parts.tail with
      | none => exact id
      | some tail => exact id

/-- A first character that is no blank is not taken away. -/
theorem prefix_cleanTarget {c : Char} (s : List Char) (hc : Text.isBlank c = false) :
    [c] <+: cleanTarget (c :: s) := by
  have hkeep : (Text.isBlank c && isVersionToken (trimStart s)) = false := by
    rw [hc, Bool.false_and]
  have hstop : trimEnd [c] = [c] := trimEnd_append_singleton [] hc
  rw [cleanTarget, dropVersion, hkeep, prefix_trimEnd_iff hstop]
  exact List.prefix_append [c] _

/-- **A target that was read** is a target. -/
theorem isTarget_of_read {text whole : List Char} {lines rest : List Line}
    (htext : Unbroken text) (hstart : ∃ c rest, text = c :: rest ∧ Text.isBlank c = false)
    (hlines : ∀ l ∈ lines, Unbroken l.text) (h : extendTarget text lines = (whole, rest)) :
    IsTarget (cleanTarget whole) ∧ rest <:+ lines := by
  obtain ⟨taken, rfl, rfl, htaken⟩ := extendTarget_sound h
  obtain ⟨c, first, rfl, hc⟩ := hstart
  have hunbroken : ∀ l ∈ (c :: first) :: taken.map Line.text, Unbroken l := by
    intro l hl
    rcases List.mem_cons.1 hl with rfl | hl
    · exact htext
    · obtain ⟨line, hline, rfl⟩ := List.mem_map.1 hl
      exact hlines line (List.mem_append_left _ hline)
  refine ⟨?_, List.suffix_append _ _⟩
  generalize hwhole : joinLines ((c :: first) :: taken.map Line.text) = whole
  have hstop : trimEnd (cleanTarget whole) = cleanTarget whole := trimEnd_trimEnd _
  have hbegins : cleanTarget whole <+: joinLines ((c :: first) :: taken.map Line.text) := by
    rw [hwhole]
    exact (trimEnd_isPrefix _).trans (dropVersion_isPrefix whole)
  obtain ⟨front, more, hclean, hfront, hmore, hlines'⟩ :=
    exists_continues_of_prefix htaken hunbroken hbegins hstop
  -- the first character is no blank, so it is not taken away with the version token
  have hfirst : [c] <+: joinLines (front :: more) := by
    obtain ⟨rest, hrest⟩ := prefix_joinLines (c :: first) (taken.map Line.text)
    rw [← hclean, ← hwhole, ← hrest]
    exact prefix_cleanTarget _ hc
  cases front with
  | nil =>
    exfalso
    cases more with
    | nil =>
      rw [joinLines_singleton] at hfirst
      exact absurd (List.prefix_nil.1 hfirst) (List.cons_ne_nil _ _)
    | cons next more =>
      rw [joinLines_cons [] (List.cons_ne_nil _ _)] at hfirst
      have hfeed : c = '\n' := (List.cons_prefix_cons.1 hfirst).1
      rw [hfeed] at hc
      exact absurd hc (by decide)
  | cons d front =>
    obtain ⟨rfl, -⟩ := List.cons_prefix_cons.1 hfront
    exact ⟨⟨d, front, more, hclean, hc, hmore, hlines'⟩, hstop⟩

/-! ## Reading back -/

/-- The characters that the methods begin with. -/
theorem Method.exists_name (method : Method) :
    ∃ c rest, method.name.toList = c :: rest ∧ c ∈ ['G', 'P', 'D', 'O'] := by
  cases method
  case get => exact ⟨'G', ['E', 'T'], by decide, by decide⟩
  case post => exact ⟨'P', ['O', 'S', 'T'], by decide, by decide⟩
  case delete => exact ⟨'D', ['E', 'L', 'E', 'T', 'E'], by decide, by decide⟩
  case put => exact ⟨'P', ['U', 'T'], by decide, by decide⟩
  case patch => exact ⟨'P', ['A', 'T', 'C', 'H'], by decide, by decide⟩
  case options => exact ⟨'O', ['P', 'T', 'I', 'O', 'N', 'S'], by decide, by decide⟩

theorem Method.not_isBlank_name (method : Method) :
    ∀ c ∈ method.name.toList, Text.isBlank c = false := by
  have hall : method.name.toList.all (fun c => !Text.isBlank c) = true := by
    cases method <;> decide
  intro c hc
  have hc := List.all_eq_true.1 hall c hc
  rw [Bool.not_eq_true'] at hc
  exact hc

/-- A written request line is read. -/
theorem readRequestLine_written (filename : String) (method : Method) {c : Char}
    {rest : List Char} {line : Line} (hc : Text.isBlank c = false) (hrest : Unbroken (c :: rest))
    (hline : line.text = method.name.toList ++ ' ' :: c :: rest) :
    ∃ selection column, readRequestLine filename line =
      .ok ⟨method, selection, column, c :: rest⟩ := by
  obtain ⟨m, name, hname, -⟩ := method.exists_name
  have hm : Text.isBlank m = false := method.not_isBlank_name m (hname ▸ List.mem_cons_self)
  have hstart : trimStart (method.name.toList ++ ' ' :: c :: rest) =
      method.name.toList ++ ' ' :: c :: rest := by
    rw [hname]
    exact trimStart_cons_of_not_isBlank _ hm
  have hindent : leadingBlank (method.name.toList ++ ' ' :: c :: rest) = [] := by
    rw [hname, leadingBlank, List.cons_append, List.takeWhile_cons_of_neg]
    rw [hm]
    exact Bool.false_ne_true
  have hink : ∀ d ∈ method.name.toList, (!Text.isBlank d) = true := fun d hd => by
    rw [method.not_isBlank_name d hd]
    rfl
  have hword : (method.name.toList ++ ' ' :: c :: rest).takeWhile (fun c => !Text.isBlank c) =
      method.name.toList := by
    rw [List.takeWhile_append_of_pos hink, List.takeWhile_cons_of_neg (by decide), List.append_nil]
  have htail : (method.name.toList ++ ' ' :: c :: rest).dropWhile (fun c => !Text.isBlank c) =
      ' ' :: c :: rest := by
    rw [List.dropWhile_append_of_pos hink, List.dropWhile_cons_of_neg (by decide)]
  have hgap : leadingBlank (' ' :: c :: rest) = [' '] := by
    rw [leadingBlank, List.takeWhile_cons_of_pos (by decide), List.takeWhile_cons_of_neg]
    rw [hc]
    exact Bool.false_ne_true
  have hremainder : trimStart (' ' :: c :: rest) = c :: rest :=
    (trimStart_append_of_allBlank (s := [' ']) _ rfl).trans (trimStart_cons_of_not_isBlank rest hc)
  have hparts : requestLine? line.text =
      some ⟨[], method.name.toList, some ([' '], c :: rest)⟩ := by
    have hne : method.name.toList.isEmpty = false := by rw [hname]; rfl
    rw [hline, requestLine?]
    simp only [hstart, hindent, hword, htail, hgap, hremainder, unbroken_iff.1 hrest, hne,
      List.isEmpty_cons, Bool.false_eq_true, if_false]
  have hupper : method.name.toList.all Char.isUpper = true := by cases method <;> decide
  have hmethod : Method.ofName? (String.ofList method.name.toList) = some method := by
    rw [String.ofList_toList, Method.ofName?_name]
  rw [readRequestLine, hparts]
  simp only [hupper, if_true, hmethod, List.isEmpty_cons, Bool.false_eq_true, if_false]
  exact ⟨_, _, rfl⟩

/-- The lines of a written target are taken up to its version token. -/
theorem extendTarget_written {first last : List Char} {init : List (List Char)}
    {lines : List Line} (rest : List Line) (h : Continues first (init ++ [last]))
    (hlines : lines.map Line.text = init ++ [last ++ ' ' :: versionToken]) :
    extendTarget first (lines ++ rest) =
      (joinLines (first :: (init ++ [last])) ++ ' ' :: versionToken, rest) := by
  obtain ⟨hinit, hversion, hlast⟩ := continues_concat.1 h
  have hcontinues : Continues first (lines.map Line.text) := by
    rw [hlines]
    exact continues_concat.2 ⟨hinit, hversion, hlast.append_version⟩
  have hjoin : joinLines (first :: (init ++ [last])) ++ ' ' :: versionToken =
      joinLines (first :: lines.map Line.text) := by
    rw [hlines, ← List.cons_append, joinLines_concat_append, List.cons_append]
  rw [hjoin]
  refine extendTarget_of_continues hcontinues (Or.inl ?_)
  rw [← hjoin]
  exact endsWithVersion_append _

/-- The lines of a written target: the version token stands on the last one. -/
theorem exists_lines_writtenLine {request : RequestTemplate}
    (h : IsTarget request.target.text.toList) :
    ∃ c first more, request.target.text.toList = joinLines ((c :: first) :: more) ∧
      Text.isBlank c = false ∧ Continues (c :: first) more ∧
        (∀ l ∈ (c :: first) :: more, Unbroken l) ∧
          (more = [] ∧ splitLines request.writtenLine =
              [request.method.name.toList ++ ' ' :: c :: (first ++ ' ' :: versionToken)] ∨
            ∃ init last, more = init ++ [last] ∧ splitLines request.writtenLine =
              (request.method.name.toList ++ ' ' :: c :: first) ::
                (init ++ [last ++ ' ' :: versionToken])) := by
  obtain ⟨c, first, more, htarget, hc, hcontinues, hunbroken⟩ := h.lines
  refine ⟨c, first, more, htarget, hc, hcontinues, hunbroken, ?_⟩
  have hmethod : Unbroken (request.method.name.toList ++ [' ']) := by
    cases request.method <;> exact unbroken_iff.2 rfl
  have hversion : Unbroken (' ' :: versionToken) := unbroken_iff.2 rfl
  rw [List.forall_mem_cons] at hunbroken
  have hline : Unbroken (request.method.name.toList ++ ' ' :: c :: first) := by
    rw [List.append_cons]
    exact hmethod.append hunbroken.1
  have hwritten : request.writtenLine =
      joinLines ((request.method.name.toList ++ ' ' :: c :: first) :: more) ++
        ' ' :: versionToken := by
    rw [RequestTemplate.writtenLine, htarget,
      List.append_cons request.method.name.toList ' ' (joinLines ((c :: first) :: more)),
      append_joinLines_cons, ← List.append_cons]
  rw [hwritten]
  -- the version token stands on the last line, which may be the first
  rcases List.eq_nil_or_concat' more with rfl | ⟨init, last, rfl⟩
  · refine Or.inl ⟨rfl, ?_⟩
    rw [joinLines_singleton, splitLines_of_unbroken (hline.append hversion), List.append_assoc,
      List.cons_append, List.cons_append]
  · refine Or.inr ⟨init, last, rfl, ?_⟩
    have hlines : ∀ l ∈ (request.method.name.toList ++ ' ' :: c :: first) ::
        (init ++ [last ++ ' ' :: versionToken]), Unbroken l := by
      rw [List.forall_mem_cons]
      refine ⟨hline, ?_⟩
      intro l hl
      rw [List.mem_append, List.mem_singleton] at hl
      rcases hl with hl | rfl
      · exact hunbroken.2 l (List.mem_append_left _ hl)
      · exact (hunbroken.2 last (List.mem_append_right _ List.mem_cons_self)).append hversion
    rw [← List.cons_append, joinLines_concat_append, List.cons_append,
      splitLines_joinLines (List.cons_ne_nil _ _) hlines]

/-- **A written target is read.** -/
theorem readTarget_written (filename : String) {request : RequestTemplate}
    (h : IsTarget request.target.text.toList) {lines : List Line} (rest : List Line)
    (hlines : lines.map Line.text = splitLines request.writtenLine) :
    ∃ line more start, lines = line :: more ∧
      (∃ c below, line.text = c :: below ∧ c ∈ ['G', 'P', 'D', 'O']) ∧
        readRequestLine filename line = .ok start ∧ start.method = request.method ∧
          extendTarget start.text (more ++ rest) =
            (request.target.text.toList ++ ' ' :: versionToken, rest) := by
  obtain ⟨c, first, more, htarget, hc, hcontinues, hunbroken, hcases⟩ := exists_lines_writtenLine h
  obtain ⟨m, name, hname, hm⟩ := request.method.exists_name
  have hstart : ∀ {s t : List Char}, s = request.method.name.toList ++ t →
      ∃ c below, s = c :: below ∧ c ∈ ['G', 'P', 'D', 'O'] := by
    rintro s t rfl
    exact ⟨m, name ++ t, by rw [hname, List.cons_append], hm⟩
  have hversion : Unbroken (' ' :: versionToken) := unbroken_iff.2 rfl
  rw [List.forall_mem_cons] at hunbroken
  rw [htarget]
  rcases hcases with ⟨rfl, hsplit⟩ | ⟨init, last, rfl, hsplit⟩
  · rw [hsplit] at hlines
    obtain ⟨line, below, rfl, hline, hnil⟩ := List.map_eq_cons_iff.1 hlines
    obtain rfl := List.map_eq_nil_iff.1 hnil
    obtain ⟨selection, column, hread⟩ := readRequestLine_written filename request.method hc
      (hunbroken.1.append hversion) hline
    refine ⟨line, [], _, rfl, hstart hline, hread, rfl, ?_⟩
    rw [joinLines_singleton]
    exact extendTarget_of_version rest (endsWithVersion_append (c :: first))
  · rw [hsplit] at hlines
    obtain ⟨line, below, rfl, hline, hbelow⟩ := List.map_eq_cons_iff.1 hlines
    obtain ⟨selection, column, hread⟩ := readRequestLine_written filename request.method hc
      hunbroken.1 hline
    exact ⟨line, below, _, rfl, hstart hline, hread, rfl,
      extendTarget_written rest hcontinues hbelow⟩

/-- A written target is taken without its version token. -/
theorem cleanTarget_written {s : List Char} (h : IsTarget s) :
    cleanTarget (s ++ ' ' :: versionToken) = s := by
  rw [cleanTarget, dropVersion_append h.stop, h.stop]

/-- The line is no separator. -/
theorem ContinuesTarget.not_separator {s : List Char} (h : ContinuesTarget s) :
    ¬ ['#', '#', '#'] <+: s := by
  obtain ⟨⟨c, rest, hrest, hc⟩, -⟩ := (Line.continuesTarget_iff _).1 h
  have hrest : s = c :: rest := hrest
  rw [hrest]
  intro hseparator
  rw [← (List.cons_prefix_cons.1 hseparator).1] at hc
  exact absurd hc (by decide)

theorem Continues.continuesTarget {text line : List Char} {lines : List (List Char)}
    (h : Continues text lines) (hline : line ∈ lines) : ContinuesTarget line := by
  induction lines generalizing text with
  | nil => exact absurd hline List.not_mem_nil
  | cons next lines ih =>
    obtain ⟨-, hnext, hmore⟩ := h
    rcases List.mem_cons.1 hline with rfl | hline
    · exact hnext
    · exact ih hmore hline

/-- No line of a written target is a separator. -/
theorem not_separator_of_mem_writtenLine {request : RequestTemplate}
    (h : IsTarget request.target.text.toList) {l : List Char}
    (hl : l ∈ splitLines request.writtenLine) : ¬ ['#', '#', '#'] <+: l := by
  obtain ⟨c, first, more, -, -, hcontinues, -, hcases⟩ := exists_lines_writtenLine h
  obtain ⟨m, name, hname, hm⟩ := request.method.exists_name
  have hmethod : ∀ rest, ¬ ['#', '#', '#'] <+: request.method.name.toList ++ rest := by
    intro rest hseparator
    rw [hname, List.cons_append] at hseparator
    rw [← (List.cons_prefix_cons.1 hseparator).1] at hm
    exact absurd hm (by decide)
  rcases hcases with ⟨rfl, hsplit⟩ | ⟨init, last, rfl, hsplit⟩
  · rw [hsplit, List.mem_singleton] at hl
    rw [hl]
    exact hmethod _
  · rw [hsplit, List.mem_cons, List.mem_append, List.mem_singleton] at hl
    rcases hl with rfl | hl | rfl
    · exact hmethod _
    · exact (hcontinues.continuesTarget (List.mem_append_left _ hl)).not_separator
    · have hlast := hcontinues.continuesTarget (List.mem_append_right _ List.mem_cons_self)
      exact hlast.append_version.not_separator

theorem plain_writtenLine {request : RequestTemplate}
    (h : IsTarget request.target.text.toList) : Plain request.writtenLine := by
  obtain ⟨c, first, more, htarget, -, -, hunbroken⟩ := h.lines
  have hmethod : Unbroken (request.method.name.toList ++ [' ']) := by
    cases request.method <;> exact unbroken_iff.2 rfl
  have hversion : Unbroken (' ' :: versionToken) := unbroken_iff.2 rfl
  rw [RequestTemplate.writtenLine, htarget,
    List.append_cons request.method.name.toList ' ' (joinLines ((c :: first) :: more))]
  exact (hmethod.plain.append (plain_joinLines hunbroken)).append hversion.plain

end RequestRunner
