import RequestRunner.Proofs.Document.RoundTrip
import RequestRunner.Proofs.Template.Loosening

/-!
# Targets on several lines

A target may be broken between any two of its characters that are not within a placeholder, and be
continued on an indented line. What is put in is a line feed and the indentation, and blanks make
neither a placeholder (`pieces_spaced`) nor a version token (`endsWithVersion_spaced`), so the
continuation lines are all taken and nothing is taken away (`BreaksTarget.cleanTarget_eq`). The two
requests ask for the same, and their targets are the same when the blanks are removed. Main
statement: `Document.read_broken`.
-/

set_option autoImplicit false

namespace RequestRunner

open Text

/-! ## Blanks between braces -/

section Enclosed

variable {part : List Char}

theorem BlanksEnclosed.not_allBlank (h : BlanksEnclosed part) (hne : part ≠ []) :
    allBlank part = false := by
  obtain ⟨c, rest, rfl⟩ := List.exists_cons_of_ne_nil hne
  cases hc : Text.isBlank c with
  | false => rw [allBlank, List.all_cons, hc, Bool.false_and]
  | true => exact absurd (h [] c rest rfl hc).1 List.not_mem_nil

theorem BlanksEnclosed.trimStart_eq (h : BlanksEnclosed part) : trimStart part = part := by
  cases part with
  | nil => rfl
  | cons c rest =>
    cases hc : Text.isBlank c with
    | false => exact trimStart_cons_of_not_isBlank rest hc
    | true => exact absurd (h [] c rest rfl hc).1 List.not_mem_nil

theorem BlanksEnclosed.trimEnd_eq (h : BlanksEnclosed part) : trimEnd part = part := by
  rcases List.eq_nil_or_concat' part with rfl | ⟨init, c, rfl⟩
  · rfl
  · cases hc : Text.isBlank c with
    | false => exact trimEnd_append_singleton init hc
    | true => exact absurd (h init c [] rfl hc).2 List.not_mem_nil

/-- Where a brace follows there is no version token. -/
theorem isVersionToken_of_brace_mem {s : List Char} (h : '\x7d' ∈ s) :
    isVersionToken (trimStart s) = false := by
  have hmem : '\x7d' ∈ trimStart s := by
    rw [← blank_append_trimStart s, List.mem_append] at h
    refine h.resolve_left fun hlead => ?_
    exact absurd (List.mem_takeWhile_imp hlead) (by decide)
  exact Bool.eq_false_iff.2 fun htoken => brace_notMem_of_isVersionToken htoken hmem

theorem BlanksEnclosed.endsWithVersion_eq (h : BlanksEnclosed part) :
    endsWithVersion part = false :=
  endsWithVersion_eq_false fun front c back hpart hc =>
    isVersionToken_of_brace_mem (h front c back hpart hc).2

/-- **Blanks make no version token.** Behind some text, blanks and a part of a target that is no
version token there is none at the end. -/
theorem endsWithVersion_spaced (front : List Char) {gap : List Char} (hgap : allBlank gap = true)
    (hne : gap ≠ []) (h : BlanksEnclosed part) (hpart : part ≠ [])
    (hversion : isVersionToken part = false) : endsWithVersion (front ++ gap ++ part) = false := by
  refine endsWithVersion_eq_false fun before c back htext hc => ?_
  -- the blank that the token would stand behind is in the part or in front of it
  rcases List.append_eq_append_iff.1 htext with ⟨mid, -, hmid⟩ | ⟨mid, hmid, hback⟩
  · exact isVersionToken_of_brace_mem (h mid c back hmid hc).2
  · cases mid with
    | nil => exact absurd (h [] c back hback.symm hc).1 List.not_mem_nil
    | cons d mid =>
      rw [List.cons_append, List.cons.injEq] at hback
      obtain ⟨rfl, rfl⟩ := hback
      cases hblank : allBlank mid with
      | true => rw [trimStart_append_of_allBlank part hblank, h.trimStart_eq, hversion]
      | false =>
        -- the last gap would have to be in the token, and the part behind it
        have hsuffix : mid <:+ front ++ gap := ⟨before ++ [c], by rw [hmid]; simp⟩
        obtain ⟨lead, rfl⟩ : gap <:+ mid := by
          rcases List.suffix_or_suffix_of_suffix (List.suffix_append front gap) hsuffix with
            hshort | ⟨lead, rfl⟩
          · exact hshort
          · rw [allBlank_append, hblank, Bool.and_false] at hgap
            cases hgap
        rw [allBlank_append, hgap, Bool.and_true] at hblank
        rw [List.append_assoc, trimStart_append _ hblank, Bool.eq_false_iff]
        intro htoken
        obtain ⟨g, gap, rfl⟩ := List.exists_cons_of_ne_nil hne
        rw [allBlank, List.all_cons, Bool.and_eq_true] at hgap
        have hbehind : allBlank (gap ++ part) = true :=
          isVersionToken_blank htoken hgap.1 (List.suffix_append _ _)
        rw [allBlank_append, h.not_allBlank hpart, Bool.and_false] at hbehind
        cases hbehind

end Enclosed

/-! ## Continuation lines -/

/-- An indentation and a part of a target that make up a line on which the target goes on. -/
structure IsContinuation (line : List Char × List Char) : Prop where
  indented : line.1 ≠ []
  blank : allBlank line.1 = true
  nonempty : line.2 ≠ []
  enclosed : BlanksEnclosed line.2
  hash : ¬ ['#'] <+: line.2
  slashes : ¬ ['/', '/'] <+: line.2
  version : isVersionToken line.2 = false

/-- The text of a line: the indentation and the part. -/
def continuation (line : List Char × List Char) : List Char := line.1 ++ line.2

/-- A line feed and the indentation as what stands in front of the part. -/
def lineFeed (line : List Char × List Char) : List Char × List Char := ('\n' :: line.1, line.2)

theorem IsContinuation.allBlank_lineFeed {line : List Char × List Char} (h : IsContinuation line) :
    allBlank (lineFeed line).1 = true := by
  rw [lineFeed, allBlank, List.all_cons, ← allBlank, h.blank]
  decide

theorem IsContinuation.continuesTarget {line : List Char × List Char} (h : IsContinuation line) :
    ContinuesTarget (continuation line) := by
  obtain ⟨indent, part⟩ := line
  obtain ⟨c, rest, rfl⟩ := List.exists_cons_of_ne_nil h.indented
  have hblank := h.blank
  rw [allBlank, List.all_cons, Bool.and_eq_true] at hblank
  have hcontent : trimStart (c :: rest ++ part) = part :=
    (trimStart_append_of_allBlank part h.blank).trans h.enclosed.trimStart_eq
  refine (Line.continuesTarget_iff _).2 ⟨⟨c, rest ++ part, rfl, hblank.1⟩, ?_, ?_⟩
  · show allBlank (c :: rest ++ part) = false
    rw [allBlank_append, h.enclosed.not_allBlank h.nonempty, Bool.and_false]
  · rw [Bool.eq_false_iff, ne_eq, Line.isComment_iff, not_or]
    show ¬ ['#'] <+: trimStart (c :: rest ++ part) ∧ ¬ ['/', '/'] <+: trimStart (c :: rest ++ part)
    rw [hcontent]
    exact ⟨h.hash, h.slashes⟩

/-- A text on which a target can go on: it ends neither with a version token nor with a blank. -/
structure GoesOn (text : List Char) : Prop where
  version : endsWithVersion text = false
  trimmed : trimEnd text = text

theorem BlanksEnclosed.goesOn {part : List Char} (h : BlanksEnclosed part) : GoesOn part :=
  ⟨h.endsWithVersion_eq, h.trimEnd_eq⟩

/-- Nothing is taken away from such a text. -/
theorem GoesOn.cleanTarget_eq {text : List Char} (h : GoesOn text) : cleanTarget text = text := by
  rw [cleanTarget, dropVersion_eq_self h.version, h.trimmed]

/-- **With a further line** a target can go on again. -/
theorem IsContinuation.goesOn {line : List Char × List Char} (h : IsContinuation line)
    (text : List Char) : GoesOn (text ++ '\n' :: continuation line) := by
  have htext : text ++ '\n' :: continuation line = text ++ '\n' :: line.1 ++ line.2 := by
    rw [continuation, List.append_assoc, List.cons_append]
  rw [htext]
  constructor
  · exact endsWithVersion_spaced text h.allBlank_lineFeed (List.cons_ne_nil _ _) h.enclosed
      h.nonempty h.version
  · rw [trimEnd_append _ (h.enclosed.not_allBlank h.nonempty), h.enclosed.trimEnd_eq]

/-- **All lines are taken**, and with them a target could go on. -/
theorem continues_of_isContinuation {text : List Char} (htext : GoesOn text)
    {more : List (List Char × List Char)} (h : ∀ line ∈ more, IsContinuation line) :
    Continues text (more.map continuation) ∧
      GoesOn (joinLines (text :: more.map continuation)) := by
  -- each line is taken since the text so far can go on, and the text with it can go on again
  induction more generalizing text with
  | nil => exact ⟨trivial, by rwa [List.map_nil, joinLines_singleton]⟩
  | cons line more ih =>
    rw [List.forall_mem_cons] at h
    obtain ⟨hcontinues, hgoesOn⟩ := ih (h.1.goesOn text) h.2
    rw [List.map_cons, joinLines_cons_cons]
    exact ⟨⟨htext.version, h.1.continuesTarget, hcontinues⟩, hgoesOn⟩

/-- The lines below each other, as parts with blanks in front of them. -/
theorem joinLines_continuations (first : List Char) (more : List (List Char × List Char)) :
    joinLines (first :: more.map continuation) =
      spaced first (more.map lineFeed) := by
  induction more generalizing first with
  | nil => rw [List.map_nil, joinLines_singleton, spaced, List.map_nil, List.flatMap_nil,
      List.append_nil]
  | cons line more ih =>
    rw [List.map_cons, joinLines_cons_cons, ih]
    simp only [spaced, lineFeed, continuation, List.map_cons, List.flatMap_cons, List.append_assoc,
      List.cons_append]

/-! ## A target alone -/

/-- A section that holds nothing but a target. -/
structure RequestSection.HoldsTarget (part : RequestSection) (filename : String)
    (target : List Char) : Prop where
  name : part.name = none
  declarations : part.declarations = []
  preHandler : part.preHandler = none
  method : part.request.method = .get
  target : ∃ start, part.request.target = Template.ofText filename target start
  headers : part.request.headers = []
  body : part.request.body = none
  handler : part.handler = none

/-- **Lines that begin with a target and end with blank lines** are a section with that target. -/
theorem readSection_target (filename : String) {line : Line} {lines blank : List Line} {c : Char}
    {rest : List Char} (hline : line.text = Method.get.name.toList ++ ' ' :: c :: rest)
    (hc : Text.isBlank c = false) (hrest : Unbroken (c :: rest))
    (h : Continues (c :: rest) (lines.map Line.text)) (hblank : ∀ l ∈ blank, l.isBlank = true) :
    ∃ part, readSection filename ⟨none, line :: (lines ++ blank)⟩ = .ok (some part) ∧
      part.HoldsTarget filename (cleanTarget (joinLines ((c :: rest) :: lines.map Line.text))) := by
  have hbegins : line.BeginsRequest := Line.beginsRequest_of_cons hline (by decide)
  have hhead : ∀ l ∈ blank.head?, l.isBlank = true := fun l hl =>
    hblank l (List.mem_of_mem_head? hl)
  have hinBody : ∀ l ∈ blank, l.inBody = true := fun l hl => Line.inBody_of_isBlank (hblank l hl)
  have hstop : ∀ l ∈ blank.head?, l.continuesTarget = false := by
    intro l hl
    rw [Bool.eq_false_iff, ne_eq, Line.continuesTarget_iff, hhead l hl]
    rintro ⟨-, hink, -⟩
    cases hink
  obtain ⟨selection, column, hstart⟩ := readRequestLine_written filename .get hc hrest hline
  -- behind the target there are only blank lines: no header, no body and no handler
  have hheaders : readHeaders filename blank = .ok ([], blank) := by
    cases blank with
    | nil => rfl
    | cons l blank => rw [readHeaders, hhead l rfl, Bool.true_or, if_pos rfl]
  have hbody : readBody filename (blank.takeWhile Line.inBody) = none :=
    readBody_of_blank filename fun l hl => hblank l ((List.takeWhile_sublist _).subset hl)
  have hend : blank.dropWhile Line.inBody = [] := List.dropWhile_eq_nil_iff.2 hinBody
  obtain ⟨place, hrequest⟩ := readRequest_of_parts filename hstart
    (extendTarget_of_continues h (Or.inr hstop)) hheaders
  rw [hbody, hend] at hrequest
  -- before the target there is nothing
  have hdeclarations : readDeclarations filename (line :: (lines ++ blank)) =
      .ok ([], line :: (lines ++ blank)) := by
    simp only [readDeclarations, hbegins.trivia, hbegins.declaration, Bool.false_eq_true, if_false]
  have hpreHandler : readHandler? filename .before (line :: (lines ++ blank)) =
      .ok (none, line :: (lines ++ blank)) := by
    have hopens : line.opensScript Marker.before.char = false := hbegins.preHandler
    have hskip := skipTrivia_of_cons (lines ++ blank) hbegins.trivia
    simp only [readHandler?, hskip, hopens, Bool.false_eq_true, if_false]
  have hexpect : ∀ last, expectRequest filename last (line :: (lines ++ blank)) =
      .ok (line, lines ++ blank) := fun last => hbegins.expectRequest filename last _
  have hsignificant : (line :: (lines ++ blank)).filter (fun l => !l.isTrivia) =
      line :: (lines ++ blank).filter fun l => !l.isTrivia := by
    rw [List.filter_cons_of_pos]
    rw [hbegins.trivia]
    rfl
  obtain ⟨whole, hread⟩ := readSignificant_of_parts filename ⟨none, line :: (lines ++ blank)⟩
    line hdeclarations hpreHandler (hexpect _) hrequest rfl
  rw [readSection, hsignificant]
  exact ⟨_, bind_eq_ok.2 ⟨_, hread, rfl⟩, rfl, rfl, rfl, rfl, ⟨_, rfl⟩, rfl, rfl, rfl⟩

/-- **A target on its lines is read.** -/
theorem Document.read_target (filename : String) {source : String} {first : List Char}
    {more below : List (List Char)} (henclosed : BlanksEnclosed first) (hne : first ≠ [])
    (hunbroken : Unbroken first) (h : Continues first more)
    (hbelow : ∀ l ∈ below, allBlank l = true)
    (hsource : splitLines source.toList = ("GET ".toList ++ first) :: (more ++ below)) :
    ∃ part, Document.read filename source = .ok ⟨filename, [part]⟩ ∧
      part.HoldsTarget filename (cleanTarget (joinLines (first :: more))) := by
  obtain ⟨c, rest, rfl⟩ := List.exists_cons_of_ne_nil hne
  have hc : Text.isBlank c = false := by
    rw [Bool.eq_false_iff]
    exact fun hc => List.not_mem_nil (henclosed [] c rest rfl hc).1
  have hget : "GET ".toList ++ c :: rest = Method.get.name.toList ++ ' ' :: c :: rest := by
    have hwords : "GET ".toList = Method.get.name.toList ++ [' '] := by decide
    rw [hwords, List.append_assoc, List.singleton_append]
  rw [hget] at hsource
  have htexts := (map_text_numbered 1 (splitLines source.toList)).trans hsource
  obtain ⟨line, others, hlines, hline, hothers⟩ := List.map_eq_cons_iff.1 htexts
  obtain ⟨lines, blank, rfl, rfl, rfl⟩ := List.map_eq_append_iff.1 hothers
  rw [List.forall_mem_map] at hbelow
  obtain ⟨part, hread, hholds⟩ := readSection_target filename hline hc hunbroken h hbelow
  -- neither the request line nor a continuation nor a blank line is a separator
  have hinner : ∀ l ∈ line :: (lines ++ blank), l.isSeparator = false := by
    intro l hl
    rw [Bool.eq_false_iff, ne_eq, Line.isSeparator_iff]
    rw [List.mem_cons, List.mem_append] at hl
    rcases hl with rfl | hl | hl
    · rintro ⟨t, ht⟩
      have hname : Method.get.name.toList = ['G', 'E', 'T'] := by decide
      rw [hline, hname] at ht
      cases ht
    · exact (h.continuesTarget (List.mem_map_of_mem hl)).not_separator
    · rintro ⟨t, ht⟩
      have hblank := hbelow l hl
      rw [← ht] at hblank
      cases hblank
  have hgroups := groupSections_append hinner []
  rw [List.append_nil] at hgroups
  have hsections : sectionsOf (sourceLines source) = [⟨none, line :: (lines ++ blank)⟩] := by
    rw [sourceLines, hlines, sectionsOf, hgroups]
    simp only [groupSections, List.append_nil]
  refine ⟨part, ?_, hholds⟩
  rw [Document.read, Document.ofLines, hsections]
  exact bind_eq_ok.2 ⟨[part], bind_eq_ok.2 ⟨some part, hread, rfl⟩, rfl⟩

/-! ## Breaking a target -/

/-- A target in parts: the first one, and further ones with indentations. Each placeholder of the
target lies within a part, and outside of placeholders there are no blanks. No further part can be
taken for a comment or a version token. -/
structure BreaksTarget (first : List Char) (more : List (List Char × List Char)) : Prop where
  nonempty : ∀ part ∈ first :: more.map Prod.snd, part ≠ []
  unbroken : ∀ part ∈ first :: more.map Prod.snd, Unbroken part
  inked : (pieces (first :: more.map Prod.snd).flatten).Inked
  within : HolesWithin (pieces (first :: more.map Prod.snd).flatten).holes
    (first :: more.map Prod.snd)
  hash : ∀ part ∈ more.map Prod.snd, ¬ ['#'] <+: part
  slashes : ∀ part ∈ more.map Prod.snd, ¬ ['/', '/'] <+: part
  version : ∀ part ∈ more.map Prod.snd, isVersionToken part = false
  indented : ∀ indent ∈ more.map Prod.fst, indent ≠ [] ∧ ∀ c ∈ indent, c = ' ' ∨ c = '\t'

namespace BreaksTarget

variable {first : List Char} {more : List (List Char × List Char)}

theorem enclosed (h : BreaksTarget first more) :
    ∀ part ∈ first :: more.map Prod.snd, BlanksEnclosed part :=
  h.within.blanksEnclosed (join_pieces _) h.inked

theorem enclosed_flatten (h : BreaksTarget first more) :
    BlanksEnclosed (first :: more.map Prod.snd).flatten := by
  have henclosed := h.enclosed
  generalize first :: more.map Prod.snd = parts at henclosed
  induction parts with
  | nil => exact blanksEnclosed_of_inked (List.forall_mem_nil _)
  | cons part parts ih =>
    rw [List.forall_mem_cons] at henclosed
    exact henclosed.1.append (ih henclosed.2)

theorem flatten_ne_nil (h : BreaksTarget first more) :
    (first :: more.map Prod.snd).flatten ≠ [] := by
  rw [List.flatten_cons]
  exact List.append_ne_nil_of_left_ne_nil (h.nonempty first List.mem_cons_self) _

theorem unbroken_flatten (h : BreaksTarget first more) :
    Unbroken (first :: more.map Prod.snd).flatten := by
  intro c hc
  obtain ⟨part, hpart, hc⟩ := List.mem_flatten.1 hc
  exact h.unbroken part hpart c hc

theorem isContinuation (h : BreaksTarget first more) : ∀ line ∈ more, IsContinuation line := by
  intro line hline
  have hpart : line.2 ∈ more.map Prod.snd := List.mem_map_of_mem hline
  have hmem : line.2 ∈ first :: more.map Prod.snd := List.mem_cons_of_mem _ hpart
  obtain ⟨hindent, hblank⟩ := h.indented line.1 (List.mem_map_of_mem hline)
  refine ⟨hindent, List.all_eq_true.2 fun c hc => ?_, h.nonempty _ hmem, h.enclosed _ hmem,
    h.hash _ hpart, h.slashes _ hpart, h.version _ hpart⟩
  rcases hblank c hc with rfl | rfl <;> rfl

/-- On its lines the target is its parts with a line feed and an indentation between them. -/
theorem cleanTarget_eq (h : BreaksTarget first more) :
    Continues first (more.map continuation) ∧
      cleanTarget (joinLines (first :: more.map continuation)) =
        spaced first (more.map lineFeed) := by
  have hfirst := (h.enclosed first List.mem_cons_self).goesOn
  obtain ⟨hcontinues, hgoesOn⟩ := continues_of_isContinuation hfirst h.isContinuation
  exact ⟨hcontinues, hgoesOn.cleanTarget_eq.trans (joinLines_continuations first more)⟩

/-- The line feeds and the indentations are put into literal stretches. -/
theorem loosenedTo (h : BreaksTarget first more) :
    (pieces (first :: more.map Prod.snd).flatten).LoosenedTo
      (pieces (spaced first (more.map lineFeed))) := by
  have hparts : (more.map lineFeed).map Prod.snd = more.map Prod.snd := by
    rw [List.map_map]
    rfl
  have hblank : ∀ gap ∈ (more.map lineFeed).map Prod.fst, allBlank gap = true := by
    rw [List.forall_mem_map, List.forall_mem_map]
    exact fun line hline => (h.isContinuation line hline).allBlank_lineFeed
  have hwithin := h.within
  rw [← hparts] at hwithin ⊢
  exact pieces_spaced hwithin hblank

end BreaksTarget

/-! ## Resolving -/

section Resolution

variable {m : Type → Type} [Monad m] [LawfulMonad m] {resolve : String → m String}

/-- **What is sent has no blank in its target.** -/
theorem RequestTemplate.always_resolve (resolve : String → m String) (request : RequestTemplate) :
    Always (fun sent : Request => ∀ c ∈ sent.target.toList, Text.isBlank c = false)
      (request.resolve resolve) := by
  have hstrip : ∀ text : String, ∀ c ∈ (Text.stripString text).toList, Text.isBlank c = false := by
    intro text c hc
    rw [Text.stripString, String.toList_ofList, Text.strip, List.mem_filter,
      Bool.not_eq_true'] at hc
    exact hc.2
  refine ⟨do
    let target ← request.target.fill resolve
    let headers ← resolveHeaders resolve request.headers
    let body ← resolveBody resolve request.body
    pure ⟨⟨request.method, Text.stripString target, headers, body⟩, hstrip target⟩, ?_⟩
  simp only [RequestTemplate.resolve, RequestTemplate.resolveTarget, map_bind, map_pure, bind_assoc,
    pure_bind]

/-- Where there is nothing but a target, its placeholders are all that is asked for. -/
theorem RequestSection.HoldsTarget.resolve_eq {part : RequestSection} {filename : String}
    {target : List Char} (h : part.HoldsTarget filename target)
    (harmless : ∀ script, Always HarmlessAnswer (resolve script)) :
    part.request.resolve resolve = (do
      let answers ← part.request.target.scripts.mapM resolve
      pure ⟨.get, Text.stripString (part.request.target.weave answers), [], none⟩) := by
  obtain ⟨start, htarget⟩ := h.target
  have hread : part.request.target.IsRead := ⟨filename, target, start, htarget⟩
  rw [RequestTemplate.resolve, RequestTemplate.resolveTarget, Template.fill_eq_weave harmless hread,
    h.method, h.headers, h.body]
  simp only [resolveHeaders, resolveBody, bind_assoc, pure_bind]

/-- **Breaking a target over lines does not change the request.** A target in parts is written on
the request line and on indented lines below it, or all of it on the request line; blank lines may
follow. Either source has one request, with nothing but the target: the text as it stands on the
lines, or the parts alone. Both ask for the same placeholders, and whatever the resolver does, if
its answers are harmless, the two are resolved in the same way and to the same request, with a
target without blanks. -/
theorem Document.read_broken (filename : String) {broken whole : String} {first : List Char}
    {more : List (List Char × List Char)} {below : List (List Char)} (h : BreaksTarget first more)
    (hbelow : ∀ l ∈ below, allBlank l = true)
    (hbroken : splitLines broken.toList =
      ("GET ".toList ++ first) :: (more.map continuation ++ below))
    (hwhole : splitLines whole.toList =
      ("GET ".toList ++ (first :: more.map Prod.snd).flatten) :: below)
    (harmless : ∀ script, Always HarmlessAnswer (resolve script)) :
    ∃ inLines inOne : RequestSection,
      Document.read filename broken = .ok ⟨filename, [inLines]⟩ ∧
        inLines.HoldsTarget filename (spaced first (more.map lineFeed)) ∧
      Document.read filename whole = .ok ⟨filename, [inOne]⟩ ∧
        inOne.HoldsTarget filename (first :: more.map Prod.snd).flatten ∧
      inLines.request.target.scripts = inOne.request.target.scripts ∧
      inLines.request.resolve resolve = inOne.request.resolve resolve ∧
      Always (fun sent : Request => ∀ c ∈ sent.target.toList, Text.isBlank c = false)
        (inLines.request.resolve resolve) := by
  obtain ⟨hcontinues, hspaced⟩ := h.cleanTarget_eq
  obtain ⟨inLines, hinLines, hholdsLines⟩ := Document.read_target filename
    (h.enclosed first List.mem_cons_self) (h.nonempty first List.mem_cons_self)
    (h.unbroken first List.mem_cons_self) hcontinues hbelow hbroken
  -- on one line the target is its own text, without a line that continues it
  have hnone : Continues (first :: more.map Prod.snd).flatten [] := trivial
  obtain ⟨inOne, hinOne, hholdsOne⟩ := Document.read_target filename h.enclosed_flatten
    h.flatten_ne_nil h.unbroken_flatten hnone hbelow hwhole
  rw [hspaced] at hholdsLines
  rw [joinLines_singleton, h.enclosed_flatten.goesOn.cleanTarget_eq] at hholdsOne
  -- the two templates differ in blanks between placeholders
  obtain ⟨start, htarget⟩ := hholdsLines.target
  obtain ⟨start', htarget'⟩ := hholdsOne.target
  have hscripts : inLines.request.target.scripts = inOne.request.target.scripts := by
    rw [htarget, htarget', h.loosenedTo.scripts_eq]
  have hweave : ∀ answers, Text.stripString (inLines.request.target.weave answers) =
      Text.stripString (inOne.request.target.weave answers) := by
    intro answers
    rw [htarget, htarget', h.loosenedTo.stripString_weave]
  refine ⟨inLines, inOne, hinLines, hholdsLines, hinOne, hholdsOne, hscripts, ?_,
    inLines.request.always_resolve resolve⟩
  rw [hholdsLines.resolve_eq harmless, hholdsOne.resolve_eq harmless, hscripts]
  simp only [hweave]

end Resolution

/-- A first part with blanks in its placeholder. -/
def firstPart : List Char := "\x7b\x7b base \x7d\x7d".toList

/-- A part with a placeholder and one without, each with its indentation. -/
def furtherParts : List (List Char × List Char) :=
  [("  ".toList, "/a\x7b\x7bid\x7d\x7db".toList), ("\t".toList, "c".toList)]

/-- A resolver that keeps what it is asked for, and answers with a blank at first. -/
def answerInTurn (script : String) : StateM (List String) String :=
  fun asked => (if asked.isEmpty then "a b" else "\x7bd\x7d", asked ++ [script])

theorem Document.read_broken_furtherParts :
    BreaksTarget firstPart furtherParts ∧ (∀ script, Always HarmlessAnswer (answerInTurn script)) ∧
      ∃ inLines inOne : RequestSection,
        Document.read "a.http" "GET \x7b\x7b base \x7d\x7d\n  /a\x7b\x7bid\x7d\x7db\r\n\tc\n" =
            .ok ⟨"a.http", [inLines]⟩ ∧
          inLines.HoldsTarget "a.http" (spaced firstPart (furtherParts.map lineFeed)) ∧
        Document.read "a.http" "GET \x7b\x7b base \x7d\x7d/a\x7b\x7bid\x7d\x7dbc\n" =
            .ok ⟨"a.http", [inOne]⟩ ∧
          inOne.HoldsTarget "a.http" (firstPart :: furtherParts.map Prod.snd).flatten ∧
        inLines.request.target.scripts = inOne.request.target.scripts ∧
        inLines.request.resolve answerInTurn = inOne.request.resolve answerInTurn ∧
        Always (fun sent : Request => ∀ c ∈ sent.target.toList, Text.isBlank c = false)
          (inLines.request.resolve answerInTurn) := by
  have hpieces : pieces (firstPart :: furtherParts.map Prod.snd).flatten =
      ⟨[([], " base ".toList), ("/a".toList, "id".toList)], "bc".toList⟩ := by
    decide +kernel
  have hwithin : HolesWithin (pieces (firstPart :: furtherParts.map Prod.snd).flatten).holes
      (firstPart :: furtherParts.map Prod.snd) := by
    rw [hpieces]
    rintro (_ | ⟨hole, _ | ⟨next, front⟩⟩) before inner back hholes
    · obtain ⟨rfl, rfl⟩ := Prod.mk.inj (List.cons.inj hholes).1
      exact ⟨[], _, _, [], [], rfl, by decide, rfl⟩
    · obtain ⟨rfl, hnext⟩ := List.cons.inj hholes
      obtain ⟨rfl, rfl⟩ := Prod.mk.inj (List.cons.inj hnext).1
      exact ⟨[firstPart], _, ["c".toList], "/a".toList, "b".toList, rfl, by decide, by decide⟩
    · simp at hholes
  have hunbroken : ∀ part ∈ firstPart :: furtherParts.map Prod.snd, Unbroken part := by
    simp only [unbroken_iff]
    decide
  have hbreaks : BreaksTarget firstPart furtherParts := by
    have hinked : (pieces (firstPart :: furtherParts.map Prod.snd).flatten).Inked := by
      rw [hpieces]
      constructor <;> simp <;> decide
    have hindented : ∀ indent ∈ furtherParts.map Prod.fst,
        indent ≠ [] ∧ ∀ c ∈ indent, c = ' ' ∨ c = '\t' := by
      simp [furtherParts]
    exact ⟨by decide, hunbroken, hinked, hwithin, by decide, by decide, by decide, hindented⟩
  have harmless : ∀ script, Always HarmlessAnswer (answerInTurn script) := by
    intro script
    rw [always_state_iff]
    intro asked
    change HarmlessAnswer (if asked.isEmpty then "a b" else "\x7bd\x7d")
    split <;> exact ⟨by decide, by decide⟩
  have hblank : ∀ l ∈ [([] : List Char)], allBlank l = true := by decide
  exact ⟨hbreaks, harmless, Document.read_broken "a.http" hbreaks hblank (by decide) (by decide)
    harmless⟩

end RequestRunner
