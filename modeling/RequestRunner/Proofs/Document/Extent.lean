import RequestRunner.Proofs.Document.Arrangement
import RequestRunner.Proofs.Document.Malformed

/-!
# Where a body begins and ends

Behind the headers of a request stands a stretch of lines, from the blank line that ends them up to
the response handler or the end of the section. Which lines these are is settled by the lines of the
section alone: they can be told apart in only one way (`RequestLines.Holds.unique`).

The body takes in what is left of the stretch without the blank lines in front and without what
stands behind the block of the last significant line, where a block is a run of lines that are not
blank and has no such line next to it (`IsLastBlock`, `BodyExtent`).

Main statement: a section that is read has its body there, and has none exactly if the stretch is
trivia (`readSection_body_extent`).
-/

set_option autoImplicit false

namespace RequestRunner

open Text

/-! ## What is kept -/

/-- The block between the lines above and below is a run of lines that are not blank, as long as it
can be, and holds the last significant one. -/
structure IsLastBlock (above block below : List Line) : Prop where
  inked : ∀ l ∈ block, l.isBlank = false
  first : ∀ l ∈ above.getLast?, l.isBlank = true
  last : ∀ l ∈ below.head?, l.isBlank = true
  significant : ∃ l ∈ block, l.isTrivia = false
  trivia : ∀ l ∈ below, l.isTrivia = true

/-- The kept lines of a stretch begin with its first line that is not blank and end with the block
of its last significant line. -/
def BodyExtent (stretch kept : List Line) : Prop :=
  ∃ before above block after, stretch = before ++ (kept ++ after) ∧ kept = above ++ block ∧
    (∀ l ∈ before, l.isBlank = true) ∧ (∀ l ∈ kept.head?, l.isBlank = false) ∧
      IsLastBlock (before ++ above) block after

/-- The body is what is kept of a stretch: its text is that of the kept lines without the blanks at
the end, and its first line is not blank. There is none exactly if the stretch is trivia. -/
structure IsBodyOf (stretch : List Line) (body : Option Template) : Prop where
  absent : body = none ↔ ∀ l ∈ stretch, l.isTrivia = true
  present : ∀ found, body = some found → ∃ kept, BodyExtent stretch kept ∧
    found.text.toList = trimEnd (joinLines (kept.map Line.text)) ∧ found.text ≠ "" ∧
      allBlank (found.text.toList.takeWhile (· != '\n')) = false

/-- The lines end with a block, which may be empty. -/
theorem exists_last_block (lines : List Line) :
    ∃ above block, lines = above ++ block ∧ (∀ l ∈ block, l.isBlank = false) ∧
      ∀ l ∈ above.getLast?, l.isBlank = true := by
  -- from the end: a blank line leaves the block empty, and any other one extends it
  induction lines using List.reverseRecOn with
  | nil => exact ⟨[], [], rfl, List.forall_mem_nil _, fun _ hl => absurd hl (Option.not_mem_none _)⟩
  | append_singleton lines line ih =>
    cases hblank : line.isBlank with
    | true =>
      refine ⟨lines ++ [line], [], (List.append_nil _).symm, List.forall_mem_nil _, ?_⟩
      intro l hl
      rw [List.getLast?_concat] at hl
      cases hl
      exact hblank
    | false =>
      obtain ⟨above, block, rfl, hblock, habove⟩ := ih
      refine ⟨above, block ++ [line], List.append_assoc _ _ _, ?_, habove⟩
      exact List.forall_mem_append.2 ⟨hblock, List.forall_mem_singleton.2 hblank⟩

/-- **The kept lines of a stretch** that is not trivia end with its last block. -/
theorem bodyLines_extent {stretch : List Line} (h : bodyLines stretch ≠ []) :
    BodyExtent stretch (bodyLines stretch) := by
  rcases bodyLines_cases stretch with
    ⟨hnone, -⟩ | ⟨before, after, hsplit, hbody, hbefore, hafter, hnext⟩
  · exact absurd hnone h
  · obtain ⟨init, last, tail, hkept, hfirst, hlast, htail⟩ := hbody
    obtain ⟨above, block, rfl, hblock, habove⟩ := exists_last_block init
    refine ⟨before, above, block ++ last :: tail, after, hsplit, ?_, hbefore, hfirst,
      ?_, ?_, hnext, ⟨last, List.mem_append_right _ List.mem_cons_self, hlast⟩, hafter⟩
    · rw [hkept, List.append_assoc]
    · refine List.forall_mem_append.2 ⟨hblock, ?_⟩
      exact List.forall_mem_cons.2 ⟨Line.isBlank_of_isTrivia hlast, fun l hl => (htail l hl).2⟩
    · -- the block may be all of the kept lines, and then a blank line is above it or nothing
      intro l hl
      rw [List.getLast?_append] at hl
      cases hend : above.getLast? with
      | none =>
        rw [hend, Option.none_or] at hl
        exact hbefore l (List.mem_of_getLast? hl)
      | some other =>
        rw [hend, Option.some_or] at hl
        exact habove l (hend.trans hl)

/-- Nothing is kept exactly if the stretch is trivia. -/
theorem bodyLines_eq_nil_iff (stretch : List Line) :
    bodyLines stretch = [] ↔ ∀ l ∈ stretch, l.isTrivia = true := by
  rcases bodyLines_cases stretch with ⟨hnone, htrivia⟩ | ⟨before, after, hsplit, hbody, -⟩
  · exact iff_of_true hnone htrivia
  · obtain ⟨init, last, tail, hkept, -, hlast, -⟩ := hbody
    have hmem : last ∈ bodyLines stretch :=
      hkept ▸ List.mem_append_right _ List.mem_cons_self
    constructor
    · intro hnone
      rw [hnone] at hmem
      exact absurd hmem List.not_mem_nil
    · -- the last significant line is kept
      intro htrivia
      have hlast' := htrivia last (by
        rw [hsplit]
        exact List.mem_append_right _ (List.mem_append_left _ hmem))
      rw [hlast] at hlast'
      cases hlast'

/-- The first line of a joined text. -/
theorem takeWhile_joinLines {first : List Char} (lines : List (List Char)) (h : '\n' ∉ first) :
    (joinLines (first :: lines)).takeWhile (· != '\n') = first := by
  have hfirst : ∀ c ∈ first, (c != '\n') = true := by
    intro c hc
    rw [bne_iff_ne]
    rintro rfl
    exact h hc
  cases lines with
  | nil =>
    rw [joinLines_singleton, List.takeWhile_eq_self_iff.2 hfirst]
  | cons next more =>
    rw [joinLines_cons first (List.cons_ne_nil _ _)]
    exact takeWhile_run hfirst (by rintro _ ⟨⟩; rfl)

/-- The first line of a body is not blank, also when the last one is trimmed. -/
theorem BodyLines.isBlank_front {init : List Line} {last : Line}
    (h : BodyLines (init ++ [last])) (hunfed : ∀ l ∈ init ++ [last], '\n' ∉ l.text) :
    allBlank ((joinLines (init.map Line.text ++ [trimEnd last.text])).takeWhile (· != '\n')) =
      false := by
  cases init with
  | nil =>
    rw [List.map_nil, List.nil_append, takeWhile_joinLines, allBlank_trimEnd]
    · exact h.isBlank_last
    · intro hmem
      exact hunfed last List.mem_cons_self ((trimEnd_isPrefix _).subset hmem)
  | cons first init =>
    obtain ⟨-, -, -, -, hfirst, -⟩ := h
    rw [List.map_cons, List.cons_append, takeWhile_joinLines]
    · exact hfirst first rfl
    · exact hunfed first List.mem_cons_self

/-- **The body that is read from a stretch** is what is kept of it. -/
theorem readBody_isBodyOf (filename : String) {stretch : List Line} (hlines : AreLines stretch) :
    IsBodyOf stretch (readBody filename stretch) := by
  have hempty := bodyLines_eq_nil_iff stretch
  rcases readBody_cases filename stretch with
    ⟨hnone, hread⟩ | ⟨init, last, first, hkept, -, hbody, hsubset, hread⟩
  · rw [hread]
    exact ⟨iff_of_true rfl (hempty.1 hnone), nofun⟩
  · have hne : bodyLines stretch ≠ [] := by
      rw [hkept]
      exact List.append_ne_nil_of_right_ne_nil _ (List.cons_ne_nil _ _)
    have hfront := hbody.isBlank_front fun l hl => hlines.unfed l (hsubset hl)
    rw [hread]
    refine ⟨iff_of_false (Option.some_ne_none _) (mt hempty.2 hne), ?_⟩
    rintro _ ⟨⟩
    refine ⟨bodyLines stretch, bodyLines_extent hne, ?_, ?_, ?_⟩
    · rw [Template.toList_text_ofText, hkept, List.map_append, List.map_singleton,
        trimEnd_joinLines_concat _ hbody.isBlank_last]
    · -- a text with a first line that is not blank is not empty
      intro htext
      have hnothing := congrArg String.toList htext
      rw [Template.toList_text_ofText] at hnothing
      rw [hnothing] at hfront
      cases hfront
    · rw [Template.toList_text_ofText]
      exact hfront

/-! ## Where the stretch is -/

variable {filename : String}

/-- A target takes in the same lines wherever they are told apart. -/
theorem Template.TakesIn.unique {target : Template} {line : Line}
    {continuations below continuations' below' : List Line}
    (h : target.TakesIn line continuations below)
    (h' : target.TakesIn line continuations' below')
    (hsame : continuations ++ below = continuations' ++ below') :
    continuations = continuations' ∧ below = below' := by
  obtain ⟨lead, tail, htext, hcolumn, htaken, hstop⟩ := h
  obtain ⟨lead', tail', htext', hcolumn', htaken', hstop'⟩ := h'
  -- the target begins in one column, so that the same is left of the line
  have hunits : units lead = units lead' := by omega
  have htail := dropUnits_append lead tail
  rw [← htext, htext', hunits, dropUnits_append] at htail
  subst htail
  have hextend := extendTarget_of_continues htaken hstop
  rw [hsame, extendTarget_of_continues htaken' hstop'] at hextend
  have hbelow : below = below' := (Prod.mk.inj hextend).2.symm
  subst hbelow
  exact ⟨List.append_cancel_right hsame, rfl⟩

/-- Lines that are used of a stretch are its significant ones, if none of them is trivia. -/
theorem Exhausts.eq_filter {used lines : List Line} (h : Exhausts used lines)
    (hused : ∀ l ∈ used, l.isTrivia = false) :
    used = lines.filter fun line => !line.isTrivia := by
  have hkept : (used.filter fun line => !line.isTrivia) = used := by
    apply List.filter_eq_self.2
    intro l hl
    rw [hused l hl]
    rfl
  have hinOrder := h.inOrder.filter fun line => !line.isTrivia
  rw [hkept] at hinOrder
  exact hinOrder.antisymm h.significant

namespace RequestLines

variable {place other : RequestLines} {lines : List Line} {request : RequestTemplate}

/-- More lines above those of a request. -/
theorem Holds.below_of (above : List Line) (h : place.Holds filename lines request) :
    Holds filename { place with above := above ++ place.above } (above ++ lines) request := by
  refine ⟨?_, h.begins, h.target, h.headers, h.among, h.heading, h.opening, h.unopened, h.closing⟩
  rw [List.append_assoc, ← h.split]

theorem Holds.stretch_isInfix (h : place.Holds filename lines request) :
    place.stretch <:+: lines := by
  rw [h.split]
  exact ⟨place.above ++ (place.line :: (place.continuations ++ place.heading)), place.below,
    by simp⟩

/-- The lines of the headers are those of the heading that are significant. -/
theorem Holds.headers_eq (h : place.Holds filename lines request) :
    place.headers = place.heading.filter fun line => !line.isTrivia := by
  apply h.among.eq_filter
  intro l hl
  obtain ⟨header, -, hstands⟩ := exists_of_mem_forall₂ h.headers.flip hl
  exact hstands.1

/-- All lines above the request line have other numbers. -/
theorem Holds.number_above (hlines : Consecutive lines) (h : place.Holds filename lines request) :
    ∀ l ∈ place.above, (l.number != place.line.number) = true := by
  intro l hl
  have hpairwise := hlines.pairwise
  rw [h.split, List.pairwise_append] at hpairwise
  obtain ⟨-, -, habove⟩ := hpairwise
  exact bne_iff_ne.2 (Nat.ne_of_lt (habove l hl place.line List.mem_cons_self))

/-- The heading goes on as long as it can. -/
theorem Holds.heading_ends (h : place.Holds filename lines request) :
    (∀ l ∈ place.heading, (!l.isBlank && !l.opensHandler) = true) ∧
      ∀ l, (place.stretch ++ place.below).head? = some l →
        (!l.isBlank && !l.opensHandler) = false := by
  constructor
  · intro l hl
    rw [(h.heading l hl).1, (h.heading l hl).2]
    rfl
  · -- behind it there is the blank line of the stretch or, without a stretch, the handler
    intro l hl
    rw [List.head?_append] at hl
    cases hstretch : place.stretch.head? with
    | none =>
      rw [hstretch, Option.none_or] at hl
      rw [h.closing l hl, Bool.not_true, Bool.and_false]
    | some first =>
      rw [hstretch, Option.some_or] at hl
      rw [h.opening l (hstretch.trans hl), Bool.not_true, Bool.false_and]

/-- The stretch goes on as long as it can. -/
theorem Holds.stretch_ends (h : place.Holds filename lines request) :
    (∀ l ∈ place.stretch, l.inBody = true) ∧
      ∀ l, place.below.head? = some l → l.inBody = false := by
  constructor
  · intro l hl
    rw [Line.inBody, h.unopened l hl]
    rfl
  · intro l hl
    rw [Line.inBody, h.closing l hl]
    rfl

/-- **The lines of a request are told apart in one way.** -/
theorem Holds.unique (hlines : Consecutive lines) (h : place.Holds filename lines request)
    (h' : other.Holds filename lines request) : place = other := by
  have hsame := h.split.symm.trans h'.split
  have hnumber : place.line.number = other.line.number :=
    congrArg Position.line (h.begins.symm.trans h'.begins)
  have habove := h'.number_above hlines
  rw [← hnumber] at habove
  -- each part ends where the next one begins, from the lines above the request on
  obtain ⟨habove, hrest⟩ := run_unique (h.number_above hlines)
    (by rintro _ ⟨⟩; exact bne_self_eq_false _) habove
    (by rintro _ ⟨⟩; rw [hnumber]; exact bne_self_eq_false _) hsame
  obtain ⟨hline, hrest⟩ := List.cons.inj hrest
  obtain ⟨hcontinuations, hrest⟩ := h.target.unique (hline ▸ h'.target) hrest
  obtain ⟨hheading, hrest⟩ := run_unique h.heading_ends.1 h.heading_ends.2 h'.heading_ends.1
    h'.heading_ends.2 hrest
  obtain ⟨hstretch, hbelow⟩ := run_unique h.stretch_ends.1 h.stretch_ends.2 h'.stretch_ends.1
    h'.stretch_ends.2 hrest
  have hheaders := h.headers_eq
  rw [hheading, ← h'.headers_eq] at hheaders
  cases place
  cases other
  simp only at habove hline hcontinuations hheaders hheading hstretch hbelow
  rw [habove, hline, hcontinuations, hheaders, hheading, hstretch, hbelow]

end RequestLines

/-! ## Sections -/

/-- The request of a section is read from the request line and the lines below it. -/
theorem exists_readRequest {source : SectionLines} {part : RequestSection}
    (hlines : AreLines source.lines) (h : readSection filename source = .ok (some part)) :
    ∃ above line more rest, source.lines = above ++ line :: more ∧
      readRequest filename line more = .ok (part.request, rest) := by
  rw [readSection] at h
  split at h
  · cases h
  · obtain ⟨found, hfound, h⟩ := bind_eq_ok.1 h
    cases h
    rw [readSignificant, bind_eq_ok] at hfound
    obtain ⟨⟨declarations, afterDeclarations⟩, hdeclarations, hfound⟩ := hfound
    obtain ⟨⟨preHandler, afterPreHandler⟩, hpreHandler, hfound⟩ := bind_eq_ok.1 hfound
    obtain ⟨⟨line, more⟩, hline, hfound⟩ := bind_eq_ok.1 hfound
    obtain ⟨⟨request, rest⟩, hrequest, hfound⟩ := bind_eq_ok.1 hfound
    obtain ⟨⟨handler, behind⟩, -, hfound⟩ := bind_eq_ok.1 hfound
    obtain ⟨⟨⟩, -, hfound⟩ := bind_eq_ok.1 hfound
    cases hfound
    -- each reader leaves an end of the lines
    obtain ⟨_, htakes, -⟩ := readDeclarations_takes hdeclarations
    have hbehind := readHandler?_suffix (hlines.of_isInfix htakes.suffix.isInfix) hpreHandler
    obtain ⟨hbelow, -⟩ := expectRequest_takes hline
    obtain ⟨above, habove⟩ := (hbelow.suffix.trans hbehind).trans htakes.suffix
    exact ⟨above, line, more, rest, habove.symm, hrequest⟩

/-- **The extent of a body.** The lines of a section that is read can be told apart in one way, and
the body of its request is what is kept of the stretch behind the headers: from the first line that
is not blank to the end of the block of the last significant line. Without a significant line in the
stretch there is no body. -/
theorem readSection_body_extent (filename text : String) (source : SectionLines)
    (part : RequestSection) (hsource : source ∈ sectionsOf (sourceLines text))
    (h : readSection filename source = .ok (some part)) :
    ∃ place : RequestLines, place.Holds filename source.lines part.request ∧
      (∀ other : RequestLines, other.Holds filename source.lines part.request → other = place) ∧
        IsBodyOf place.stretch part.request.body := by
  have hlines : AreLines source.lines :=
    (areLines_sourceLines text).of_isInfix (infix_of_mem_sectionsOf hsource)
  obtain ⟨above, line, more, rest, hsplit, hrequest⟩ := exists_readRequest hlines h
  have hbelow : AreLines (line :: more) :=
    hlines.of_isInfix (hsplit ▸ (List.suffix_append above _).isInfix)
  -- the request is read without a look at the lines above it
  obtain ⟨place, hplace, -, -, -, -, hbody⟩ := readRequest_parts hbelow hrequest
  have hwhole := hplace.below_of above
  rw [← hsplit] at hwhole
  refine ⟨_, hwhole, fun other hother => hother.unique hlines.consecutive hwhole, ?_⟩
  rw [hbody]
  exact readBody_isBodyOf filename (hlines.of_isInfix hwhole.stretch_isInfix)

/-- A body whose blocks have comments on top and at the end. -/
def notedSource : String :=
  "POST a\nb: 1\n\n# on top\n\nc\n\nd\n# at the end\n \n# behind\n> \x7b% f() %\x7d"

/-- The comment behind the blank line is left out, the other ones belong to the body. -/
theorem readSection_body_extent_notedSource :
    ∃ source part, source ∈ sectionsOf (sourceLines notedSource) ∧
      readSection "items.http" source = .ok (some part) ∧
        part.request.body.map Template.text = some "# on top\n\nc\n\nd\n# at the end" ∧
          ∃ place : RequestLines, place.Holds "items.http" source.lines part.request ∧
            IsBodyOf place.stretch part.request.body := by
  have hsource : ⟨none, sourceLines notedSource⟩ ∈ sectionsOf (sourceLines notedSource) := by
    decide +kernel
  have hread : (readSection "items.http" ⟨none, sourceLines notedSource⟩).toOption.map
      (fun found => found.map fun part => part.request.body.map Template.text) =
        some (some (some "# on top\n\nc\n\nd\n# at the end")) := by decide +kernel
  cases h : readSection "items.http" ⟨none, sourceLines notedSource⟩ with
  | error e =>
    rw [h] at hread
    cases hread
  | ok found =>
    rw [h] at hread
    obtain ⟨part, rfl, hbody⟩ := Option.map_eq_some_iff.1 (Option.some.inj hread)
    obtain ⟨place, hplace, -, hextent⟩ :=
      readSection_body_extent "items.http" notedSource _ part hsource h
    exact ⟨_, part, hsource, h, hbody, place, hplace, hextent⟩

end RequestRunner
