import RequestRunner.Proofs.Document.Concatenation
import RequestRunner.Proofs.Document.RoundTrip
import RequestRunner.Proofs.Document.Splicing

/-!
# Comments and blank lines carry no meaning

A comment may be put in directly above a declaration, a script that runs before the request, the
request line or a header, directly below a header, and directly below a response handler, and a
blank line wherever it is not a header that is next to it. The source is then read to the same
document, whose selections are counted one further behind the new line.

The section that the line is put into is read around it (`readSection_spliced`). The sections above
it are the same ones, and those below it are one line further down (`Document.read_with_line`).
-/

set_option autoImplicit false

namespace RequestRunner

open Text

/-! ## Places for a new line -/

/-- Directly below line `k` stands a declaration, the opening of the script that runs before the
request, or the request line, or directly above stands the end of the response handler. -/
def RequestSection.HasGap (k : Nat) (part : RequestSection) : Prop :=
  (∃ declaration ∈ part.declarations, declaration.2.selection.start.line = k + 1) ∨
    (∃ handler ∈ part.preHandler, handler.selection.start.line = k + 1) ∨
      part.request.selection.start.line = k + 1 ∨
        ∃ handler ∈ part.handler, handler.selection.stop.line = k

/-- Line `k` or the one directly below it is a header. -/
def RequestSection.HasHeaderGap (k : Nat) (part : RequestSection) : Prop :=
  ∃ header ∈ part.request.headers,
    header.selection.start.line = k ∨ header.selection.start.line = k + 1

/-- The line may be put in below line `k` of the section. -/
def RequestSection.Admits (k : Nat) (t : Line) (part : RequestSection) : Prop :=
  part.HasGap k ∨ t.isComment = true ∧ part.HasHeaderGap k

variable {filename : String} {k : Nat} {t : Line}

/-- What is read of a section in which a line may be put in: the handlers are not around the gap,
and if the request line is above it, then so are the lines of the request or the gap is among its
headers. -/
structure RequestSection.Surrounds (k : Nat) (t : Line) (part : RequestSection) : Prop where
  preHandler : ∀ found ∈ part.preHandler,
    k < found.selection.start.line ∨ found.selection.stop.line ≤ k
  request : part.request.selection.start.line ≤ k →
    (t.isComment = true ∧ part.HasHeaderGap k) ∨
      ∃ found ∈ part.handler, found.selection.stop.line = k
  handler : ∀ found ∈ part.handler,
    k < found.selection.start.line ∨ found.selection.stop.line ≤ k

/-- The ends of a selection are on the lines that it spans. -/
theorem Spans.ends {selection : Selection} {lines : List Line} (h : Spans selection lines) :
    ∃ first ∈ lines, ∃ last ∈ lines,
      selection.start.line = first.number ∧ selection.stop.line = last.number := by
  obtain ⟨first, last, hfirst, hlast, hstart, hstop⟩ := h
  exact ⟨first, List.mem_of_head? hfirst, last, List.mem_of_getLast? hlast, hstart, hstop⟩

/-- What a section is arranged on stands in the order of its parts. -/
theorem SectionUse.Arranges.pairwise_parts {use : SectionUse} {part : RequestSection}
    (h : use.Arranges filename part) :
    (use.declarations ++ (use.preHandler ++ (use.request :: (use.headers ++ use.handler)))).Pairwise
      fun l l' => l.number < l'.number := by
  refine h.pairwise.sublist ?_
  refine (List.Sublist.refl _).append ((List.Sublist.refl _).append (.cons_cons _ ?_))
  refine List.Sublist.trans ?_ (List.sublist_append_right _ _)
  exact (List.Sublist.refl _).append (List.sublist_append_right _ _)

/-- A handler is not around the gap if all of its lines are on one side of it. -/
theorem PartOn.beside {marker : Marker} {lines : List Line} {handler : Option Handler}
    (h : PartOn (Handler.StandsOn filename marker) lines handler)
    (hlines : (∀ l ∈ lines, k < l.number) ∨ ∀ l ∈ lines, l.number ≤ k) :
    ∀ found ∈ handler, k < found.selection.start.line ∨ found.selection.stop.line ≤ k := by
  intro found hfound
  obtain ⟨first, hfirst, last, hlast, hstart, hstop⟩ := (h.of_some hfound).spans.ends
  rw [hstart, hstop]
  exact hlines.imp (fun hbelow => hbelow first hfirst) fun habove => habove last hlast

/-- **A line that is admitted** is put in between the parts of the section. -/
theorem SectionUse.Arranges.surrounds {use : SectionUse} {part : RequestSection}
    (h : use.Arranges filename part) (hadmits : part.Admits k t) : part.Surrounds k t := by
  have hstart : part.request.selection.start.line = use.request.number := by
    rw [h.request.selection]
  obtain ⟨-, hlower, hdeclarations⟩ := List.pairwise_append.1 h.pairwise_parts
  obtain ⟨-, hlower, hpreHandler⟩ := List.pairwise_append.1 hlower
  obtain ⟨hrequest, hlower⟩ := List.pairwise_cons.1 hlower
  obtain ⟨-, -, hheaders⟩ := List.pairwise_append.1 hlower
  simp only [List.mem_append, List.mem_cons] at hdeclarations hpreHandler hrequest
  -- in each case the parts are ordered around the line that the gap is next to
  rcases hadmits with (hgap | hgap | hgap | hgap) | ⟨hcomment, hgap⟩
  · -- above a declaration
    obtain ⟨declaration, hmem, hgap⟩ := hgap
    obtain ⟨l, hl, hstands⟩ := exists_of_mem_forall₂ h.declarations hmem
    obtain ⟨-, name, lead, raw, -, rfl⟩ := hstands
    have hnumber : l.number = k + 1 := hgap
    have hbelow := hdeclarations l hl
    refine ⟨h.preHandler.beside (Or.inl fun first hfirst => ?_), fun habove => ?_,
      h.handler.beside (Or.inl fun first hfirst => ?_)⟩
    · have hless := hbelow first (Or.inl hfirst)
      omega
    · have hless := hbelow use.request (Or.inr (Or.inl rfl))
      omega
    · have hless := hbelow first (Or.inr (Or.inr (Or.inr hfirst)))
      omega
  · -- above the script that runs before the request
    obtain ⟨handler, hmem, hgap⟩ := hgap
    obtain ⟨l, hl, -, -, hplace, -⟩ := (h.preHandler.of_some hmem).spans.ends
    have hbelow := hpreHandler l hl
    refine ⟨fun found hfound => ?_, fun habove => ?_,
      h.handler.beside (Or.inl fun first hfirst => ?_)⟩
    · obtain rfl := Option.mem_unique hmem hfound
      omega
    · have hless := hbelow use.request (Or.inl rfl)
      omega
    · have hless := hbelow first (Or.inr (Or.inr hfirst))
      omega
  · -- above the request line
    refine ⟨h.preHandler.beside (Or.inr fun last hlast => ?_), fun habove => ?_,
      h.handler.beside (Or.inl fun first hfirst => ?_)⟩
    · have hless := hpreHandler last hlast use.request (Or.inl rfl)
      omega
    · omega
    · have hless := hrequest first (Or.inr hfirst)
      omega
  · -- below the response handler
    obtain ⟨handler, hmem, hgap⟩ := hgap
    obtain ⟨-, -, l, hl, -, hplace⟩ := (h.handler.of_some hmem).spans.ends
    refine ⟨h.preHandler.beside (Or.inr fun last hlast => ?_),
      fun _ => Or.inr ⟨handler, hmem, hgap⟩, fun found hfound => ?_⟩
    · have hless := hpreHandler last hlast l (Or.inr (Or.inr hl))
      omega
    · obtain rfl := Option.mem_unique hmem hfound
      exact Or.inr (Nat.le_of_eq hgap)
  · -- next to a header
    obtain ⟨header, hmem, hplace⟩ := hgap
    obtain ⟨l, hl, hstands⟩ := exists_of_mem_forall₂ h.request.headers hmem
    have hnumber : l.number = k ∨ l.number = k + 1 := by
      rw [(hstands.isOn (h.areLines.unfed l (h.header_mem hl))).2] at hplace
      exact hplace
    refine ⟨h.preHandler.beside (Or.inr fun last hlast => ?_),
      fun _ => Or.inl ⟨hcomment, header, hmem, hplace⟩,
      h.handler.beside (Or.inl fun first hfirst => ?_)⟩
    · have hless := hpreHandler last hlast l (Or.inr (Or.inl hl))
      omega
    · have hless := hheaders l hl first hfirst
      omega

/-! ## The section of the new line -/

/-- The first line of a request, and the request that is read from it, around the new line. -/
theorem readRequestPart_spliced {lines lines' more rest : List Line} {last line : Line}
    {request : RequestTemplate} (last' : Line) (h : Spliced k t lines lines')
    (ht : t.isTrivia = true) (hlines : AreLines lines)
    (hexpect : expectRequest filename last lines = .ok (line, more))
    (hread : readRequest filename line more = .ok (request, rest))
    (hapart : line.number ≤ k → request.IsApart k t rest) :
    ∃ line' more' rest', expectRequest filename last' lines' = .ok (line', more') ∧
      readRequest filename line' more' = .ok (request.shifted k, rest') ∧
        Spliced k t rest rest' := by
  obtain ⟨⟨gap, rfl, -⟩, -⟩ := expectRequest_takes hexpect
  have hbelow : AreLines (line :: more) := hlines.of_isInfix (List.suffix_append _ _).isInfix
  rcases expectRequest_spliced last' h ht hexpect with
    ⟨hless, hnext⟩ | ⟨habove, more', hnext, hmore⟩
  · obtain ⟨hrequest, hrest⟩ := readRequest_below hbelow hless hread
    exact ⟨_, _, _, hnext, hrequest, .passed hrest⟩
  · obtain ⟨rest', hrequest, hrest⟩ :=
      readRequest_spliced hmore ht hbelow habove hread (hapart habove)
    exact ⟨_, _, _, hnext, hrequest, hrest⟩

/-- **Significant lines** are read around the new line. -/
theorem readSignificant_spliced {source : SectionLines} {lines' : List Line} {first last : Line}
    {part : RequestSection} (h : Spliced k t source.lines lines') (ht : t.isTrivia = true)
    (hlines : AreLines source.lines) (hseparator : ∀ l ∈ source.separator, l.number ≤ k)
    (hsurrounds : part.Surrounds k t)
    (hread : readSignificant filename source first last = .ok part) :
    readSignificant filename ⟨source.separator, lines'⟩ (first.shifted k) (last.shifted k) =
      .ok (part.shifted k) := by
  rw [readSignificant] at hread ⊢
  obtain ⟨⟨declarations, afterDeclarations⟩, hdeclarations, hread⟩ := bind_eq_ok.1 hread
  obtain ⟨⟨preHandler, afterPreHandler⟩, hpreHandler, hread⟩ := bind_eq_ok.1 hread
  obtain ⟨⟨line, more⟩, hline, hread⟩ := bind_eq_ok.1 hread
  obtain ⟨⟨request, afterRequest⟩, hrequest, hread⟩ := bind_eq_ok.1 hread
  obtain ⟨⟨handler, rest⟩, hhandler, hread⟩ := bind_eq_ok.1 hread
  obtain ⟨⟨⟩, hnothing, hread⟩ := bind_eq_ok.1 hread
  cases hread
  -- what each reader leaves are the lines of a source
  obtain ⟨_, htakes, -⟩ := readDeclarations_takes hdeclarations
  have hafterDeclarations : AreLines afterDeclarations := hlines.of_isInfix htakes.suffix.isInfix
  obtain ⟨skipped, used, rfl, -⟩ := readHandler?_stands hafterDeclarations hpreHandler
  have hafterPreHandler : AreLines afterPreHandler := by
    refine hafterDeclarations.of_isInfix (List.IsSuffix.isInfix ?_)
    exact (List.suffix_append _ _).trans (List.suffix_append _ _)
  obtain ⟨⟨gap, rfl, -⟩, -⟩ := expectRequest_takes hline
  have hbelow : AreLines (line :: more) :=
    hafterPreHandler.of_isInfix (List.suffix_append _ _).isInfix
  obtain ⟨_, _, _, _, rfl, -, -, -, -, hstands, -⟩ := readRequest_arranges hbelow hrequest
  have hafterRequest : AreLines afterRequest := by
    refine hbelow.of_isInfix (List.IsSuffix.isInfix ?_)
    exact ((List.suffix_append _ _).trans (List.suffix_append _ _)).trans (List.suffix_cons _ _)
  have hstart : request.selection.start.line = line.number := by rw [hstands.selection]
  have hapart : line.number ≤ k → request.IsApart k t afterRequest := by
    intro habove
    rcases hsurrounds.request (hstart ▸ habove) with hheader | ⟨found, hfound, hstop⟩
    · exact Or.inl hheader
    · -- the last line of the handler is directly above the new line
      obtain ⟨_, used, rfl, -, hused, -⟩ := readHandler?_stands hafterRequest hhandler
      obtain ⟨-, -, last, hlast, -, hnumber⟩ := (hused.of_some hfound).spans.ends
      refine Or.inr ⟨last, ?_, by omega⟩
      exact List.mem_append_right _ (List.mem_append_left _ hlast)
  -- each reader goes on where the one before it has left the lines with the new one
  obtain ⟨below₁, hread₁, h₁⟩ := readDeclarations_spliced h ht hlines.unfed hdeclarations
  obtain ⟨below₂, hread₂, h₂⟩ :=
    readHandler?_spliced h₁ ht hafterDeclarations hpreHandler hsurrounds.preHandler
  obtain ⟨line', more', below₃, hexpect, hread₃, h₃⟩ :=
    readRequestPart_spliced (last.shifted k) h₂ ht hafterPreHandler hline hrequest hapart
  obtain ⟨below₄, hread₄, h₄⟩ :=
    readHandler?_spliced h₃ ht hafterRequest hhandler hsurrounds.handler
  have hnothing := expectNothing_spliced h₄ ht hnothing
  have hseparated : source.separator.getD (first.shifted k) =
      (source.separator.getD first).shifted k := by
    cases hsource : source.separator with
    | none => rfl
    | some separator =>
      exact (Line.shifted_eq (hseparator separator (Option.mem_def.2 hsource))).symm
  rw [hread₁]
  simp only [bind, Except.bind, hread₂, hexpect, hread₃, hread₄, hnothing, hseparated]
  rfl

/-- **The section** that a line is put into is read around it. -/
theorem readSection_spliced {source : SectionLines} {lines' : List Line} {part : RequestSection}
    (h : Spliced k t source.lines lines') (ht : t.isTrivia = true)
    (hlines : AreLines source.lines) (hseparator : ∀ l ∈ source.separator, l.number ≤ k)
    (hadmits : part.Admits k t) (hread : readSection filename source = .ok (some part)) :
    readSection filename ⟨source.separator, lines'⟩ = .ok (some (part.shifted k)) := by
  have hsignificant := h.filter_significant ht
  rw [readSection] at hread ⊢
  rw [hsignificant]
  split at hread
  · cases hread
  · next first more hfilter =>
    obtain ⟨found, hfound, hread⟩ := bind_eq_ok.1 hread
    cases hread
    have hsource : source.significant = first :: more := hfilter
    obtain ⟨use, rfl, harranges⟩ := readSignificant_arranges hlines
      (by rw [hsource]; rfl) (by rw [hsource, List.getLast?_cons]) hfound
    have hagain := readSignificant_spliced h ht hlines hseparator
      (harranges.surrounds hadmits) hfound
    have hlast : (more.map (Line.shifted k)).getLast?.getD (first.shifted k) =
        (more.getLast?.getD first).shifted k := by
      rw [List.getLast?_map, Option.getD_map]
    rw [hfilter, List.map_cons]
    dsimp only
    rw [hlast, hagain]
    rfl

/-- A line that is admitted is put in next to a line of the section. -/
theorem SectionUse.Arranges.line_of_admits {use : SectionUse} {part : RequestSection}
    (h : use.Arranges filename part) (hadmits : part.Admits k t) :
    ∃ l ∈ use.source.lines, l.number = k ∨ l.number = k + 1 := by
  obtain ⟨hpreHandler, hrequest, -, hhandler⟩ := h.neighbours
  rcases hadmits with (hgap | hgap | hgap | hgap) | ⟨-, header, hmem, hplace⟩
  · obtain ⟨declaration, hmem, hgap⟩ := hgap
    obtain ⟨l, hl, -, name, lead, raw, -, rfl⟩ := exists_of_mem_forall₂ h.declarations hmem
    exact ⟨l, h.declaration_mem hl, Or.inr hgap⟩
  · obtain ⟨handler, hmem, hgap⟩ := hgap
    obtain ⟨l, hl, -, -, hplace, -⟩ := (h.preHandler.of_some hmem).spans.ends
    exact ⟨l, hpreHandler.subset hl, Or.inr (hplace ▸ hgap)⟩
  · rw [h.request.selection] at hgap
    exact ⟨use.request, hrequest.subset List.mem_cons_self, Or.inr hgap⟩
  · obtain ⟨handler, hmem, hgap⟩ := hgap
    obtain ⟨-, -, l, hl, -, hplace⟩ := (h.handler.of_some hmem).spans.ends
    exact ⟨l, hhandler.subset hl, Or.inl (hplace ▸ hgap)⟩
  · obtain ⟨l, hl, hstands⟩ := exists_of_mem_forall₂ h.request.headers hmem
    have hl := h.header_mem hl
    rw [(hstands.isOn (h.areLines.unfed l hl)).2] at hplace
    exact ⟨l, hl, hplace⟩

/-! ## The sections around it -/

/-- The last section of some lines is open: it takes in the lines that follow them up to the next
separator. -/
theorem exists_open_section (above : List Line) :
    ∃ (front : List SectionLines) (last : SectionLines),
      (∀ below, sectionsOf (above ++ below) =
        front ++ ⟨last.separator, last.lines ++ (groupSections below).1⟩ ::
          (groupSections below).2) ∧
      (front.flatMap fun source => source.separator.toList ++ source.lines) ++
        (last.separator.toList ++ last.lines) = above ∧
      (last.separator = none → front = []) := by
  induction above using List.reverseRecOn with
  | nil => exact ⟨[], ⟨none, []⟩, fun below => rfl, rfl, fun _ => rfl⟩
  | append_singleton above line ih =>
    obtain ⟨front, last, hsections, hlines, hfirst⟩ := ih
    cases hseparator : line.isSeparator with
    | true =>
      refine ⟨front ++ [last], ⟨some line, []⟩, fun below => ?_, ?_, nofun⟩
      · rw [List.append_assoc, List.singleton_append, hsections,
          groupSections_of_separator hseparator]
        simp
      · rw [← hlines]
        simp
    | false =>
      refine ⟨front, ⟨last.separator, last.lines ++ [line]⟩, fun below => ?_, ?_, hfirst⟩
      · rw [List.append_assoc, List.singleton_append, hsections, groupSections_of_inner hseparator]
        simp
      · rw [← hlines]
        simp

/-- Each section but the first one is opened by a separator. -/
theorem exists_separator_of_mem_groupSections {lines : List Line} {source : SectionLines}
    (h : source ∈ (groupSections lines).2) : ∃ separator, source.separator = some separator := by
  induction lines with
  | nil => exact absurd h List.not_mem_nil
  | cons line rest ih =>
    cases hseparator : line.isSeparator with
    | true =>
      rw [groupSections_of_separator hseparator] at h
      rcases List.mem_cons.1 h with rfl | h
      · exact ⟨line, rfl⟩
      · exact ih h
    | false =>
      rw [groupSections_of_inner hseparator] at h
      exact ih h

/-- The sections below the new line are one line further down. -/
theorem groupSections_below (filename : String) {lines : List Line} (hbelow : ∀ l ∈ lines, k < l.number) :
    (groupSections (lines.map (Line.shifted k))).1 =
        (groupSections lines).1.map (Line.shifted k) ∧
      ∀ parts, readSections filename (groupSections lines).2 = .ok parts →
        readSections filename (groupSections (lines.map (Line.shifted k))).2 =
          .ok (parts.map (RequestSection.shifted k)) := by
  obtain ⟨above, rfl, hagain⟩ := exists_map_down hbelow
  rw [hagain, groupSections_down, groupSections_down]
  constructor
  · simp [Function.comp_def]
  · intro parts hparts
    refine read_shifted (readSections filename) (fun n => List.map (SectionLines.down n))
      (fun n => List.map (RequestSection.down n)) (List.map (RequestSection.shifted k)) ?_ ?_ hparts
    · exact fun n sources => readSections_down filename sources
    · intro parts
      simp [Function.comp_def]

/-- **The sections above the new line** are not changed, and it is not put into one of them. -/
theorem front_of_spliced {front : List SectionLines} {parts : List RequestSection}
    (hlines : ∀ source ∈ front, AreLines source.lines)
    (habove : ∀ source ∈ front, ∀ l ∈ source.separator.toList ++ source.lines, l.number < k)
    (hparts : readSections filename front = .ok parts) :
    parts.map (RequestSection.shifted k) = parts ∧ ∀ part ∈ parts, ¬ part.Admits k t := by
  obtain ⟨uses, hsources, harranges⟩ := readSections_arranges hlines hparts
  have heach : ∀ part ∈ parts, ∃ use : SectionUse, use.source ∈ front ∧
      use.Arranges filename part := by
    intro part hpart
    obtain ⟨use, huse, harranged⟩ := exists_of_mem_forall₂ harranges hpart
    exact ⟨use, SectionUse.source_mem hsources use huse, harranged⟩
  constructor
  · refine map_shifted_eq fun part hpart => ?_
    obtain ⟨use, huse, harranged⟩ := heach part hpart
    refine harranged.shifted_eq (fun l hl => ?_) (fun l hl => ?_)
    · exact Nat.le_of_lt (habove _ huse l (List.mem_append_right _ hl))
    · exact Nat.le_of_lt (habove _ huse l (List.mem_append_left _ (Option.mem_toList.2 hl)))
  · intro part hpart hadmits
    obtain ⟨use, huse, harranged⟩ := heach part hpart
    obtain ⟨l, hl, hnumber⟩ := harranged.line_of_admits hadmits
    have hless := habove _ huse l (List.mem_append_right _ hl)
    omega

/-- The new line is not put into a section below the next separator. -/
theorem back_of_spliced {lines : List Line} {parts : List RequestSection}
    (hlines : AreLines lines) (hbelow : ∀ l ∈ lines, k < l.number)
    (hparts : readSections filename (groupSections lines).2 = .ok parts) :
    ∀ part ∈ parts, ¬ part.Admits k t := by
  have hsections : ∀ source ∈ (groupSections lines).2, source ∈ sectionsOf lines :=
    fun source hsource => List.mem_cons_of_mem _ hsource
  obtain ⟨uses, hsources, harranges⟩ := readSections_arranges (fun source hsource =>
    hlines.of_isInfix (infix_of_mem_sectionsOf (hsections source hsource))) hparts
  intro part hpart hadmits
  obtain ⟨use, huse, harranged⟩ := exists_of_mem_forall₂ harranges hpart
  obtain ⟨l, hl, hnumber⟩ := harranged.line_of_admits hadmits
  have hsource := SectionUse.source_mem hsources use huse
  -- the line is below the separator of its section, which is below the new line
  obtain ⟨separator, hseparator⟩ := exists_separator_of_mem_groupSections hsource
  have hinside := separated_infix_of_mem_sectionsOf (hsections _ hsource)
  rw [hseparator, Option.toList_some, List.singleton_append] at hinside
  have hpairwise := (hlines.consecutive.of_isInfix hinside).pairwise
  have hless := List.rel_of_pairwise_cons hpairwise hl
  have hgap := hbelow separator (hinside.subset List.mem_cons_self)
  omega

/-- The sections above an open one end in front of its separator. -/
theorem number_lt_of_front {above below : List Line} {front : List SectionLines}
    {last : SectionLines} (habove : ∀ l ∈ above, l.number ≤ k)
    (hpairwise : (above ++ below).Pairwise fun l l' => l.number < l'.number)
    (hflat : (front.flatMap fun source => source.separator.toList ++ source.lines) ++
      (last.separator.toList ++ last.lines) = above)
    (hfirst : last.separator = none → front = []) :
    ∀ source ∈ front, ∀ l ∈ source.separator.toList ++ source.lines, l.number < k := by
  intro source hsource l hl
  cases hopened : last.separator with
  | none =>
    rw [hfirst hopened] at hsource
    exact absurd hsource List.not_mem_nil
  | some separator =>
    rw [hopened, Option.toList_some, List.singleton_append] at hflat
    rw [← hflat] at habove hpairwise
    have horder := (List.pairwise_append.1 (List.pairwise_append.1 hpairwise).1).2.2
    have hless := horder l (List.mem_flatMap.2 ⟨source, hsource, hl⟩) separator List.mem_cons_self
    have hgap := habove separator (List.mem_append_right _ List.mem_cons_self)
    omega

/-- **Lines with a new one** are read to the same sections, shifted. -/
theorem readSections_with_line {above below : List Line} {parts : List RequestSection}
    (hlines : AreLines (above ++ below)) (habove : ∀ l ∈ above, l.number ≤ k)
    (hbelow : ∀ l ∈ below, k < l.number) (ht : t.isTrivia = true)
    (hseparator : t.isSeparator = false) (hplace : ∃ part ∈ parts, part.Admits k t)
    (h : readSections filename (sectionsOf (above ++ below)) = .ok parts) :
    readSections filename (sectionsOf (above ++ t :: below.map (Line.shifted k))) =
      .ok (parts.map (RequestSection.shifted k)) := by
  obtain ⟨front, last, hsections, hflat, hfirst⟩ := exists_open_section above
  obtain ⟨hhead, hback⟩ := groupSections_below filename hbelow
  have hmem : ∀ source ∈ sectionsOf (above ++ below), AreLines source.lines :=
    fun source hsource => hlines.of_isInfix (infix_of_mem_sectionsOf hsource)
  rw [hsections] at h hmem
  rw [hsections, groupSections_of_inner hseparator, hhead]
  dsimp only
  rw [readSections_append, bind_eq_ok] at h
  obtain ⟨upper, hupper, h⟩ := h
  obtain ⟨lower, hlower, h⟩ := bind_eq_ok.1 h
  cases h
  rw [readSections, bind_eq_ok] at hlower
  obtain ⟨found, hfound, hlower⟩ := hlower
  obtain ⟨more, hmore, hlower⟩ := bind_eq_ok.1 hlower
  cases hlower
  have hfront := number_lt_of_front habove hlines.consecutive.pairwise hflat hfirst
  obtain ⟨hsame, hfrontNone⟩ := front_of_spliced (t := t)
    (fun source hsource => hmem source (List.mem_append_left _ hsource)) hfront hupper
  have hbackNone := back_of_spliced (t := t)
    (hlines.of_isInfix (List.suffix_append _ _).isInfix) hbelow hmore
  obtain ⟨part, hpart, hadmits⟩ := hplace
  obtain rfl : found = some part := by
    rcases List.mem_append.1 hpart with hpart | hpart
    · exact absurd hadmits (hfrontNone part hpart)
    · rcases List.mem_append.1 hpart with hpart | hpart
      · exact Option.mem_toList.1 hpart
      · exact absurd hadmits (hbackNone part hpart)
  have hgroup : ∀ l ∈ (groupSections below).1, k < l.number := by
    intro l hl
    have hsource : ⟨none, (groupSections below).1⟩ ∈ sectionsOf below := List.mem_cons_self
    exact hbelow l ((infix_of_mem_sectionsOf hsource).subset hl)
  have hown : ∀ l ∈ last.separator.toList ++ last.lines, l.number ≤ k :=
    fun l hl => habove l (hflat ▸ List.mem_append_right _ hl)
  have hmid := readSection_spliced
    (spliced_append (t := t) (fun l hl => hown l (List.mem_append_right _ hl)) hgroup) ht
    (hmem _ (List.mem_append_right _ List.mem_cons_self))
    (fun l hl => hown l (List.mem_append_left _ (Option.mem_toList.2 hl))) hadmits hfound
  rw [readSections_append, hupper, readSections, hmid, hback more hmore]
  simp only [List.map_append, hsame]
  rfl

/-! ## Sources with a new line -/

/-- The text of a comment line: blanks, and then a hash sign or two slashes, but no separator. -/
def IsCommentText (text : List Char) : Prop :=
  ¬ ['#', '#', '#'] <+: text ∧ ∃ indent rest, allBlank indent = true ∧
    (text = indent ++ '#' :: rest ∨ text = indent ++ '/' :: '/' :: rest)

theorem IsCommentText.isComment {text : List Char} (h : IsCommentText text) (n : Nat) :
    (Line.mk n text).isComment = true := by
  obtain ⟨-, indent, rest, hindent, hmark⟩ := h
  rw [Line.isComment_iff, Line.content]
  rcases hmark with rfl | rfl
  · left
    rw [trimStart_append_of_allBlank _ hindent, trimStart_cons_of_not_isBlank rest (by decide)]
    exact List.prefix_append ['#'] rest
  · right
    rw [trimStart_append_of_allBlank _ hindent,
      trimStart_cons_of_not_isBlank ('/' :: rest) (by decide)]
    exact List.prefix_append ['/', '/'] rest

/-- A line may be put in below line `k` of the section: a comment next to any of the parts, or a
blank line next to a part that is not a header. -/
def RequestSection.AdmitsText (k : Nat) (text : List Char) (part : RequestSection) : Prop :=
  IsCommentText text ∧ (part.HasGap k ∨ part.HasHeaderGap k) ∨
    allBlank text = true ∧ part.HasGap k

theorem RequestSection.AdmitsText.admits {text : List Char} {part : RequestSection} (n : Nat)
    (h : part.AdmitsText k text) : part.Admits k ⟨n, text⟩ ∧ (Line.mk n text).isTrivia = true ∧
      (Line.mk n text).isSeparator = false := by
  rcases h with ⟨hcomment, hgap⟩ | ⟨hblank, hgap⟩
  · have hline := hcomment.isComment n
    refine ⟨hgap.imp id fun hheader => ⟨hline, hheader⟩, ?_, ?_⟩
    · rw [Line.isTrivia, hline, Bool.or_true]
    · rw [Bool.eq_false_iff, ne_eq, Line.isSeparator_iff]
      exact hcomment.1
  · refine ⟨Or.inl hgap, ?_, ?_⟩
    · exact Line.isTrivia_of_isBlank hblank
    · rw [Bool.eq_false_iff, ne_eq, Line.isSeparator_iff]
      rintro ⟨rest, rfl⟩
      have hink : allBlank ['#', '#', '#'] = false := rfl
      rw [allBlank_append, hink, Bool.false_and] at hblank
      cases hblank

/-- The numbers of lines that are counted from `n` on. -/
theorem number_of_mem_numbered {n : Nat} {texts : List (List Char)} {l : Line}
    (h : l ∈ numbered n texts) : n ≤ l.number ∧ l.number < n + texts.length := by
  induction texts generalizing n with
  | nil => exact absurd h List.not_mem_nil
  | cons text rest ih =>
    rw [numbered] at h
    rw [List.length_cons]
    rcases List.mem_cons.1 h with rfl | h
    · exact ⟨Nat.le_refl n, by dsimp only; omega⟩
    · have hrest := ih h
      omega

/-- **Comments and blank lines carry no meaning.** A line is put in between the lines of a source,
each of them broken in any way: a comment directly above a declaration, the opening of the script
that runs before the request, the request line or a header, or directly below a header or a response
handler, or a blank line at one of these places that is not next to a header. The source is then
read to the same document, except that every line number of a selection behind the new line is one
larger. -/
theorem Document.read_with_line (filename source source' : String) (document : Document)
    (above below : List (List Char)) (text : List Char)
    (h : Document.read filename source = .ok document)
    (hsource : splitLines source.toList = above ++ below)
    (hsource' : splitLines source'.toList = above ++ text :: below)
    (hplace : ∃ part ∈ document.sections, part.AdmitsText above.length text) :
    Document.read filename source' = .ok (document.shifted above.length) := by
  rw [Document.read, Document.ofLines, bind_eq_ok] at h
  obtain ⟨parts, hparts, h⟩ := h
  cases h
  obtain ⟨part, hpart, hadmits⟩ := hplace
  obtain ⟨hadmits, htrivia, hseparator⟩ := hadmits.admits (1 + above.length)
  have hlines := areLines_sourceLines source
  rw [sourceLines, hsource, numbered_append] at hparts hlines
  have hbelow : ∀ l ∈ numbered (1 + above.length) below, above.length < l.number := by
    intro l hl
    have hnumber := number_of_mem_numbered hl
    omega
  have hlower : numbered (1 + above.length + 1) below =
      (numbered (1 + above.length) below).map (Line.shifted above.length) := by
    rw [numbered_add]
    refine List.map_congr_left fun l hl => ?_
    simp only [Line.down, Line.shifted, shift_of_lt (hbelow l hl)]
  have hagain := readSections_with_line hlines (fun l hl => by
    have hnumber := number_of_mem_numbered hl
    omega) hbelow htrivia hseparator ⟨part, hpart, hadmits⟩ hparts
  rw [Document.read, Document.ofLines, sourceLines, hsource', numbered_append, numbered, hlower,
    hagain]
  rfl

/-- A source with a header directly below the request line. -/
def plainSource : String := "@a = 1\r\nGET host/\x7b\x7ba\x7d\x7d\nx: y\n### b\nhost/b"

/-- The same source with a comment between the two, indented as a continuation of the target. -/
def commentedSource : String :=
  "@a = 1\r\nGET host/\x7b\x7ba\x7d\x7d\n  # c\nx: y\n### b\nhost/b"

/-- The indented comment is not taken for a part of the target. -/
theorem Document.read_with_line_commentedSource :
    ∃ document, Document.read "items.http" plainSource = .ok document ∧
      Document.read "items.http" commentedSource = .ok (document.shifted 2) := by
  have hread : (Document.read "items.http" plainSource).toOption.map (fun document =>
      document.sections.map fun part =>
        part.request.headers.map fun header => header.selection.start.line) =
          some [[3], []] := by decide +kernel
  cases h : Document.read "items.http" plainSource with
  | error e =>
    rw [h] at hread
    cases hread
  | ok document =>
    rw [h] at hread
    obtain ⟨part, more, hsections, hpart, -⟩ := List.map_eq_cons_iff.1 (Option.some.inj hread)
    obtain ⟨header, rest, hheaders, hline, -⟩ := List.map_eq_cons_iff.1 hpart
    have hcomment : IsCommentText "  # c".toList :=
      ⟨by decide, [' ', ' '], [' ', 'c'], by decide, Or.inl (by decide)⟩
    have hheader : part.HasHeaderGap 2 :=
      ⟨header, hheaders ▸ List.mem_cons_self, Or.inr hline⟩
    refine ⟨document, rfl, ?_⟩
    apply Document.read_with_line "items.http" plainSource commentedSource document
      ["@a = 1".toList, "GET host/\x7b\x7ba\x7d\x7d".toList]
      ["x: y".toList, "### b".toList, "host/b".toList] "  # c".toList h
    · decide +kernel
    · decide +kernel
    · exact ⟨part, hsections ▸ List.mem_cons_self, Or.inl ⟨hcomment, Or.inr hheader⟩⟩

end RequestRunner
