import RequestRunner.Proofs.Document.Section

/-!
# Documents are read as they are written

Separators divide the lines of a source into sections, and no line behind a separator is one
(`sectionsOf_sound`), so every section of a document that was read is a section
(`Document.read_sound`). Written one below the other, such sections are divided at the same places
(`readSections_written`). Together, a document that was read is read again from its written form, up
to its places (`Document.reread_written`).
-/

set_option autoImplicit false

namespace RequestRunner

open Text

/-! ## Division into sections -/

theorem groupSections_of_separator {line : Line} (h : line.isSeparator = true)
    (rest : List Line) :
    groupSections (line :: rest) =
      ([], ⟨some line, (groupSections rest).1⟩ :: (groupSections rest).2) := by
  rw [groupSections, h]
  rfl

theorem groupSections_of_inner {line : Line} (h : line.isSeparator = false) (rest : List Line) :
    groupSections (line :: rest) = (line :: (groupSections rest).1, (groupSections rest).2) := by
  rw [groupSections, h]
  rfl

/-- Lines without a separator come before the first section. -/
theorem groupSections_append {lines : List Line} (h : ∀ l ∈ lines, l.isSeparator = false)
    (rest : List Line) :
    groupSections (lines ++ rest) =
      (lines ++ (groupSections rest).1, (groupSections rest).2) := by
  induction lines with
  | nil => rfl
  | cons line lines ih =>
    rw [List.forall_mem_cons] at h
    rw [List.cons_append, groupSections_of_inner h.1, ih h.2]
    rfl

/-- The lines of a section: the separator and the others are on one line each, and none of the
others is a separator. -/
structure SectionLines.IsDivided (source : SectionLines) : Prop where
  separator : ∀ line ∈ source.separator, Unbroken line.text
  inner : ∀ l ∈ source.lines, l.IsInner

/-- **The sections of lines** are divided at the separators. -/
theorem sectionsOf_sound {lines : List Line} (h : ∀ l ∈ lines, Unbroken l.text) :
    ∀ source ∈ sectionsOf lines, source.IsDivided := by
  -- the lines before the first separator become the lines of the section that it opens
  have hgroups : (∀ l ∈ (groupSections lines).1, l.IsInner) ∧
      ∀ source ∈ (groupSections lines).2, source.IsDivided := by
    induction lines with
    | nil => exact ⟨List.forall_mem_nil _, List.forall_mem_nil _⟩
    | cons line lines ih =>
      rw [List.forall_mem_cons] at h
      obtain ⟨hhead, hsections⟩ := ih h.2
      cases hline : line.isSeparator with
      | true =>
        rw [groupSections_of_separator hline, List.forall_mem_cons]
        refine ⟨List.forall_mem_nil _, ⟨?_, hhead⟩, hsections⟩
        rintro _ ⟨⟩
        exact h.1
      | false =>
        rw [groupSections_of_inner hline, List.forall_mem_cons]
        exact ⟨⟨⟨h.1, hline⟩, hhead⟩, hsections⟩
  rw [sectionsOf, List.forall_mem_cons]
  exact ⟨⟨fun _ hline => absurd hline (Option.not_mem_none _), hgroups.1⟩, hgroups.2⟩

/-! ## Reading -/

/-- Sections that were read from divided lines are sections. -/
theorem readSections_sound {filename : String} {sources : List SectionLines}
    {sections : List RequestSection} (hsources : ∀ source ∈ sources, source.IsDivided)
    (h : readSections filename sources = .ok sections) : ∀ part ∈ sections, IsSection part := by
  induction sources generalizing sections with
  | nil =>
    cases h
    exact List.forall_mem_nil _
  | cons source sources ih =>
    rw [List.forall_mem_cons] at hsources
    rw [readSections, bind_eq_ok] at h
    obtain ⟨found, hfound, h⟩ := h
    obtain ⟨more, hmore, h⟩ := bind_eq_ok.1 h
    cases h
    rw [List.forall_mem_append]
    refine ⟨?_, ih hsources.2 hmore⟩
    intro part hpart
    exact readSection_sound hsources.1.separator hsources.1.inner hfound part
      (Option.mem_toList.1 hpart)

/-- **The sections of a document** with plain breaks that was read. -/
theorem Document.read_sound {filename source : String} {document : Document}
    (hbreaks : hasPlainBreaks source.toList = true)
    (h : Document.read filename source = .ok document) :
    ∀ part ∈ document.sections, IsSection part := by
  obtain ⟨sections, hsections, h⟩ := bind_eq_ok.1 h
  cases h
  refine readSections_sound (sectionsOf_sound ?_) hsections
  intro l hl
  have hmem : l.text ∈ (sourceLines source).map Line.text := List.mem_map_of_mem hl
  rw [sourceLines, map_text_numbered] at hmem
  exact unbroken_of_mem_splitLines hbreaks hmem

/-! ## Reading back -/

theorem isSeparator_of_written {line : Line} {name : Option String}
    (h : line.text = writtenSeparator name) : line.isSeparator = true := by
  rw [Line.isSeparator_iff, h]
  cases name with
  | none => exact List.prefix_refl _
  | some name => exact ⟨' ' :: name.toList, rfl⟩

theorem unbroken_writtenSeparator {name : Option String}
    (h : ∀ found ∈ name, found.toList ≠ [] ∧ IsValue found.toList) :
    Unbroken (writtenSeparator name) := by
  cases name with
  | none => exact unbroken_iff.2 rfl
  | some name => exact (unbroken_iff.2 rfl).append (h name rfl).2.unbroken

/-- **Written sections are read** one behind the other: each of them begins with its separator. -/
theorem readSections_written (filename : String) {sections : List RequestSection}
    (h : ∀ part ∈ sections, IsSection part) {lines : List Line}
    (hlines : lines.map Line.text = (sections.flatMap RequestSection.written).flatMap splitLines) :
    (groupSections lines).1 = [] ∧
      ∃ again, readSections filename (groupSections lines).2 = .ok again ∧
        again.map RequestSection.unplaced = sections.map RequestSection.unplaced := by
  induction sections generalizing lines with
  | nil =>
    obtain rfl := List.map_eq_nil_iff.1 hlines
    exact ⟨rfl, [], rfl, rfl⟩
  | cons part sections ih =>
    rw [List.forall_mem_cons] at h
    obtain ⟨hpart, hsections⟩ := h
    rw [List.flatMap_cons, List.flatMap_append, RequestSection.written, List.flatMap_cons,
      splitLines_of_unbroken (unbroken_writtenSeparator hpart.name),
      List.singleton_append] at hlines
    obtain ⟨sectionLines, more, rfl, hsection, hmore⟩ := List.map_eq_append_iff.1 hlines
    obtain ⟨separator, below, rfl, hseparator, hbelow⟩ := List.map_eq_cons_iff.1 hsection
    have hopens : separator.isSeparator = true := isSeparator_of_written hseparator
    -- the section goes on up to the next separator, and none of its own lines is one
    have hinner : ∀ l ∈ below, l.isSeparator = false := by
      intro l hl
      have hmem : l.text ∈ part.writtenParts.flatMap splitLines := by
        rw [← hbelow]
        exact List.mem_map_of_mem hl
      obtain ⟨s, hs, hline⟩ := List.mem_flatMap.1 hmem
      rw [Bool.eq_false_iff, ne_eq, Line.isSeparator_iff]
      exact (hpart.isPart s hs).inner l.text hline
    obtain ⟨hnone, again, hagain, hsame⟩ := ih hsections hmore
    obtain ⟨found, hfound, hunplaced⟩ := readSection_written filename hpart hseparator hbelow
    have hgroups : groupSections (separator :: below ++ more) =
        ([], ⟨some separator, below⟩ :: (groupSections more).2) := by
      rw [List.cons_append, groupSections_of_separator hopens, groupSections_append hinner, hnone,
        List.append_nil]
    rw [hgroups]
    refine ⟨rfl, found :: again, ?_, ?_⟩
    · exact bind_eq_ok.2 ⟨some found, hfound, bind_eq_ok.2 ⟨again, hagain, rfl⟩⟩
    · rw [List.map_cons, List.map_cons, hunplaced, hsame]

/-- Every part of written sections has line feeds as its line ends. -/
theorem plain_of_mem_written {sections : List RequestSection}
    (h : ∀ part ∈ sections, IsSection part) :
    ∀ s ∈ sections.flatMap RequestSection.written, Plain s := by
  rw [List.forall_mem_flatMap]
  intro part hpart
  rw [RequestSection.written, List.forall_mem_cons]
  exact ⟨(unbroken_writtenSeparator (h part hpart).name).plain,
    fun s hs => ((h part hpart).isPart s hs).plain⟩

/-- The lines of written sections are those of their parts. -/
theorem Document.splitLines_written {document : Document}
    (h : ∀ part ∈ document.sections, IsSection part) (hne : document.sections ≠ []) :
    splitLines document.written.toList =
      (document.sections.flatMap RequestSection.written).flatMap splitLines := by
  rw [Document.written, String.toList_ofList]
  refine splitLines_joinLines_flatMap ?_ (plain_of_mem_written h)
  obtain ⟨part, sections, heq⟩ := List.exists_cons_of_ne_nil hne
  rw [heq, List.flatMap_cons, RequestSection.written]
  exact List.cons_ne_nil _ _

/-- Without sections, the written form has no line but an empty one. -/
theorem Document.read_written_of_empty (filename : String) {document : Document}
    (h : document.sections = []) :
    Document.read filename document.written = .ok ⟨filename, []⟩ := by
  have hwritten : document.written = String.ofList [] := by
    rw [Document.written, h]
    rfl
  rw [Document.read, sourceLines, hwritten, String.toList_ofList]
  rfl

/-- **A document that was read is read again from its written form**, up to its places: under any
file name, the sections have the same names, declarations, scripts, methods, targets, headers and
bodies. -/
theorem Document.reread_written (filename other source : String) (document : Document)
    (hbreaks : hasPlainBreaks source.toList = true)
    (h : Document.read filename source = .ok document) :
    ∃ again, Document.read other document.written = .ok again ∧
      again.sections.map RequestSection.unplaced =
        document.sections.map RequestSection.unplaced := by
  have hsections := Document.read_sound hbreaks h
  by_cases hne : document.sections = []
  · refine ⟨⟨other, []⟩, Document.read_written_of_empty other hne, ?_⟩
    rw [hne]
  · have hlines := (map_text_numbered 1 _).trans (Document.splitLines_written hsections hne)
    obtain ⟨hhead, again, hagain, hsame⟩ := readSections_written other hsections hlines
    refine ⟨⟨other, again⟩, bind_eq_ok.2 ⟨again, ?_, rfl⟩, hsame⟩
    -- the first separator is on the first line: the section without separator is empty
    have hgroups : sectionsOf (sourceLines document.written) =
        ⟨none, []⟩ :: (groupSections (sourceLines document.written)).2 := by
      rw [← hhead]
      rfl
    rw [hgroups]
    exact bind_eq_ok.2 ⟨none, rfl, bind_eq_ok.2 ⟨again, hagain, rfl⟩⟩

/-- A source with every part of a section, a target on two lines and breaks of both kinds. -/
def sampleSource : String :=
  "### a\r\n@id = 1\n< \x7b% f() %\x7d\nPUT host\n\t/a HTTP/1.1\nAccept: b\n\n" ++
    "\x7b\x7bid\x7d\x7d\n\n> \x7b% g() %\x7d\n###\r\nhost/c\n"

theorem Document.reread_written_sampleSource :
    hasPlainBreaks sampleSource.toList = true ∧
      ∃ document, Document.read "items.http" sampleSource = .ok document ∧
        document.sections.length = 2 ∧
          ∃ again, Document.read "copy.http" document.written = .ok again ∧
            again.sections.map RequestSection.unplaced =
              document.sections.map RequestSection.unplaced := by
  have hbreaks : hasPlainBreaks sampleSource.toList = true := by decide +kernel
  have hlength : (Document.read "items.http" sampleSource).toOption.map
      (fun document => document.sections.length) = some 2 := by decide +kernel
  cases h : Document.read "items.http" sampleSource with
  | error e =>
    rw [h] at hlength
    cases hlength
  | ok document =>
    rw [h] at hlength
    exact ⟨hbreaks, document, rfl, Option.some.inj hlength,
      Document.reread_written "items.http" "copy.http" sampleSource document hbreaks h⟩

end RequestRunner
