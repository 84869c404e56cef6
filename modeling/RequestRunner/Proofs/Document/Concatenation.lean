import RequestRunner.Proofs.Document.Lines
import RequestRunner.Proofs.Document.Lowering
import RequestRunner.Proofs.Text.Occurrence

/-!
# One source below another

A source that begins with a separator is put below another one. The lines of the two are the lines
of the whole, those of the lower one further down (`sourceLines_append`), and the separator keeps
their sections apart (`sectionsOf_append`). So the sections of the whole are read one source after
the other, and neither the place of the lower source nor anything above it changes what is read of
it (`read_append`).
-/

set_option autoImplicit false

namespace RequestRunner

/-! ## Lines -/

/-- A character that belongs to no break belongs to the first line. -/
theorem splitLines_cons_of_inner {c : Char} {s line : List Char} {lines : List (List Char)}
    (hreturn : c = '\r' → ¬ ['\n'] <+: s) (hfeed : c ≠ '\n') (hs : splitLines s = line :: lines) :
    splitLines (c :: s) = (c :: line) :: lines := by
  rw [splitLines.eq_def]
  split
  · next heq => cases heq
  · next rest heq =>
    cases heq
    exact absurd ⟨rest, rfl⟩ (hreturn rfl)
  · next heq =>
    cases heq
    exact absurd rfl hfeed
  · next heq =>
    cases heq
    rw [hs]

/-- A line feed behind a text ends its last line, unless it completes a break that the text
begins. -/
theorem splitLines_append_lineFeed {s : List Char} (h : ¬ ['\r'] <:+ s) (t : List Char) :
    splitLines (s ++ '\n' :: t) = splitLines s ++ splitLines t := by
  fun_induction splitLines s with
  | case1 => exact splitLines_lineFeed t
  | case2 rest ih =>
    have hrest : ¬ ['\r'] <:+ rest := fun hend =>
      h ((hend.trans (List.suffix_cons _ _)).trans (List.suffix_cons _ _))
    rw [List.cons_append, List.cons_append, splitLines, ih hrest]
    rfl
  | case3 rest ih =>
    have hrest : ¬ ['\r'] <:+ rest := fun hend => h (hend.trans (List.suffix_cons _ _))
    rw [List.cons_append, splitLines_lineFeed, ih hrest]
    rfl
  | case4 c rest hcrlf hfeed hnone ih => exact absurd hnone (splitLines_ne_nil rest)
  | case5 c rest hcrlf hfeed line lines hlines ih =>
    have hrest : ¬ ['\r'] <:+ rest := fun hend => h (hend.trans (List.suffix_cons _ _))
    have hmore : splitLines (rest ++ '\n' :: t) = line :: (lines ++ splitLines t) := by
      rw [ih hrest, hlines]
      rfl
    refine splitLines_cons_of_inner ?_ hfeed hmore
    rintro rfl hbegins
    cases rest with
    | nil => exact h (List.suffix_refl _)
    | cons d rest =>
      obtain ⟨rfl, -⟩ := List.cons_prefix_cons.1 hbegins
      exact hcrlf rest rfl rfl

theorem numbered_append (n : Nat) (first second : List (List Char)) :
    numbered n (first ++ second) = numbered n first ++ numbered (n + first.length) second := by
  induction first generalizing n with
  | nil => rfl
  | cons text rest ih =>
    have hcount : n + 1 + rest.length = n + (rest.length + 1) := by omega
    rw [List.cons_append, numbered, numbered, ih, hcount]
    rfl

theorem length_numbered (n : Nat) (texts : List (List Char)) :
    (numbered n texts).length = texts.length := by
  induction texts generalizing n with
  | nil => rfl
  | cons text rest ih => rw [numbered, List.length_cons, ih, List.length_cons]

/-- Lines counted from a later number on are the lines further down. -/
theorem numbered_add (n k : Nat) (texts : List (List Char)) :
    numbered (n + k) texts = (numbered n texts).map (Line.down k) := by
  induction texts generalizing n with
  | nil => rfl
  | cons text rest ih =>
    rw [numbered, numbered, List.map_cons, ← ih, Nat.add_right_comm]
    rfl

/-- **The lines of two sources** one below the other are the lines of both. -/
theorem sourceLines_append {first second : String} (h : ¬ ['\r'] <:+ first.toList) :
    sourceLines (first ++ "\n" ++ second) =
      sourceLines first ++ (sourceLines second).map (Line.down (sourceLines first).length) := by
  have htext : (first ++ "\n" ++ second).toList = first.toList ++ '\n' :: second.toList := by
    rw [String.toList_append, String.toList_append, List.append_assoc]
    rfl
  rw [sourceLines, htext, splitLines_append_lineFeed h, numbered_append, numbered_add, sourceLines,
    length_numbered]
  rfl

/-! ## Sections -/

theorem groupSections_down (n : Nat) (lines : List Line) :
    groupSections (lines.map (Line.down n)) =
      Prod.map (List.map (Line.down n)) (List.map (SectionLines.down n)) (groupSections lines) := by
  induction lines with
  | nil => rfl
  | cons line rest ih =>
    rw [List.map_cons, groupSections, groupSections, ih, Line.isSeparator_down]
    cases line.isSeparator with
    | true => rfl
    | false => rfl

/-- A separator keeps the lines in front of it to themselves. -/
theorem groupSections_append_of_separated (above : List Line) {below : List Line}
    (h : (groupSections below).1 = []) :
    groupSections (above ++ below) =
      ((groupSections above).1, (groupSections above).2 ++ (groupSections below).2) := by
  induction above with
  | nil => exact Prod.ext h rfl
  | cons line rest ih =>
    rw [List.cons_append, groupSections, groupSections, ih]
    cases line.isSeparator with
    | true => rfl
    | false => rfl

/-- **The sections of two sources** one below the other are the sections of both, if the lower one
begins with a separator. -/
theorem sectionsOf_append (above : List Line) {below : List Line}
    (h : (groupSections below).1 = []) :
    sectionsOf (above ++ below) = sectionsOf above ++ (groupSections below).2 := by
  rw [sectionsOf, groupSections_append_of_separated above h]
  rfl

theorem groupSections_fst_of_separator {lines : List Line}
    (h : ∀ line ∈ lines.head?, line.isSeparator = true) : (groupSections lines).1 = [] := by
  cases lines with
  | nil => rfl
  | cons line rest =>
    have hline : line.isSeparator = true := h line rfl
    rw [groupSections]
    simp only [hline, if_true]

/-- A source that begins as a separator has one on its first line. -/
theorem separator_head?_sourceLines {source : String} (h : ['#', '#', '#'] <+: source.toList) :
    ∀ line ∈ (sourceLines source).head?, line.isSeparator = true := by
  obtain ⟨rest, hrest⟩ := h
  obtain ⟨first, more, hlines⟩ := List.exists_cons_of_ne_nil (splitLines_ne_nil rest)
  have hmark : Text.Unbroken ['#', '#', '#'] := Text.unbroken_iff.2 rfl
  rw [sourceLines, ← hrest, splitLines_append hmark hlines, numbered]
  rintro _ ⟨⟩
  exact Text.startsWith_iff.2 (List.prefix_append _ _)

/-! ## Reading -/

variable {filename : String}

/-- Sections are read up to the first fault. -/
theorem readSections_append (above below : List SectionLines) :
    readSections filename (above ++ below) =
      (do
        let first ← readSections filename above
        let second ← readSections filename below
        pure (first ++ second)) := by
  induction above with
  | nil =>
    cases h : readSections filename below with
    | error e => rw [List.nil_append, h]; rfl
    | ok sections => rw [List.nil_append, h]; rfl
  | cons source rest ih =>
    rw [List.cons_append, readSections, readSections, ih]
    cases readSection filename source with
    | error e => rfl
    | ok part =>
      cases readSections filename rest with
      | error e => rfl
      | ok first =>
        cases readSections filename below with
        | error e => rfl
        | ok second => exact congrArg Except.ok (List.append_assoc _ _ _).symm

/-- A section without a line holds nothing. -/
theorem readSections_cons_empty (sources : List SectionLines) :
    readSections filename (⟨none, []⟩ :: sources) = readSections filename sources := by
  have hempty : readSection filename ⟨none, []⟩ = .ok none := rfl
  rw [readSections, hempty]
  cases readSections filename sources with
  | error e => rfl
  | ok sections => rfl

/-- **Sections are read independently.** A source that begins with a separator is put below another
one, which does not end inside of a break. A fault of the upper source is the fault of the whole.
Else a fault of the lower one is, as many lines further down as the upper source has. Else the
sections of the whole are those of the upper source, and then those of the lower one, as many lines
further down. -/
theorem Document.read_append (filename first second : String)
    (hfirst : ¬ ['\r'] <:+ first.toList) (hsecond : ['#', '#', '#'] <+: second.toList) :
    Document.read filename (first ++ "\n" ++ second) =
      match Document.read filename first, Document.read filename second with
      | .error e, _ => .error e
      | .ok _, .error e => .error (e.down (sourceLines first).length)
      | .ok above, .ok below =>
        .ok ⟨filename, above.sections ++
          below.sections.map (RequestSection.down (sourceLines first).length)⟩ := by
  have hhead := separator_head?_sourceLines hsecond
  have hbelow : (groupSections (sourceLines second)).1 = [] :=
    groupSections_fst_of_separator hhead
  -- the lower source has no lines in front of its first separator, and keeps none further down
  have hempty : sectionsOf (sourceLines second) =
      ⟨none, []⟩ :: (groupSections (sourceLines second)).2 := by
    rw [sectionsOf, ← hbelow]
  have hdown : groupSections ((sourceLines second).map (Line.down (sourceLines first).length)) =
      ([], (groupSections (sourceLines second)).2.map
        (SectionLines.down (sourceLines first).length)) := by
    rw [groupSections_down, Prod.map, hbelow]
    rfl
  have hsections := sectionsOf_append (sourceLines first) (congrArg Prod.fst hdown)
  rw [hdown] at hsections
  rw [Document.read, Document.read, Document.read, sourceLines_append hfirst, Document.ofLines,
    Document.ofLines, Document.ofLines, hsections, hempty, readSections_cons_empty,
    readSections_append, readSections_down]
  cases readSections filename (sectionsOf (sourceLines first)) with
  | error e => rfl
  | ok above =>
    cases readSections filename (groupSections (sourceLines second)).2 with
    | error e => rfl
    | ok below => rfl

/-- A request without a fault, on lines that end in both ways. -/
def upperSource : String := "GET host/a\r\nAccept: b\n"

/-- A section whose declaration has no value. -/
def lowerSource : String := "### b\n@x\nhost/b"

/-- The fault on the second line of the lower source is on the fifth line of the whole. -/
theorem Document.read_append_lowerSource :
    ¬ ['\r'] <:+ upperSource.toList ∧ ['#', '#', '#'] <+: lowerSource.toList ∧
      Document.read "items.http" (upperSource ++ "\n" ++ lowerSource) =
        .error ⟨.invalidDeclaration, ⟨"items.http", ⟨5, 1⟩, ⟨5, 3⟩⟩⟩ := by
  have hfirst : ¬ ['\r'] <:+ upperSource.toList := by decide +kernel
  have hsecond : ['#', '#', '#'] <+: lowerSource.toList := by decide +kernel
  have hupper : (Document.read "items.http" upperSource).isOk = true := by decide +kernel
  have hlower : Document.read "items.http" lowerSource =
      .error ⟨.invalidDeclaration, ⟨"items.http", ⟨2, 1⟩, ⟨2, 3⟩⟩⟩ := rfl
  have hlines : (sourceLines upperSource).length = 3 := by decide +kernel
  refine ⟨hfirst, hsecond, ?_⟩
  rw [Document.read_append "items.http" upperSource lowerSource hfirst hsecond, hlower, hlines]
  cases h : Document.read "items.http" upperSource with
  | error e =>
    rw [h] at hupper
    cases hupper
  | ok above => rfl

end RequestRunner
