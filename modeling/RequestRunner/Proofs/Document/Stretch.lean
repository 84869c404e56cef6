import Mathlib.Data.List.Chain
import Mathlib.Data.List.Flatten
import Mathlib.Data.List.Nodup
import Mathlib.Data.List.TakeWhile
import RequestRunner.Document.Section

/-!
# Stretches of lines

What a reader uses of a stretch of lines exhausts the stretch if it leaves out nothing but trivia
(`Exhausts`): no significant line is left out then, and none is used twice
(`Exhausts.count_eq_one`). Readers that go on behind one another exhaust what they take together
(`Takes.trans`).

The lines of a source stand one directly below the other (`consecutive_numbered`), and those of a
section are neighbours among them (`infix_of_mem_sectionsOf`). In such a stretch, a selection that
reaches from the first of some neighbouring lines to the last one spans just these
(`Spans.spanned_eq`).
-/

set_option autoImplicit false

namespace RequestRunner

/-! ## What is used -/

/-- The lines that are used of a stretch: they stand in it in order, and what is left out is
trivia. -/
structure Exhausts (used lines : List Line) : Prop where
  inOrder : used.Sublist lines
  significant : (lines.filter fun line => !line.isTrivia).Sublist used

theorem exhausts_refl (lines : List Line) : Exhausts lines lines :=
  ⟨List.Sublist.refl lines, List.filter_sublist⟩

theorem exhausts_nil {lines : List Line} (h : ∀ line ∈ lines, line.isTrivia = true) :
    Exhausts [] lines := by
  refine ⟨List.nil_sublist lines, ?_⟩
  have hnone : (lines.filter fun line => !line.isTrivia) = [] := by
    apply List.filter_eq_nil_iff.2
    intro line hline
    simp [h line hline]
  rw [hnone]

theorem Exhausts.append {used used' lines lines' : List Line} (h : Exhausts used lines)
    (h' : Exhausts used' lines') : Exhausts (used ++ used') (lines ++ lines') := by
  refine ⟨h.inOrder.append h'.inOrder, ?_⟩
  rw [List.filter_append]
  exact h.significant.append h'.significant

/-- **A significant line is used once** of a stretch that has no line twice. -/
theorem Exhausts.count_eq_one {used lines : List Line} (h : Exhausts used lines)
    (hlines : lines.Nodup) {line : Line} (hline : line ∈ lines) (htrivia : line.isTrivia = false) :
    used.count line = 1 := by
  apply List.count_eq_one_of_mem (hlines.sublist h.inOrder)
  apply h.significant.subset
  simp [hline, htrivia]

/-- A reader uses some of the lines and hands on the rest: what it takes is exhausted. -/
def Takes (used lines rest : List Line) : Prop :=
  ∃ front, lines = front ++ rest ∧ Exhausts used front

theorem takes_refl (lines : List Line) : Takes [] lines lines :=
  ⟨[], rfl, exhausts_refl []⟩

/-- A line is used. -/
theorem Takes.cons {used lines rest : List Line} (h : Takes used lines rest) (line : Line) :
    Takes (line :: used) (line :: lines) rest := by
  obtain ⟨front, rfl, hfront⟩ := h
  exact ⟨line :: front, rfl, (exhausts_refl [line]).append hfront⟩

/-- A line that is trivia is left out. -/
theorem Takes.skip {used lines rest : List Line} (h : Takes used lines rest) {line : Line}
    (hline : line.isTrivia = true) : Takes used (line :: lines) rest := by
  obtain ⟨front, rfl, hfront⟩ := h
  have hskipped : Exhausts [] [line] := exhausts_nil (by simpa using hline)
  exact ⟨line :: front, rfl, hskipped.append hfront⟩

/-- **Readers one behind the other** exhaust what they take together. -/
theorem Takes.trans {used used' lines between rest : List Line} (h : Takes used lines between)
    (h' : Takes used' between rest) : Takes (used ++ used') lines rest := by
  obtain ⟨front, rfl, hfront⟩ := h
  obtain ⟨front', rfl, hfront'⟩ := h'
  exact ⟨front ++ front', (List.append_assoc _ _ _).symm, hfront.append hfront'⟩

theorem Takes.suffix {used lines rest : List Line} (h : Takes used lines rest) :
    rest <:+ lines := by
  obtain ⟨front, rfl, -⟩ := h
  exact List.suffix_append front rest

theorem takes_skipTrivia (lines : List Line) : Takes [] lines (skipTrivia lines) := by
  refine ⟨lines.takeWhile Line.isTrivia, List.takeWhile_append_dropWhile.symm, ?_⟩
  exact exhausts_nil fun line hline => List.mem_takeWhile_imp hline

/-! ## Consecutive lines -/

/-- Lines that stand one directly below the other. -/
def Consecutive (lines : List Line) : Prop :=
  lines.IsChain fun above below => below.number = above.number + 1

theorem consecutive_numbered (n : Nat) (texts : List (List Char)) :
    Consecutive (numbered n texts) := by
  induction texts generalizing n with
  | nil => exact List.isChain_nil
  | cons text rest ih =>
    cases rest with
    | nil => exact List.isChain_singleton _
    | cons next more => exact List.isChain_cons_cons.2 ⟨rfl, ih (n + 1)⟩

theorem Consecutive.of_isInfix {lines block : List Line} (h : Consecutive lines)
    (hblock : block <:+: lines) : Consecutive block :=
  List.IsChain.infix h hblock

/-- Further down, the numbers are greater. -/
theorem Consecutive.pairwise {lines : List Line} (h : Consecutive lines) :
    lines.Pairwise fun above below => above.number < below.number := by
  have hchain : lines.IsChain fun above below => above.number < below.number :=
    h.imp fun above below hnext => by omega
  have htrans : IsTrans Line fun above below => above.number < below.number :=
    ⟨fun _ _ _ => Nat.lt_trans⟩
  exact hchain.pairwise

theorem Consecutive.nodup {lines : List Line} (h : Consecutive lines) : lines.Nodup := by
  apply h.pairwise.imp
  rintro above below hless rfl
  exact Nat.lt_irrefl _ hless

/-- Two lines of one number are the same. -/
theorem Consecutive.eq_of_number {lines : List Line} (h : Consecutive lines) {line other : Line}
    (hline : line ∈ lines) (hother : other ∈ lines) (hnumber : line.number = other.number) :
    line = other := by
  have hnumbers : (lines.map Line.number).Nodup :=
    List.pairwise_map.2 (h.pairwise.imp fun hless => Nat.ne_of_lt hless)
  exact List.inj_on_of_nodup_map hnumbers hline hother hnumber

/-- The first of lines in order is above the others. -/
theorem eq_or_lt_of_head? {lines : List Line} {first line : Line}
    (h : lines.Pairwise fun above below => above.number < below.number)
    (hfirst : lines.head? = some first) (hline : line ∈ lines) :
    line = first ∨ first.number < line.number := by
  obtain ⟨rest, rfl⟩ := List.head?_eq_some_iff.1 hfirst
  rcases List.mem_cons.1 hline with rfl | hrest
  · exact Or.inl rfl
  · exact Or.inr (List.rel_of_pairwise_cons h hrest)

/-- The last of lines in order is below the others. -/
theorem eq_or_lt_of_getLast? {lines : List Line} {last line : Line}
    (h : lines.Pairwise fun above below => above.number < below.number)
    (hlast : lines.getLast? = some last) (hline : line ∈ lines) :
    line = last ∨ line.number < last.number := by
  obtain ⟨init, rfl⟩ := List.getLast?_eq_some_iff.1 hlast
  rcases List.mem_append.1 hline with hinit | hline
  · exact Or.inr ((List.pairwise_append.1 h).2.2 line hinit last List.mem_cons_self)
  · exact Or.inl (List.mem_singleton.1 hline)

/-- The number of the last line counts the lines from the first one on. -/
theorem Consecutive.number_last {first last : Line} {init : List Line}
    (h : Consecutive (init ++ [last])) (hfirst : (init ++ [last]).head? = some first) :
    last.number = first.number + init.length := by
  induction init generalizing first with
  | nil =>
    cases hfirst
    rfl
  | cons line init ih =>
    cases hfirst
    obtain ⟨next, hnext⟩ : ∃ next, (init ++ [last]).head? = some next := by
      cases init with
      | nil => exact ⟨last, rfl⟩
      | cons next init => exact ⟨next, rfl⟩
    obtain ⟨hbelow, hrest⟩ := List.isChain_cons.1 h
    have hnumber := hbelow next hnext
    rw [ih hrest hnext, hnumber, List.length_cons]
    omega

/-- The selection reaches from the first of the lines to the last one. -/
def Spans (selection : Selection) (lines : List Line) : Prop :=
  ∃ first last, lines.head? = some first ∧ lines.getLast? = some last ∧
    selection.start.line = first.number ∧ selection.stop.line = last.number

/-- The lines that a selection spans. -/
def Selection.spanned (selection : Selection) (lines : List Line) : List Line :=
  lines.filter fun line =>
    selection.start.line ≤ line.number && line.number ≤ selection.stop.line

/-- **A selection spans the lines that it reaches over**, and no others. -/
theorem Spans.spanned_eq {selection : Selection} {block lines : List Line}
    (h : Spans selection block) (hlines : Consecutive lines) (hblock : block <:+: lines) :
    selection.spanned lines = block := by
  obtain ⟨first, last, hfirst, hlast, hstart, hstop⟩ := h
  obtain ⟨before, after, rfl⟩ := hblock
  have hfirstMem : first ∈ block := List.mem_of_head? hfirst
  have hpairwise := hlines.pairwise
  simp only [List.pairwise_append, List.mem_append] at hpairwise
  obtain ⟨⟨-, hwithin, habove⟩, -, hbelow⟩ := hpairwise
  have hbefore : before.filter (fun line =>
      selection.start.line ≤ line.number && line.number ≤ selection.stop.line) = [] := by
    apply List.filter_eq_nil_iff.2
    intro line hline
    have hless := habove line hline first hfirstMem
    simp only [Bool.and_eq_true, decide_eq_true_eq]
    omega
  have hafter : after.filter (fun line =>
      selection.start.line ≤ line.number && line.number ≤ selection.stop.line) = [] := by
    apply List.filter_eq_nil_iff.2
    intro line hline
    have hless := hbelow last (Or.inr (List.mem_of_getLast? hlast)) line hline
    simp only [Bool.and_eq_true, decide_eq_true_eq]
    omega
  have hall : block.filter (fun line =>
      selection.start.line ≤ line.number && line.number ≤ selection.stop.line) = block := by
    apply List.filter_eq_self.2
    intro line hline
    have habove := eq_or_lt_of_head? hwithin hfirst hline
    have hbelow := eq_or_lt_of_getLast? hwithin hlast hline
    simp only [Bool.and_eq_true, decide_eq_true_eq]
    constructor
    · rcases habove with rfl | habove <;> omega
    · rcases hbelow with rfl | hbelow <;> omega
  rw [Selection.spanned, List.filter_append, List.filter_append, hbefore, hall, hafter,
    List.nil_append, List.append_nil]

/-! ## The lines of the sections -/

/-- The separators and the lines of the sections are the lines of the source. -/
theorem flatMap_sectionsOf (lines : List Line) :
    ((sectionsOf lines).flatMap fun source => source.separator.toList ++ source.lines) = lines := by
  induction lines with
  | nil => rfl
  | cons line rest ih =>
    rw [sectionsOf, groupSections]
    rw [sectionsOf] at ih
    cases line.isSeparator with
    | true => simpa using ih
    | false => simpa using ih

theorem groupSections_separator (lines : List Line) :
    (∀ source ∈ (groupSections lines).2, ∀ line ∈ source.separator, line.isSeparator = true) := by
  induction lines with
  | nil => exact List.forall_mem_nil _
  | cons line rest ih =>
    rw [groupSections]
    cases hline : line.isSeparator with
    | true => simpa [hline] using ih
    | false => simpa using ih

/-- Only separators open sections. -/
theorem isSeparator_of_mem_sectionsOf {lines : List Line} {source : SectionLines}
    (h : source ∈ sectionsOf lines) : ∀ line ∈ source.separator, line.isSeparator = true := by
  rw [sectionsOf] at h
  rcases List.mem_cons.1 h with rfl | h
  · exact fun _ hline => absurd hline (Option.not_mem_none _)
  · exact groupSections_separator lines source h

/-- The lines of a section are neighbours in the source, below their separator. -/
theorem separated_infix_of_mem_sectionsOf {lines : List Line} {source : SectionLines}
    (h : source ∈ sectionsOf lines) : source.separator.toList ++ source.lines <:+: lines := by
  have hsource : source.separator.toList ++ source.lines <:+:
      ((sectionsOf lines).flatMap fun source => source.separator.toList ++ source.lines) :=
    List.infix_of_mem_flatten (List.mem_map_of_mem h)
  rw [flatMap_sectionsOf] at hsource
  exact hsource

theorem infix_of_mem_sectionsOf {lines : List Line} {source : SectionLines}
    (h : source ∈ sectionsOf lines) : source.lines <:+: lines :=
  (List.suffix_append _ _).isInfix.trans (separated_infix_of_mem_sectionsOf h)

/-- A line that is no separator is a line of a section. -/
theorem exists_section_of_mem {lines : List Line} {line : Line} (h : line ∈ lines)
    (hline : line.isSeparator = false) : ∃ source ∈ sectionsOf lines, line ∈ source.lines := by
  rw [← flatMap_sectionsOf lines] at h
  obtain ⟨source, hsource, hmem⟩ := List.mem_flatMap.1 h
  refine ⟨source, hsource, ?_⟩
  rcases List.mem_append.1 hmem with hmem | hmem
  · have hseparator := isSeparator_of_mem_sectionsOf hsource line (Option.mem_toList.1 hmem)
    rw [hline] at hseparator
    cases hseparator
  · exact hmem

/-- The lines of the sections stand in the source one section after the other. -/
theorem sublist_flatMap_sectionsOf (lines : List Line) :
    ((sectionsOf lines).flatMap SectionLines.lines).Sublist lines := by
  have hwhole : ((sectionsOf lines).flatMap SectionLines.lines).Sublist
      ((sectionsOf lines).flatMap fun source => source.separator.toList ++ source.lines) :=
    List.Sublist.flatMap_right _ fun _ _ => List.sublist_append_right _ _
  rw [flatMap_sectionsOf] at hwhole
  exact hwhole

end RequestRunner
