import Mathlib.Order.Basic
import RequestRunner.Proofs.Document.Lines
import RequestRunner.Proofs.Document.Stretch

/-!
# Places on lines

Moving over a text from the start of the first line leads to the place where the text ends: only a
line feed leads to another line (`Position.line_after`), and what is passed on one line is counted
in units (`Position.after_of_unfed`). So the text that a selection covers (`Selection.Covers`) is
the one between its ends, each of which is a place on the lines (`Selection.Covers.quotes`); it
stays covered when the lines are part of more lines (`Selection.Covers.of_isInfix`), and its parts
are covered as well (`Selection.Covers.part`).

Places are ordered by line and then by column. A covered text lies between the start of the first
line and the end of the last one (`Selection.Covers.start_le`, `Selection.Covers.le_stop`).
-/

set_option autoImplicit false

namespace RequestRunner

open Text

/-! ## Units -/

namespace Text

/-- The text behind its first units. -/
def dropUnits : Nat → List Char → List Char
  | _, [] => []
  | n, c :: rest => if n = 0 then c :: rest else dropUnits (n - charUnits c) rest

/-- The first units of the text. -/
def takeUnits : Nat → List Char → List Char
  | _, [] => []
  | n, c :: rest => if n = 0 then [] else c :: takeUnits (n - charUnits c) rest

theorem charUnits_pos (c : Char) : 0 < charUnits c := by
  rw [charUnits]
  split <;> omega

theorem dropUnits_zero (s : List Char) : dropUnits 0 s = s := by
  cases s with
  | nil => rfl
  | cons c s => rw [dropUnits, if_pos rfl]

theorem takeUnits_zero (s : List Char) : takeUnits 0 s = [] := by
  cases s with
  | nil => rfl
  | cons c s => rw [takeUnits, if_pos rfl]

theorem dropUnits_append (s t : List Char) : dropUnits (units s) (s ++ t) = t := by
  induction s with
  | nil => exact dropUnits_zero t
  | cons c s ih =>
    have hpos := charUnits_pos c
    rw [List.cons_append, units, dropUnits, if_neg (by omega), Nat.add_sub_cancel_left, ih]

theorem takeUnits_append (s t : List Char) : takeUnits (units s) (s ++ t) = s := by
  induction s with
  | nil => exact takeUnits_zero t
  | cons c s ih =>
    have hpos := charUnits_pos c
    rw [List.cons_append, units, takeUnits, if_neg (by omega), Nat.add_sub_cancel_left, ih]

end Text

/-! ## Positions -/

namespace Position

/-- Places are ordered by line, and on one line by column. -/
instance : LE Position :=
  ⟨fun p q => p.line < q.line ∨ p.line = q.line ∧ p.column ≤ q.column⟩

theorem le_iff {p q : Position} :
    p ≤ q ↔ p.line < q.line ∨ p.line = q.line ∧ p.column ≤ q.column := Iff.rfl

instance : DecidableLE Position :=
  fun p q => inferInstanceAs (Decidable (p.line < q.line ∨ p.line = q.line ∧ p.column ≤ q.column))

instance : Preorder Position where
  le_refl _ := Or.inr ⟨rfl, Nat.le_refl _⟩
  le_trans p q r h h' := by
    rw [le_iff] at h h' ⊢
    omega

/-- The place is on one of the lines, at most directly behind its last character. -/
def IsIn (p : Position) (lines : List Line) : Prop :=
  ∃ line ∈ lines, p.line = line.number ∧ 1 ≤ p.column ∧ p.column ≤ units line.text + 1

/-- The number of units in front of a place in the text of the lines. -/
def offset (p : Position) : List Line → Nat
  | [] => 0
  | line :: rest =>
    if p.line ≤ line.number then p.column - 1 else units line.text + 1 + p.offset rest

/-- Only a line feed moves a position to another line. -/
theorem line_after (p : Position) (s : List Char) :
    (p.after s).line = p.line + s.count '\n' := by
  induction s generalizing p with
  | nil => rfl
  | cons c s ih =>
    have hstep : p.after (c :: s) = (p.step c).after s := rfl
    rw [hstep, ih, step, List.count_cons]
    split
    · next hfeed =>
      rw [if_pos (beq_iff_eq.2 hfeed)]
      show p.line + 1 + _ = _
      omega
    · next hfeed =>
      rw [if_neg (mt beq_iff_eq.1 hfeed)]
      rfl

/-- On one line the column counts the units that are passed. -/
theorem after_of_unfed {s : List Char} (h : '\n' ∉ s) (p : Position) :
    p.after s = ⟨p.line, p.column + units s⟩ := by
  induction s generalizing p with
  | nil => rfl
  | cons c s ih =>
    rw [List.mem_cons, not_or] at h
    have hstep : p.after (c :: s) = (p.step c).after s := rfl
    have hc : p.step c = ⟨p.line, p.column + charUnits c⟩ := by rw [step, if_neg (Ne.symm h.1)]
    rw [hstep, ih h.2, hc, units, Nat.add_assoc]

/-- On one line, the place in front of a text is found from the one behind it. -/
theorem eq_of_after_unfed {s : List Char} (h : '\n' ∉ s) {p q : Position} (hq : p.after s = q) :
    p = ⟨q.line, q.column - units s⟩ := by
  rw [after_of_unfed h] at hq
  rw [← hq, Nat.add_sub_cancel]

/-- Behind a line feed stands the start of the next line. -/
theorem after_lineFeed (p : Position) (s t : List Char) :
    p.after (s ++ '\n' :: t) = Position.after ⟨p.line + s.count '\n' + 1, 1⟩ t := by
  have hstep : (p.after s).after ('\n' :: t) = ((p.after s).step '\n').after t := rfl
  have hfeed : (p.after s).step '\n' = ⟨(p.after s).line + 1, 1⟩ := if_pos rfl
  rw [after_append, hstep, hfeed, line_after]

/-- **Moving over a text leads forwards.** -/
theorem le_after (p : Position) (s : List Char) : p ≤ p.after s := by
  induction s generalizing p with
  | nil => exact le_refl p
  | cons c s ih =>
    have hstep : p ≤ p.step c := by
      rw [step, le_iff]
      split
      · exact Or.inl (Nat.lt_succ_self _)
      · exact Or.inr ⟨rfl, Nat.le_add_right _ _⟩
    exact hstep.trans (ih (p.step c))

end Position

/-- The line feeds of a text of lines stand between the lines. -/
theorem count_joinLines {lines : List (List Char)} {last : List Char}
    (h : ∀ line ∈ lines ++ [last], '\n' ∉ line) :
    (joinLines (lines ++ [last])).count '\n' = lines.length := by
  induction lines with
  | nil =>
    rw [List.nil_append, joinLines_singleton]
    exact List.count_eq_zero.2 (h last List.mem_cons_self)
  | cons line lines ih =>
    rw [List.cons_append, List.forall_mem_cons] at h
    have hline : line.count '\n' = 0 := List.count_eq_zero.2 h.1
    have hne : lines ++ [last] ≠ [] := List.append_ne_nil_of_right_ne_nil _ (List.cons_ne_nil _ _)
    rw [List.cons_append, joinLines_cons line hne, List.count_append, List.count_cons_self, hline,
      ih h.2, Nat.zero_add, List.length_cons]

/-! ## Lines of a source -/

/-- The lines stand one directly below the other, and none has a line feed inside. -/
structure AreLines (lines : List Line) : Prop where
  consecutive : Consecutive lines
  unfed : ∀ line ∈ lines, '\n' ∉ line.text

theorem AreLines.of_isInfix {lines block : List Line} (h : AreLines lines)
    (hblock : block <:+: lines) : AreLines block :=
  ⟨h.consecutive.of_isInfix hblock, fun line hline => h.unfed line (hblock.subset hline)⟩

/-- **The lines of a source.** -/
theorem areLines_sourceLines (source : String) : AreLines (sourceLines source) :=
  ⟨consecutive_numbered 1 _, fun _ hline =>
    lineFeed_notMem_of_mem_splitLines (text_mem_of_mem_numbered hline)⟩

/-- Where the first of the lines begins. -/
def linesStart (lines : List Line) : Position := ⟨lines.head?.elim 1 Line.number, 1⟩

/-- The text of lines below others begins where the first of them does. -/
theorem AreLines.exists_lead {above lines : List Line} (h : AreLines (above ++ lines))
    (hne : lines ≠ []) :
    ∃ lead, joinLines ((above ++ lines).map Line.text) = lead ++ joinLines (lines.map Line.text) ∧
      (linesStart (above ++ lines)).after lead = linesStart lines := by
  obtain ⟨first, rest, rfl⟩ := List.exists_cons_of_ne_nil hne
  cases above with
  | nil => exact ⟨[], rfl, rfl⟩
  | cons top above =>
    refine ⟨joinLines ((top :: above).map Line.text) ++ ['\n'], ?_, ?_⟩
    · rw [List.map_append, joinLines_append (by simp) (by simp), List.append_assoc,
        List.singleton_append]
    · -- as many lines are passed as stand above
      have hwithin : (top :: above) ++ [first] <:+: (top :: above) ++ first :: rest :=
        ⟨[], rest, by simp⟩
      have hnumber := (h.consecutive.of_isInfix hwithin).number_last rfl
      obtain ⟨init, last, hinit⟩ :=
        (List.eq_nil_or_concat' (top :: above)).resolve_left (List.cons_ne_nil _ _)
      have hcount : (joinLines ((top :: above).map Line.text)).count '\n' = above.length := by
        have hlength := congrArg List.length hinit
        rw [hinit, List.map_append, List.map_singleton, count_joinLines, List.length_map]
        · simpa using hlength.symm
        · intro text htext
          rw [← List.map_singleton, ← List.map_append, ← hinit] at htext
          obtain ⟨line, hline, rfl⟩ := List.mem_map.1 htext
          exact h.unfed line (List.mem_append_left _ hline)
      rw [Position.after_lineFeed, hcount]
      show (⟨top.number + above.length + 1, 1⟩ : Position) = ⟨first.number, 1⟩
      rw [hnumber, List.length_cons, Nat.add_assoc]

/-- **Behind the text of lines** the last one ends. -/
theorem AreLines.after_joinLines {lines : List Line} (h : AreLines lines) {last : Line}
    (hlast : lines.getLast? = some last) :
    (linesStart lines).after (joinLines (lines.map Line.text)) = last.stop := by
  obtain ⟨init, rfl⟩ := List.getLast?_eq_some_iff.1 hlast
  obtain ⟨lead, hjoin, hlead⟩ := h.exists_lead (List.cons_ne_nil last [])
  have hunfed : '\n' ∉ last.text := h.unfed last (List.mem_append_right _ List.mem_cons_self)
  rw [hjoin, Position.after_append, hlead, List.map_singleton, joinLines_singleton,
    Position.after_of_unfed hunfed, Line.stop, Nat.add_comm]
  rfl

/-- On the first line, the place behind a beginning of its text. -/
theorem place_of_isPrefix {line : Line} {rest : List Line} {before : List Char}
    (hunfed : '\n' ∉ line.text) (h : before <+: line.text) :
    ((linesStart (line :: rest)).after before).offset (line :: rest) = units before ∧
      ((linesStart (line :: rest)).after before).IsIn (line :: rest) := by
  obtain ⟨behind, hbehind⟩ := h
  have hbefore : '\n' ∉ before := fun hmem =>
    hunfed (hbehind ▸ List.mem_append_left _ hmem)
  have hplace : (linesStart (line :: rest)).after before = ⟨line.number, 1 + units before⟩ :=
    Position.after_of_unfed hbefore _
  rw [hplace]
  constructor
  · rw [Position.offset, if_pos (Nat.le_refl _)]
    exact Nat.add_sub_cancel_left _ _
  · refine ⟨line, List.mem_cons_self, rfl, Nat.le_add_right _ _, ?_⟩
    rw [← hbehind, units_append]
    show 1 + units before ≤ _
    omega

/-- **The place behind a beginning of the text of lines** is on the lines, and its offset is the
length of the beginning. -/
theorem AreLines.place_after {lines : List Line} (h : AreLines lines) (hne : lines ≠ [])
    {before behind : List Char} (hjoin : joinLines (lines.map Line.text) = before ++ behind) :
    ((linesStart lines).after before).offset lines = units before ∧
      ((linesStart lines).after before).IsIn lines := by
  induction lines generalizing before with
  | nil => exact absurd rfl hne
  | cons line rest ih =>
    have hunfed : '\n' ∉ line.text := h.unfed line List.mem_cons_self
    cases rest with
    | nil =>
      rw [List.map_singleton, joinLines_singleton] at hjoin
      exact place_of_isPrefix hunfed ⟨behind, hjoin.symm⟩
    | cons next more =>
      rw [List.map_cons, joinLines_cons _ (by simp)] at hjoin
      rcases List.append_eq_append_iff.1 hjoin with ⟨passed, rfl, hpassed⟩ | ⟨left, hleft, -⟩
      · cases passed with
        | nil =>
          rw [List.append_nil]
          exact place_of_isPrefix hunfed (List.prefix_refl _)
        | cons c passed =>
          -- the beginning goes over the first line feed, so its place is further down
          obtain ⟨rfl, hbelow⟩ := List.cons.inj hpassed
          obtain ⟨hoffset, line', hline', hplace⟩ :=
            ih (h.of_isInfix (List.suffix_cons _ _).isInfix) (List.cons_ne_nil _ _) hbelow
          have hnumber : next.number = line.number + 1 :=
            (List.isChain_cons_cons.1 h.consecutive).1
          have hcount : line.text.count '\n' = 0 := List.count_eq_zero.2 hunfed
          have hdown : (linesStart (line :: next :: more)).after (line.text ++ '\n' :: passed) =
              (linesStart (next :: more)).after passed := by
            rw [Position.after_lineFeed, hcount]
            rw [Nat.add_zero]
            show Position.after ⟨line.number + 1, 1⟩ passed = _
            rw [← hnumber]
            rfl
          have hlower : ¬ ((linesStart (next :: more)).after passed).line ≤ line.number := by
            rw [Position.line_after]
            show ¬ next.number + _ ≤ line.number
            omega
          have hfeed : charUnits '\n' = 1 := by decide
          rw [hdown]
          refine ⟨?_, line', List.mem_cons_of_mem _ hline', hplace⟩
          rw [Position.offset, if_neg hlower, hoffset, units_append, units, hfeed, Nat.add_assoc]
      · exact place_of_isPrefix hunfed ⟨left, hleft.symm⟩

/-! ## What a selection covers -/

namespace Selection

/-- The text of the lines between the ends of the selection. -/
def excerpt (selection : Selection) (lines : List Line) : List Char :=
  takeUnits (selection.stop.offset lines - selection.start.offset lines)
    (dropUnits (selection.start.offset lines) (joinLines (lines.map Line.text)))

/-- The selection is a stretch of the lines of the file, and the text is what stands in it. -/
structure Quotes (filename : String) (lines : List Line) (text : List Char)
    (selection : Selection) : Prop where
  filename : selection.filename = filename
  start : selection.start.IsIn lines
  stop : selection.stop.IsIn lines
  text : selection.excerpt lines = text

/-- The selection reaches over the text, which stands on the lines. -/
structure Covers (filename : String) (lines : List Line) (text : List Char)
    (selection : Selection) : Prop where
  ne_nil : lines ≠ []
  filename : selection.filename = filename
  start : ∃ before behind, joinLines (lines.map Line.text) = before ++ (text ++ behind) ∧
    selection.start = (linesStart lines).after before
  stop : selection.stop = selection.start.after text

/-- The selection lies within another one. -/
structure Within (inner outer : Selection) : Prop where
  filename : inner.filename = outer.filename
  start : outer.start ≤ inner.start
  stop : inner.stop ≤ outer.stop

variable {filename : String} {lines : List Line} {text : List Char} {selection : Selection}

/-- **A covered text is quoted.** -/
theorem Covers.quotes (h : selection.Covers filename lines text) (hlines : AreLines lines) :
    selection.Quotes filename lines text := by
  obtain ⟨before, behind, hjoin, hstart⟩ := h.start
  have hstop : selection.stop = (linesStart lines).after (before ++ text) := by
    rw [h.stop, hstart, Position.after_append]
  obtain ⟨hfirst, hstartIn⟩ := hlines.place_after h.ne_nil hjoin
  obtain ⟨hlast, hstopIn⟩ := hlines.place_after h.ne_nil (by rw [hjoin, List.append_assoc])
  refine ⟨h.filename, hstart ▸ hstartIn, hstop ▸ hstopIn, ?_⟩
  rw [excerpt, hstart, hstop, hfirst, hlast, hjoin, dropUnits_append, units_append,
    Nat.add_sub_cancel_left, takeUnits_append]

/-- What is covered on lines is covered on more lines around them. -/
theorem Covers.of_isInfix {block : List Line} (h : selection.Covers filename block text)
    (hblock : block <:+: lines) (hlines : AreLines lines) :
    selection.Covers filename lines text := by
  obtain ⟨above, below, rfl⟩ := hblock
  obtain ⟨before, behind, hjoin, hstart⟩ := h.start
  have habove : AreLines (above ++ block) := hlines.of_isInfix (List.prefix_append _ _).isInfix
  obtain ⟨lead, hlead, hplace⟩ := habove.exists_lead h.ne_nil
  have hne : above ++ block ≠ [] := List.append_ne_nil_of_right_ne_nil _ h.ne_nil
  have hfirst : linesStart (above ++ block ++ below) = linesStart (above ++ block) := by
    obtain ⟨first, rest, hrest⟩ := List.exists_cons_of_ne_nil hne
    rw [hrest]
    rfl
  obtain ⟨tail, htail⟩ : ∃ tail, joinLines ((above ++ block ++ below).map Line.text) =
      joinLines ((above ++ block).map Line.text) ++ tail := by
    cases below with
    | nil => exact ⟨[], by rw [List.append_nil, List.append_nil]⟩
    | cons line below =>
      rw [List.map_append, joinLines_append (by simpa using hne) (by simp)]
      exact ⟨_, rfl⟩
  refine ⟨List.append_ne_nil_of_left_ne_nil hne _, h.filename,
    ⟨lead ++ before, behind ++ tail, ?_, ?_⟩, h.stop⟩
  · rw [htail, hlead, hjoin]
    simp only [List.append_assoc]
  · rw [hfirst, Position.after_append, hplace, hstart]

/-- A part of a covered text is covered from where it begins. -/
theorem Covers.part (h : selection.Covers filename lines text) {front part rest : List Char}
    (htext : text = front ++ (part ++ rest)) :
    Covers filename lines part ⟨filename, selection.start.after front,
      (selection.start.after front).after part⟩ := by
  obtain ⟨before, behind, hjoin, hstart⟩ := h.start
  refine ⟨h.ne_nil, rfl, ⟨before ++ front, rest ++ behind, ?_, ?_⟩, rfl⟩
  · rw [hjoin, htext]
    simp only [List.append_assoc]
  · rw [hstart, Position.after_append]

/-- A text on one line is covered between the columns of its ends. -/
theorem covers_line (filename : String) {line : Line} {before behind : List Char}
    (hunfed : '\n' ∉ line.text) (htext : line.text = before ++ (text ++ behind)) :
    Covers filename [line] text ⟨filename, ⟨line.number, units before + 1⟩,
      Position.after ⟨line.number, units before + 1⟩ text⟩ := by
  have hbefore : '\n' ∉ before := fun hmem => hunfed (htext ▸ List.mem_append_left _ hmem)
  refine ⟨List.cons_ne_nil _ _, rfl, ⟨before, behind, ?_, ?_⟩, rfl⟩
  · rw [List.map_singleton, joinLines_singleton, htext]
  · rw [Position.after_of_unfed hbefore, Nat.add_comm]
    rfl

theorem Covers.start_le (h : selection.Covers filename lines text) :
    linesStart lines ≤ selection.start := by
  obtain ⟨before, behind, -, hstart⟩ := h.start
  rw [hstart]
  exact Position.le_after _ _

theorem Covers.le_stop (h : selection.Covers filename lines text) (hlines : AreLines lines)
    {last : Line} (hlast : lines.getLast? = some last) : selection.stop ≤ last.stop := by
  obtain ⟨before, behind, hjoin, hstart⟩ := h.start
  rw [← hlines.after_joinLines hlast, hjoin, ← List.append_assoc, Position.after_append,
    Position.after_append, ← hstart, ← h.stop]
  exact Position.le_after _ _

end Selection

end RequestRunner
