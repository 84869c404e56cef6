import RequestRunner.Document.Line

/-!
# Lines and texts

The lines of a text and the text of lines undo each other: lines without line ends are cut out of
their text again (`splitLines_joinLines`), and a text whose line ends are line feeds is the text of
its lines (`joinLines_splitLines`). So a text that is joined from parts has the lines of its parts
(`splitLines_joinLines_flatMap`), and the lines of a source with plain breaks have no line end
inside (`unbroken_of_mem_splitLines`).
-/

set_option autoImplicit false

namespace RequestRunner

namespace Text

/-- A text that lies on one line. -/
def Unbroken (s : List Char) : Prop := ∀ c ∈ s, isLineEnd c = false

/-- A text whose line ends are line feeds. -/
def Plain (s : List Char) : Prop := ∀ c ∈ s, c = '\n' ∨ isLineEnd c = false

/-- A line end is a blank. -/
theorem isLineEnd_of_not_isBlank {c : Char} (h : isBlank c = false) :
    isLineEnd c = false := by
  simp only [isBlank, Bool.or_eq_false_iff, Bool.and_eq_false_iff, decide_eq_false_iff_not,
    beq_eq_false_iff_ne] at h
  simp only [isLineEnd, Bool.or_eq_false_iff, beq_eq_false_iff_ne]
  omega

theorem unbroken_nil : Unbroken [] := fun _ h => absurd h List.not_mem_nil

theorem Unbroken.plain {s : List Char} (h : Unbroken s) : Plain s := fun c hc => Or.inr (h c hc)

theorem Unbroken.cons {c : Char} {s : List Char} (hc : isLineEnd c = false) (hs : Unbroken s) :
    Unbroken (c :: s) := by
  intro d hd
  rcases List.mem_cons.1 hd with rfl | hd
  · exact hc
  · exact hs d hd

theorem Unbroken.append {s t : List Char} (hs : Unbroken s) (ht : Unbroken t) :
    Unbroken (s ++ t) :=
  fun c hc => (List.mem_append.1 hc).elim (hs c) (ht c)

theorem Unbroken.of_isInfix {s t : List Char} (h : Unbroken t) (hs : s <:+: t) : Unbroken s :=
  fun c hc => h c (hs.subset hc)

theorem unbroken_iff {s : List Char} : Unbroken s ↔ s.any isLineEnd = false := by
  rw [List.any_eq_false]
  exact forall₂_congr fun c _ => Bool.eq_false_iff

theorem Plain.append {s t : List Char} (hs : Plain s) (ht : Plain t) : Plain (s ++ t) :=
  fun c hc => (List.mem_append.1 hc).elim (hs c) (ht c)

theorem Plain.cons_lineFeed {s : List Char} (h : Plain s) : Plain ('\n' :: s) := by
  intro c hc
  rcases List.mem_cons.1 hc with rfl | hc
  · exact Or.inl rfl
  · exact h c hc

theorem Plain.of_isInfix {s t : List Char} (h : Plain t) (hs : s <:+: t) : Plain s :=
  fun c hc => h c (hs.subset hc)

end Text

open Text

/-- The text of lines. -/
def joinLines (lines : List (List Char)) : List Char := Text.joinWith ['\n'] lines

theorem joinLines_singleton (line : List Char) : joinLines [line] = line := by
  rw [joinLines, Text.joinWith, List.intersperse_singleton, List.flatten_singleton]

theorem joinLines_cons {lines : List (List Char)} (line : List Char) (h : lines ≠ []) :
    joinLines (line :: lines) = line ++ '\n' :: joinLines lines := by
  cases lines with
  | nil => exact absurd rfl h
  | cons next more =>
    rw [joinLines, Text.joinWith, List.intersperse_cons_cons, List.flatten_cons, List.flatten_cons]
    rfl

/-- A first line takes in the second one. -/
theorem joinLines_cons_cons (first second : List Char) (lines : List (List Char)) :
    joinLines (first :: second :: lines) = joinLines ((first ++ '\n' :: second) :: lines) := by
  rw [joinLines_cons first (List.cons_ne_nil _ _)]
  cases lines with
  | nil => rw [joinLines_singleton, joinLines_singleton]
  | cons next more =>
    rw [joinLines_cons second (List.cons_ne_nil _ _), joinLines_cons _ (List.cons_ne_nil _ _),
      List.append_assoc, List.cons_append]

theorem joinLines_append {xs ys : List (List Char)} (hxs : xs ≠ []) (hys : ys ≠ []) :
    joinLines (xs ++ ys) = joinLines xs ++ '\n' :: joinLines ys := by
  induction xs with
  | nil => exact absurd rfl hxs
  | cons line lines ih =>
    cases lines with
    | nil => rw [List.singleton_append, joinLines_cons line hys, joinLines_singleton]
    | cons next more =>
      rw [List.cons_append, joinLines_cons line (by simp), ih (List.cons_ne_nil _ _),
        joinLines_cons line (List.cons_ne_nil _ _), List.append_assoc, List.cons_append]

/-- A text before the first line. -/
theorem append_joinLines_cons (s line : List Char) (lines : List (List Char)) :
    s ++ joinLines (line :: lines) = joinLines ((s ++ line) :: lines) := by
  cases lines with
  | nil => rw [joinLines_singleton, joinLines_singleton]
  | cons next more =>
    rw [joinLines_cons _ (List.cons_ne_nil _ _), joinLines_cons _ (List.cons_ne_nil _ _),
      List.append_assoc]

/-- A text behind the last line. -/
theorem joinLines_concat_append (lines : List (List Char)) (line s : List Char) :
    joinLines (lines ++ [line]) ++ s = joinLines (lines ++ [line ++ s]) := by
  cases lines with
  | nil => rw [List.nil_append, List.nil_append, joinLines_singleton, joinLines_singleton]
  | cons first more =>
    rw [joinLines_append (List.cons_ne_nil _ _) (List.cons_ne_nil _ _),
      joinLines_append (List.cons_ne_nil _ _) (List.cons_ne_nil _ _), joinLines_singleton,
      joinLines_singleton, List.append_assoc, List.cons_append]

/-- A character inside a line belongs to the first line. -/
theorem splitLines_cons {c : Char} {s line : List Char} {lines : List (List Char)}
    (hc : isLineEnd c = false) (hs : splitLines s = line :: lines) :
    splitLines (c :: s) = (c :: line) :: lines := by
  rw [splitLines.eq_def]
  split
  · next heq => cases heq
  · next heq =>
    cases heq
    exact absurd hc (by decide)
  · next heq =>
    cases heq
    exact absurd hc (by decide)
  · next heq =>
    cases heq
    rw [hs]

theorem splitLines_lineFeed (s : List Char) : splitLines ('\n' :: s) = [] :: splitLines s := by
  rw [splitLines]

theorem splitLines_append {line s : List Char} {first : List Char} {lines : List (List Char)}
    (hline : Unbroken line) (hs : splitLines s = first :: lines) :
    splitLines (line ++ s) = (line ++ first) :: lines := by
  induction line with
  | nil => exact hs
  | cons c line ih =>
    have hc : isLineEnd c = false := hline c List.mem_cons_self
    exact splitLines_cons hc (ih fun d hd => hline d (List.mem_cons_of_mem _ hd))

theorem splitLines_of_unbroken {line : List Char} (h : Unbroken line) :
    splitLines line = [line] := by
  have hnil : splitLines [] = [[]] := rfl
  have happend := splitLines_append h hnil
  rw [List.append_nil] at happend
  exact happend

/-- **Lines are cut out of their text.** -/
theorem splitLines_joinLines {lines : List (List Char)} (hne : lines ≠ [])
    (h : ∀ line ∈ lines, Unbroken line) : splitLines (joinLines lines) = lines := by
  induction lines with
  | nil => exact absurd rfl hne
  | cons line lines ih =>
    have hline : Unbroken line := h line List.mem_cons_self
    cases lines with
    | nil =>
      rw [joinLines_singleton]
      exact splitLines_of_unbroken hline
    | cons next more =>
      have hmore := ih (List.cons_ne_nil _ _) fun l hl => h l (List.mem_cons_of_mem _ hl)
      have hfeed := splitLines_lineFeed (joinLines (next :: more))
      rw [joinLines_cons line (List.cons_ne_nil _ _), splitLines_append hline hfeed, hmore,
        List.append_nil]

/-- **A text whose line ends are line feeds is the text of its lines**, which have no line end
inside. -/
theorem joinLines_splitLines {s : List Char} (h : Plain s) :
    joinLines (splitLines s) = s ∧ ∀ line ∈ splitLines s, Unbroken line := by
  induction s with
  | nil => exact ⟨rfl, fun line hline => List.mem_singleton.1 hline ▸ unbroken_nil⟩
  | cons c s ih =>
    obtain ⟨hjoin, hlines⟩ := ih fun d hd => h d (List.mem_cons_of_mem _ hd)
    rcases h c List.mem_cons_self with rfl | hc
    · rw [splitLines_lineFeed, joinLines_cons [] (splitLines_ne_nil s), hjoin]
      refine ⟨rfl, ?_⟩
      intro line hline
      rcases List.mem_cons.1 hline with rfl | hline
      · exact unbroken_nil
      · exact hlines line hline
    · obtain ⟨first, more, hs⟩ := List.exists_cons_of_ne_nil (splitLines_ne_nil s)
      rw [hs] at hjoin hlines
      have hcons : joinLines ((c :: first) :: more) = [c] ++ joinLines (first :: more) :=
        (append_joinLines_cons [c] first more).symm
      rw [splitLines_cons hc hs, hcons, hjoin]
      refine ⟨rfl, ?_⟩
      intro line hline
      rcases List.mem_cons.1 hline with rfl | hline
      · exact (hlines first List.mem_cons_self).cons hc
      · exact hlines line (List.mem_cons_of_mem _ hline)

/-- The text of parts is the text of the lines of the parts. -/
theorem joinLines_flatMap_splitLines {parts : List (List Char)} (h : ∀ part ∈ parts, Plain part) :
    joinLines (parts.flatMap splitLines) = joinLines parts := by
  induction parts with
  | nil => rfl
  | cons part parts ih =>
    have hpart := (joinLines_splitLines (h part List.mem_cons_self)).1
    have hparts := ih fun p hp => h p (List.mem_cons_of_mem _ hp)
    rw [List.flatMap_cons]
    cases parts with
    | nil => rw [List.flatMap_nil, List.append_nil, hpart, joinLines_singleton]
    | cons next more =>
      have hne : (next :: more).flatMap splitLines ≠ [] := by
        rw [List.flatMap_cons]
        exact List.append_ne_nil_of_left_ne_nil (splitLines_ne_nil next) _
      rw [joinLines_append (splitLines_ne_nil part) hne, hpart, hparts,
        joinLines_cons part (List.cons_ne_nil _ _)]

/-- **A text that is joined from parts has the lines of its parts.** -/
theorem splitLines_joinLines_flatMap {parts : List (List Char)} (hne : parts ≠ [])
    (h : ∀ part ∈ parts, Plain part) :
    splitLines (joinLines parts) = parts.flatMap splitLines := by
  rw [← joinLines_flatMap_splitLines h]
  refine splitLines_joinLines ?_ ?_
  · obtain ⟨part, more, rfl⟩ := List.exists_cons_of_ne_nil hne
    rw [List.flatMap_cons]
    exact List.append_ne_nil_of_left_ne_nil (splitLines_ne_nil part) _
  · intro line hline
    obtain ⟨part, hpart, hline⟩ := List.mem_flatMap.1 hline
    exact (joinLines_splitLines (h part hpart)).2 line hline

/-- The text of lines has line feeds between them alone. -/
theorem plain_joinLines {lines : List (List Char)} (h : ∀ line ∈ lines, Unbroken line) :
    Plain (joinLines lines) := by
  induction lines with
  | nil => exact unbroken_nil.plain
  | cons line lines ih =>
    rw [List.forall_mem_cons] at h
    cases lines with
    | nil =>
      rw [joinLines_singleton]
      exact h.1.plain
    | cons next more =>
      rw [joinLines_cons line (List.cons_ne_nil _ _)]
      exact h.1.plain.append ((ih h.2).cons_lineFeed)

theorem prefix_joinLines (first : List Char) (lines : List (List Char)) :
    first <+: joinLines (first :: lines) := by
  cases lines with
  | nil => exact (joinLines_singleton first).symm ▸ List.prefix_refl first
  | cons next more =>
    rw [joinLines_cons first (List.cons_ne_nil _ _)]
    exact List.prefix_append _ _

/-- A line lies in the text. -/
theorem infix_joinLines {line : List Char} {lines : List (List Char)} (h : line ∈ lines) :
    line <:+: joinLines lines := by
  induction lines with
  | nil => exact absurd h List.not_mem_nil
  | cons first more ih =>
    cases more with
    | nil =>
      have heq : joinLines [first] = line := by rw [List.mem_singleton.1 h, joinLines_singleton]
      exact heq.symm ▸ List.infix_refl line
    | cons next more =>
      rw [joinLines_cons first (List.cons_ne_nil _ _)]
      rcases List.mem_cons.1 h with rfl | h
      · exact List.infix_append_left
      · exact (ih h).trans (List.suffix_append_of_suffix (List.suffix_cons _ _)).isInfix

/-- A line behind the first one lies in the text with the line feed before it. -/
theorem lineFeed_infix_joinLines {first line : List Char} {lines : List (List Char)}
    (h : line ∈ lines) : '\n' :: line <:+: joinLines (first :: lines) := by
  induction lines generalizing first with
  | nil => exact absurd h List.not_mem_nil
  | cons next more ih =>
    rw [joinLines_cons first (List.cons_ne_nil _ _)]
    rcases List.mem_cons.1 h with rfl | h
    · have hbegins : '\n' :: line <+: '\n' :: joinLines (line :: more) :=
        List.cons_prefix_cons.2 ⟨rfl, prefix_joinLines line more⟩
      exact hbegins.isInfix.trans (List.suffix_append _ _).isInfix
    · exact (ih h).trans (List.suffix_append_of_suffix (List.suffix_cons _ _)).isInfix

/-! ## Breaks of a source -/

/-- The line ends of a text are line feeds, alone or behind a carriage return. -/
def hasPlainBreaks : List Char → Bool
  | [] => true
  | '\r' :: '\n' :: rest => hasPlainBreaks rest
  | c :: rest => (c == '\n' || !isLineEnd c) && hasPlainBreaks rest

/-- **The lines of a source with plain breaks have no line end inside.** -/
theorem unbroken_of_mem_splitLines {s line : List Char} (h : hasPlainBreaks s = true)
    (hline : line ∈ splitLines s) : Unbroken line := by
  fun_induction hasPlainBreaks s generalizing line with
  | case1 =>
    rw [splitLines, List.mem_singleton] at hline
    exact hline ▸ unbroken_nil
  | case2 rest ih =>
    rw [splitLines, List.mem_cons] at hline
    rcases hline with rfl | hline
    · exact unbroken_nil
    · exact ih h hline
  | case3 c rest hcrlf ih =>
    rw [Bool.and_eq_true, Bool.or_eq_true] at h
    obtain ⟨hc, hrest⟩ := h
    rcases hc with hc | hc
    · rw [beq_iff_eq.1 hc, splitLines_lineFeed, List.mem_cons] at hline
      rcases hline with rfl | hline
      · exact unbroken_nil
      · exact ih hrest hline
    · rw [Bool.not_eq_true'] at hc
      obtain ⟨first, more, hs⟩ := List.exists_cons_of_ne_nil (splitLines_ne_nil rest)
      rw [splitLines_cons hc hs, List.mem_cons] at hline
      rcases hline with rfl | hline
      · exact (ih hrest (hs ▸ List.mem_cons_self)).cons hc
      · exact ih hrest (hs ▸ List.mem_cons_of_mem _ hline)

/-! ## Lines of a source -/

theorem map_text_numbered (n : Nat) (lines : List (List Char)) :
    (numbered n lines).map Line.text = lines := by
  induction lines generalizing n with
  | nil => rfl
  | cons line lines ih => rw [numbered, List.map_cons, ih]

theorem text_mem_of_mem_numbered {n : Nat} {texts : List (List Char)} {line : Line}
    (h : line ∈ numbered n texts) : line.text ∈ texts := by
  rw [← map_text_numbered n texts]
  exact List.mem_map_of_mem h

/-- Lines are cut at every line feed. -/
theorem lineFeed_notMem_of_mem_splitLines {s line : List Char} (h : line ∈ splitLines s) :
    '\n' ∉ line := by
  fun_induction splitLines s generalizing line with
  | case1 =>
    rw [List.mem_singleton.1 h]
    exact List.not_mem_nil
  | case2 rest ih =>
    rcases List.mem_cons.1 h with rfl | h
    · exact List.not_mem_nil
    · exact ih h
  | case3 rest ih =>
    rcases List.mem_cons.1 h with rfl | h
    · exact List.not_mem_nil
    · exact ih h
  | case4 c rest hcrlf hfeed hnone ih => exact absurd hnone (splitLines_ne_nil rest)
  | case5 c rest hcrlf hfeed first lines hlines ih =>
    rcases List.mem_cons.1 h with rfl | h
    · intro hmem
      rcases List.mem_cons.1 hmem with hc | hmem
      · exact hfeed hc.symm
      · exact ih (hlines ▸ List.mem_cons_self) hmem
    · exact ih (hlines ▸ List.mem_cons_of_mem _ h)

end RequestRunner
