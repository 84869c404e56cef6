import RequestRunner.Proofs.Document.LineKind
import RequestRunner.Proofs.Document.Written

/-!
# Bodies are read as they are written

The lines of a body begin with a line that is not blank, go on to the last significant one and end
with the comments that touch it (`BodyLines`). These are the lines that are kept of a longer stretch
(`bodyLines_sound`, `bodyLines_eq`), and they stay such lines when the blanks behind the last one
are trimmed (`BodyLines.trimEnd_last`). So a body that was read is read again behind a blank line,
also when another one and a handler follow (`readBody_written`).
-/

set_option autoImplicit false

namespace RequestRunner

open Text

/-- What counts of a line in a body: whether it is blank, and whether it is trivia. -/
def Line.bodyKind (l : Line) : Bool × Bool := (l.isBlank, l.isTrivia)

theorem Line.bodyKind_eq_iff {l m : Line} :
    l.bodyKind = m.bodyKind ↔ l.isBlank = m.isBlank ∧ l.isTrivia = m.isTrivia :=
  Prod.ext_iff

theorem Line.isBlank_of_isTrivia {l : Line} (h : l.isTrivia = false) : l.isBlank = false := by
  rw [isTrivia, Bool.or_eq_false_iff] at h
  exact h.1

/-- The lines of a body: from a line that is not blank to a significant one and the comments that
touch it. -/
def BodyLines (lines : List Line) : Prop :=
  ∃ init last tail, lines = init ++ last :: tail ∧ (∀ l ∈ lines.head?, l.isBlank = false) ∧
    last.isTrivia = false ∧ ∀ l ∈ tail, l.isTrivia = true ∧ l.isBlank = false

/-- Lines of the same kinds are those of a body as well. -/
theorem BodyLines.of_kinds {lines others : List Line} (h : BodyLines lines)
    (hsame : others.map Line.bodyKind = lines.map Line.bodyKind) : BodyLines others := by
  obtain ⟨init, last, tail, rfl, hfirst, hlast, htail⟩ := h
  have hhead := congrArg List.head? hsame
  rw [List.map_append, List.map_cons] at hsame
  obtain ⟨init', below, rfl, hinit, hbelow⟩ := List.map_eq_append_iff.1 hsame
  obtain ⟨last', tail', rfl, hlast', htail'⟩ := List.map_eq_cons_iff.1 hbelow
  refine ⟨init', last', tail', rfl, ?_, ?_, ?_⟩
  · intro l hl
    rw [List.head?_map, List.head?_map, hl, Option.map_some] at hhead
    obtain ⟨m, hm, hsame⟩ := Option.map_eq_some_iff.1 hhead.symm
    rw [← (Line.bodyKind_eq_iff.1 hsame).1, hfirst m hm]
  · rw [(Line.bodyKind_eq_iff.1 hlast').2, hlast]
  · intro l hl
    have hmem : l.bodyKind ∈ tail.map Line.bodyKind := htail' ▸ List.mem_map_of_mem hl
    obtain ⟨m, hm, hsame⟩ := List.mem_map.1 hmem
    obtain ⟨hblank, htrivia⟩ := Line.bodyKind_eq_iff.1 hsame
    exact ⟨htrivia ▸ (htail m hm).1, hblank ▸ (htail m hm).2⟩

theorem map_bodyKind_congr {lines others : List Line}
    (h : others.map Line.text = lines.map Line.text) :
    others.map Line.bodyKind = lines.map Line.bodyKind := by
  have htext : Line.bodyKind = (fun text => (Line.mk 0 text).bodyKind) ∘ Line.text := rfl
  rw [htext, ← List.map_map, ← List.map_map, h]

/-- What is left when beginnings are dropped begins with something else. -/
theorem head?_dropWhile {α : Type} {p : α → Bool} (xs : List α) :
    ∀ x ∈ (xs.dropWhile p).head?, p x = false := by
  intro x hx
  have hnot := List.head?_dropWhile_not p xs
  rw [hx] at hnot
  exact hnot

/-- **The lines of a body in a stretch**: there are none if the stretch is trivia. Otherwise only
blank lines stand in front of them, and behind them trivia that begins with a blank line. -/
theorem bodyLines_cases (lines : List Line) :
    (bodyLines lines = [] ∧ ∀ l ∈ lines, l.isTrivia = true) ∨
      ∃ before after, lines = before ++ (bodyLines lines ++ after) ∧ BodyLines (bodyLines lines) ∧
        (∀ l ∈ before, l.isBlank = true) ∧ (∀ l ∈ after, l.isTrivia = true) ∧
          ∀ l ∈ after.head?, l.isBlank = true := by
  have hlines : lines = lines.takeWhile Line.isBlank ++ lines.dropWhile Line.isBlank :=
    List.takeWhile_append_dropWhile.symm
  have hbefore : ∀ l ∈ lines.takeWhile Line.isBlank, l.isBlank = true :=
    fun l hl => List.mem_takeWhile_imp hl
  have hfirst : ∀ l ∈ (lines.dropWhile Line.isBlank).head?, l.isBlank = false :=
    head?_dropWhile lines
  rw [bodyLines]
  generalize lines.takeWhile Line.isBlank = before at hlines hbefore
  generalize lines.dropWhile Line.isBlank = rest at hlines hfirst ⊢
  have hsplit := List.takeWhile_append_dropWhile (p := Line.isTrivia) (l := rest.reverse)
  have hlast : ∀ l ∈ (rest.reverse.dropWhile Line.isTrivia).head?, l.isTrivia = false :=
    head?_dropWhile rest.reverse
  have htrailing : ∀ l ∈ rest.reverse.takeWhile Line.isTrivia, l.isTrivia = true :=
    fun l hl => List.mem_takeWhile_imp hl
  generalize rest.reverse.takeWhile Line.isTrivia = trailing at hsplit htrailing ⊢
  -- counted from the end, the trivia comes first and then the last significant line
  generalize rest.reverse.dropWhile Line.isTrivia = kept at hsplit hlast ⊢
  have hrest : rest = kept.reverse ++ trailing.reverse := by
    rw [← List.reverse_append, hsplit, List.reverse_reverse]
  subst hlines hrest
  cases kept with
  | nil =>
    refine Or.inl ⟨rfl, ?_⟩
    intro l hl
    rw [List.reverse_nil, List.nil_append, List.mem_append, List.mem_reverse] at hl
    rcases hl with hl | hl
    · exact Line.isTrivia_of_isBlank (hbefore l hl)
    · exact htrailing l hl
  | cons last init =>
    -- the comments behind it belong to the body up to the first blank line
    generalize htake : trailing.reverse.takeWhile (fun line => !line.isBlank) = touching
    generalize hdrop : trailing.reverse.dropWhile (fun line => !line.isBlank) = after
    have hends : trailing.reverse = touching ++ after := by
      rw [← htake, ← hdrop, List.takeWhile_append_dropWhile]
    have htrivia : ∀ l ∈ touching ++ after, l.isTrivia = true := by
      intro l hl
      rw [← hends] at hl
      exact htrailing l (List.mem_reverse.1 hl)
    rw [List.isEmpty_cons, if_neg Bool.false_ne_true]
    refine Or.inr ⟨before, after, ?_, ⟨init.reverse, last, touching, ?_, ?_, hlast last rfl, ?_⟩,
      hbefore, fun l hl => htrivia l (List.mem_append_right _ hl), ?_⟩
    · rw [hends, List.append_assoc]
    · rw [List.reverse_cons, List.append_assoc, List.singleton_append]
    · rw [List.reverse_cons, List.append_assoc, List.head?_append, List.singleton_append,
        List.head?_cons] at hfirst ⊢
      exact hfirst
    · intro l hl
      refine ⟨htrivia l (List.mem_append_left _ hl), ?_⟩
      rw [← htake] at hl
      have hink := List.mem_takeWhile_imp (p := fun line : Line => !line.isBlank) hl
      rwa [Bool.not_eq_true'] at hink
    · intro l hl
      rw [← hdrop] at hl
      have hblank := head?_dropWhile (p := fun line : Line => !line.isBlank) trailing.reverse l hl
      rwa [Bool.not_eq_false'] at hblank

/-- **The kept lines of a stretch.** -/
theorem bodyLines_sound {lines : List Line} (h : bodyLines lines ≠ []) :
    BodyLines (bodyLines lines) ∧ bodyLines lines ⊆ lines := by
  rcases bodyLines_cases lines with ⟨hnone, -⟩ | ⟨before, after, hsplit, hbody, -⟩
  · exact absurd hnone h
  · refine ⟨hbody, ?_⟩
    have hwithin : bodyLines lines <:+: before ++ (bodyLines lines ++ after) :=
      ⟨before, after, List.append_assoc _ _ _⟩
    rw [← hsplit] at hwithin
    exact hwithin.subset

/-- **What is kept of a body between blank lines and comments** is the body. -/
theorem bodyLines_eq {lines before after : List Line} (h : BodyLines lines)
    (hbefore : ∀ l ∈ before, l.isBlank = true) (hafter : ∀ l ∈ after, l.isBlank = true) :
    bodyLines (before ++ (lines ++ after)) = lines := by
  obtain ⟨init, last, tail, rfl, hfirst, hlast, htail⟩ := h
  have hdrop : (before ++ (init ++ last :: tail ++ after)).dropWhile Line.isBlank =
      init ++ last :: (tail ++ after) := by
    rw [List.dropWhile_append_of_pos hbefore, List.append_assoc, List.cons_append]
    cases init with
    | nil =>
      rw [List.nil_append, List.dropWhile_cons_of_neg]
      rw [hfirst last rfl]
      exact Bool.false_ne_true
    | cons first init =>
      rw [List.cons_append, List.dropWhile_cons_of_neg]
      rw [hfirst first rfl]
      exact Bool.false_ne_true
  have htrivia : ∀ l ∈ (tail ++ after).reverse, l.isTrivia = true := by
    intro l hl
    rw [List.mem_reverse, List.mem_append] at hl
    rcases hl with hl | hl
    · exact (htail l hl).1
    · exact Line.isTrivia_of_isBlank (hafter l hl)
  have hlast : ¬ last.isTrivia = true := Bool.eq_false_iff.1 hlast
  have hreverse : (init ++ last :: (tail ++ after)).reverse =
      (tail ++ after).reverse ++ last :: init.reverse := by
    rw [List.reverse_append, List.reverse_cons, List.append_assoc, List.singleton_append]
  have htake : (init ++ last :: (tail ++ after)).reverse.takeWhile Line.isTrivia =
      (tail ++ after).reverse := by
    rw [hreverse, List.takeWhile_append_of_pos htrivia, List.takeWhile_cons_of_neg hlast,
      List.append_nil]
  have hkept : (init ++ last :: (tail ++ after)).reverse.dropWhile Line.isTrivia =
      last :: init.reverse := by
    rw [hreverse, List.dropWhile_append_of_pos htrivia, List.dropWhile_cons_of_neg hlast]
  -- behind the comments that touch the last significant line there is a blank line or nothing
  have htouching : (tail ++ after).takeWhile (fun l => !l.isBlank) = tail := by
    have hink : ∀ l ∈ tail, (!l.isBlank) = true := fun l hl => by
      rw [(htail l hl).2]
      rfl
    rw [List.takeWhile_append_of_pos hink]
    cases after with
    | nil => rw [List.takeWhile_nil, List.append_nil]
    | cons line after =>
      rw [List.takeWhile_cons_of_neg, List.append_nil]
      rw [hafter line List.mem_cons_self]
      exact Bool.false_ne_true
  rw [bodyLines]
  simp only [hdrop, htake, hkept, List.isEmpty_cons, Bool.false_eq_true, if_false,
    List.reverse_reverse, htouching, List.reverse_cons]
  rw [List.append_assoc, List.singleton_append]

/-- The lines of a body stay such lines when the last one is trimmed at its end. -/
theorem BodyLines.trimEnd_last {lines : List Line} {line : Line}
    (h : BodyLines (lines ++ [line])) :
    BodyLines (lines ++ [⟨line.number, trimEnd line.text⟩]) := by
  refine h.of_kinds ?_
  have hkind : (Line.mk line.number (trimEnd line.text)).bodyKind = line.bodyKind :=
    Line.bodyKind_eq_iff.2 ⟨Line.isBlank_trimEnd rfl, Line.isTrivia_trimEnd rfl⟩
  rw [List.map_append, List.map_append, List.map_singleton, List.map_singleton, hkind]

/-- The last line of a body is not blank. -/
theorem BodyLines.isBlank_last {lines : List Line} {line : Line}
    (h : BodyLines (lines ++ [line])) : line.isBlank = false := by
  obtain ⟨init, last, tail, heq, -, hlast, htail⟩ := h
  -- it is the significant line itself or a comment that touches it
  rcases List.eq_nil_or_concat' tail with rfl | ⟨tail, other, rfl⟩
  · obtain ⟨-, hsame⟩ := List.append_inj' heq rfl
    cases hsame
    exact Line.isBlank_of_isTrivia hlast
  · rw [← List.cons_append, ← List.append_assoc] at heq
    obtain ⟨-, hsame⟩ := List.append_inj' heq rfl
    cases hsame
    exact (htail line (List.mem_append_right _ List.mem_cons_self)).2

/-- The raw text of a body, with the lines it stands on. -/
structure IsBody (s : List Char) : Prop where
  lines : ∃ lines : List Line, s = joinLines (lines.map Line.text) ∧ BodyLines lines ∧
    ∀ l ∈ lines, l.IsInner ∧ l.opensHandler = false
  stop : trimEnd s = s

/-- Trimming the end of a text of lines trims the last one, if it is not blank. -/
theorem trimEnd_joinLines_concat (lines : List (List Char)) {last : List Char}
    (h : allBlank last = false) :
    trimEnd (joinLines (lines ++ [last])) = joinLines (lines ++ [trimEnd last]) := by
  have hjoin : joinLines (lines ++ [last]) = joinLines (lines ++ [[]]) ++ last := by
    rw [joinLines_concat_append, List.nil_append]
  rw [hjoin, trimEnd_append _ h, joinLines_concat_append, List.nil_append]

/-- A body is read if lines are kept of the stretch. Its text is that of these lines, with the last
of them trimmed at its end. -/
theorem readBody_cases (filename : String) (lines : List Line) :
    (bodyLines lines = [] ∧ readBody filename lines = none) ∨
      ∃ init last first, bodyLines lines = init ++ [last] ∧
        (init ++ [last]).head? = some first ∧ BodyLines (init ++ [last]) ∧
        init ++ [last] ⊆ lines ∧
        readBody filename lines = some (Template.ofText filename
          (joinLines (init.map Line.text ++ [trimEnd last.text])) ⟨first.number, 1⟩) := by
  have hsound : bodyLines lines ≠ [] → BodyLines (bodyLines lines) ∧ bodyLines lines ⊆ lines :=
    bodyLines_sound
  rw [readBody]
  generalize bodyLines lines = kept at hsound ⊢
  cases kept with
  | nil => exact Or.inl ⟨rfl, rfl⟩
  | cons first rest =>
    obtain ⟨hbody, hsubset⟩ := hsound (List.cons_ne_nil _ _)
    obtain ⟨init, last, hkept⟩ :=
      (List.eq_nil_or_concat' (first :: rest)).resolve_left (List.cons_ne_nil _ _)
    have hfirst : (first :: rest).head? = some first := rfl
    rw [hkept] at hbody hsubset hfirst
    refine Or.inr ⟨init, last, first, hkept, hfirst, hbody, hsubset, ?_⟩
    -- the last line is not blank, so nothing is trimmed before it
    have htrim : trimEnd (joinLines ((init ++ [last]).map Line.text)) =
        joinLines (init.map Line.text ++ [trimEnd last.text]) := by
      rw [List.map_append, List.map_singleton, trimEnd_joinLines_concat _ hbody.isBlank_last]
    rw [← htrim, ← hkept]
    rfl

/-- **A body that was read** is a body. -/
theorem readBody_sound {filename : String} {lines : List Line} {body : Template}
    (hlines : ∀ l ∈ lines, l.IsInner ∧ l.opensHandler = false)
    (h : readBody filename lines = some body) : body.IsRead ∧ IsBody body.text.toList := by
  rcases readBody_cases filename lines with
    ⟨-, hnone⟩ | ⟨init, last, first, -, -, hbody, hsubset, hread⟩
  · rw [hnone] at h
    cases h
  · rw [hread] at h
    cases h
    refine ⟨Template.isRead_ofText _ _ _, ?_⟩
    rw [Template.toList_text_ofText]
    have hlast : joinLines (init.map Line.text ++ [trimEnd last.text]) =
        joinLines ((init ++ [Line.mk last.number (trimEnd last.text)]).map Line.text) := by
      rw [List.map_append, List.map_singleton]
    have htrimmed : trimEnd (joinLines (init.map Line.text ++ [trimEnd last.text])) =
        joinLines (init.map Line.text ++ [trimEnd last.text]) := by
      rw [← trimEnd_joinLines_concat _ hbody.isBlank_last, trimEnd_trimEnd]
    refine ⟨⟨_, hlast, hbody.trimEnd_last, ?_⟩, htrimmed⟩
    intro l hl
    rw [List.mem_append, List.mem_singleton] at hl
    rcases hl with hl | rfl
    · exact hlines l (hsubset (List.mem_append_left _ hl))
    · obtain ⟨hinner, hopens⟩ := hlines last (hsubset (List.mem_append_right _ List.mem_cons_self))
      refine ⟨⟨hinner.unbroken.of_isInfix (trimEnd_isPrefix _).isInfix, ?_⟩, ?_⟩
      · rw [Line.isSeparator_trimEnd rfl, hinner.inner]
      · rw [Bool.eq_false_iff]
        intro htrimmed
        have hlast := Line.opensScript_of_trimEnd (l := last) rfl htrimmed
        rw [← Line.opensHandler, hopens] at hlast
        cases hlast

/-! ## Reading back -/

theorem IsBody.splitLines_eq {s : List Char} (h : IsBody s) :
    ∃ lines : List Line, splitLines s = lines.map Line.text ∧ BodyLines lines ∧
      ∀ l ∈ lines, l.IsInner ∧ l.opensHandler = false := by
  obtain ⟨lines, rfl, hbody, hlines⟩ := h.lines
  refine ⟨lines, ?_, hbody, hlines⟩
  obtain ⟨init, last, tail, rfl, -⟩ := hbody
  refine splitLines_joinLines ?_ ?_
  · rw [List.map_append, List.map_cons]
    exact List.append_ne_nil_of_right_ne_nil _ (List.cons_ne_nil _ _)
  · intro l hl
    obtain ⟨line, hline, rfl⟩ := List.mem_map.1 hl
    exact (hlines line hline).1.unbroken

theorem IsBody.plain {s : List Char} (h : IsBody s) : Plain s := by
  obtain ⟨lines, rfl, -, hlines⟩ := h.lines
  refine plain_joinLines ?_
  intro l hl
  obtain ⟨line, hline, rfl⟩ := List.mem_map.1 hl
  exact (hlines line hline).1.unbroken

/-- Blank lines hold no body. -/
theorem readBody_of_blank (filename : String) {lines : List Line}
    (h : ∀ l ∈ lines, l.isBlank = true) : readBody filename lines = none := by
  have hdrop : lines.dropWhile Line.isBlank = [] := List.dropWhile_eq_nil_iff.2 h
  rw [readBody, bodyLines, hdrop]
  rfl

/-- **A written body is read** between blank lines. -/
theorem readBody_written (filename : String) {s : List Char} (h : IsBody s)
    {lines before after : List Line} (hlines : lines.map Line.text = splitLines s)
    (hbefore : ∀ l ∈ before, l.isBlank = true) (hafter : ∀ l ∈ after, l.isBlank = true) :
    ∃ start, readBody filename (before ++ (lines ++ after)) =
      some (Template.ofText filename s start) := by
  obtain ⟨others, hothers, hbody, -⟩ := h.splitLines_eq
  have hkept : BodyLines lines := hbody.of_kinds (map_bodyKind_congr (hlines.trans hothers))
  have htext : Text.joinWith ['\n'] (lines.map Line.text) = s := by
    rw [hlines]
    exact (joinLines_splitLines h.plain).1
  rw [readBody, bodyLines_eq hkept hbefore hafter]
  obtain ⟨first, rest, rfl⟩ : ∃ first rest, lines = first :: rest := by
    obtain ⟨init, last, tail, rfl, -⟩ := hkept
    exact List.exists_cons_of_ne_nil
      (List.append_ne_nil_of_right_ne_nil _ (List.cons_ne_nil _ _))
  refine ⟨⟨first.number, 1⟩, ?_⟩
  simp only [htext, h.stop]

end RequestRunner
