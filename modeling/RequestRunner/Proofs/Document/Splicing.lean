import RequestRunner.Proofs.Document.Shifting

/-!
# Reading around a new line

A line that is put in among the lines of a section is behind a reader, in front of it or further
down (`Spliced`). Blank lines and comments are skipped wherever a reader comes across them between
two parts, so each reader gives what it gave before, shifted, and leaves lines of the same kind:
declarations (`readDeclarations_spliced`), handlers that the line is not put into
(`readHandler?_spliced`), the request line (`expectRequest_spliced`) and what belongs to it
(`readRequest_spliced`). Among headers only comments are skipped, and a comment ends a target but
does not continue it.
-/

set_option autoImplicit false

namespace RequestRunner

/-- The second lines are the first ones with the line `t` put in below line `k`, and those behind it
are counted one further. A reader that goes down the lines has passed the new line, comes to it
next, or is further up. -/
inductive Spliced (k : Nat) (t : Line) : List Line → List Line → Prop where
  | passed {lines : List Line} (below : ∀ l ∈ lines, k < l.number) :
      Spliced k t lines (lines.map (Line.shifted k))
  | next {lines : List Line} (below : ∀ l ∈ lines, k < l.number) :
      Spliced k t lines (t :: lines.map (Line.shifted k))
  | above {l : Line} {lines lines' : List Line} (above : l.number ≤ k)
      (more : Spliced k t lines lines') : Spliced k t (l :: lines) (l :: lines')

variable {k : Nat} {t : Line} {filename : String} {lines lines' : List Line}

/-- A line that is put in between lines. -/
theorem spliced_append {above below : List Line} (habove : ∀ l ∈ above, l.number ≤ k)
    (hbelow : ∀ l ∈ below, k < l.number) :
    Spliced k t (above ++ below) (above ++ t :: below.map (Line.shifted k)) := by
  induction above with
  | nil => exact .next hbelow
  | cons l above ih =>
    rw [List.forall_mem_cons] at habove
    exact .above habove.1 (ih habove.2)

/-! ## Below the new line -/

/-- A reader that has passed the new line. -/
theorem read_below {α : Type} {read : List Line → Except ParseError (α × List Line)}
    {down : Nat → α → α} {shifted : α → α} {a : α} {rest : List Line}
    (hread : ∀ n lines, read (lines.map (Line.down n)) =
      lowered n (Prod.map (down n) (List.map (Line.down n))) (read lines))
    (hshifted : ∀ a, shifted (down (k + 1) a) = down (k + 2) a)
    (hbelow : ∀ l ∈ lines, k < l.number) (h : read lines = .ok (a, rest)) :
    read (lines.map (Line.shifted k)) = .ok (shifted a, rest.map (Line.shifted k)) := by
  obtain ⟨above, rfl, hagain⟩ := exists_map_down hbelow
  rw [hagain]
  refine read_shifted read (fun n => List.map (Line.down n))
    (fun n => Prod.map (down n) (List.map (Line.down n)))
    (Prod.map shifted (List.map (Line.shifted k))) hread ?_ h
  rintro ⟨a, rest⟩
  simp [hshifted, Function.comp_def]

/-! ## Skipping -/

theorem skipTrivia_shifted (lines : List Line) :
    skipTrivia (lines.map (Line.shifted k)) = (skipTrivia lines).map (Line.shifted k) := by
  rw [skipTrivia, List.dropWhile_map]
  rfl

/-- The new line is skipped. -/
theorem skipTrivia_spliced (h : Spliced k t lines lines') (ht : t.isTrivia = true) :
    Spliced k t (skipTrivia lines) (skipTrivia lines') := by
  have hbelow : ∀ {lines : List Line}, (∀ l ∈ lines, k < l.number) →
      ∀ l ∈ skipTrivia lines, k < l.number :=
    fun hlines l hl => hlines l ((skipTrivia_suffix _).subset hl)
  induction h with
  | passed hlines =>
    rw [skipTrivia_shifted]
    exact .passed (hbelow hlines)
  | next hlines =>
    rw [skipTrivia, skipTrivia, List.dropWhile_cons_of_pos ht]
    have hskipped := Spliced.passed (t := t) (hbelow hlines)
    rw [← skipTrivia_shifted] at hskipped
    exact hskipped
  | above hl hmore ih =>
    rename_i l _ _
    cases htrivia : l.isTrivia with
    | true =>
      rw [skipTrivia, skipTrivia, List.dropWhile_cons_of_pos htrivia,
        List.dropWhile_cons_of_pos htrivia]
      exact ih
    | false =>
      have hkept : ¬ l.isTrivia = true := by simp [htrivia]
      rw [skipTrivia, skipTrivia, List.dropWhile_cons_of_neg hkept,
        List.dropWhile_cons_of_neg hkept]
      exact .above hl hmore

/-- Where nothing significant is left, nothing is left with the new line either. -/
theorem Spliced.skipTrivia_eq_nil (h : Spliced k t lines lines') (ht : t.isTrivia = true)
    (hnone : skipTrivia lines = []) : skipTrivia lines' = [] := by
  have hskipped := skipTrivia_spliced h ht
  rw [hnone] at hskipped
  generalize hnew : skipTrivia lines' = new at hskipped
  cases hskipped with
  | passed => rfl
  | next =>
    have hfirst := isTrivia_of_skipTrivia hnew
    rw [ht] at hfirst
    cases hfirst

/-- The next significant line stands below the new line or above it. -/
theorem Spliced.skipTrivia_eq_cons {line : Line} {more : List Line} (h : Spliced k t lines lines')
    (ht : t.isTrivia = true) (hskip : skipTrivia lines = line :: more) :
    ((∀ l ∈ line :: more, k < l.number) ∧
        skipTrivia lines' = (line :: more).map (Line.shifted k)) ∨
      line.number ≤ k ∧ ∃ more', skipTrivia lines' = line :: more' ∧
        Spliced k t more more' := by
  have hskipped := skipTrivia_spliced h ht
  rw [hskip] at hskipped
  generalize hnew : skipTrivia lines' = new at hskipped
  cases hskipped with
  | passed hbelow => exact Or.inl ⟨hbelow, rfl⟩
  | next =>
    have hfirst := isTrivia_of_skipTrivia hnew
    rw [ht] at hfirst
    cases hfirst
  | above habove hmore => exact Or.inr ⟨habove, _, rfl, hmore⟩

/-! ## Declarations and handlers -/

theorem readDeclarations_below {rest : List Line} {declarations : List Declaration}
    (hbelow : ∀ l ∈ lines, k < l.number)
    (h : readDeclarations filename lines = .ok (declarations, rest)) :
    readDeclarations filename (lines.map (Line.shifted k)) =
      .ok (declarations.map (Declaration.shifted k), rest.map (Line.shifted k)) := by
  refine read_below (fun n lines => readDeclarations_down (n := n) filename lines) ?_ hbelow h
  intro declarations
  simp [Function.comp_def]

/-- **Declarations** are read around the new line. -/
theorem readDeclarations_spliced {rest : List Line} {declarations : List Declaration}
    (h : Spliced k t lines lines') (ht : t.isTrivia = true)
    (hunfed : ∀ l ∈ lines, '\n' ∉ l.text)
    (hread : readDeclarations filename lines = .ok (declarations, rest)) :
    ∃ rest', readDeclarations filename lines' =
        .ok (declarations.map (Declaration.shifted k), rest') ∧ Spliced k t rest rest' := by
  -- the induction is on the lines above the gap, whose declarations are not changed
  induction h generalizing declarations with
  | passed hbelow =>
    obtain ⟨_, htakes, -⟩ := readDeclarations_takes hread
    exact ⟨_, readDeclarations_below hbelow hread,
      .passed fun l hl => hbelow l (htakes.suffix.subset hl)⟩
  | next hbelow =>
    obtain ⟨_, htakes, -⟩ := readDeclarations_takes hread
    rw [readDeclarations, if_pos ht]
    exact ⟨_, readDeclarations_below hbelow hread,
      .passed fun l hl => hbelow l (htakes.suffix.subset hl)⟩
  | @above l lines lines' habove hmore ih =>
    rw [List.forall_mem_cons] at hunfed
    rw [readDeclarations] at hread ⊢
    split at hread
    · next htrivia =>
      rw [if_pos htrivia]
      exact ih hunfed.2 hread
    · next htrivia =>
      rw [if_neg htrivia]
      split at hread
      · next hopens =>
        rw [if_pos hopens]
        split at hread
        · cases hread
        · next name lead raw hparts =>
          obtain ⟨⟨more, left⟩, hmore', hread⟩ := bind_eq_ok.1 hread
          cases hread
          obtain ⟨rest', hrest', hspliced⟩ := ih hunfed.2 hmore'
          have hstands : Declaration.StandsOn filename l (String.ofList name,
              Template.ofText filename raw ⟨l.number, Text.units lead + 1⟩) :=
            ⟨hopens, name, lead, raw, hparts, rfl⟩
          refine ⟨rest', ?_, hspliced⟩
          rw [List.map_cons, hstands.shifted_eq hunfed.1 habove, hrest']
          rfl
      · next hopens =>
        cases hread
        rw [if_neg hopens]
        exact ⟨_, rfl, .above habove hmore⟩

section Script

variable {marker : Marker} {opening : Selection} {line : Line} {inside script : List Char}
  {stop : Position} {left : List Line}

/-- A script that does not end on its line ends on one of the lines below. -/
theorem lt_stop_of_readScript (hcut : Text.cut? scriptEnd inside = none)
    (hbelow : ∀ l ∈ lines, k < l.number)
    (h : readScript filename marker opening line inside lines = .ok (script, stop, left)) :
    k < stop.line := by
  cases lines with
  | nil =>
    rw [scriptEnd] at hcut
    rw [readScript, hcut] at h
    cases h
  | cons next more =>
    rw [readScript_cons hcut] at h
    obtain ⟨⟨_, _, _⟩, hnext, h⟩ := bind_eq_ok.1 h
    cases h
    obtain ⟨used, last, trailing, rfl, hlast, -, -, -, rfl⟩ :=
      readScript_takes (List.suffix_refl _) hnext
    exact hbelow last (List.mem_append_left left (List.mem_of_getLast? hlast))

/-- A script that ends on its line leaves the lines below as they are. -/
theorem readScript_of_cut_spliced {cut : List Char × List Char}
    (h : Spliced k t lines lines') (hcut : Text.cut? scriptEnd inside = some cut)
    (hread : readScript filename marker opening line inside lines = .ok (script, stop, left)) :
    ∃ left', readScript filename marker opening line inside lines' = .ok (script, stop, left') ∧
      Spliced k t left left' := by
  rw [readScript_of_cut _ _ _ _ _ hcut] at hread ⊢
  split at hread
  · next hblank =>
    cases hread
    rw [if_pos hblank]
    exact ⟨_, rfl, h⟩
  · cases hread

/-- **A script** that ends above the new line is read with it. -/
theorem readScript_spliced (h : Spliced k t lines lines') (hstop : stop.line ≤ k)
    (hread : readScript filename marker opening line inside lines = .ok (script, stop, left)) :
    ∃ left', readScript filename marker opening line inside lines' =
      .ok (script, stop, left') ∧ Spliced k t left left' := by
  -- below the gap the script has ended, since it stops above
  induction h generalizing line inside script with
  | passed hbelow =>
    cases hcut : Text.cut? scriptEnd inside with
    | some cut => exact readScript_of_cut_spliced (Spliced.passed hbelow) hcut hread
    | none => exact absurd hstop (Nat.not_le.2 (lt_stop_of_readScript hcut hbelow hread))
  | next hbelow =>
    cases hcut : Text.cut? scriptEnd inside with
    | some cut => exact readScript_of_cut_spliced (Spliced.next hbelow) hcut hread
    | none => exact absurd hstop (Nat.not_le.2 (lt_stop_of_readScript hcut hbelow hread))
  | above habove hmore ih =>
    cases hcut : Text.cut? scriptEnd inside with
    | some cut => exact readScript_of_cut_spliced (Spliced.above habove hmore) hcut hread
    | none =>
      rw [readScript_cons hcut] at hread ⊢
      obtain ⟨⟨_, _, _⟩, hnext, hread⟩ := bind_eq_ok.1 hread
      cases hread
      obtain ⟨left', hleft, hspliced⟩ := ih hnext
      rw [hleft]
      exact ⟨left', rfl, hspliced⟩

end Script

/-- A handler that opens above the new line, and is read with it if it ends above it as well. -/
theorem readHandler_spliced {marker : Marker} {line : Line} {rest : List Line}
    {handler : Handler} (h : Spliced k t lines lines') (habove : line.number ≤ k)
    (hread : readHandler filename marker line lines = .ok (handler, rest))
    (houtside : k < handler.selection.start.line ∨ handler.selection.stop.line ≤ k) :
    ∃ rest', readHandler filename marker line lines' =
        .ok (handler.shifted k, rest') ∧ Spliced k t rest rest' := by
  rw [readHandler] at hread ⊢
  generalize (Text.cut? ['\x7b', '%'] line.text).getD ([], line.text) = cut at hread ⊢
  obtain ⟨before, inside⟩ := cut
  dsimp only at hread ⊢
  obtain ⟨⟨script, stop, left⟩, hscript, hread⟩ := bind_eq_ok.1 hread
  cases hread
  have hstop : stop.line ≤ k := houtside.resolve_left (Nat.not_lt.2 habove)
  obtain ⟨left', hleft, hspliced⟩ := readScript_spliced h hstop hscript
  have hselection : Selection.shifted k ⟨filename, ⟨line.number, line.firstColumn⟩, stop⟩ =
      ⟨filename, ⟨line.number, line.firstColumn⟩, stop⟩ := Selection.shifted_eq habove hstop
  refine ⟨left', ?_, hspliced⟩
  rw [hleft, Handler.shifted, hselection]
  rfl

theorem readHandler?_below {marker : Marker} {rest : List Line} {handler : Option Handler}
    (hbelow : ∀ l ∈ lines, k < l.number)
    (h : readHandler? filename marker lines = .ok (handler, rest)) :
    readHandler? filename marker (lines.map (Line.shifted k)) =
      .ok (handler.map (Handler.shifted k), rest.map (Line.shifted k)) := by
  refine read_below (fun n lines => readHandler?_down (n := n) filename marker lines) ?_ hbelow h
  intro handler
  simp [Function.comp_def]

theorem readHandler?_skipTrivia (marker : Marker) (lines : List Line) :
    readHandler? filename marker (skipTrivia lines) = readHandler? filename marker lines := by
  have htwice : skipTrivia (skipTrivia lines) = skipTrivia lines := by
    simp only [skipTrivia, List.dropWhile_idempotent]
  rw [readHandler?, readHandler?, htwice]

/-- **A handler** that the new line is not put into is read around it. -/
theorem readHandler?_spliced {marker : Marker} {rest : List Line} {handler : Option Handler}
    (h : Spliced k t lines lines') (ht : t.isTrivia = true) (hlines : AreLines lines)
    (hread : readHandler? filename marker lines = .ok (handler, rest))
    (houtside : ∀ found ∈ handler,
      k < found.selection.start.line ∨ found.selection.stop.line ≤ k) :
    ∃ rest', readHandler? filename marker lines' =
        .ok (handler.map (Handler.shifted k), rest') ∧ Spliced k t rest rest' := by
  cases hskip : skipTrivia lines with
  | nil =>
    have hnone := h.skipTrivia_eq_nil ht hskip
    rw [readHandler?, hskip] at hread
    cases hread
    rw [readHandler?, hnone]
    exact ⟨[], rfl, .passed (List.forall_mem_nil _)⟩
  | cons line more =>
    rcases h.skipTrivia_eq_cons ht hskip with ⟨hbelow, hnew⟩ | ⟨habove, more', hnew, hmore⟩
    · rw [← readHandler?_skipTrivia, hskip] at hread
      rw [← readHandler?_skipTrivia, hnew]
      obtain ⟨skipped, used, hsplit, -⟩ := readHandler?_stands
        (hlines.of_isInfix (hskip ▸ (skipTrivia_suffix lines).isInfix)) hread
      refine ⟨_, readHandler?_below hbelow hread, .passed fun l hl => hbelow l ?_⟩
      rw [hsplit]
      exact List.mem_append_right _ (List.mem_append_right _ hl)
    · rw [readHandler?, hskip] at hread
      rw [readHandler?, hnew]
      dsimp only at hread ⊢
      split at hread
      · next hopens =>
        rw [if_pos hopens]
        obtain ⟨⟨found, left⟩, hfound, hread⟩ := bind_eq_ok.1 hread
        cases hread
        obtain ⟨rest', hrest', hspliced⟩ :=
          readHandler_spliced hmore habove hfound (houtside found rfl)
        rw [hrest']
        exact ⟨rest', rfl, hspliced⟩
      · next hopens =>
        cases hread
        rw [if_neg hopens]
        exact ⟨_, rfl, .above habove hmore⟩

/-! ## Requests -/

/-- **The request line** is found around the new line. -/
theorem expectRequest_spliced {last line : Line} {more : List Line} (last' : Line)
    (h : Spliced k t lines lines') (ht : t.isTrivia = true)
    (hread : expectRequest filename last lines = .ok (line, more)) :
    ((∀ l ∈ line :: more, k < l.number) ∧ expectRequest filename last' lines' =
        .ok (line.shifted k, more.map (Line.shifted k))) ∨
      line.number ≤ k ∧ ∃ more', expectRequest filename last' lines' =
        .ok (line, more') ∧ Spliced k t more more' := by
  rw [expectRequest] at hread
  split at hread
  · cases hread
  · next first rest hskip =>
    split at hread
    · cases hread
    · next hopens =>
      split at hread
      · cases hread
      · next hdeclares =>
        cases hread
        rcases h.skipTrivia_eq_cons ht hskip with ⟨hbelow, hnew⟩ | ⟨habove, more', hnew, hmore⟩
        · refine Or.inl ⟨hbelow, ?_⟩
          rw [expectRequest, hnew]
          exact (if_neg hopens).trans (if_neg hdeclares)
        · refine Or.inr ⟨habove, more', ?_, hmore⟩
          rw [expectRequest, hnew]
          exact (if_neg hopens).trans (if_neg hdeclares)

theorem extendTarget_below (text : List Char) (lines : List Line) :
    extendTarget text (lines.map (Line.shifted k)) =
      Prod.map id (List.map (Line.shifted k)) (extendTarget text lines) := by
  induction lines generalizing text with
  | nil => rfl
  | cons line rest ih =>
    rw [List.map_cons, extendTarget, extendTarget]
    have hcontinues : (line.shifted k).continuesTarget = line.continuesTarget := rfl
    have htext : (line.shifted k).text = line.text := rfl
    rw [hcontinues, htext, ih]
    split
    · rfl
    · split
      · rfl
      · rfl

/-- **A target** whose lines stand above the new line does not take it in. -/
theorem extendTarget_spliced {text whole : List Char} {taken rest : List Line}
    (h : Spliced k t lines lines') (ht : t.isTrivia = true) (hlines : lines = taken ++ rest)
    (habove : ∀ l ∈ taken, l.number ≤ k) (hread : extendTarget text lines = (whole, rest)) :
    ∃ rest', extendTarget text lines' = (whole, rest') ∧ Spliced k t rest rest' := by
  induction h generalizing text taken with
  | passed hbelow =>
    rw [extendTarget_below, hread]
    refine ⟨_, rfl, .passed fun l hl => hbelow l ?_⟩
    rw [hlines]
    exact List.mem_append_right _ hl
  | next hbelow =>
    -- none of the lines is taken, and neither is the new one
    obtain rfl : taken = [] := by
      refine List.eq_nil_iff_forall_not_mem.2 fun l hl => ?_
      have hless := hbelow l (hlines ▸ List.mem_append_left _ hl)
      have hgreater := habove l hl
      omega
    rw [List.nil_append] at hlines
    subst hlines
    obtain ⟨taken, hsame, rfl, -⟩ := extendTarget_sound hread
    obtain rfl := List.self_eq_append_left.1 hsame
    refine ⟨_, ?_, .next hbelow⟩
    have hstops : ¬ t.continuesTarget = true := by
      intro hcontinues
      rw [Line.isTrivia_of_continuesTarget hcontinues] at ht
      cases ht
    rw [extendTarget, List.map_nil, joinLines_singleton, if_neg hstops, ite_self]
  | @above l lines lines' hl hmore ih =>
    rw [extendTarget] at hread ⊢
    split at hread
    · next hversion =>
      cases hread
      rw [if_pos hversion]
      exact ⟨_, rfl, .above hl hmore⟩
    · next hversion =>
      rw [if_neg hversion]
      split at hread
      · next hcontinues =>
        rw [if_pos hcontinues]
        obtain ⟨below, hbelow, -, -⟩ := extendTarget_sound hread
        have htaken : taken = l :: below := by
          rw [hbelow, ← List.cons_append] at hlines
          exact (List.append_cancel_right hlines).symm
        rw [htaken, List.forall_mem_cons] at habove
        exact ih hbelow habove.2 hread
      · next hcontinues =>
        cases hread
        rw [if_neg hcontinues]
        exact ⟨_, rfl, .above hl hmore⟩

/-! ## Headers -/

theorem readHeaders_below {rest : List Line} {headers : List Header}
    (hbelow : ∀ l ∈ lines, k < l.number)
    (h : readHeaders filename lines = .ok (headers, rest)) :
    readHeaders filename (lines.map (Line.shifted k)) =
      .ok (headers.map (Header.shifted k), rest.map (Line.shifted k)) := by
  refine read_below (fun n lines => readHeaders_down (n := n) filename lines) ?_ hbelow h
  intro headers
  simp [Function.comp_def]

/-- A comment is neither blank nor the opening of a handler. -/
theorem Line.closed_of_isComment {l : Line} (h : l.isComment = true) :
    (l.isBlank || l.opensHandler) = false := by
  have htrivia : l.isTrivia = true := by rw [isTrivia, h, Bool.or_true]
  rw [Bool.or_eq_false_iff]
  constructor
  · rw [Bool.eq_false_iff]
    intro hblank
    rw [isComment, content, Text.trimStart_of_allBlank hblank] at h
    cases h
  · rw [Bool.eq_false_iff]
    intro hopens
    rw [isTrivia_of_opensScript hopens (by decide) (by decide)] at htrivia
    cases htrivia

/-- The new line does not come between headers and what follows them: it is a comment that is passed
with the headers, or a line that follows them stands above it. -/
def PassesHeaders (k : Nat) (t : Line) (rest : List Line) : Prop :=
  (t.isComment = true ∧ ∀ l ∈ rest, k < l.number) ∨ ∃ l ∈ rest, l.number ≤ k

/-- **Headers** are read around the new line. -/
theorem readHeaders_spliced {rest : List Line} {headers : List Header}
    (h : Spliced k t lines lines') (hunfed : ∀ l ∈ lines, '\n' ∉ l.text)
    (hpasses : PassesHeaders k t rest)
    (hread : readHeaders filename lines = .ok (headers, rest)) :
    ∃ rest', readHeaders filename lines' =
      .ok (headers.map (Header.shifted k), rest') ∧
        ((∀ l ∈ rest, k < l.number) ∧ rest' = rest.map (Line.shifted k) ∨
          (∃ l ∈ rest, l.number ≤ k) ∧ Spliced k t rest rest') := by
  induction h generalizing headers with
  | passed hbelow =>
    obtain ⟨_, htakes, -⟩ := readHeaders_takes hread
    exact ⟨_, readHeaders_below hbelow hread,
      Or.inl ⟨fun l hl => hbelow l (htakes.suffix.subset hl), rfl⟩⟩
  | next hbelow =>
    obtain ⟨_, htakes, -⟩ := readHeaders_takes hread
    have hrest : ∀ l ∈ rest, k < l.number := fun l hl => hbelow l (htakes.suffix.subset hl)
    rcases hpasses with ⟨hcomment, -⟩ | ⟨l, hl, habove⟩
    · have hopen : ¬ (t.isBlank || t.opensHandler) = true := by
        rw [Line.closed_of_isComment hcomment]
        exact Bool.false_ne_true
      rw [readHeaders, if_neg hopen, if_pos hcomment]
      exact ⟨_, readHeaders_below hbelow hread, Or.inl ⟨hrest, rfl⟩⟩
    · exact absurd habove (Nat.not_le.2 (hrest l hl))
  | @above l lines lines' hl hmore ih =>
    rw [List.forall_mem_cons] at hunfed
    rw [readHeaders] at hread ⊢
    split at hread
    · next hend =>
      cases hread
      rw [if_pos hend]
      exact ⟨_, rfl, Or.inr ⟨⟨l, List.mem_cons_self, hl⟩, .above hl hmore⟩⟩
    · next hend =>
      rw [if_neg hend]
      split at hread
      · next hcomment =>
        rw [if_pos hcomment]
        exact ih hunfed.2 hread
      · next hcomment =>
        rw [if_neg hcomment]
        split at hread
        · cases hread
        · next header hheader =>
          obtain ⟨⟨more, left⟩, hmoreRead, hread⟩ := bind_eq_ok.1 hread
          cases hread
          obtain ⟨rest', hrest', hspliced⟩ := ih hunfed.2 hmoreRead
          have htrivia : l.isTrivia = false := by
            rw [Bool.or_eq_true, not_or, Bool.not_eq_true] at hend
            rw [Bool.not_eq_true] at hcomment
            rw [Line.isTrivia, hend.1, hcomment]
            rfl
          have hstands : Header.StandsOn filename l header := ⟨htrivia, hheader⟩
          refine ⟨rest', ?_, hspliced⟩
          rw [List.map_cons, hstands.shifted_eq hunfed.1 hl, hrest']
          rfl

/-! ## Bodies -/

/-- The lines in front of a response handler that opens above the new line. -/
theorem Spliced.takeWhile_inBody (h : Spliced k t lines lines')
    (habove : ∃ l ∈ lines.dropWhile Line.inBody, l.number ≤ k) :
    lines'.takeWhile Line.inBody = lines.takeWhile Line.inBody ∧
      Spliced k t (lines.dropWhile Line.inBody) (lines'.dropWhile Line.inBody) := by
  obtain ⟨first, hfirst, hnumber⟩ := habove
  have hnone : ∀ {lines : List Line}, (∀ l ∈ lines, k < l.number) →
      first ∉ lines.dropWhile Line.inBody := by
    intro lines hbelow hmem
    have hless := hbelow first ((List.dropWhile_suffix _).subset hmem)
    omega
  induction h with
  | passed hbelow => exact absurd hfirst (hnone hbelow)
  | next hbelow => exact absurd hfirst (hnone hbelow)
  | @above l lines lines' hl hmore ih =>
    by_cases hinner : l.inBody = true
    · rw [List.dropWhile_cons_of_pos hinner] at hfirst ⊢
      rw [List.dropWhile_cons_of_pos hinner, List.takeWhile_cons_of_pos hinner,
        List.takeWhile_cons_of_pos hinner]
      obtain ⟨htake, hdrop⟩ := ih hfirst
      exact ⟨by rw [htake], hdrop⟩
    · rw [List.dropWhile_cons_of_neg hinner, List.dropWhile_cons_of_neg hinner,
        List.takeWhile_cons_of_neg hinner, List.takeWhile_cons_of_neg hinner]
      exact ⟨rfl, .above hl hmore⟩

/-- A body below the new line. -/
theorem readBody_below (hbelow : ∀ l ∈ lines, k < l.number) :
    readBody filename (lines.map (Line.shifted k)) =
      (readBody filename lines).map (Template.shifted k) := by
  obtain ⟨above, rfl, hagain⟩ := exists_map_down hbelow
  rw [hagain, readBody_down, readBody_down, Option.map_map]
  simp [Function.comp_def]

/-- A body above the new line. -/
theorem readBody_above (hlines : AreLines lines) (habove : ∀ l ∈ lines, l.number ≤ k) :
    (readBody filename lines).map (Template.shifted k) = readBody filename lines := by
  obtain ⟨-, hinner⟩ := bodyLines_exhausts lines
  cases hread : readBody filename lines with
  | none => rfl
  | some body =>
    have hon := (readBody_isOn hread).of_isInfix hinner hlines
    rw [Option.map_some, hon.shifted_eq hlines habove]

/-- The new line is put in outside of the request: it is a comment directly above or below one of
its headers, or it comes behind a line that follows the request. -/
def RequestTemplate.IsApart (k : Nat) (t : Line) (request : RequestTemplate) (rest : List Line) :
    Prop :=
  (t.isComment = true ∧ ∃ header ∈ request.headers,
    header.selection.start.line = k ∨ header.selection.start.line = k + 1) ∨
      ∃ l ∈ rest, l.number ≤ k

/-- Apart from the request, the new line is not put among the lines of its target, and not between
its headers and what follows them. If it is put behind the first line that follows the headers, it
is put behind the body as well. -/
theorem RequestTemplate.IsApart.sides {request : RequestTemplate}
    {continuations headers front behind : List Line}
    (hapart : request.IsApart k t (behind.dropWhile Line.inBody))
    (horder : (continuations ++ (front ++ behind)).Pairwise fun l l' => l.number < l'.number)
    (hheaders : List.Forall₂ (Header.StandsOn filename) headers request.headers)
    (hfront : Exhausts headers front) (hunfed : ∀ l ∈ front, '\n' ∉ l.text) :
    (∀ l ∈ continuations, l.number ≤ k) ∧ PassesHeaders k t behind ∧
      ((∃ l ∈ behind, l.number ≤ k) → (∀ l ∈ behind.takeWhile Line.inBody, l.number ≤ k) ∧
        ∃ l ∈ behind.dropWhile Line.inBody, l.number ≤ k) := by
  obtain ⟨-, hlower, hcontinuations⟩ := List.pairwise_append.1 horder
  obtain ⟨-, hbehind, hacross⟩ := List.pairwise_append.1 hlower
  rcases hapart with ⟨hcomment, header, hmem, hplace⟩ | ⟨last, hlast, habove⟩
  · obtain ⟨l, hl, hstands⟩ := exists_of_mem_forall₂ hheaders hmem
    have hl : l ∈ front := hfront.inOrder.subset hl
    -- the header is directly above the new line or directly below it
    have hnumber : l.number = k ∨ l.number = k + 1 := by
      rw [(hstands.isOn (hunfed l hl)).2] at hplace
      exact hplace
    have hbelow : ∀ m ∈ behind, k < m.number := by
      intro m hm
      have hless := hacross l hl m hm
      omega
    refine ⟨?_, Or.inl ⟨hcomment, hbelow⟩, ?_⟩
    · intro m hm
      have hless := hcontinuations m hm l (List.mem_append_left _ hl)
      omega
    · rintro ⟨m, hm, habove⟩
      exact absurd habove (Nat.not_le.2 (hbelow m hm))
  · have hmem : last ∈ behind := (List.dropWhile_suffix _).subset hlast
    refine ⟨?_, Or.inr ⟨last, hmem, habove⟩, fun _ => ⟨?_, last, hlast, habove⟩⟩
    · intro m hm
      have hless := hcontinuations m hm last (List.mem_append_right _ hmem)
      omega
    · intro m hm
      rw [← List.takeWhile_append_dropWhile (p := Line.inBody) (l := behind)] at hbehind
      have hless := (List.pairwise_append.1 hbehind).2.2 m hm last hlast
      omega

/-- The request with the selection that it has on the line. -/
def RequestTemplate.selectedFrom (filename : String) (line : Line) (request : RequestTemplate) :
    RequestTemplate :=
  { request with selection :=
    ⟨filename, ⟨line.number, line.firstColumn⟩, request.lastStop line⟩ }

theorem RequestTemplate.selectedFrom_shifted (request : RequestTemplate) (line : Line) :
    (request.selectedFrom filename line).shifted k =
      (request.shifted k).selectedFrom filename (line.shifted k) := by
  rw [selectedFrom, selectedFrom, lastStop_shifted]
  rfl

/-- A request is put together from its line and from what is read behind it. -/
theorem readRequest_eq_selectedFrom {line : Line} {more below rest : List Line}
    {start : TargetStart} {text : List Char} {headers : List Header}
    (hstart : readRequestLine filename line = .ok start)
    (hextend : extendTarget start.text more = (text, below))
    (hheaders : readHeaders filename below = .ok (headers, rest)) :
    readRequest filename line more =
      .ok ((RequestTemplate.mk start.method start.methodSelection
        (Template.ofText filename (cleanTarget text) ⟨line.number, start.column⟩) headers
        (readBody filename (rest.takeWhile Line.inBody)) Selection.none).selectedFrom filename line,
        rest.dropWhile Line.inBody) := by
  rw [readRequest, hstart]
  simp only [bind, Except.bind, hextend, hheaders]
  rfl

/-- **A request** that begins above the new line is read around it. -/
theorem readRequest_spliced {line : Line} {rest : List Line} {request : RequestTemplate}
    (h : Spliced k t lines lines') (ht : t.isTrivia = true) (hlines : AreLines (line :: lines))
    (habove : line.number ≤ k)
    (hread : readRequest filename line lines = .ok (request, rest))
    (hapart : request.IsApart k t rest) :
    ∃ rest', readRequest filename line lines' = .ok (request.shifted k, rest') ∧
      Spliced k t rest rest' := by
  have hparts := hread
  rw [readRequest] at hparts
  obtain ⟨start, hstart, hparts⟩ := bind_eq_ok.1 hparts
  generalize hextend : extendTarget start.text lines = extended at hparts
  obtain ⟨text, below⟩ := extended
  obtain ⟨⟨headers, behind⟩, hheaders, -⟩ := bind_eq_ok.1 hparts
  rw [readRequest_eq_selectedFrom hstart hextend hheaders] at hread
  cases hread
  have hunfed := List.forall_mem_cons.1 hlines.unfed
  obtain ⟨hmethod, -⟩ := readRequestLine_standsOn hunfed.1 hstart
  obtain ⟨continuations, rfl, -, hon, -⟩ := Template.standsOn_of_read hlines hstart hextend
  obtain ⟨headerLines, ⟨front, rfl, hfront⟩, hstand⟩ := readHeaders_takes hheaders
  obtain ⟨-, hunfedBelow⟩ := List.forall_mem_append.1 hunfed.2
  obtain ⟨hcontinuations, hpasses, hbody⟩ := RequestTemplate.IsApart.sides hapart
    (List.pairwise_cons.1 hlines.consecutive.pairwise).2 hstand hfront
    (List.forall_mem_append.1 hunfedBelow).1
  obtain ⟨below', hextend', hbelow'⟩ := extendTarget_spliced h ht rfl hcontinuations hextend
  obtain ⟨behind', hheaders', hbehind'⟩ := readHeaders_spliced hbelow' hunfedBelow hpasses hheaders
  -- the body is the same, or it stands below the new line
  have hbodies : (readBody filename (behind.takeWhile Line.inBody)).map (Template.shifted k) =
      readBody filename (behind'.takeWhile Line.inBody) ∧
        Spliced k t (behind.dropWhile Line.inBody) (behind'.dropWhile Line.inBody) := by
    rcases hbehind' with ⟨hall, rfl⟩ | ⟨hsome, hspliced⟩
    · have hsame : Line.inBody ∘ Line.shifted k = Line.inBody := rfl
      rw [List.takeWhile_map, List.dropWhile_map, hsame]
      constructor
      · rw [readBody_below fun l hl => hall l ((List.takeWhile_prefix _).subset hl)]
      · exact .passed fun l hl => hall l ((List.dropWhile_suffix _).subset hl)
    · obtain ⟨hinside, hdrop⟩ := hbody hsome
      obtain ⟨htakeSame, hspliced⟩ := hspliced.takeWhile_inBody hdrop
      have hinfix : behind.takeWhile Line.inBody <:+:
          line :: (continuations ++ (front ++ behind)) := by
        refine (List.takeWhile_prefix _).isInfix.trans (List.IsSuffix.isInfix ?_)
        exact ((List.suffix_append _ _).trans (List.suffix_append _ _)).trans
          (List.suffix_cons _ _)
      rw [htakeSame, readBody_above (hlines.of_isInfix hinfix) hinside]
      exact ⟨rfl, hspliced⟩
  have hmethodSame := hmethod.shifted_eq hunfed.1 habove
  have htargetLines : line :: continuations <:+: line :: (continuations ++ (front ++ behind)) :=
    (List.prefix_append (line :: continuations) _).isInfix
  have htargetSame := hon.shifted_eq (hlines.of_isInfix htargetLines)
    (List.forall_mem_cons.2 ⟨habove, hcontinuations⟩)
  refine ⟨behind'.dropWhile Line.inBody, ?_, hbodies.2⟩
  have hshifted : RequestTemplate.shifted k ⟨start.method, start.methodSelection,
      Template.ofText filename (cleanTarget text) ⟨line.number, start.column⟩, headers,
      readBody filename (behind.takeWhile Line.inBody), Selection.none⟩ =
      ⟨start.method, start.methodSelection,
        Template.ofText filename (cleanTarget text) ⟨line.number, start.column⟩,
        headers.map (Header.shifted k), readBody filename (behind'.takeWhile Line.inBody),
        Selection.none⟩ := by
    simp only [RequestTemplate.shifted, hmethodSame, htargetSame, hbodies.1,
      Selection.shifted_none]
  rw [readRequest_eq_selectedFrom hstart hextend' hheaders', RequestTemplate.selectedFrom_shifted,
    Line.shifted_eq habove, hshifted]

/-- **A request** that begins below the new line. -/
theorem readRequest_below {line : Line} {rest : List Line} {request : RequestTemplate}
    (hlines : AreLines (line :: lines)) (hbelow : ∀ l ∈ line :: lines, k < l.number)
    (hread : readRequest filename line lines = .ok (request, rest)) :
    readRequest filename (line.shifted k) (lines.map (Line.shifted k)) =
        .ok (request.shifted k, rest.map (Line.shifted k)) ∧ ∀ l ∈ rest, k < l.number := by
  constructor
  · obtain ⟨above, habove, hagain⟩ := exists_map_down hbelow
    obtain ⟨first, more, rfl, rfl, rfl⟩ := List.map_eq_cons_iff.1 habove.symm
    obtain ⟨hfirst, hmore⟩ := List.cons.inj hagain
    rw [hfirst, hmore]
    refine read_shifted (a := (first, more)) (b := (request, rest))
      (fun p => readRequest filename p.1 p.2)
      (fun n => Prod.map (Line.down n) (List.map (Line.down n)))
      (fun n => Prod.map (RequestTemplate.down n) (List.map (Line.down n)))
      (Prod.map (RequestTemplate.shifted k) (List.map (Line.shifted k))) ?_ ?_ hread
    · rintro n ⟨first, more⟩
      exact readRequest_down filename first more
    · rintro ⟨request, rest⟩
      simp [Function.comp_def]
  · obtain ⟨continuations, headers, body, between, rfl, -⟩ := readRequest_arranges hlines hread
    intro l hl
    apply hbelow l
    exact List.mem_cons_of_mem _ (List.mem_append_right _ (List.mem_append_right _ hl))

/-! ## Significant lines -/

/-- Nothing significant is left behind the new line either. -/
theorem expectNothing_spliced (h : Spliced k t lines lines') (ht : t.isTrivia = true)
    (hread : expectNothing filename lines = .ok ()) : expectNothing filename lines' = .ok () := by
  rw [expectNothing] at hread
  split at hread
  · next hskip => rw [expectNothing, h.skipTrivia_eq_nil ht hskip]
  · cases hread

/-- The significant lines are the same, counted further behind the new line. -/
theorem Spliced.filter_significant (h : Spliced k t lines lines') (ht : t.isTrivia = true) :
    (lines'.filter fun line => !line.isTrivia) =
      (lines.filter fun line => !line.isTrivia).map (Line.shifted k) := by
  have hsame : (fun line : Line => !line.isTrivia) ∘ Line.shifted k =
      fun line => !line.isTrivia := rfl
  induction h with
  | passed => rw [List.filter_map, hsame]
  | next =>
    rw [List.filter_cons_of_neg (by simp [ht]), List.filter_map, hsame]
  | above habove hmore ih =>
    rw [List.filter_cons, List.filter_cons, ih]
    split
    · rw [List.map_cons, Line.shifted_eq habove]
    · rfl

end RequestRunner
