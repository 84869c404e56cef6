import RequestRunner.Proofs.Template.Substitution
import RequestRunner.Proofs.Text.Trim

/-!
# Filling a text again

A map of variables answers a name that it has with its value and any other name with the name as a
placeholder. Text that is filled from a map can be read as a template again and filled from the same
map. The second filling changes nothing exactly if every placeholder that is found then stands for
itself (`fillHoles_eq_self_iff`): no answer has more braces than its placeholder, and among those
with as many none is longer.

Whether that is so depends on what the unresolved placeholders of the first text hold. Their written
form may hide another placeholder: a name that ends with a brace closes one character early, and an
opening inside a name begins a shorter placeholder, which is then replaced in the place of a later
one. Where nothing of that kind can happen (`Settled`), every answer of the first filling is put in
the place of its placeholder (`fillHoles_in_place`) and the second filling changes nothing. Main
statement: `refill_settles_iff`.
-/

set_option autoImplicit false

namespace RequestRunner

/-! ## Maps of variables -/

/-- The answer of a map of variables: the value of a name that it has, else the name as a
placeholder. -/
def answerFrom (known : String → Option String) (name : String) : String :=
  (known name).getD (unresolved name)

/-- The text of a template that is filled from a map of variables. -/
def Template.fillFrom (known : String → Option String) (template : Template) : String :=
  Id.run (template.fill fun name => pure (answerFrom known name))

/-- A brace of either kind. -/
def isBrace (c : Char) : Bool := c == '\x7b' || c == '\x7d'

/-- The text has no brace. -/
def BraceFree (s : List Char) : Prop := s.countP isBrace = 0

instance (s : List Char) : Decidable (BraceFree s) :=
  inferInstanceAs (Decidable (s.countP isBrace = 0))

/-- Neither the names of the map nor their values have braces. -/
def PlainMap (known : String → Option String) : Prop :=
  ∀ name value, known name = some value → BraceFree name.toList ∧ BraceFree value.toList

/-- What a map answers to the inner text of a placeholder. -/
def answerTo (known : String → Option String) (inner : List Char) : List Char :=
  (answerFrom known (String.ofList (Text.trim inner))).toList

theorem toList_unresolved (name : String) : (unresolved name).toList = written name.toList := by
  simp [unresolved, written, openBraces, closeBraces]

theorem answerTo_of_known {known : String → Option String} {inner : List Char} {value : String}
    (h : known (String.ofList (Text.trim inner)) = some value) :
    answerTo known inner = value.toList := by
  rw [answerTo, answerFrom, h, Option.getD_some]

theorem answerTo_of_unknown {known : String → Option String} {inner : List Char}
    (h : known (String.ofList (Text.trim inner)) = none) :
    answerTo known inner = written (Text.trim inner) := by
  rw [answerTo, answerFrom, h, Option.getD_none, toList_unresolved, String.toList_ofList]

/-! ## Braces -/

theorem BraceFree.not_mem_open {s : List Char} (h : BraceFree s) : '\x7b' ∉ s := by
  intro hmem
  have hneg := List.countP_eq_zero.1 h _ hmem
  exact hneg (by decide)

/-- A text without braces can stand in front of a placeholder. -/
theorem BraceFree.keepsApart {s : List Char} (h : BraceFree s) : KeepsApart s := by
  constructor
  · rintro ⟨u, v, rfl⟩
    exact h.not_mem_open (by simp [openBraces])
  · intro hlast
    exact h.not_mem_open (List.mem_of_getLast? hlast)

theorem countP_isBrace_of_allBlank {s : List Char} (h : Text.allBlank s = true) :
    s.countP isBrace = 0 := by
  rw [List.countP_eq_zero]
  intro c hc hbrace
  have hblank := List.all_eq_true.1 h c hc
  rw [isBrace, Bool.or_eq_true, beq_iff_eq, beq_iff_eq] at hbrace
  rcases hbrace with rfl | rfl <;> exact absurd hblank (by decide)

/-- Trimming takes no brace away. -/
theorem countP_isBrace_trim (s : List Char) : (Text.trim s).countP isBrace = s.countP isBrace := by
  have hstart := congrArg (List.countP isBrace) (Text.blank_append_trimStart s)
  have hstop := congrArg (List.countP isBrace) (Text.trimEnd_append_blank (Text.trimStart s))
  rw [List.countP_append, countP_isBrace_of_allBlank (Text.allBlank_leadingBlank s)] at hstart
  rw [List.countP_append, countP_isBrace_of_allBlank (Text.allBlank_trailingBlank _)] at hstop
  rw [Text.trim]
  omega

theorem countP_isBrace_written (inner : List Char) :
    (written inner).countP isBrace = inner.countP isBrace + 4 := by
  have hopen : openBraces.countP isBrace = 2 := by decide
  have hclose : closeBraces.countP isBrace = 2 := by decide
  rw [written, List.countP_append, List.countP_append, hopen, hclose]
  omega

/-! ## Filling holes -/

/-- The text with the first occurrence of each hole's written form replaced, one hole after the
other. -/
def fillHoles (answer : List Char → List Char) : List (List Char × List Char) → List Char → List Char
  | [], s => s
  | (_, inner) :: more, s =>
    fillHoles answer more (Text.replaceFirst (written inner) (answer inner) s)

theorem foldlM_placeholdersFrom (known : String → Option String) (filename : String)
    (start : Position) (holes : List (List Char × List Char)) (s : List Char) :
    (Template.placeholdersFrom filename start holes).foldlM (m := Id)
        (fun text placeholder => do
          let answer ← pure (answerFrom known placeholder.script)
          pure (Template.substitute text placeholder.text answer))
        (String.ofList s) =
      String.ofList (fillHoles (answerTo known) holes s) := by
  induction holes generalizing start s with
  | nil => rfl
  | cons hole holes ih =>
    obtain ⟨before, inner⟩ := hole
    have hfirst : Template.substitute (String.ofList s) (String.ofList (written inner))
        (answerFrom known (String.ofList (Text.trim inner))) =
          String.ofList (Text.replaceFirst (written inner) (answerTo known inner) s) := by
      simp only [Template.substitute, String.toList_ofList, answerTo]
    rw [fillHoles, ← ih ((start.after before).after (written inner)), ← hfirst]
    rfl

/-- Filling a text that was read. -/
theorem fillFrom_ofText (known : String → Option String) (filename : String) (start : Position)
    (s : List Char) :
    (Template.ofText filename s start).fillFrom known =
      String.ofList (fillHoles (answerTo known) (pieces s).holes s) :=
  foldlM_placeholdersFrom known filename start (pieces s).holes s

/-- If every hole is answered with its written form, nothing changes. -/
theorem fillHoles_of_forall_eq {answer : List Char → List Char}
    {holes : List (List Char × List Char)} (h : ∀ hole ∈ holes, answer hole.2 = written hole.2)
    (s : List Char) : fillHoles answer holes s = s := by
  induction holes with
  | nil => rfl
  | cons hole holes ih =>
    obtain ⟨before, inner⟩ := hole
    have hself : answer inner = written inner := h (before, inner) List.mem_cons_self
    rw [fillHoles, hself, Text.replaceFirst_self]
    exact ih fun other hmem => h other (List.mem_cons_of_mem _ hmem)

/-- A hole is filled at its place or in front of it, so that what stands behind it is kept. -/
theorem replaceFirst_hole (x before inner answer : List Char) (p : Pieces) :
    ∃ front back, x ++ Pieces.join ⟨(before, inner) :: p.holes, p.last⟩ =
        front ++ (written inner ++ (back ++ p.join)) ∧
      Text.replaceFirst (written inner) answer (x ++ Pieces.join ⟨(before, inner) :: p.holes, p.last⟩) =
        (front ++ (answer ++ back)) ++ p.join := by
  have hjoin : x ++ Pieces.join ⟨(before, inner) :: p.holes, p.last⟩ =
      (x ++ before) ++ (written inner ++ p.join) := by
    simp [Pieces.join, written, List.append_assoc]
  obtain ⟨front, back, hcut⟩ := Text.exists_cut?_append (written inner) (x ++ before) p.join
  refine ⟨front, back, ?_, ?_⟩
  · rw [hjoin, Text.cut?_eq_some hcut, List.append_assoc]
  · rw [hjoin, Text.replaceFirst, hcut]
    simp only [List.append_assoc]

/-- **A measure that no answer raises is not raised by filling**, and if filling keeps it, every
answer keeps it. -/
theorem fillHoles_measure {measure : List Char → Nat}
    (hadd : ∀ s t, measure (s ++ t) = measure s + measure t) {answer : List Char → List Char}
    (last : List Char) (holes : List (List Char × List Char))
    (h : ∀ hole ∈ holes, measure (answer hole.2) ≤ measure (written hole.2)) (x : List Char) :
    measure (fillHoles answer holes (x ++ Pieces.join ⟨holes, last⟩)) ≤
        measure (x ++ Pieces.join ⟨holes, last⟩) ∧
      (measure (fillHoles answer holes (x ++ Pieces.join ⟨holes, last⟩)) =
          measure (x ++ Pieces.join ⟨holes, last⟩) →
        ∀ hole ∈ holes, measure (answer hole.2) = measure (written hole.2)) := by
  induction holes generalizing x with
  | nil => exact ⟨le_refl _, fun _ hole hmem => absurd hmem List.not_mem_nil⟩
  | cons hole holes ih =>
    obtain ⟨before, inner⟩ := hole
    have hfirst : measure (answer inner) ≤ measure (written inner) :=
      h (before, inner) List.mem_cons_self
    obtain ⟨front, back, htext, hreplaced⟩ :=
      replaceFirst_hole x before inner (answer inner) ⟨holes, last⟩
    obtain ⟨hle, heq⟩ := ih (fun other hmem => h other (List.mem_cons_of_mem _ hmem))
      (front ++ (answer inner ++ back))
    -- the two texts differ in the answer and the placeholder alone
    have hbefore := congrArg measure htext
    have hafter := congrArg measure hreplaced
    simp only [hadd] at hbefore hafter hle heq ⊢
    rw [fillHoles, hreplaced]
    refine ⟨by omega, fun hsame other hmem => ?_⟩
    rcases List.mem_cons.1 hmem with rfl | hmem
    · dsimp only
      omega
    · exact heq (by omega) other hmem

/-- **Filling changes nothing exactly if every placeholder stands for itself.** -/
theorem fillHoles_eq_self_iff {known : String → Option String} (hknown : PlainMap known)
    (s : List Char) :
    fillHoles (answerTo known) (pieces s).holes s = s ↔
      ∀ hole ∈ (pieces s).holes, answerTo known hole.2 = written hole.2 := by
  refine ⟨fun hself => ?_, fun h => fillHoles_of_forall_eq h s⟩
  have hbraces : ∀ inner, (answerTo known inner).countP isBrace ≤ (written inner).countP isBrace := by
    intro inner
    cases hname : known (String.ofList (Text.trim inner)) with
    | none =>
      rw [answerTo_of_unknown hname, countP_isBrace_written, countP_isBrace_written,
        countP_isBrace_trim]
    | some value =>
      have hvalue : value.toList.countP isBrace = 0 := (hknown _ _ hname).2
      rw [answerTo_of_known hname, hvalue]
      exact Nat.zero_le _
  have hkept := fillHoles_measure (fun s t => List.countP_append (p := isBrace))
    (pieces s).last (pieces s).holes (fun hole _ => hbraces hole.2) []
  rw [List.nil_append, join_pieces] at hkept
  -- no brace is lost, so no name is in the map
  have hunknown : ∀ hole ∈ (pieces s).holes, known (String.ofList (Text.trim hole.2)) = none := by
    intro hole hmem
    have hcount := hkept.2 (by rw [hself]) hole hmem
    cases hname : known (String.ofList (Text.trim hole.2)) with
    | none => rfl
    | some value =>
      have hvalue : value.toList.countP isBrace = 0 := (hknown _ _ hname).2
      rw [answerTo_of_known hname, hvalue, countP_isBrace_written] at hcount
      omega
  have hlength : ∀ hole ∈ (pieces s).holes,
      (answerTo known hole.2).length ≤ (written hole.2).length := by
    intro hole hmem
    have htrim := (Text.trim_isInfix hole.2).length_le
    rw [answerTo_of_unknown (hunknown hole hmem)]
    simp only [written, List.length_append]
    omega
  have hsame := fillHoles_measure (fun s t => List.length_append) (pieces s).last (pieces s).holes
    hlength []
  rw [List.nil_append, join_pieces] at hsame
  -- no character is lost, so no name has blanks around it
  intro hole hmem
  have hcount := hsame.2 (by rw [hself]) hole hmem
  rw [answerTo_of_unknown (hunknown hole hmem)] at hcount ⊢
  simp only [written, List.length_append] at hcount
  rw [(Text.trim_isInfix hole.2).eq_of_length (by omega)]

/-! ## Closed placeholders -/

/-- The first closing behind the inner text is the one that ends the placeholder. -/
def Closed (inner : List Char) : Prop := ¬ closeBraces <:+: inner ++ ['\x7d']

/-- The text ends outside of every placeholder: each opening in it is closed in it, and its last
character is no opening brace. -/
structure Sealed (s : List Char) : Prop where
  /-- No opening is left open. -/
  closes : ∀ before after, s = before ++ (openBraces ++ after) → closeBraces <:+: after
  /-- Its last character is no opening brace. -/
  no_last_brace : s.getLast? ≠ some '\x7b'

/-- Every placeholder that lies in the text stands for itself. -/
def Settled (known : String → Option String) (s : List Char) : Prop :=
  ∀ before inner after, Closed inner → s = before ++ (written inner ++ after) →
    answerTo known inner = written inner

/-- A found placeholder is closed. -/
theorem closed_of_nextPlaceholder? {s before inner rest : List Char}
    (h : nextPlaceholder? s = some (before, inner, rest)) : Closed inner := by
  rw [nextPlaceholder?] at h
  split at h
  · cases h
  · next b opened hopened =>
    split at h
    · cases h
    · next i r hclosed =>
      cases h
      rintro ⟨u, v, huv⟩
      -- a closing that begins in the inner text would have been found first
      rcases List.eq_nil_or_concat v with rfl | ⟨v, c, rfl⟩
      · rw [List.append_nil, closeBraces, List.append_cons] at huv
        have hinner : u ++ ['\x7d'] = inner := List.append_cancel_right huv
        exact Text.cut?_first hclosed u ['\x7d'] hinner.symm (List.cons_ne_nil _ _)
          ⟨'\x7d' :: rest, rfl⟩
      · rw [List.concat_eq_append, ← List.append_assoc] at huv
        have hinner : u ++ closeBraces ++ v = inner := (List.append_inj_left' huv rfl)
        exact Text.not_infix_of_cut? hclosed (by simp [closeBraces]) ⟨u, v, hinner⟩

theorem closed_of_mem_holes {s before inner : List Char} (h : (before, inner) ∈ (pieces s).holes) :
    Closed inner := by
  induction s using pieces.induct with
  | case1 s hs =>
    rw [pieces_of_none hs] at h
    cases h
  | case2 s b i rest hs _ ih =>
    rw [pieces_of_some hs] at h
    rcases List.mem_cons.1 h with heq | hmem
    · rw [Prod.mk.injEq] at heq
      rw [heq.2]
      exact closed_of_nextPlaceholder? hs
    · exact ih hmem

/-- Behind the last placeholder there is none. -/
theorem nextPlaceholder?_last (s : List Char) : nextPlaceholder? (pieces s).last = none := by
  induction s using pieces.induct with
  | case1 s hs =>
    rw [pieces_of_none hs]
    exact hs
  | case2 s b i rest hs _ ih =>
    rw [pieces_of_some hs]
    exact ih

/-- A text in which no placeholder is found has none. -/
theorem not_written_of_nextPlaceholder? {s : List Char} (h : nextPlaceholder? s = none)
    (before inner after : List Char) : s ≠ before ++ (written inner ++ after) := by
  rintro rfl
  rw [written, List.append_assoc, List.append_assoc] at h
  obtain ⟨u, v, hopened⟩ :=
    Text.exists_cut?_append openBraces before (inner ++ (closeBraces ++ after))
  rw [nextPlaceholder?, hopened] at h
  -- the first opening stands in front of the given one, and so does the closing behind it
  obtain ⟨x, y, hclosed⟩ := Text.exists_cut?_append closeBraces (v ++ inner) after
  rw [List.append_assoc] at hclosed
  simp [hclosed] at h

/-! ## Sealed texts -/

theorem KeepsApart.toSealed {s : List Char} (h : KeepsApart s) : Sealed s := by
  refine ⟨?_, h.no_last_brace⟩
  rintro before after rfl
  exact absurd ⟨before, after, List.append_assoc _ _ _⟩ h.no_opening

/-- No placeholder lies in a text that keeps apart. -/
theorem KeepsApart.settled {s : List Char} (h : KeepsApart s) (known : String → Option String) :
    Settled known s := by
  rintro before inner after - rfl
  exact absurd ⟨before, inner ++ closeBraces ++ after, by simp [written]⟩ h.no_opening

theorem sealed_nil : Sealed [] := keepsApart_nil.toSealed

/-- An opening in the written form of a placeholder is closed at its end. -/
theorem sealed_written (inner : List Char) : Sealed (written inner) := by
  constructor
  · intro before after h
    rw [← List.append_assoc, written] at h
    rcases List.append_eq_append_iff.1 h with ⟨z, hz, hclose⟩ | ⟨z, -, rfl⟩
    · -- an opening does not end with a closing brace
      rcases List.eq_nil_or_concat z with rfl | ⟨z, c, rfl⟩
      · exact ⟨[], [], by rw [hclose]; simp⟩
      · have hc : c = '\x7d' := by
          have hmem : c ∈ closeBraces := by simp [hclose]
          simpa [closeBraces] using hmem
        have hlast := congrArg List.getLast? hz
        rw [List.concat_eq_append, ← List.append_assoc, List.getLast?_concat,
          List.getLast?_append] at hlast
        simp [openBraces, hc] at hlast
    · exact ⟨z, [], by rw [List.append_nil]⟩
  · simp [written, closeBraces]

theorem Sealed.append {s t : List Char} (hs : Sealed s) (ht : Sealed t) : Sealed (s ++ t) := by
  constructor
  · intro before after h
    rcases List.append_eq_append_iff.1 h with ⟨z, rfl, hz⟩ | ⟨z, rfl, hz⟩
    · exact ht.closes z after hz
    · -- the opening lies in the first text, for it does not begin with its last character
      match z, hz with
      | [], hz => exact ht.closes [] after hz.symm
      | [c], hz =>
        simp only [openBraces, List.cons_append, List.cons.injEq] at hz
        exact absurd (by simp [← hz.1]) hs.no_last_brace
      | c :: d :: z, hz =>
        simp only [openBraces, List.cons_append, List.nil_append, List.cons.injEq] at hz
        obtain ⟨rfl, rfl, rfl⟩ := hz
        exact (hs.closes before z rfl).trans (List.prefix_append z t).isInfix
  · rcases List.eq_nil_or_concat t with rfl | ⟨t, c, rfl⟩
    · rw [List.append_nil]
      exact hs.no_last_brace
    · have hc := ht.no_last_brace
      simpa [List.getLast?_append] using hc

/-- A closed placeholder behind a sealed text, or in it: none lies across its end. -/
theorem Sealed.placeholder_cases {s t before inner after : List Char} (hs : Sealed s)
    (hinner : Closed inner) (h : s ++ t = before ++ (written inner ++ after)) :
    (∃ more, s = before ++ (written inner ++ more)) ∨
      ∃ more, before = s ++ more ∧ t = more ++ (written inner ++ after) := by
  rcases List.append_eq_append_iff.1 h with ⟨z, rfl, hz⟩ | ⟨z, rfl, hz⟩
  · exact Or.inr ⟨z, rfl, hz⟩
  · match z, hz with
    | [], hz => exact Or.inr ⟨[], by simp, hz.symm⟩
    | [c], hz =>
      simp only [written, openBraces, List.cons_append, List.cons.injEq] at hz
      exact absurd (by simp [← hz.1]) hs.no_last_brace
    | c :: d :: z, hz =>
      simp only [written, openBraces, List.cons_append, List.nil_append, List.cons.injEq,
        List.append_assoc] at hz
      obtain ⟨rfl, rfl, hz⟩ := hz
      -- the opening is closed in the first text, and that closing is no earlier than the given one
      obtain ⟨u, v, rfl⟩ := hs.closes before z rfl
      have hwhole : u ++ closeBraces <+: inner ++ (closeBraces ++ after) :=
        ⟨v ++ t, by rw [hz]; simp only [List.append_assoc]⟩
      have hlong : inner.length ≤ u.length := by
        by_contra hshort
        have hclosed : inner ++ ['\x7d'] <+: inner ++ (closeBraces ++ after) :=
          ⟨'\x7d' :: after, by simp [closeBraces]⟩
        refine hinner ((List.suffix_append u closeBraces).isInfix.trans
          (List.prefix_of_prefix_length_le hwhole hclosed ?_).isInfix)
        simp only [List.length_append, closeBraces, List.length_cons, List.length_nil]
        omega
      have hinWhole : inner ++ closeBraces <+: inner ++ (closeBraces ++ after) :=
        ⟨after, List.append_assoc _ _ _⟩
      have hgiven : inner ++ closeBraces <+: u ++ closeBraces ++ v := by
        refine List.prefix_of_prefix_length_le hinWhole ⟨t, hz.symm⟩ ?_
        simp only [List.length_append]
        omega
      obtain ⟨more, hmore⟩ := hgiven
      refine Or.inl ⟨more, ?_⟩
      rw [← hmore]
      simp [written, openBraces]

theorem Settled.append {known : String → Option String} {s t : List Char} (hsealed : Sealed s)
    (hs : Settled known s) (ht : Settled known t) : Settled known (s ++ t) := by
  intro before inner after hinner h
  rcases hsealed.placeholder_cases hinner h with ⟨more, hin⟩ | ⟨more, -, hbehind⟩
  · exact hs before inner more hinner hin
  · exact ht more inner after hinner hbehind

/-! ## Filling in place -/

theorem sealed_answerTo {known : String → Option String} (hknown : PlainMap known)
    (inner : List Char) : Sealed (answerTo known inner) := by
  cases hname : known (String.ofList (Text.trim inner)) with
  | none =>
    rw [answerTo_of_unknown hname]
    exact sealed_written _
  | some value =>
    have hplain : BraceFree value.toList := (hknown _ _ hname).2
    rw [answerTo_of_known hname]
    exact hplain.keepsApart.toSealed

/-- The answer to a name stays as it is in a filling, if the names that are not in the map are
written so that they do. -/
theorem settled_answerTo {known : String → Option String} (hknown : PlainMap known)
    {inner : List Char} (h : known (String.ofList (Text.trim inner)) = none →
      Settled known (written (Text.trim inner))) : Settled known (answerTo known inner) := by
  cases hname : known (String.ofList (Text.trim inner)) with
  | none =>
    rw [answerTo_of_unknown hname]
    exact h hname
  | some value =>
    have hplain : BraceFree value.toList := (hknown _ _ hname).2
    rw [answerTo_of_known hname]
    exact hplain.keepsApart.settled known

/-- Behind a sealed and settled text a hole is filled where it stands: an earlier occurrence of its
written form is one that stands for itself. -/
theorem replaceFirst_in_place {known : String → Option String} {x inner : List Char}
    (hsealed : Sealed x) (hsettled : Settled known x) (hinner : Closed inner) (rest : List Char) :
    Text.replaceFirst (written inner) (answerTo known inner) (x ++ (written inner ++ rest)) =
      x ++ answerTo known inner ++ rest := by
  obtain ⟨front, back, hcut⟩ := Text.exists_cut?_append (written inner) x rest
  have htext := Text.cut?_eq_some hcut
  rw [List.append_assoc] at htext
  rcases hsealed.placeholder_cases hinner htext with ⟨more, hin⟩ | ⟨more, rfl, hbehind⟩
  · have hself : answerTo known inner = written inner := hsettled front inner more hinner hin
    rw [hself, Text.replaceFirst_self, List.append_assoc]
  · -- the given occurrence is the first one
    have hmore : more = [] := by
      by_contra hne
      exact Text.cut?_first hcut x more rfl hne ⟨rest, hbehind⟩
    rw [hmore, List.nil_append] at hbehind
    have hrest : back ++ rest = rest := (List.append_cancel_left hbehind).symm
    rw [Text.replaceFirst, hcut]
    simp only [hmore, List.append_nil, hrest, List.append_assoc]

/-- **Every hole is filled where it stands** if the literal stretches keep apart, the placeholders
are closed and every answer stays as it is in a filling. What was filled is sealed and settled. -/
theorem fillHoles_in_place {known : String → Option String} (hknown : PlainMap known)
    (last : List Char) (holes : List (List Char × List Char))
    (hholes : ∀ hole ∈ holes, KeepsApart hole.1 ∧ Closed hole.2)
    (hanswers : ∀ hole ∈ holes, Settled known (answerTo known hole.2)) (x : List Char)
    (hsealed : Sealed x) (hsettled : Settled known x) :
    ∃ y, y = x ++ (holes.flatMap fun hole => hole.1 ++ answerTo known hole.2) ∧
      fillHoles (answerTo known) holes (x ++ Pieces.join ⟨holes, last⟩) = y ++ last ∧
      Sealed y ∧ Settled known y := by
  induction holes generalizing x with
  | nil => exact ⟨x, by simp, rfl, hsealed, hsettled⟩
  | cons hole holes ih =>
    obtain ⟨before, inner⟩ := hole
    obtain ⟨hbefore, hinner⟩ := hholes (before, inner) List.mem_cons_self
    have hsealed' : Sealed (x ++ before) := hsealed.append hbefore.toSealed
    have hsettled' : Settled known (x ++ before) := hsettled.append hsealed (hbefore.settled known)
    obtain ⟨y, hy, hfill, hkept⟩ := ih (fun other hmem => hholes other (List.mem_cons_of_mem _ hmem))
      (fun other hmem => hanswers other (List.mem_cons_of_mem _ hmem))
      (x ++ before ++ answerTo known inner) (hsealed'.append (sealed_answerTo hknown inner))
      (hsettled'.append hsealed' (hanswers (before, inner) List.mem_cons_self))
    refine ⟨y, ?_, ?_, hkept⟩
    · rw [hy]
      simp only [List.flatMap_cons, List.append_assoc]
    · have hjoin : x ++ Pieces.join ⟨(before, inner) :: holes, last⟩ =
          (x ++ before) ++ (written inner ++ Pieces.join ⟨holes, last⟩) := by
        simp [Pieces.join, written, List.append_assoc]
      rw [fillHoles, hjoin, replaceFirst_in_place hsealed' hsettled' hinner, hfill]

/-- A hole of a text stands in it. -/
theorem exists_of_mem_holes {s before inner : List Char} (h : (before, inner) ∈ (pieces s).holes) :
    ∃ front after, s = front ++ (written inner ++ after) := by
  obtain ⟨holes, more, hholes⟩ := List.append_of_mem h
  have hjoin := join_pieces s
  rw [Pieces.join, hholes] at hjoin
  refine ⟨(holes.flatMap fun hole => hole.1 ++ openBraces ++ hole.2 ++ closeBraces) ++ before,
    (more.flatMap fun hole => hole.1 ++ openBraces ++ hole.2 ++ closeBraces) ++ (pieces s).last, ?_⟩
  refine hjoin.symm.trans ?_
  simp [written, List.append_assoc]

/-- A settled text is not changed by a filling. -/
theorem Settled.fillHoles {known : String → Option String} {s : List Char} (h : Settled known s) :
    fillHoles (answerTo known) (pieces s).holes s = s := by
  refine fillHoles_of_forall_eq ?_ s
  rintro ⟨before, inner⟩ hmem
  obtain ⟨front, after, htext⟩ := exists_of_mem_holes hmem
  exact h front inner after (closed_of_mem_holes hmem) htext

/-- Text that is filled in place is not changed by another filling. -/
theorem fillHoles_fillHoles {known : String → Option String} (hknown : PlainMap known)
    (s : List Char) (h : ∀ hole ∈ (pieces s).holes, Settled known (answerTo known hole.2)) :
    ∃ once, once = ((pieces s).holes.flatMap fun hole => hole.1 ++ answerTo known hole.2) ++
        (pieces s).last ∧
      fillHoles (answerTo known) (pieces s).holes s = once ∧
      fillHoles (answerTo known) (pieces once).holes once = once := by
  have hholes : ∀ hole ∈ (pieces s).holes, KeepsApart hole.1 ∧ Closed hole.2 := by
    rintro ⟨before, inner⟩ hmem
    exact ⟨keepsApart_of_mem_holes hmem, closed_of_mem_holes hmem⟩
  obtain ⟨y, hy, hfill, hsealed, hsettled⟩ := fillHoles_in_place hknown (pieces s).last
    (pieces s).holes hholes h [] sealed_nil (keepsApart_nil.settled known)
  rw [List.nil_append, join_pieces] at hfill
  rw [List.nil_append] at hy
  have hlast : Settled known (pieces s).last := fun before inner after _ htext =>
    absurd htext (not_written_of_nextPlaceholder? (nextPlaceholder?_last s) before inner after)
  exact ⟨y ++ (pieces s).last, by rw [hy], hfill, (hsettled.append hsealed hlast).fillHoles⟩

/-- A trimmed name without braces that is not in the map stays as it is. -/
theorem settled_written {known : String → Option String} {name : List Char}
    (htrimmed : Text.Trimmed name) (hplain : BraceFree name)
    (hname : known (String.ofList name) = none) : Settled known (written name) := by
  rintro before inner after - h
  have hcount := congrArg (List.countP isBrace) h
  rw [List.countP_append, List.countP_append, countP_isBrace_written, countP_isBrace_written,
    show name.countP isBrace = 0 from hplain] at hcount
  -- the four braces are those of the inner placeholder, so nothing stands around it
  have hbefore : before = [] := by
    cases before with
    | nil => rfl
    | cons c before =>
      simp only [written, openBraces, List.cons_append, List.cons.injEq] at h
      rw [← h.1, List.countP_cons_of_pos (by decide)] at hcount
      omega
  have hafter : after = [] := by
    rcases List.eq_nil_or_concat after with rfl | ⟨after, c, rfl⟩
    · rfl
    · have hlast := congrArg List.getLast? h
      rw [List.concat_eq_append, ← List.append_assoc, ← List.append_assoc, List.getLast?_concat]
        at hlast
      simp only [written, closeBraces, List.getLast?_append, List.getLast?_cons_cons,
        List.getLast?_singleton, Option.some_or, Option.some.injEq] at hlast
      rw [List.concat_eq_append, List.countP_append, ← hlast] at hcount
      simp [isBrace] at hcount
      omega
  rw [hbefore, hafter, List.nil_append, List.append_nil] at h
  have hinner : name = inner := by
    simp only [written] at h
    exact List.append_cancel_left (List.append_cancel_right h)
  have htrim : Text.trim inner = inner := by
    have hbetween := htrimmed.trim_between [] [] rfl rfl
    rw [List.nil_append, List.append_nil, hinner] at hbetween
    exact hbetween
  rw [answerTo_of_unknown (by rw [htrim, ← hinner]; exact hname), htrim]

/-! ## Texts that are filled again -/

theorem forall_mem_placeholdersFrom (P : String → String → Prop) (filename : String)
    (start : Position) (holes : List (List Char × List Char)) :
    (∀ p ∈ Template.placeholdersFrom filename start holes, P p.script p.text) ↔
      ∀ hole ∈ holes, P (String.ofList (Text.trim hole.2)) (String.ofList (written hole.2)) := by
  induction holes generalizing start with
  | nil => simp [Template.placeholdersFrom]
  | cons hole holes ih =>
    obtain ⟨before, inner⟩ := hole
    rw [Template.placeholdersFrom, List.forall_mem_cons, List.forall_mem_cons, ih]
    rfl

theorem forall_mem_placeholders (P : String → String → Prop) (filename : String) (s : List Char)
    (start : Position) :
    (∀ p ∈ (Template.ofText filename s start).placeholders, P p.script p.text) ↔
      ∀ hole ∈ (pieces s).holes,
        P (String.ofList (Text.trim hole.2)) (String.ofList (written hole.2)) :=
  forall_mem_placeholdersFrom P filename start (pieces s).holes

/-- **When a second filling changes nothing.** Let neither the names nor the values of a map have
braces. The text that is filled from the map stays as it is in a second filling from the map exactly
if each placeholder that is found then stands for itself. It does so, and every answer has been put
in the place of its placeholder, if what is found in the written form of each name that is not in
the map stands for itself; so it does if no name of the first text has a brace. -/
theorem refill_settles_iff {known : String → Option String} (hknown : PlainMap known)
    (text : List Char) (filename again : String) (start restart : Position) :
    let template := Template.ofText filename text start
    let once := template.fillFrom known
    let rest := Template.ofText again once.toList restart
    (rest.fillFrom known = once ↔ ∀ p ∈ rest.placeholders, answerFrom known p.script = p.text) ∧
    ((∀ p ∈ template.placeholders, known p.script = none →
        Settled known (unresolved p.script).toList) →
      once = template.weave (template.scripts.map (answerFrom known)) ∧
        rest.fillFrom known = once) ∧
    ((∀ p ∈ template.placeholders, BraceFree p.script.toList) → rest.fillFrom known = once) := by
  intro template once rest
  have hrest : rest.fillFrom known =
      String.ofList (fillHoles (answerTo known) (pieces once.toList).holes once.toList) :=
    fillFrom_ofText known again restart once.toList
  have honce : once = String.ofList (fillHoles (answerTo known) (pieces text).holes text) :=
    fillFrom_ofText known filename start text
  have hsame : rest.fillFrom known = once ↔
      fillHoles (answerTo known) (pieces once.toList).holes once.toList = once.toList := by
    rw [hrest, ← String.toList_inj, String.toList_ofList]
  have hsettles : (∀ p ∈ template.placeholders, known p.script = none →
        Settled known (unresolved p.script).toList) →
      once = template.weave (template.scripts.map (answerFrom known)) ∧
        rest.fillFrom known = once := by
    intro h
    rw [forall_mem_placeholders (fun script _ => known script = none →
      Settled known (unresolved script).toList)] at h
    have hanswers : ∀ hole ∈ (pieces text).holes, Settled known (answerTo known hole.2) := by
      intro hole hmem
      refine settled_answerTo hknown fun hname => ?_
      have hwritten := h hole hmem hname
      rwa [toList_unresolved, String.toList_ofList] at hwritten
    obtain ⟨s, hs, hfill, hfixed⟩ := fillHoles_fillHoles hknown text hanswers
    rw [hfill] at honce
    refine ⟨?_, hsame.2 (by rw [honce, String.toList_ofList]; exact hfixed)⟩
    have hasked : template.scripts.map (answerFrom known) = (pieces text).holes.map fun hole =>
        answerFrom known (String.ofList (Text.trim hole.2)) := by
      rw [Template.scripts, show template.placeholders = Template.placeholdersFrom filename start
        (pieces text).holes from rfl, Template.scripts_placeholdersFrom, List.map_map]
      rfl
    have htext : template.text.toList = text := String.toList_ofList
    rw [honce, hs, hasked, Template.weave, Template.literals, htext]
    exact (Template.interleave_holes (fun inner => answerFrom known (String.ofList (Text.trim inner)))
      (pieces text).holes (pieces text).last).symm
  refine ⟨?_, hsettles, ?_⟩
  · rw [hsame, fillHoles_eq_self_iff hknown, forall_mem_placeholders
      (fun script text => answerFrom known script = text)]
    simp only [answerTo, String.ext_iff, String.toList_ofList]
  · intro h
    rw [forall_mem_placeholders (fun script _ => BraceFree script.toList)] at h
    refine (hsettles ?_).2
    rw [forall_mem_placeholders (fun script _ => known script = none →
      Settled known (unresolved script).toList)]
    intro hole hmem hname
    rw [toList_unresolved, String.toList_ofList]
    exact settled_written (Text.trimmed_trim hole.2)
      (by have hplain := h hole hmem; rwa [String.toList_ofList] at hplain) hname

/-- A map with one name. -/
def oneName (name : String) : Option String := if name = "c" then some "v" else none

/-- A lone brace, a name that is not in the map twice, and one that is. -/
def mixedText : List Char := "\x7b \x7b\x7b b \x7d\x7d\x7b\x7bb\x7d\x7d \x7b\x7b c \x7d\x7d".toList

theorem refill_settles_iff_mixed :
    PlainMap oneName ∧
      (∀ p ∈ (Template.ofText "a.http" mixedText ⟨1, 1⟩).placeholders, BraceFree p.script.toList) ∧
      (Template.ofText "a.http" mixedText ⟨1, 1⟩).fillFrom oneName =
        "\x7b \x7b\x7bb\x7d\x7d\x7b\x7bb\x7d\x7d v" ∧
      (Template.ofText "b.http"
          ((Template.ofText "a.http" mixedText ⟨1, 1⟩).fillFrom oneName).toList ⟨2, 1⟩).fillFrom
        oneName = (Template.ofText "a.http" mixedText ⟨1, 1⟩).fillFrom oneName := by
  have hknown : PlainMap oneName := by
    intro name value h
    rw [oneName] at h
    split at h
    · next hname =>
      cases h
      rw [hname]
      exact ⟨by decide, by decide⟩
    · cases h
  have hplain : ∀ p ∈ (Template.ofText "a.http" mixedText ⟨1, 1⟩).placeholders,
      BraceFree p.script.toList := by decide +kernel
  exact ⟨hknown, hplain, by decide +kernel,
    (refill_settles_iff hknown mixedText "a.http" "b.http" ⟨1, 1⟩ ⟨2, 1⟩).2.2 hplain⟩

/-- A name with a brace is written so that it hides a shorter placeholder, which is filled in its
place: the second filling finds the one that is left. -/
example :
    (Template.ofText "a.http" "\x7b\x7b\x7bc\x7d\x7d \x7b\x7bc\x7d\x7d".toList ⟨1, 1⟩).fillFrom
        oneName = "\x7bv \x7b\x7bc\x7d\x7d" ∧
      (Template.ofText "a.http" "\x7bv \x7b\x7bc\x7d\x7d".toList ⟨1, 1⟩).fillFrom oneName =
        "\x7bv v" := by
  decide +kernel

end RequestRunner
