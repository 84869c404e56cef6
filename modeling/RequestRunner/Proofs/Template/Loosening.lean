import RequestRunner.Proofs.Template.Settling

/-!
# Blanks between placeholders

A text is cut at its placeholders in one way only: whatever literal stretches and inner texts make
it up, they are its pieces if the stretches keep apart, the inner texts are closed and nothing
behind them is a placeholder (`Pieces.WellCut.pieces_join`). Blanks that are put into the literal
stretches keep all of this (`Loosened`), so the text with them has the same placeholders.

A text is made up of parts, and each of its placeholders lies within one part (`HolesWithin`). Then
blanks that are put in between the parts are put into literal stretches (`pieces_spaced`), and a
template with them asks for the same (`Pieces.LoosenedTo.scripts_eq`) and gives the same but for
blanks (`Pieces.LoosenedTo.stripString_weave`).
-/

set_option autoImplicit false

namespace RequestRunner

/-! ## Cutting in one way -/

/-- The pieces are cut where the text that they make up is cut. -/
structure Pieces.WellCut (p : Pieces) : Prop where
  /-- The literal stretches keep apart. -/
  apart : ∀ hole ∈ p.holes, KeepsApart hole.1
  /-- The inner texts are closed. -/
  closed : ∀ hole ∈ p.holes, Closed hole.2
  /-- There is no placeholder behind the last one. -/
  last : nextPlaceholder? p.last = none

theorem wellCut_pieces (s : List Char) : (pieces s).WellCut :=
  ⟨fun _ hmem => keepsApart_of_mem_holes hmem, fun _ hmem => closed_of_mem_holes hmem,
    nextPlaceholder?_last s⟩

/-- Behind a text that keeps apart, a closed placeholder is the first one. -/
theorem nextPlaceholder?_written {before inner : List Char} (hbefore : KeepsApart before)
    (hinner : Closed inner) (rest : List Char) :
    nextPlaceholder? (before ++ (written inner ++ rest)) = some (before, inner, rest) := by
  have hopened : Text.cut? openBraces (before ++ (openBraces ++ (inner ++ (closeBraces ++ rest)))) =
      some (before, inner ++ (closeBraces ++ rest)) := by
    refine Text.cut?_of_first (by simp [openBraces]) ?_
    rintro u v rfl hv ⟨w, hw⟩
    match v, hv with
    | [c], _ =>
      simp only [openBraces, List.cons_append, List.cons.injEq] at hw
      exact hbefore.no_last_brace (by simp [← hw.1])
    | c :: d :: v, _ =>
      simp only [openBraces, List.cons_append, List.cons.injEq] at hw
      exact hbefore.no_opening ⟨u, v, by simp [openBraces, ← hw.1, ← hw.2.1]⟩
  have hclosed : Text.cut? closeBraces (inner ++ (closeBraces ++ rest)) = some (inner, rest) := by
    refine Text.cut?_of_first (by simp [closeBraces]) ?_
    rintro u v rfl hv ⟨w, hw⟩
    match v, hv with
    | [c], _ =>
      -- the closing would begin with the last character of the inner text
      simp only [closeBraces, List.cons_append, List.cons.injEq] at hw
      exact hinner ⟨u, [], by simp [closeBraces, ← hw.1]⟩
    | c :: d :: v, _ =>
      simp only [closeBraces, List.cons_append, List.cons.injEq] at hw
      exact hinner ⟨u, v ++ ['\x7d'], by simp [closeBraces, ← hw.1, ← hw.2.1]⟩
  have htext : before ++ (written inner ++ rest) =
      before ++ (openBraces ++ (inner ++ (closeBraces ++ rest))) := by
    simp only [written, List.append_assoc]
  rw [nextPlaceholder?, htext, hopened]
  dsimp only
  rw [hclosed]

theorem Pieces.join_cons (before inner : List Char) (holes : List (List Char × List Char))
    (last : List Char) :
    Pieces.join ⟨(before, inner) :: holes, last⟩ =
      before ++ (written inner ++ Pieces.join ⟨holes, last⟩) := by
  simp [Pieces.join, written, List.append_assoc]

theorem Pieces.wellCut_cons {before inner : List Char}
    {holes : List (List Char × List Char)} {last : List Char} :
    WellCut ⟨(before, inner) :: holes, last⟩ ↔
      KeepsApart before ∧ Closed inner ∧ WellCut ⟨holes, last⟩ := by
  constructor
  · rintro ⟨happart, hclosed, hlast⟩
    rw [List.forall_mem_cons] at happart hclosed
    exact ⟨happart.1, hclosed.1, happart.2, hclosed.2, hlast⟩
  · rintro ⟨hbefore, hinner, happart, hclosed, hlast⟩
    exact ⟨List.forall_mem_cons.2 ⟨hbefore, happart⟩, List.forall_mem_cons.2 ⟨hinner, hclosed⟩,
      hlast⟩

/-- **A text is cut in one way.** -/
theorem Pieces.WellCut.pieces_join {p : Pieces} (h : p.WellCut) : pieces p.join = p := by
  obtain ⟨holes, last⟩ := p
  -- the first hole is the first placeholder, and what is behind it is cut in the same way
  induction holes with
  | nil => exact pieces_of_none h.last
  | cons hole holes ih =>
    obtain ⟨before, inner⟩ := hole
    obtain ⟨hbefore, hinner, hmore⟩ := wellCut_cons.1 h
    rw [join_cons, pieces_of_some (nextPlaceholder?_written hbefore hinner _), ih hmore]

/-! ## Putting in blanks -/

/-- The second text is the first one with blanks put in. -/
inductive Loosened : List Char → List Char → Prop where
  | nil : Loosened [] []
  | keep (c : Char) {s s' : List Char} (h : Loosened s s') : Loosened (c :: s) (c :: s')
  | blank {c : Char} (hc : Text.isBlank c = true) {s s' : List Char} (h : Loosened s s') :
      Loosened s (c :: s')

namespace Loosened

variable {s s' t t' : List Char}

theorem refl (s : List Char) : Loosened s s := by
  induction s with
  | nil => exact .nil
  | cons c s ih => exact .keep c ih

theorem append (hs : Loosened s s') (ht : Loosened t t') : Loosened (s ++ t) (s' ++ t') := by
  induction hs with
  | nil => exact ht
  | keep c _ ih => exact .keep c ih
  | blank hc _ ih => exact .blank hc ih

theorem of_allBlank {gap : List Char} (h : Text.allBlank gap = true) : Loosened [] gap := by
  induction gap with
  | nil => exact .nil
  | cons c gap ih =>
    rw [Text.allBlank, List.all_cons, Bool.and_eq_true] at h
    exact .blank h.1 (ih h.2)

/-- Without blanks the two texts are the same. -/
theorem strip_eq (h : Loosened s s') : Text.strip s' = Text.strip s := by
  induction h with
  | nil => rfl
  | keep c _ ih => simp only [Text.strip, List.filter_cons] at ih ⊢; rw [ih]
  | blank hc _ ih => simpa [Text.strip, hc] using ih

/-- A text that was loosened is divided where it was before. -/
theorem exists_append {u v : List Char} (h : Loosened s (u ++ v)) :
    ∃ front back, s = front ++ back ∧ Loosened front u ∧ Loosened back v := by
  induction u generalizing s with
  | nil => exact ⟨[], s, rfl, .nil, h⟩
  | cons c u ih =>
    cases h with
    | keep _ h =>
      obtain ⟨front, back, rfl, hfront, hback⟩ := ih h
      exact ⟨c :: front, back, rfl, .keep c hfront, hback⟩
    | blank hc h =>
      obtain ⟨front, back, rfl, hfront, hback⟩ := ih h
      exact ⟨front, back, rfl, .blank hc hfront, hback⟩

/-- What has no blank was there before. -/
theorem exists_of_inked {ink v : List Char} (hink : ∀ c ∈ ink, Text.isBlank c = false)
    (h : Loosened s (ink ++ v)) : ∃ back, s = ink ++ back ∧ Loosened back v := by
  induction ink generalizing s with
  | nil => exact ⟨s, rfl, h⟩
  | cons c ink ih =>
    rw [List.forall_mem_cons] at hink
    cases h with
    | keep _ h =>
      obtain ⟨back, rfl, hback⟩ := ih hink.2 h
      exact ⟨back, rfl, hback⟩
    | blank hc _ =>
      rw [hink.1] at hc
      cases hc

theorem isBlank_openBraces : ∀ c ∈ openBraces, Text.isBlank c = false := by
  rw [openBraces, List.forall_mem_cons, List.forall_mem_singleton]
  decide

theorem isBlank_closeBraces : ∀ c ∈ closeBraces, Text.isBlank c = false := by
  rw [closeBraces, List.forall_mem_cons, List.forall_mem_singleton]
  decide

/-- **Blanks make no opening**, and they do not move a brace to the end. -/
theorem keepsApart (h : Loosened s s') (hs : KeepsApart s) : KeepsApart s' := by
  constructor
  · -- an opening has no blank, so it was there before
    rintro ⟨u, v, rfl⟩
    rw [List.append_assoc] at h
    obtain ⟨front, back, rfl, -, hback⟩ := h.exists_append
    obtain ⟨back, rfl, -⟩ := hback.exists_of_inked isBlank_openBraces
    exact hs.no_opening ⟨front, back, List.append_assoc _ _ _⟩
  · intro hlast
    obtain ⟨u, rfl⟩ := List.getLast?_eq_some_iff.1 hlast
    obtain ⟨front, back, rfl, -, hback⟩ := h.exists_append
    cases hback with
    | keep _ hnone =>
      cases hnone
      exact hs.no_last_brace List.getLast?_concat
    | blank hc _ => exact absurd hc (by decide)

/-- **Blanks make no placeholder.** -/
theorem nextPlaceholder?_eq_none (h : Loosened s s') (hs : nextPlaceholder? s = none) :
    nextPlaceholder? s' = none := by
  cases hfound : nextPlaceholder? s' with
  | none => rfl
  | some found =>
    obtain ⟨before, inner, rest⟩ := found
    have htext := nextPlaceholder?_eq_some hfound
    simp only [List.append_assoc] at htext
    rw [htext] at h
    -- its opening and its closing were there before
    obtain ⟨front, opened, rfl, -, hopened⟩ := h.exists_append
    obtain ⟨behind, rfl, hbehind⟩ := hopened.exists_of_inked isBlank_openBraces
    obtain ⟨within, closing, rfl, -, hclosing⟩ := hbehind.exists_append
    obtain ⟨back, rfl, -⟩ := hclosing.exists_of_inked isBlank_closeBraces
    refine absurd ?_ (not_written_of_nextPlaceholder? hs front within back)
    simp only [written, List.append_assoc]

end Loosened

namespace Pieces

/-- The second pieces are the first ones with blanks put into the literal stretches. -/
inductive LoosenedTo : Pieces → Pieces → Prop where
  | last {s s' : List Char} (h : Loosened s s') : LoosenedTo ⟨[], s⟩ ⟨[], s'⟩
  | hole {before before' : List Char} (h : Loosened before before') (inner : List Char)
      {p p' : Pieces} (more : LoosenedTo p p') :
      LoosenedTo ⟨(before, inner) :: p.holes, p.last⟩ ⟨(before', inner) :: p'.holes, p'.last⟩

theorem LoosenedTo.wellCut {p p' : Pieces} (h : p.LoosenedTo p') (hp : p.WellCut) :
    p'.WellCut := by
  induction h with
  | last h =>
    exact ⟨List.forall_mem_nil _, List.forall_mem_nil _, h.nextPlaceholder?_eq_none hp.last⟩
  | hole h inner _ ih =>
    obtain ⟨hbefore, hinner, hmore⟩ := wellCut_cons.1 hp
    exact wellCut_cons.2 ⟨h.keepsApart hbefore, hinner, ih hmore⟩

end Pieces

/-- **Blanks in literal stretches** leave the text cut where it was. -/
theorem Pieces.LoosenedTo.pieces_join {s : List Char} {p' : Pieces} (h : (pieces s).LoosenedTo p') :
    pieces p'.join = p' :=
  (h.wellCut (wellCut_pieces s)).pieces_join

/-! ## Parts -/

/-- The text of a first part and further ones, each with what stands in front of it. -/
def spaced (first : List Char) (more : List (List Char × List Char)) : List Char :=
  first ++ more.flatMap fun (gap, part) => gap ++ part

/-- Each of the holes lies within one of the parts that make up the text. -/
def HolesWithin (holes : List (List Char × List Char)) (parts : List (List Char)) : Prop :=
  ∀ front before inner back, holes = front ++ (before, inner) :: back →
    ∃ upper part lower lead trail, parts = upper ++ part :: lower ∧
      part = lead ++ (written inner ++ trail) ∧
        upper.flatten ++ lead = Pieces.join ⟨front, before⟩

/-- The first hole lies within a part, and the others within what is left of it or further down. -/
theorem HolesWithin.cons {before inner : List Char} {more : List (List Char × List Char)}
    {parts : List (List Char)} (h : HolesWithin ((before, inner) :: more) parts) :
    ∃ upper lead trail lower, parts = upper ++ (lead ++ (written inner ++ trail)) :: lower ∧
      upper.flatten ++ lead = before ∧ HolesWithin more (trail :: lower) := by
  obtain ⟨upper, part, lower, lead, trail, rfl, rfl, hbefore⟩ := h [] before inner more rfl
  have hbefore : upper.flatten ++ lead = before := hbefore
  refine ⟨upper, lead, trail, lower, rfl, hbefore, ?_⟩
  rintro front before' inner' back rfl
  obtain ⟨upper', part', lower', lead', trail', hparts, rfl, hplace⟩ :=
    h ((before, inner) :: front) before' inner' back rfl
  rw [Pieces.join_cons, ← hbefore] at hplace
  -- a later hole begins behind the end of the first one
  have hsame : lead' = lead ++ (written inner ++ Pieces.join ⟨front, before'⟩) →
      lead ++ (written inner ++ trail) = lead' ++ (written inner' ++ trail') →
        trail = Pieces.join ⟨front, before'⟩ ++ (written inner' ++ trail') := by
    rintro rfl hpart
    simpa only [List.append_assoc, List.append_cancel_left_eq] using hpart
  rcases List.append_eq_append_iff.1 hparts with ⟨mid, rfl, hmid⟩ | ⟨mid, rfl, hmid⟩
  · cases mid with
    | nil =>
      obtain ⟨hpart, rfl⟩ := List.cons.inj hmid
      simp only [List.append_nil, List.append_assoc, List.append_cancel_left_eq] at hplace
      exact ⟨[], trail, lower, _, trail', rfl, hsame hplace hpart, rfl⟩
    | cons part mid =>
      obtain ⟨rfl, rfl⟩ := List.cons.inj hmid
      simp only [List.flatten_append, List.flatten_cons, List.append_assoc,
        List.append_cancel_left_eq] at hplace
      exact ⟨trail :: mid, _, lower', lead', trail', rfl, rfl, by
        rw [List.flatten_cons, List.append_assoc, hplace]⟩
  · cases mid with
    | nil =>
      obtain ⟨hpart, rfl⟩ := List.cons.inj hmid
      simp only [List.append_nil, List.append_assoc, List.append_cancel_left_eq] at hplace
      exact ⟨[], trail, lower', _, trail', rfl, hsame hplace hpart.symm, rfl⟩
    | cons part mid =>
      obtain ⟨rfl, -⟩ := List.cons.inj hmid
      have hlength := congrArg List.length hplace
      simp only [List.flatten_append, List.flatten_cons, List.length_append, written, openBraces,
        List.length_cons] at hlength
      omega

/-- Parts with blanks between them. -/
theorem loosened_spaced (first : List Char) {more : List (List Char × List Char)}
    (h : ∀ gap ∈ more.map Prod.fst, Text.allBlank gap = true) :
    Loosened (first :: more.map Prod.snd).flatten (spaced first more) := by
  rw [List.flatten_cons, spaced]
  refine (Loosened.refl first).append ?_
  induction more with
  | nil => exact .nil
  | cons entry more ih =>
    rw [List.map_cons, List.forall_mem_cons] at h
    rw [List.map_cons, List.flatten_cons, List.flatMap_cons]
    exact ((Loosened.of_allBlank h.1).append (Loosened.refl entry.2)).append (ih h.2)

/-- **Blanks between parts** are blanks in literal stretches, where every placeholder lies within a
part. -/
theorem exists_loosenedTo {holes : List (List Char × List Char)} {last first : List Char}
    {more : List (List Char × List Char)} (h : HolesWithin holes (first :: more.map Prod.snd))
    (hjoin : Pieces.join ⟨holes, last⟩ = (first :: more.map Prod.snd).flatten)
    (hblank : ∀ gap ∈ more.map Prod.fst, Text.allBlank gap = true) :
    ∃ p', Pieces.LoosenedTo ⟨holes, last⟩ p' ∧ p'.join = spaced first more := by
  induction holes generalizing first more with
  | nil =>
    have hlast : last = (first :: more.map Prod.snd).flatten := hjoin
    exact ⟨⟨[], spaced first more⟩, .last (hlast ▸ loosened_spaced first hblank), rfl⟩
  | cons hole holes ih =>
    obtain ⟨before, inner⟩ := hole
    obtain ⟨upper, lead, trail, lower, hparts, rfl, hmore⟩ := h.cons
    rw [hparts] at hjoin
    rw [Pieces.join_cons] at hjoin
    simp only [List.flatten_append, List.flatten_cons, List.append_assoc,
      List.append_cancel_left_eq] at hjoin
    -- the hole is in the first part, or blanks stand before the part that it is in
    cases upper with
    | nil =>
      obtain ⟨rfl, rfl⟩ := List.cons.inj hparts
      obtain ⟨p', hp', hspaced⟩ := ih hmore hjoin hblank
      refine ⟨_, .hole (Loosened.refl lead) inner hp', ?_⟩
      rw [Pieces.join_cons, hspaced]
      simp only [spaced, List.append_assoc]
    | cons part upper =>
      obtain ⟨rfl, hbelow⟩ := List.cons.inj hparts
      obtain ⟨above, found, rfl, rfl, hfound⟩ := List.map_eq_append_iff.1 hbelow
      obtain ⟨⟨gap, _⟩, below, rfl, rfl, rfl⟩ := List.map_eq_cons_iff.1 hfound
      simp only [List.map_append, List.map_cons, List.forall_mem_append,
        List.forall_mem_cons] at hblank
      obtain ⟨habove, hgap, hlower⟩ := hblank
      obtain ⟨p', hp', hspaced⟩ := ih hmore hjoin hlower
      have hbefore := (loosened_spaced first habove).append
        ((Loosened.of_allBlank hgap).append (Loosened.refl lead))
      refine ⟨_, .hole hbefore inner hp', ?_⟩
      rw [Pieces.join_cons, hspaced]
      simp only [spaced, List.flatMap_append, List.flatMap_cons, List.append_assoc]

/-- **Blanks between parts** leave the text cut where it was, if every placeholder lies within a
part. -/
theorem pieces_spaced {first : List Char} {more : List (List Char × List Char)}
    (h : HolesWithin (pieces (first :: more.map Prod.snd).flatten).holes
      (first :: more.map Prod.snd))
    (hblank : ∀ gap ∈ more.map Prod.fst, Text.allBlank gap = true) :
    (pieces (first :: more.map Prod.snd).flatten).LoosenedTo (pieces (spaced first more)) := by
  obtain ⟨p', hp', hspaced⟩ := exists_loosenedTo h (join_pieces _) hblank
  rw [← hspaced, hp'.pieces_join]
  exact hp'

/-! ## Blanks within placeholders -/

/-- No literal stretch has a blank. -/
structure Pieces.Inked (p : Pieces) : Prop where
  holes : ∀ hole ∈ p.holes, ∀ c ∈ hole.1, Text.isBlank c = false
  last : ∀ c ∈ p.last, Text.isBlank c = false

/-- Every blank of the text stands between two braces. -/
def BlanksEnclosed (s : List Char) : Prop :=
  ∀ front c back, s = front ++ c :: back → Text.isBlank c = true → '\x7b' ∈ front ∧ '\x7d' ∈ back

theorem blanksEnclosed_of_inked {s : List Char} (h : ∀ c ∈ s, Text.isBlank c = false) :
    BlanksEnclosed s := by
  rintro front c back rfl hc
  rw [h c (List.mem_append_right _ List.mem_cons_self)] at hc
  cases hc

theorem BlanksEnclosed.append {s t : List Char} (hs : BlanksEnclosed s) (ht : BlanksEnclosed t) :
    BlanksEnclosed (s ++ t) := by
  intro front c back h hc
  rcases List.append_eq_append_iff.1 h with ⟨mid, rfl, hmid⟩ | ⟨mid, rfl, hmid⟩
  · obtain ⟨hopen, hclose⟩ := ht mid c back hmid hc
    exact ⟨List.mem_append_right _ hopen, hclose⟩
  · cases mid with
    | nil =>
      obtain ⟨hopen, -⟩ := ht [] c back hmid.symm hc
      exact absurd hopen List.not_mem_nil
    | cons d mid =>
      obtain ⟨rfl, rfl⟩ := List.cons.inj hmid
      obtain ⟨hopen, hclose⟩ := hs front c mid rfl hc
      exact ⟨hopen, List.mem_append_left _ hclose⟩

/-- The braces of a placeholder enclose all that is in it. -/
theorem blanksEnclosed_written (inner : List Char) : BlanksEnclosed (written inner) := by
  intro front c back h hc
  constructor
  · cases front with
    | nil =>
      simp only [written, openBraces, List.cons_append, List.nil_append, List.cons.injEq] at h
      rw [← h.1] at hc
      exact absurd hc (by decide)
    | cons d front =>
      simp only [written, openBraces, List.cons_append, List.cons.injEq] at h
      rw [← h.1]
      exact List.mem_cons_self
  · have hlast := congrArg List.getLast? h
    have hclose : (written inner).getLast? = some '\x7d' := by
      rw [written, List.getLast?_append]
      rfl
    rw [hclose] at hlast
    rcases List.eq_nil_or_concat' back with rfl | ⟨init, d, rfl⟩
    · rw [List.getLast?_concat, Option.some.injEq] at hlast
      rw [← hlast] at hc
      exact absurd hc (by decide)
    · rw [← List.cons_append, ← List.append_assoc, List.getLast?_concat,
        Option.some.injEq] at hlast
      rw [hlast]
      exact List.mem_append_right _ List.mem_cons_self

/-- **Where literal stretches have no blanks**, the placeholders within a part enclose its
blanks. -/
theorem HolesWithin.blanksEnclosed {holes : List (List Char × List Char)} {last : List Char}
    {parts : List (List Char)} (h : HolesWithin holes parts)
    (hjoin : Pieces.join ⟨holes, last⟩ = parts.flatten) (hinked : Pieces.Inked ⟨holes, last⟩) :
    ∀ part ∈ parts, BlanksEnclosed part := by
  induction holes generalizing parts with
  | nil =>
    intro part hpart
    refine blanksEnclosed_of_inked fun c hc => hinked.last c ?_
    have hlast : last = parts.flatten := hjoin
    rw [hlast]
    exact List.mem_flatten.2 ⟨part, hpart, hc⟩
  | cons hole holes ih =>
    obtain ⟨before, inner⟩ := hole
    obtain ⟨upper, lead, trail, lower, rfl, rfl, hmore⟩ := h.cons
    rw [Pieces.join_cons] at hjoin
    simp only [List.flatten_append, List.flatten_cons, List.append_assoc,
      List.append_cancel_left_eq] at hjoin
    have hbefore := hinked.holes _ List.mem_cons_self
    have hbelow := ih hmore hjoin
      ⟨fun hole hmem => hinked.holes hole (List.mem_cons_of_mem _ hmem), hinked.last⟩
    rw [List.forall_mem_cons] at hbelow
    rw [List.forall_mem_append, List.forall_mem_cons]
    refine ⟨fun part hpart => blanksEnclosed_of_inked fun c hc => ?_, ?_, hbelow.2⟩
    · exact hbefore c (List.mem_append_left _ (List.mem_flatten.2 ⟨part, hpart, hc⟩))
    · have hlead := blanksEnclosed_of_inked fun c hc => hbefore c (List.mem_append_right _ hc)
      exact hlead.append ((blanksEnclosed_written inner).append hbelow.1)

/-! ## Templates -/

theorem Pieces.LoosenedTo.map_inner {p p' : Pieces} (h : p.LoosenedTo p') :
    p'.holes.map Prod.snd = p.holes.map Prod.snd := by
  induction h with
  | last _ => rfl
  | hole _ inner _ ih => rw [List.map_cons, List.map_cons, ih]

/-- What placeholders with blanks between them ask for. -/
theorem Pieces.LoosenedTo.scripts_eq {s s' : List Char} (h : (pieces s).LoosenedTo (pieces s'))
    (filename : String) (start start' : Position) :
    (Template.ofText filename s' start').scripts = (Template.ofText filename s start).scripts := by
  have hscripts : ∀ (text : List Char) (at_ : Position),
      (Template.ofText filename text at_).scripts =
        ((pieces text).holes.map Prod.snd).map fun inner => String.ofList (Text.trim inner) := by
    intro text at_
    rw [Template.scripts, Template.ofText, Template.scripts_placeholdersFrom, List.map_map]
    rfl
  rw [hscripts, hscripts, h.map_inner]

theorem Text.strip_append (s t : List Char) : strip (s ++ t) = strip s ++ strip t :=
  List.filter_append s t

/-- Texts put between stretches that differ in blanks make up texts that differ in blanks. -/
theorem Pieces.LoosenedTo.strip_interleave {p p' : Pieces} (h : p.LoosenedTo p')
    (texts : List String) :
    Text.strip (interleave ((p'.holes.map fun hole => String.ofList hole.1) ++
        [String.ofList p'.last]) texts).toList =
      Text.strip (interleave ((p.holes.map fun hole => String.ofList hole.1) ++
        [String.ofList p.last]) texts).toList := by
  induction h generalizing texts with
  | last h =>
    cases texts with
    | nil => simpa [interleave] using h.strip_eq
    | cons text texts => simp [interleave, Text.strip_append, h.strip_eq]
  | hole h inner _ ih =>
    cases texts with
    | nil => simpa [interleave] using h.strip_eq
    | cons text texts => simp [interleave, Text.strip_append, h.strip_eq, ih]

/-- **Templates that differ in blanks between placeholders** give the same but for blanks. -/
theorem Pieces.LoosenedTo.stripString_weave {s s' : List Char}
    (h : (pieces s).LoosenedTo (pieces s')) (filename : String) (start start' : Position)
    (texts : List String) :
    Text.stripString ((Template.ofText filename s' start').weave texts) =
      Text.stripString ((Template.ofText filename s start).weave texts) := by
  have hstrip := h.strip_interleave texts
  simp only [Text.stripString, Template.weave, Template.literals, Template.ofText,
    String.toList_ofList, hstrip]

end RequestRunner
