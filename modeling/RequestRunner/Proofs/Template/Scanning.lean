import RequestRunner.Proofs.Template.Pieces

/-!
# Where placeholders are found

A scan for placeholders takes the leftmost opening that is closed at all and closes it as early as
possible; then it goes on behind the closing. `IsNext` says this of one placeholder in terms of the
text alone, and `isNext_of_nextPlaceholder?` that it holds of what a step of the scan finds. Main
statement: a template that is read from a text records such placeholders, one behind the other, and
what is not closed stays literal (`Template.ofText_splits`).
-/

set_option autoImplicit false

namespace RequestRunner

/-- Somewhere in the text there is an opening with a closing behind it. -/
def HasPlaceholder (s : List Char) : Prop :=
  ∃ u v, s = u ++ (openBraces ++ v) ∧ closeBraces <:+: v

/-- The next placeholder of a text: it stands at the leftmost opening that is closed, and it ends
with the first closing behind that opening. -/
structure IsNext (s before inner rest : List Char) : Prop where
  /-- The text is what stands in front, the placeholder and what stands behind. -/
  split : s = before ++ (written inner ++ rest)
  /-- No opening further to the left is closed. -/
  leftmost : ∀ u v, s = u ++ (openBraces ++ v) → closeBraces <:+: v → before.length ≤ u.length
  /-- The text in front has no opening and does not begin one. -/
  keepsApart : KeepsApart before
  /-- No closing begins in the inner text. -/
  shortest : ∀ u v, inner ++ closeBraces = u ++ (closeBraces ++ v) → u = inner

/-! ## One step of the scan -/

theorem nextPlaceholder?_eq_some_iff {s before inner rest : List Char} :
    nextPlaceholder? s = some (before, inner, rest) ↔
      ∃ opened, Text.cut? openBraces s = some (before, opened) ∧
        Text.cut? closeBraces opened = some (inner, rest) := by
  rw [nextPlaceholder?]
  cases Text.cut? openBraces s with
  | none => simp
  | some found =>
    obtain ⟨b, opened⟩ := found
    cases hclose : Text.cut? closeBraces opened <;> simp [and_assoc, hclose, Prod.ext_iff]

/-- A scan finds a placeholder exactly if there is one. -/
theorem hasPlaceholder_iff {s : List Char} :
    HasPlaceholder s ↔ ∃ found, nextPlaceholder? s = some found := by
  constructor
  · rintro ⟨u, v, hs, hv⟩
    cases hopen : Text.cut? openBraces s with
    | none => exact absurd ⟨u, v, by rw [hs, List.append_assoc]⟩ (Text.cut?_eq_none_iff.1 hopen)
    | some found =>
      obtain ⟨before, opened⟩ := found
      have hbehind : closeBraces <:+: opened :=
        hv.trans (Text.suffix_of_cut? hopen hs).isInfix
      cases hclose : Text.cut? closeBraces opened with
      | none => exact absurd hbehind (Text.cut?_eq_none_iff.1 hclose)
      | some found =>
        exact ⟨(before, found), nextPlaceholder?_eq_some_iff.2 ⟨opened, hopen, hclose⟩⟩
  · rintro ⟨⟨before, inner, rest⟩, h⟩
    obtain ⟨opened, hopen, hclose⟩ := nextPlaceholder?_eq_some_iff.1 h
    refine ⟨before, opened, ?_, inner, rest, (Text.cut?_eq_some hclose).symm⟩
    rw [Text.cut?_eq_some hopen, List.append_assoc]

theorem nextPlaceholder?_eq_none_iff {s : List Char} :
    nextPlaceholder? s = none ↔ ¬ HasPlaceholder s := by
  rw [hasPlaceholder_iff, ← Option.isSome_iff_exists, Option.not_isSome_iff_eq_none]

/-- **A step of the scan finds the next placeholder.** -/
theorem isNext_of_nextPlaceholder? {s before inner rest : List Char}
    (h : nextPlaceholder? s = some (before, inner, rest)) : IsNext s before inner rest := by
  obtain ⟨opened, hopen, hclose⟩ := nextPlaceholder?_eq_some_iff.1 h
  refine ⟨?_, fun u v hs _ => Text.length_le_of_cut? hopen hs,
    keepsApart_of_nextPlaceholder? h, fun u v huv => ?_⟩
  · rw [nextPlaceholder?_eq_some h, written]
    simp only [List.append_assoc]
  · -- a closing that begins earlier would have ended the inner text
    have hopened : opened = u ++ (closeBraces ++ (v ++ rest)) := by
      rw [Text.cut?_eq_some hclose, huv]
      simp only [List.append_assoc]
    have hle := Text.length_le_of_cut? hclose hopened
    have hlength := congrArg List.length huv
    simp only [List.length_append] at hlength
    exact (List.append_inj huv (by omega)).1.symm

/-- An opening that is not closed does not reach into a placeholder: it lies behind it. -/
theorem IsNext.unclosed {s before inner rest : List Char} (h : IsNext s before inner rest)
    {u v : List Char} (hs : s = u ++ (openBraces ++ v)) (hv : ¬ closeBraces <:+: v) :
    openBraces ++ v <:+ rest := by
  have hsplit : (before ++ openBraces ++ inner) ++ (closeBraces ++ rest) =
      u ++ (openBraces ++ v) := by
    rw [← hs, h.split, written]
    simp only [List.append_assoc]
  -- the opening begins in front of the closing or behind where the closing begins
  rcases List.append_eq_append_iff.1 hsplit with ⟨w, -, hw⟩ | ⟨w, -, hw⟩
  · obtain _ | ⟨c, _ | ⟨d, w⟩⟩ := w
    · cases hw
    · cases hw
    · simp only [closeBraces, List.cons_append, List.nil_append, List.cons.injEq] at hw
      exact ⟨w, hw.2.2.symm⟩
  · obtain _ | ⟨c, _ | ⟨d, w⟩⟩ := w
    · cases hw
    · cases hw
    · simp only [openBraces, List.cons_append, List.nil_append, List.cons.injEq] at hw
      exact absurd ⟨w, rest, by rw [hw.2.2, List.append_assoc]⟩ hv

/-! ## The whole scan -/

/-- What the scan cuts out at any point is the next placeholder of what is left there. -/
theorem isNext_of_holes {s before inner : List Char} {front back : List (List Char × List Char)}
    (h : (pieces s).holes = front ++ (before, inner) :: back) :
    IsNext (Pieces.join ⟨(before, inner) :: back, (pieces s).last⟩) before inner
      (Pieces.join ⟨back, (pieces s).last⟩) := by
  induction s using pieces.induct generalizing front with
  | case1 s hs =>
    rw [pieces_of_none hs] at h
    cases front <;> cases h
  | case2 s b i rest hs _ ih =>
    have hwhole := join_pieces s
    rw [pieces_of_some hs] at h hwhole ⊢
    cases front with
    | nil =>
      rw [List.nil_append, List.cons.injEq, Prod.mk.injEq] at h
      obtain ⟨⟨rfl, rfl⟩, rfl⟩ := h
      rw [hwhole, show Pieces.join ⟨(pieces rest).holes, (pieces rest).last⟩ = rest from
        join_pieces rest]
      exact isNext_of_nextPlaceholder? hs
    | cons hole front => exact ih (List.cons.inj h).2

/-- The text behind the last placeholder has no other one. -/
theorem not_hasPlaceholder_last (s : List Char) : ¬ HasPlaceholder (pieces s).last := by
  induction s using pieces.induct with
  | case1 s hs =>
    rw [pieces_of_none hs]
    exact nextPlaceholder?_eq_none_iff.1 hs
  | case2 s before inner rest hs _ ih =>
    rw [pieces_of_some hs]
    exact ih

/-- An opening that is not closed lies behind the last placeholder. -/
theorem unclosed_suffix_last {s u v : List Char} (hs : s = u ++ (openBraces ++ v))
    (hv : ¬ closeBraces <:+: v) : openBraces ++ v <:+ (pieces s).last := by
  induction s using pieces.induct generalizing u with
  | case1 s hnone =>
    rw [pieces_of_none hnone]
    exact ⟨u, hs.symm⟩
  | case2 s before inner rest hsome _ ih =>
    rw [pieces_of_some hsome]
    obtain ⟨w, hw⟩ := (isNext_of_nextPlaceholder? hsome).unclosed hs hv
    exact ih hw.symm

/-- Of three braces the first two open, and what opens last stays literal here. -/
example : pieces "a\x7b\x7b\x7bb\x7d\x7d\x7d \x7b\x7bc".toList =
    ⟨[(['a'], ['\x7b', 'b'])], "\x7d \x7b\x7bc".toList⟩ := by cbv

theorem holes_eq_nil_iff (s : List Char) : (pieces s).holes = [] ↔ ¬ HasPlaceholder s := by
  rw [← nextPlaceholder?_eq_none_iff]
  cases h : nextPlaceholder? s with
  | none =>
    rw [pieces_of_none h]
    exact iff_of_true rfl rfl
  | some found =>
    obtain ⟨before, inner, rest⟩ := found
    rw [pieces_of_some h]
    exact iff_of_false (List.cons_ne_nil _ _) nofun

/-! ## What a template records -/

namespace Template

theorem length_placeholdersFrom (filename : String) (start : Position)
    (holes : List (List Char × List Char)) :
    (placeholdersFrom filename start holes).length = holes.length := by
  induction holes generalizing start with
  | nil => rfl
  | cons hole holes ih => exact congrArg (· + 1) (ih _)

/-- The placeholder at a hole stands behind the text of the holes in front of it. -/
theorem getElem?_placeholdersFrom (filename : String) (start : Position)
    (front : List (List Char × List Char)) (before inner : List Char)
    (back : List (List Char × List Char)) :
    (placeholdersFrom filename start (front ++ (before, inner) :: back))[front.length]? =
      some ⟨String.ofList (Text.trim inner), String.ofList (written inner),
        ⟨filename, start.after (Pieces.join ⟨front, before⟩),
          start.after (Pieces.join ⟨front, before⟩ ++ written inner)⟩⟩ := by
  induction front generalizing start with
  | nil =>
    rw [Position.after_append]
    rfl
  | cons hole front ih =>
    obtain ⟨b, i⟩ := hole
    have hjoin : Pieces.join ⟨(b, i) :: front, before⟩ =
        b ++ (written i ++ Pieces.join ⟨front, before⟩) := by
      simp [Pieces.join, written]
    rw [List.cons_append, placeholdersFrom, List.length_cons, List.getElem?_cons_succ, ih, hjoin]
    simp only [written, Position.after_append]

/-- **A template splits its text at the placeholders.** The literal stretches and the placeholders
make up the text. Each placeholder is recorded in its order, with its trimmed inner text as script
and with its place, and it is the next one of what is left of the text behind those before it. No
placeholder is left in the text behind the last one. So there is none exactly if no opening of the
text has a closing behind it, and an opening without a closing stays literal. -/
theorem ofText_splits (filename : String) (text : List Char) (start : Position) :
    ∃ cut : Pieces, cut.join = text ∧
      (ofText filename text start).placeholders.length = cut.holes.length ∧
      (∀ front before inner back, cut.holes = front ++ (before, inner) :: back →
        (ofText filename text start).placeholders[front.length]? =
            some ⟨String.ofList (Text.trim inner), String.ofList (written inner),
              ⟨filename, start.after (Pieces.join ⟨front, before⟩),
                start.after (Pieces.join ⟨front, before⟩ ++ written inner)⟩⟩ ∧
          IsNext (Pieces.join ⟨(before, inner) :: back, cut.last⟩) before inner
            (Pieces.join ⟨back, cut.last⟩)) ∧
      ¬ HasPlaceholder cut.last ∧
      ((ofText filename text start).placeholders = [] ↔ ¬ HasPlaceholder text) ∧
      ∀ u v, text = u ++ (openBraces ++ v) → ¬ closeBraces <:+: v →
        openBraces ++ v <:+ cut.last := by
  refine ⟨pieces text, join_pieces text, length_placeholdersFrom _ _ _, ?_,
    not_hasPlaceholder_last text, ?_, fun u v => unclosed_suffix_last⟩
  · intro front before inner back hholes
    refine ⟨?_, isNext_of_holes hholes⟩
    rw [ofText, hholes]
    exact getElem?_placeholdersFrom filename start front before inner back
  · rw [← holes_eq_nil_iff, ← List.length_eq_zero_iff, ← List.length_eq_zero_iff]
    exact iff_of_eq (congrArg (· = 0) (length_placeholdersFrom _ _ _))

end Template

end RequestRunner
