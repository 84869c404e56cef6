import RequestRunner.Document.Template
import RequestRunner.Proofs.Text.Occurrence

/-!
# Texts between placeholders

A text keeps apart if it holds no opening of a placeholder and does not end with a brace, which
would make an opening with a placeholder behind it. The literal stretches in front of placeholders
keep apart (`keepsApart_of_mem_holes`), texts that keep apart can be joined (`KeepsApart.append`),
and behind such a text a placeholder is found where it stands (`cut?_placeholder`).
-/

set_option autoImplicit false

namespace RequestRunner

/-- The text can stand in front of a placeholder without hiding where the placeholder opens. -/
structure KeepsApart (s : List Char) : Prop where
  /-- There is no opening in it. -/
  no_opening : ¬ openBraces <:+: s
  /-- Its last character is no opening brace. -/
  no_last_brace : s.getLast? ≠ some '\x7b'

theorem keepsApart_nil : KeepsApart [] :=
  ⟨by simp [openBraces], by simp⟩

theorem KeepsApart.append {s t : List Char} (hs : KeepsApart s) (ht : KeepsApart t) :
    KeepsApart (s ++ t) := by
  constructor
  · rintro ⟨u, v, huv⟩
    rcases List.append_eq_append_iff.1 huv with ⟨w, rfl, -⟩ | ⟨w, hw, rfl⟩
    · exact hs.no_opening ⟨u, w, rfl⟩
    · -- the opening ends in the second text: it lies in it or begins at the end of the first
      rcases List.append_eq_append_iff.1 hw with ⟨x, rfl, hx⟩ | ⟨x, rfl, rfl⟩
      · match x, hx with
        | [], hx => exact ht.no_opening ⟨[], v, by rw [hx]; rfl⟩
        | [c], hx =>
          simp only [openBraces, List.cons_append, List.cons.injEq] at hx
          obtain ⟨rfl, -⟩ := hx
          exact hs.no_last_brace (by simp)
        | c :: d :: x, hx =>
          simp only [openBraces, List.cons_append, List.cons.injEq] at hx
          obtain ⟨rfl, rfl, -⟩ := hx
          exact hs.no_opening ⟨u, x, by simp [openBraces]⟩
      · exact ht.no_opening ⟨x, v, rfl⟩
  · rcases List.eq_nil_or_concat t with rfl | ⟨t, c, rfl⟩
    · rw [List.append_nil]
      exact hs.no_last_brace
    · have hc := ht.no_last_brace
      simpa [List.getLast?_append] using hc

/-- The written form of a placeholder. -/
def written (inner : List Char) : List Char := openBraces ++ inner ++ closeBraces

/-- Behind a text that keeps apart, a placeholder is found where it stands. -/
theorem cut?_placeholder {x : List Char} (hx : KeepsApart x) (inner rest : List Char) :
    Text.cut? (written inner) (x ++ (written inner ++ rest)) = some (x, rest) := by
  refine Text.cut?_of_first (by simp [written, openBraces]) ?_
  rintro u v rfl hv hp
  obtain ⟨w, hw⟩ := hp
  match v, hv with
  | [c], _ =>
    simp only [written, openBraces, List.cons_append, List.nil_append, List.cons.injEq] at hw
    exact hx.no_last_brace (by simp [← hw.1])
  | c :: d :: v, _ =>
    simp only [written, openBraces, List.cons_append, List.nil_append, List.cons.injEq] at hw
    exact hx.no_opening ⟨u, v, by simp [openBraces, ← hw.1, ← hw.2.1]⟩

/-! ## The literal stretches -/

theorem pieces_of_none {s : List Char} (h : nextPlaceholder? s = none) : pieces s = ⟨[], s⟩ := by
  rw [pieces]
  split
  · rfl
  · next heq => simp [h] at heq

theorem pieces_of_some {s before inner rest : List Char}
    (h : nextPlaceholder? s = some (before, inner, rest)) :
    pieces s = ⟨(before, inner) :: (pieces rest).holes, (pieces rest).last⟩ := by
  rw [pieces]
  split
  · next heq => simp [h] at heq
  · next b i r heq =>
    rw [h, Option.some.injEq, Prod.mk.injEq, Prod.mk.injEq] at heq
    obtain ⟨rfl, rfl, rfl⟩ := heq
    rfl

/-- The text in front of the first placeholder keeps apart. -/
theorem keepsApart_of_nextPlaceholder? {s before inner rest : List Char}
    (h : nextPlaceholder? s = some (before, inner, rest)) : KeepsApart before := by
  unfold nextPlaceholder? at h
  split at h
  · cases h
  · next b opened hb =>
    split at h
    · cases h
    · rw [Option.some.injEq, Prod.mk.injEq] at h
      obtain ⟨rfl, -⟩ := h
      refine ⟨Text.not_infix_of_cut? hb (by simp [openBraces]), fun hlast => ?_⟩
      -- a brace at the end would open the placeholder one character earlier
      obtain ⟨u, hu⟩ := List.getLast?_eq_some_iff.1 hlast
      exact Text.cut?_first hb u ['\x7b'] hu (List.cons_ne_nil _ _) ⟨'\x7b' :: opened, rfl⟩

/-- Every literal stretch in front of a placeholder keeps apart. -/
theorem keepsApart_of_mem_holes {s before inner : List Char}
    (h : (before, inner) ∈ (pieces s).holes) : KeepsApart before := by
  induction s using pieces.induct with
  | case1 s hs =>
    rw [pieces_of_none hs] at h
    cases h
  | case2 s b i rest hs _ ih =>
    rw [pieces_of_some hs] at h
    rcases List.mem_cons.1 h with heq | hmem
    · rw [Prod.mk.injEq] at heq
      rw [heq.1]
      exact keepsApart_of_nextPlaceholder? hs
    · exact ih hmem

end RequestRunner
