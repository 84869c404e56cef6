import RequestRunner.Text.Search

/-!
# First occurrences

What a search finds. `cut?` fails exactly on texts without the pattern (`cut?_eq_none_iff`) and
otherwise stops at the first place where the pattern begins (`cut?_first`, `cut?_of_first`). For a
pattern of two different characters a text before the pattern cannot run into it, so the text in
front of the cut only has to be free of the pattern (`cut?_pair`). A pattern cannot lie across a
character that it does not have (`infix_append_cons`).
-/

set_option autoImplicit false

namespace RequestRunner.Text

theorem afterPrefix?_append (p s : List Char) : afterPrefix? p (p ++ s) = some s := by
  induction p with
  | nil => rfl
  | cons c p ih => simp [afterPrefix?, ih]

theorem afterPrefix?_eq_some_iff {p s rest : List Char} :
    afterPrefix? p s = some rest ↔ s = p ++ rest := by
  constructor
  · exact afterPrefix?_eq_some
  · rintro rfl
    exact afterPrefix?_append p rest

theorem afterPrefix?_eq_none_iff {p s : List Char} : afterPrefix? p s = none ↔ ¬ p <+: s := by
  rw [Option.eq_none_iff_forall_ne_some]
  constructor
  · rintro h ⟨rest, rfl⟩
    exact h rest (afterPrefix?_append p rest)
  · intro h rest hrest
    exact h ⟨rest, (afterPrefix?_eq_some hrest).symm⟩

/-- A text starts with its prefixes. -/
theorem startsWith_iff {p s : List Char} : startsWith p s = true ↔ p <+: s := by
  rw [startsWith, Option.isSome_iff_exists]
  simp only [afterPrefix?_eq_some_iff, List.prefix_iff_exists_eq_append]

/-- A search fails exactly on texts without the pattern. -/
theorem cut?_eq_none_iff {p s : List Char} : cut? p s = none ↔ ¬ p <:+: s := by
  induction s with
  | nil =>
    simp only [cut?, Option.map_eq_none_iff, afterPrefix?_eq_none_iff, List.infix_nil,
      List.prefix_nil]
  | cons c s ih =>
    rw [List.infix_cons_iff, not_or, ← afterPrefix?_eq_none_iff, ← ih]
    simp only [cut?]
    split
    · next rest h => simp [h]
    · next h => simp [h]

/-- Before the cut the pattern begins nowhere. -/
theorem cut?_first {p s before rest : List Char} (h : cut? p s = some (before, rest)) :
    ∀ u v, before = u ++ v → v ≠ [] → ¬ p <+: v ++ (p ++ rest) := by
  induction s generalizing before with
  | nil =>
    intro u v hb hv
    simp only [cut?, Option.map_eq_some_iff, Prod.mk.injEq] at h
    obtain ⟨-, -, rfl, -⟩ := h
    exact absurd (List.append_eq_nil_iff.1 hb.symm).2 hv
  | cons c s ih =>
    have hs := cut?_eq_some h
    simp only [cut?] at h
    split at h
    · intro u v hb hv
      cases h
      exact absurd (List.append_eq_nil_iff.1 hb.symm).2 hv
    · next hp =>
      rw [afterPrefix?_eq_none_iff] at hp
      simp only [Option.map_eq_some_iff, Prod.mk.injEq, Prod.exists] at h
      obtain ⟨b, r, hb, rfl, rfl⟩ := h
      intro u v huv hv
      cases u with
      | nil =>
        rw [List.nil_append] at huv
        rw [← huv, ← List.append_assoc, ← hs]
        exact hp
      | cons d u =>
        rw [List.cons_append, List.cons.injEq] at huv
        exact ih hb u v huv.2 hv

/-- A text in which the pattern begins nowhere is cut off in front of the pattern. -/
theorem cut?_of_first {p before rest : List Char} (hp : p ≠ [])
    (h : ∀ u v, before = u ++ v → v ≠ [] → ¬ p <+: v ++ (p ++ rest)) :
    cut? p (before ++ (p ++ rest)) = some (before, rest) := by
  induction before with
  | nil =>
    obtain ⟨c, p, rfl⟩ := List.exists_cons_of_ne_nil hp
    have ha := afterPrefix?_append (c :: p) rest
    rw [List.nil_append]
    rw [List.cons_append] at ha ⊢
    rw [cut?, ha]
  | cons c before ih =>
    have hn := afterPrefix?_eq_none_iff.2 (h [] (c :: before) rfl (List.cons_ne_nil c before))
    rw [List.cons_append] at hn ⊢
    rw [cut?, hn, ih fun u v huv hv => h (c :: u) v (by rw [huv, List.cons_append]) hv]
    rfl

/-- The text before a cut is free of the pattern. -/
theorem not_infix_of_cut? {p s before rest : List Char} (h : cut? p s = some (before, rest))
    (hp : p ≠ []) : ¬ p <:+: before := by
  rintro ⟨u, v, huv⟩
  refine cut?_first h u (p ++ v) (by rw [← huv, List.append_assoc]) (by simp [hp]) ?_
  rw [List.append_assoc]
  exact List.prefix_append p _

/-- A pattern of two different characters is found behind any text that is free of it. -/
theorem cut?_pair {c d : Char} (hcd : c ≠ d) {before : List Char} (rest : List Char)
    (h : ¬ [c, d] <:+: before) :
    cut? [c, d] (before ++ [c, d] ++ rest) = some (before, rest) := by
  rw [List.append_assoc]
  refine cut?_of_first (List.cons_ne_nil c _) ?_
  rintro u v rfl hv ⟨w, hw⟩
  match v, hv with
  | [a], _ =>
    -- the pattern would have to begin with the last character and go on with its own first
    simp only [List.cons_append, List.nil_append, List.cons.injEq] at hw
    exact hcd hw.2.1.symm
  | a :: b :: v, _ =>
    simp only [List.cons_append, List.nil_append, List.cons.injEq] at hw
    obtain ⟨rfl, rfl, -⟩ := hw
    exact h ⟨u, v, by simp⟩

/-- **A cut is the first one**: in front of every occurrence there is at least as much text. -/
theorem length_le_of_cut? {p s before rest u v : List Char} (h : cut? p s = some (before, rest))
    (hs : s = u ++ (p ++ v)) : before.length ≤ u.length := by
  have heq := cut?_eq_some h
  rw [hs, List.append_assoc] at heq
  rcases List.append_eq_append_iff.1 heq with ⟨w, rfl, hw⟩ | ⟨w, rfl, -⟩
  · cases w with
    | nil => simp
    | cons c w => exact absurd ⟨v, hw⟩ (cut?_first h u (c :: w) rfl (List.cons_ne_nil c w))
  · simp

/-- What stands behind an occurrence stands behind the first one too. -/
theorem suffix_of_cut? {p s before rest u v : List Char} (h : cut? p s = some (before, rest))
    (hs : s = u ++ (p ++ v)) : v <:+ rest := by
  have hlength := length_le_of_cut? h hs
  have heq := cut?_eq_some h
  have hsame := congrArg List.length (heq.symm.trans hs)
  simp only [List.length_append] at hsame
  have hgiven : v <:+ s := ⟨u ++ p, by rw [hs, List.append_assoc]⟩
  exact List.suffix_of_suffix_length_le hgiven ⟨before ++ p, heq.symm⟩ (by omega)

/-- The first occurrence of a pattern comes no later than a given one, so what stands behind the
given one stands behind the first one too. -/
theorem exists_cut?_append (p s rest : List Char) :
    ∃ before more, cut? p (s ++ (p ++ rest)) = some (before, more ++ rest) := by
  cases hcut : cut? p (s ++ (p ++ rest)) with
  | none => exact absurd ⟨s, rest, List.append_assoc _ _ _⟩ (cut?_eq_none_iff.1 hcut)
  | some found =>
    obtain ⟨before, after⟩ := found
    obtain ⟨more, rfl⟩ := suffix_of_cut? hcut rfl
    exact ⟨before, more, rfl⟩

/-- Replacing a pattern by itself changes nothing. -/
theorem replaceFirst_self (p s : List Char) : replaceFirst p p s = s := by
  rw [replaceFirst]
  split
  · next before rest hcut => exact (cut?_eq_some hcut).symm
  · rfl

/-! ## Patterns and separating characters -/

/-- A beginning does not reach over a character that it does not have. -/
theorem prefix_of_prefix_append_cons {p u v : List Char} {c : Char} (hc : c ∉ p)
    (h : p <+: u ++ c :: v) : p <+: u := by
  induction u generalizing p with
  | nil =>
    rcases List.prefix_cons_iff.1 h with rfl | ⟨_, rfl, -⟩
    · exact List.prefix_refl []
    · exact absurd List.mem_cons_self hc
  | cons a u ih =>
    rcases List.prefix_cons_iff.1 h with rfl | ⟨q, rfl, hq⟩
    · exact List.nil_prefix
    · exact List.cons_prefix_cons.2 ⟨rfl, ih (fun hmem => hc (List.mem_cons_of_mem _ hmem)) hq⟩

/-- A pattern does not lie across a character that it does not have. -/
theorem infix_append_cons {p u v : List Char} {c : Char} (hc : c ∉ p)
    (h : p <:+: u ++ c :: v) : p <:+: u ∨ p <:+: v := by
  induction u with
  | nil =>
    rcases List.infix_cons_iff.1 h with h | h
    · exact Or.inl (prefix_of_prefix_append_cons hc h).isInfix
    · exact Or.inr h
  | cons a u ih =>
    rcases List.infix_cons_iff.1 h with h | h
    · exact Or.inl (prefix_of_prefix_append_cons hc h).isInfix
    · exact (ih h).imp_left List.infix_cons

/-- Behind a text without its first character, a pattern begins with that character or later. -/
theorem cons_infix_append_cons {p u v : List Char} {c : Char} (hc : c ∉ u)
    (h : c :: p <:+: u ++ c :: v) : p <+: v ∨ c :: p <:+: v := by
  induction u with
  | nil =>
    rcases List.infix_cons_iff.1 h with h | h
    · exact Or.inl (List.cons_prefix_cons.1 h).2
    · exact Or.inr h
  | cons a u ih =>
    rw [List.mem_cons, not_or] at hc
    rcases List.infix_cons_iff.1 h with h | h
    · exact absurd (List.cons_prefix_cons.1 h).1 hc.1
    · exact ih hc.2 h

end RequestRunner.Text
