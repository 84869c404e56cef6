import RequestRunner.Text.Units

/-!
# The order of texts by their 16-bit units

No two texts have the same units (`codeUnits_injective`): a character outside the basic plane is a
pair of surrogates, and no character of the basic plane is one. So of two different texts one
precedes the other (`precedes_or_of_ne`).
-/

set_option autoImplicit false

namespace RequestRunner.Text

/-- The number of a character is that of no surrogate. -/
theorem toNat_bounds (c : Char) :
    c.toNat < 0xD800 ∨ 0xDFFF < c.toNat ∧ c.toNat < 0x110000 := c.valid

/-- The units of a character are told apart from what follows them. -/
theorem charCodeUnits_append_inj {c d : Char} {us vs : List Nat}
    (h : charCodeUnits c ++ us = charCodeUnits d ++ vs) : c = d ∧ us = vs := by
  have hc := toNat_bounds c
  have hd := toNat_bounds d
  suffices hboth : c.toNat = d.toNat ∧ us = vs from ⟨Char.toNat_inj.1 hboth.1, hboth.2⟩
  unfold charCodeUnits at h
  dsimp only at h
  split at h <;> split at h
  · simpa using h
  · -- the first unit is that of a character on one side and a surrogate on the other
    simp only [List.cons_append, List.cons.injEq] at h
    omega
  · simp only [List.cons_append, List.cons.injEq] at h
    omega
  · simp only [List.cons_append, List.nil_append, List.cons.injEq] at h
    obtain ⟨hhigh, hlow, hrest⟩ := h
    exact ⟨by omega, hrest⟩

theorem charCodeUnits_ne_nil (c : Char) : charCodeUnits c ≠ [] := by
  unfold charCodeUnits
  dsimp only
  split <;> simp

/-- **No two texts have the same units.** -/
theorem codeUnits_injective {s t : List Char} (h : codeUnits s = codeUnits t) : s = t := by
  induction s generalizing t with
  | nil =>
    cases t with
    | nil => rfl
    | cons d t =>
      have hnil := List.append_eq_nil_iff.1 h.symm
      exact absurd hnil.1 (charCodeUnits_ne_nil d)
  | cons c s ih =>
    cases t with
    | nil =>
      have hnil := List.append_eq_nil_iff.1 h
      exact absurd hnil.1 (charCodeUnits_ne_nil c)
    | cons d t =>
      obtain ⟨rfl, hrest⟩ := charCodeUnits_append_inj h
      rw [ih hrest]

theorem precedes_iff {a b : String} :
    precedes a b = true ↔ codeUnits a.toList < codeUnits b.toList := decide_eq_true_iff

theorem not_precedes_trans {a b c : String} (hab : precedes b a = false)
    (hbc : precedes c b = false) : precedes c a = false := by
  rw [Bool.eq_false_iff, Ne, precedes_iff, List.not_lt] at *
  exact List.le_trans hab hbc

/-- No two texts precede each other. -/
theorem not_precedes_or (a b : String) : precedes b a = false ∨ precedes a b = false := by
  rw [Bool.eq_false_iff, Bool.eq_false_iff, Ne, Ne, precedes_iff, precedes_iff, List.not_lt,
    List.not_lt]
  exact List.le_total _ _

/-- **Of two different texts one precedes the other.** -/
theorem precedes_or_of_ne {a b : String} (h : a ≠ b) :
    precedes a b = true ∨ precedes b a = true := by
  by_cases hab : codeUnits a.toList < codeUnits b.toList
  · exact Or.inl (precedes_iff.2 hab)
  by_cases hba : codeUnits b.toList < codeUnits a.toList
  · exact Or.inr (precedes_iff.2 hba)
  have hsame := List.le_antisymm (List.not_lt.1 hba) (List.not_lt.1 hab)
  exact absurd (String.toList_inj.1 (codeUnits_injective hsame)) h

end RequestRunner.Text
