/-!
# Finding, cutting and replacing

Searching a text for another text. `afterPrefix?` strips an expected beginning, `cut?` splits a text
at the first occurrence of a pattern, `replaceFirst` and `replaceEach` substitute one or every
occurrence, and `splitOn` cuts at every occurrence of one character.

Main statement: a cut loses nothing (`cut?_eq_some`).
-/

set_option autoImplicit false

namespace RequestRunner.Text

/-- What follows the expected beginning, if the text begins with it. -/
def afterPrefix? : List Char → List Char → Option (List Char)
  | [], s => some s
  | _ :: _, [] => none
  | p :: ps, c :: cs => if p = c then afterPrefix? ps cs else none

/-- The text begins with the pattern. -/
def startsWith (pattern s : List Char) : Bool := (afterPrefix? pattern s).isSome

/-- The text before the first occurrence of the pattern, and the text after it. -/
def cut? (pattern : List Char) : List Char → Option (List Char × List Char)
  | [] => (afterPrefix? pattern []).map fun rest => ([], rest)
  | c :: r =>
    match afterPrefix? pattern (c :: r) with
    | some rest => some ([], rest)
    | none => (cut? pattern r).map fun (before, rest) => (c :: before, rest)

/-- The text with the first occurrence of the pattern replaced; a text without it is kept. -/
def replaceFirst (pattern replacement s : List Char) : List Char :=
  match cut? pattern s with
  | some (before, rest) => before ++ replacement ++ rest
  | none => s

/-- The text with each occurrence of a two-character pattern replaced by one character. -/
def replaceEach (first second replacement : Char) : List Char → List Char
  | [] => []
  | [c] => [c]
  | c :: d :: r =>
    if c = first ∧ d = second then replacement :: replaceEach first second replacement r
    else c :: replaceEach first second replacement (d :: r)

/-- The pieces between the occurrences of a separating character. -/
def splitOn (separator : Char) : List Char → List (List Char)
  | [] => [[]]
  | c :: r =>
    match splitOn separator r with
    | [] => [[c]]
    | piece :: pieces => if c = separator then [] :: piece :: pieces else (c :: piece) :: pieces

/-- Pieces joined with a separator between them. -/
def joinWith (separator : List Char) (pieces : List (List Char)) : List Char :=
  (pieces.intersperse separator).flatten

/-- A stripped beginning and the rest are the text. -/
theorem afterPrefix?_eq_some {p s rest : List Char} (h : afterPrefix? p s = some rest) :
    s = p ++ rest := by
  induction p generalizing s with
  | nil => simpa [afterPrefix?] using h
  | cons q qs ih =>
    cases s with
    | nil => simp [afterPrefix?] at h
    | cons c cs =>
      by_cases hq : q = c
      · subst hq
        simp only [afterPrefix?, if_true] at h
        simp [← ih h]
      · simp [afterPrefix?, hq] at h

/-- **A cut loses nothing.** -/
theorem cut?_eq_some {p s before rest : List Char} (h : cut? p s = some (before, rest)) :
    s = before ++ p ++ rest := by
  induction s generalizing before rest with
  | nil =>
    simp only [cut?, Option.map_eq_some_iff] at h
    obtain ⟨r, hr, hp⟩ := h
    have := afterPrefix?_eq_some hr
    injection hp with h₁ h₂
    subst h₁ h₂
    simpa using this
  | cons c r ih =>
    simp only [cut?] at h
    split at h
    · next rest' hr =>
      injection h with h
      injection h with h₁ h₂
      subst h₁ h₂
      simpa using afterPrefix?_eq_some hr
    · simp only [Option.map_eq_some_iff] at h
      obtain ⟨⟨b, r'⟩, hb, hp⟩ := h
      injection hp with h₁ h₂
      subst h₁ h₂
      simp [ih hb]

end RequestRunner.Text
