import RequestRunner.Proofs.Document.LineKind
import RequestRunner.Proofs.Document.Written

/-!
# Declarations are read as they are written

A declaration that was read has a variable name and a value: a trimmed text on one line
(`readDeclarations_sound`). Written on a line of its own such a declaration is read again
(`declarationParts?_written`), and written declarations are read up to the first line that is
neither trivia nor a declaration (`readDeclarations_written`).
-/

set_option autoImplicit false

namespace RequestRunner

open Text

/-- The name of a variable. -/
def IsVariableName (s : List Char) : Prop :=
  ∃ c rest, s = c :: rest ∧ isNameStart c = true ∧ ∀ d ∈ rest, isNamePart d = true

/-- A declaration as it is read. -/
structure IsDeclaration (declaration : Declaration) : Prop where
  name : IsVariableName declaration.1.toList
  isRead : declaration.2.IsRead
  value : IsValue declaration.2.text.toList

/-- No line end is part of a name. -/
theorem isNamePart_of_isLineEnd {c : Char} (h : isLineEnd c = true) : isNamePart c = false := by
  have hc := Char.ofNat_toNat c
  simp only [isLineEnd, Bool.or_eq_true, beq_iff_eq] at h
  rcases h with ((h | h) | h) | h <;> (rw [← hc, h]; decide)

theorem isNamePart_of_isNameStart {c : Char} (h : isNameStart c = true) : isNamePart c = true := by
  simp only [isNameStart, isNamePart, Char.isAlphanum, Bool.or_eq_true] at h ⊢
  rcases h with (h | h) | h <;> simp only [h, true_or, or_true]

theorem IsVariableName.unbroken {s : List Char} (h : IsVariableName s) : Unbroken s := by
  obtain ⟨c, rest, rfl, hc, hrest⟩ := h
  have hpart : ∀ d ∈ c :: rest, isNamePart d = true :=
    List.forall_mem_cons.2 ⟨isNamePart_of_isNameStart hc, hrest⟩
  intro d hd
  rw [Bool.eq_false_iff]
  intro hend
  exact Bool.eq_false_iff.1 (isNamePart_of_isLineEnd hend) (hpart d hd)

/-- The name and the value of a declaration line. -/
theorem declarationParts?_sound {text name lead raw : List Char}
    (h : declarationParts? text = some (name, lead, raw)) : IsVariableName name ∧ IsValue raw := by
  unfold declarationParts? at h
  split at h
  · next c rest htext =>
    split at h
    · next hstart =>
      dsimp only at h
      split at h
      · next value htail =>
        split at h
        · cases h
        · next hbroken =>
          cases h
          rw [Bool.not_eq_true] at hbroken
          exact ⟨⟨c, _, rfl, hstart, fun d hd => List.mem_takeWhile_imp hd⟩, trimmed_trim value,
            unbroken_iff.2 hbroken⟩
      · cases h
    · cases h
  · cases h

/-- **Declarations that were read** have a variable name and a value. -/
theorem readDeclarations_sound {filename : String} {lines rest : List Line}
    {declarations : List Declaration}
    (h : readDeclarations filename lines = .ok (declarations, rest)) :
    (∀ declaration ∈ declarations, IsDeclaration declaration) ∧ rest <:+ lines := by
  induction lines generalizing declarations with
  | nil =>
    cases h
    exact ⟨List.forall_mem_nil _, List.suffix_refl _⟩
  | cons line lines ih =>
    rw [readDeclarations] at h
    split at h
    · obtain ⟨hdeclarations, hrest⟩ := ih h
      exact ⟨hdeclarations, hrest.trans (List.suffix_cons _ _)⟩
    · split at h
      · split at h
        · cases h
        · next name lead raw hparts =>
          obtain ⟨⟨more, left⟩, hmore, h⟩ := bind_eq_ok.1 h
          cases h
          obtain ⟨hdeclarations, hrest⟩ := ih hmore
          obtain ⟨hname, hraw⟩ := declarationParts?_sound hparts
          refine ⟨?_, hrest.trans (List.suffix_cons _ _)⟩
          rw [List.forall_mem_cons]
          refine ⟨⟨?_, Template.isRead_ofText _ _ _, ?_⟩, hdeclarations⟩
          · rw [String.toList_ofList]
            exact hname
          · rw [Template.toList_text_ofText]
            exact hraw
      · cases h
        exact ⟨List.forall_mem_nil _, List.suffix_refl _⟩

/-- The name and the value of a written declaration. -/
theorem declarationParts?_written {name value : List Char} (hname : IsVariableName name)
    (hvalue : IsValue value) :
    ∃ lead, declarationParts? ('@' :: name ++ [' ', '=', ' '] ++ value) =
      some (name, lead, value) := by
  obtain ⟨c, rest, rfl, hstart, hparts⟩ := hname
  have hlist : '@' :: (c :: rest) ++ [' ', '=', ' '] ++ value =
      '@' :: c :: (rest ++ ' ' :: '=' :: ' ' :: value) := by
    simp only [List.cons_append, List.append_assoc, List.nil_append]
  have hcontent : trimStart ('@' :: c :: (rest ++ ' ' :: '=' :: ' ' :: value)) =
      '@' :: c :: (rest ++ ' ' :: '=' :: ' ' :: value) :=
    trimStart_cons_of_not_isBlank _ (by decide)
  have htake : (rest ++ ' ' :: '=' :: ' ' :: value).takeWhile isNamePart = rest := by
    rw [List.takeWhile_append_of_pos hparts, List.takeWhile_cons_of_neg (by decide),
      List.append_nil]
  have hdrop : (rest ++ ' ' :: '=' :: ' ' :: value).dropWhile isNamePart =
      ' ' :: '=' :: ' ' :: value := by
    rw [List.dropWhile_append_of_pos hparts, List.dropWhile_cons_of_neg (by decide)]
  have htail : trimStart (' ' :: '=' :: ' ' :: value) = '=' :: ' ' :: value := rfl
  have htrim : trim (' ' :: value) = value := hvalue.trimmed.trim_append [' '] rfl
  rw [hlist, declarationParts?]
  simp only [hcontent, hstart, if_true, hdrop, htail, htrim, htake,
    unbroken_iff.1 hvalue.unbroken, Bool.false_eq_true, if_false]
  exact ⟨_, rfl⟩

/-- **Written declarations are read** up to the first line that is neither trivia nor a
declaration. -/
theorem readDeclarations_written (filename : String) {declarations : List Declaration}
    (h : ∀ declaration ∈ declarations, IsDeclaration declaration) {lines : List Line} {line : Line}
    (rest : List Line) (hlines : lines.map Line.text = declarations.map Declaration.written)
    (htrivia : line.isTrivia = false) (hline : line.opensDeclaration = false) :
    ∃ again, readDeclarations filename (lines ++ line :: rest) = .ok (again, line :: rest) ∧
      again.map Declaration.unplaced = declarations.map Declaration.unplaced := by
  induction declarations generalizing lines with
  | nil =>
    obtain rfl := List.map_eq_nil_iff.1 hlines
    refine ⟨[], ?_, rfl⟩
    rw [List.nil_append, readDeclarations, htrivia, hline]
    rfl
  | cons declaration declarations ih =>
    rw [List.forall_mem_cons] at h
    obtain ⟨first, more, rfl, hfirst, hmore⟩ := List.map_eq_cons_iff.1 hlines
    obtain ⟨again, hagain, hsame⟩ := ih h.2 hmore
    obtain ⟨lead, hparts⟩ := declarationParts?_written h.1.name h.1.value
    have htext : first.text = '@' :: (declaration.1.toList ++ [' ', '=', ' '] ++
        declaration.2.text.toList) := hfirst
    have hblank : Text.isBlank '@' = false := by decide
    have hnottrivia : first.isTrivia = false :=
      Line.isTrivia_of_cons htext hblank (by decide) (by decide)
    have hopens : first.opensDeclaration = true := by
      rw [Line.opensDeclaration, Line.content_of_cons htext hblank]
      rfl
    let column : Position := ⟨first.number, Text.units lead + 1⟩
    let value := Template.ofText filename declaration.2.text.toList column
    refine ⟨(String.ofList declaration.1.toList, value) :: again, ?_, ?_⟩
    · rw [List.cons_append, readDeclarations, hnottrivia, hopens, hfirst, Declaration.written,
        hparts]
      simp only [Bool.false_eq_true, if_false, if_true, hagain]
      rfl
    · have hvalue : value.unplaced = declaration.2.unplaced :=
        Template.unplaced_ofText h.1.isRead filename column
      rw [List.map_cons, List.map_cons, hsame, Declaration.unplaced, Declaration.unplaced, hvalue,
        String.ofList_toList]

theorem Declaration.unbroken_written {declaration : Declaration} (h : IsDeclaration declaration) :
    Unbroken declaration.written :=
  ((h.name.unbroken.cons rfl).append (unbroken_iff.2 rfl)).append h.value.unbroken

end RequestRunner
