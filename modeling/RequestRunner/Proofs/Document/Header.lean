import RequestRunner.Proofs.Document.LineKind
import RequestRunner.Proofs.Document.Written

/-!
# Headers are read as they are written

The name of a header that was read is a word without colons that opens neither a comment nor a
handler (`IsFieldName`), and its value is a trimmed text on one line (`readHeaders_sound`). A
written header is neither of these either, so written headers are read up to the next blank line
(`readHeaders_written`).
-/

set_option autoImplicit false

namespace RequestRunner

open Text

/-- The name of a header: a word without colons that opens neither a comment nor a handler. -/
structure IsFieldName (s : List Char) : Prop where
  ne_nil : s ≠ []
  word : ∀ c ∈ s, Text.isBlank c = false ∧ c ≠ ':'
  hash : ¬ ['#'] <+: s
  slashes : ¬ ['/', '/'] <+: s
  opening : ¬ ['>', '\x7b', '%'] <+: s

/-- A header as it is read. -/
structure IsHeader (header : Header) : Prop where
  name : IsFieldName header.name.toList
  isRead : header.value.IsRead
  value : IsValue header.value.text.toList

/-! ## Reading -/

theorem headerParts?_sound {text indent name raw : List Char}
    (h : headerParts? text = some (indent, name, raw)) :
    name ≠ [] ∧ (∀ c ∈ name, Text.isBlank c = false ∧ c ≠ ':') ∧ Unbroken raw ∧
      name <+: trimStart text := by
  rw [headerParts?] at h
  split at h
  · cases h
  · next hname =>
    split at h
    · next raw' hraw =>
      split at h
      · cases h
      · next hbroken =>
        cases h
        refine ⟨mt List.isEmpty_iff.2 hname, ?_, unbroken_iff.2 (Bool.eq_false_iff.2 hbroken),
          List.takeWhile_prefix _⟩
        intro c hc
        have hword := List.mem_takeWhile_imp (p := fun c => !Text.isBlank c && c != ':') hc
        rw [Bool.and_eq_true, Bool.not_eq_true', bne_iff_ne] at hword
        exact hword
    · cases h

/-- A header line that is no comment and opens no handler has a header's name. -/
theorem isFieldName_of_line {line : Line} {indent name raw : List Char}
    (h : headerParts? line.text = some (indent, name, raw)) (hcomment : line.isComment = false)
    (hopens : line.opensHandler = false) : IsFieldName name := by
  obtain ⟨hne, hword, -, hbegins⟩ := headerParts?_sound h
  rw [Bool.eq_false_iff, ne_eq, Line.isComment_iff, not_or] at hcomment
  refine ⟨hne, hword, fun hhash => hcomment.1 (hhash.trans hbegins),
    fun hslashes => hcomment.2 (hslashes.trans hbegins), ?_⟩
  intro hopening
  obtain ⟨rest, hrest⟩ := hopening.trans hbegins
  have hscript : line.opensHandler = true := by
    rw [Line.opensHandler, Line.opensScript_iff]
    exact ⟨'\x7b' :: '%' :: rest, hrest.symm, ⟨rest, rfl⟩⟩
  rw [hopens] at hscript
  cases hscript

/-- **Headers that were read** are headers. -/
theorem readHeaders_sound {filename : String} {lines rest : List Line} {headers : List Header}
    (h : readHeaders filename lines = .ok (headers, rest)) :
    (∀ header ∈ headers, IsHeader header) ∧ rest <:+ lines := by
  induction lines generalizing headers with
  | nil =>
    cases h
    exact ⟨List.forall_mem_nil _, List.suffix_refl _⟩
  | cons line lines ih =>
    rw [readHeaders] at h
    split at h
    · cases h
      exact ⟨List.forall_mem_nil _, List.suffix_refl _⟩
    · next hend =>
      rw [Bool.or_eq_true, not_or, Bool.not_eq_true, Bool.not_eq_true] at hend
      split at h
      · obtain ⟨hheaders, hrest⟩ := ih h
        exact ⟨hheaders, hrest.trans (List.suffix_cons _ _)⟩
      · next hcomment =>
        rw [Bool.not_eq_true] at hcomment
        split at h
        · cases h
        · next header hheader =>
          obtain ⟨⟨more, left⟩, hmore, h⟩ := bind_eq_ok.1 h
          cases h
          obtain ⟨hheaders, hrest⟩ := ih hmore
          refine ⟨?_, hrest.trans (List.suffix_cons _ _)⟩
          rw [List.forall_mem_cons]
          refine ⟨?_, hheaders⟩
          obtain ⟨⟨indent, name, raw⟩, hparts, rfl⟩ := Option.map_eq_some_iff.1 hheader
          refine ⟨?_, Template.isRead_ofText _ _ _, ?_⟩
          · rw [String.toList_ofList]
            exact isFieldName_of_line hparts hcomment hend.2
          · rw [Template.toList_text_ofText]
            obtain ⟨-, -, hraw, -⟩ := headerParts?_sound hparts
            exact ⟨trimmed_trim raw, hraw.of_isInfix (trim_isInfix raw)⟩

/-! ## Reading back -/

/-- The name and the value of a written header. -/
theorem headerParts?_written {name value : List Char} (hname : IsFieldName name)
    (hvalue : IsValue value) :
    headerParts? (name ++ ':' :: ' ' :: value) = some ([], name, ' ' :: value) := by
  obtain ⟨c, rest, rfl⟩ := List.exists_cons_of_ne_nil hname.ne_nil
  have hc : Text.isBlank c = false := (hname.word c List.mem_cons_self).1
  have hword : ∀ d ∈ c :: rest, (!Text.isBlank d && d != ':') = true := by
    intro d hd
    rw [Bool.and_eq_true, Bool.not_eq_true', bne_iff_ne]
    exact hname.word d hd
  have hcontent : trimStart (c :: rest ++ ':' :: ' ' :: value) =
      c :: rest ++ ':' :: ' ' :: value := trimStart_cons_of_not_isBlank _ hc
  have hindent : leadingBlank (c :: rest ++ ':' :: ' ' :: value) = [] := by
    rw [leadingBlank, List.cons_append, List.takeWhile_cons_of_neg]
    rw [hc]
    exact Bool.false_ne_true
  have htake : (c :: rest ++ ':' :: ' ' :: value).takeWhile
      (fun c => !Text.isBlank c && c != ':') = c :: rest := by
    rw [List.takeWhile_append_of_pos hword, List.takeWhile_cons_of_neg (by decide),
      List.append_nil]
  have hdrop : (c :: rest ++ ':' :: ' ' :: value).dropWhile
      (fun c => !Text.isBlank c && c != ':') = ':' :: ' ' :: value := by
    rw [List.dropWhile_append_of_pos hword, List.dropWhile_cons_of_neg (by decide)]
  have hcolon : trimStart (':' :: ' ' :: value) = ':' :: ' ' :: value := rfl
  have hraw : (' ' :: value).any isLineEnd = false := unbroken_iff.1 (hvalue.unbroken.cons rfl)
  rw [headerParts?]
  simp only [hcontent, hindent, htake, hdrop, hcolon, hraw, List.isEmpty_cons, Bool.false_eq_true,
    if_false]

/-- A written header is neither blank nor a comment and opens no handler. -/
theorem kind_of_written {name value : List Char} (hname : IsFieldName name) {line : Line}
    (hline : line.text = name ++ ':' :: ' ' :: value) :
    line.isBlank = false ∧ line.isComment = false ∧ line.opensHandler = false := by
  obtain ⟨c, rest, rfl⟩ := List.exists_cons_of_ne_nil hname.ne_nil
  have hc : Text.isBlank c = false := (hname.word c List.mem_cons_self).1
  have hcontent : line.content = c :: rest ++ ':' :: ' ' :: value :=
    Line.content_of_cons hline hc
  refine ⟨Line.isBlank_of_cons hline hc, ?_, ?_⟩
  · rw [Bool.eq_false_iff, ne_eq, Line.isComment_iff, hcontent, not_or]
    exact ⟨fun hhash => hname.hash (prefix_of_prefix_append_cons (by decide) hhash),
      fun hslashes => hname.slashes (prefix_of_prefix_append_cons (by decide) hslashes)⟩
  · rw [Bool.eq_false_iff]
    intro hopens
    rw [Line.opensHandler, Line.opensScript_iff, hcontent] at hopens
    obtain ⟨behind, heq, hopening⟩ := hopens
    cases heq
    -- the delimiter would have to stand in the name, which has no blank, or to be the colon
    cases rest with
    | nil => exact absurd (List.cons_prefix_cons.1 hopening).1 (by decide)
    | cons d rest =>
      have hd : Text.isBlank d = false :=
        (hname.word d (List.mem_cons_of_mem _ List.mem_cons_self)).1
      have hstart : trimStart (d :: rest ++ ':' :: ' ' :: value) =
          d :: rest ++ ':' :: ' ' :: value := trimStart_cons_of_not_isBlank _ hd
      rw [List.append_eq, hstart] at hopening
      exact hname.opening
        (List.cons_prefix_cons.2 ⟨rfl, prefix_of_prefix_append_cons (by decide) hopening⟩)

/-- **Written headers are read** up to the end or the next blank line. -/
theorem readHeaders_written (filename : String) {headers : List Header}
    (h : ∀ header ∈ headers, IsHeader header) {lines rest : List Line}
    (hlines : lines.map Line.text = headers.map Header.written)
    (hrest : ∀ line ∈ rest.head?, line.isBlank = true) :
    ∃ again, readHeaders filename (lines ++ rest) = .ok (again, rest) ∧
      again.map Header.unplaced = headers.map Header.unplaced := by
  induction headers generalizing lines with
  | nil =>
    obtain rfl := List.map_eq_nil_iff.1 hlines
    refine ⟨[], ?_, rfl⟩
    cases rest with
    | nil => rfl
    | cons line rest =>
      rw [List.nil_append, readHeaders, hrest line rfl]
      rfl
  | cons header headers ih =>
    rw [List.forall_mem_cons] at h
    obtain ⟨first, more, rfl, hfirst, hmore⟩ := List.map_eq_cons_iff.1 hlines
    obtain ⟨again, hagain, hsame⟩ := ih h.2 hmore
    have htext : first.text = header.name.toList ++ ':' :: ' ' :: header.value.text.toList := by
      rw [hfirst, Header.written, List.append_assoc]
      rfl
    obtain ⟨hblank, hcomment, hopens⟩ := kind_of_written h.1.name htext
    have hparts := headerParts?_written h.1.name h.1.value
    have htrim : trim (' ' :: header.value.text.toList) = header.value.text.toList :=
      h.1.value.trimmed.trim_append [' '] rfl
    obtain ⟨found, hfound, hunplaced⟩ : ∃ found, readHeader? filename first = some found ∧
        found.unplaced = header.unplaced := by
      rw [readHeader?, htext, hparts]
      refine ⟨_, rfl, ?_⟩
      simp only [Header.unplaced, htrim, Template.unplaced_ofText h.1.isRead, String.ofList_toList]
    refine ⟨found :: again, ?_, ?_⟩
    · rw [List.cons_append, readHeaders, hblank, hopens, hcomment, hfound, hagain]
      rfl
    · rw [List.map_cons, List.map_cons, hsame, hunplaced]

/-- A written header is no separator. -/
theorem Header.not_separator_written {header : Header} (h : IsHeader header) :
    ¬ ['#', '#', '#'] <+: header.written := by
  intro hseparator
  have hwritten : header.written =
      header.name.toList ++ ':' :: (' ' :: header.value.text.toList) := by
    rw [Header.written, List.append_assoc]
    rfl
  rw [hwritten] at hseparator
  have hname := prefix_of_prefix_append_cons (by decide) hseparator
  exact h.name.hash (List.IsPrefix.trans (by decide) hname)

theorem Header.unbroken_written {header : Header} (h : IsHeader header) :
    Unbroken header.written := by
  have hname : Unbroken header.name.toList := fun c hc =>
    isLineEnd_of_not_isBlank (h.name.word c hc).1
  exact (hname.append (unbroken_iff.2 rfl)).append h.value.unbroken

end RequestRunner
