import Mathlib.Data.List.Chain
import RequestRunner.Output.Format

/-!
# The grammar of formats

A format is written in units (`Format.IsUnit`): a character that is no percent sign, a doubled
percent sign, or a percent sign with the letter of a directive. What is read of a format is normal
(`Format.IsNormal`): literal text is never empty, and between two pieces of it there is a directive.

Reading keeps the literal text that is not yet a piece beside the pieces. What is read is normal and
is written as that text and what was left of the format (`Format.readFrom_sound`), every text in
units is read (`Format.exists_readFrom`), and a normal format is read back
(`Format.readFrom_written`). So exactly the texts in units are formats, and reading and writing them
undo each other (`Format.read_accepts_units`).
-/

set_option autoImplicit false

namespace RequestRunner

/-- The piece is literal text. -/
def FormatItem.IsLiteral (item : FormatItem) : Prop := ∃ text, item = .chars text

namespace Format

/-- A unit of a written format. -/
inductive IsUnit : List Char → Prop where
  /-- A character that stands for itself. -/
  | plain {c : Char} (h : c ≠ '%') : IsUnit [c]
  /-- A percent sign, written twice. -/
  | doubled : IsUnit ['%', '%']
  /-- A directive. -/
  | directive {c : Char} (h : c ∈ ['R', 'H', 'B', 'T', 'N']) : IsUnit ['%', c]

/-- The text is a concatenation of units. -/
def InUnits (s : List Char) : Prop :=
  ∃ units : List (List Char), s = units.flatten ∧ ∀ unit ∈ units, IsUnit unit

/-- No literal text is empty, and no two pieces of it are neighbours. -/
structure IsNormal (format : Format) : Prop where
  filled : FormatItem.chars "" ∉ format
  apart : format.IsChain fun item next => ¬ (item.IsLiteral ∧ next.IsLiteral)

/-! ## Directives and literal text -/

/-- A directive is written as a percent sign and its letter. -/
theorem directive?_eq_some {c : Char} {item : FormatItem} (h : directive? c = some item) :
    c ∈ ['R', 'H', 'B', 'T', 'N'] ∧ writtenItem item = ['%', c] ∧ ¬ item.IsLiteral := by
  unfold directive? at h
  split at h
  case h_6 => cases h
  all_goals
    cases h
    refine ⟨by simp, rfl, ?_⟩
    rintro ⟨text, ⟨⟩⟩

theorem exists_directive {c : Char} (h : c ∈ ['R', 'H', 'B', 'T', 'N']) :
    ∃ item, directive? c = some item := by
  simp only [List.mem_cons, List.not_mem_nil, or_false] at h
  rcases h with rfl | rfl | rfl | rfl | rfl
  all_goals exact ⟨_, rfl⟩

/-- A piece is literal text or the directive of a letter. -/
theorem isLiteral_or_directive (item : FormatItem) :
    item.IsLiteral ∨ ∃ c, directive? c = some item := by
  cases item with
  | chars text => exact Or.inl ⟨text, rfl⟩
  | firstLine => exact Or.inr ⟨'R', rfl⟩
  | headers => exact Or.inr ⟨'H', rfl⟩
  | body => exact Or.inr ⟨'B', rfl⟩
  | tests => exact Or.inr ⟨'T', rfl⟩
  | name => exact Or.inr ⟨'N', rfl⟩

/-- Literal text as it is written. -/
def spelled (s : List Char) : List Char := s.flatMap fun c => if c = '%' then ['%', '%'] else [c]

theorem writtenItem_chars (text : String) : writtenItem (.chars text) = spelled text.toList := rfl

theorem spelled_concat_percent (s : List Char) : spelled (s ++ ['%']) = spelled s ++ ['%', '%'] := by
  simp [spelled]

theorem spelled_concat_plain (s : List Char) {c : Char} (h : c ≠ '%') :
    spelled (s ++ [c]) = spelled s ++ [c] := by
  simp [spelled, h]

theorem flatMap_writtenItem_literal (s : List Char) : (literal s).flatMap writtenItem = spelled s := by
  cases s with
  | nil => rfl
  | cons c s => simp [literal, writtenItem_chars]

/-- Literal text as a piece is that text, unless it is empty. -/
theorem literal_toList {text : String} (h : text ≠ "") : literal text.toList = [.chars text] := by
  cases htext : text.toList with
  | nil => exact absurd (String.toList_inj.1 htext) h
  | cons c rest =>
    rw [literal, ← htext, String.ofList_toList]
    exact List.cons_ne_nil c rest

/-! ## Normal formats -/

theorem isNormal_literal (s : List Char) : IsNormal (literal s) := by
  cases s with
  | nil => exact ⟨List.not_mem_nil, List.IsChain.nil⟩
  | cons c s =>
    refine ⟨?_, List.IsChain.singleton _⟩
    intro hmem
    have hempty : "" = String.ofList (c :: s) := FormatItem.chars.inj (List.mem_singleton.1 hmem)
    simpa using congrArg String.toList hempty

/-- A directive sets literal text off from what follows. -/
theorem isNormal_literal_append {item : FormatItem} {items : Format} (s : List Char)
    (hitem : ¬ item.IsLiteral) (h : IsNormal items) : IsNormal (literal s ++ item :: items) := by
  constructor
  · intro hmem
    rcases List.mem_append.1 hmem with hmem | hmem
    · exact (isNormal_literal s).filled hmem
    · rcases List.mem_cons.1 hmem with rfl | hmem
      · exact hitem ⟨"", rfl⟩
      · exact h.filled hmem
  · apply List.isChain_append.2
    refine ⟨(isNormal_literal s).apart, ?_, ?_⟩
    · apply List.isChain_cons.2
      exact ⟨fun _ _ hboth => hitem hboth.1, h.apart⟩
    · rintro _ _ _ ⟨⟩ hboth
      exact hitem hboth.2

theorem IsNormal.tail {item : FormatItem} {items : Format} (h : IsNormal (item :: items)) :
    IsNormal items :=
  ⟨fun hmem => h.filled (List.mem_cons_of_mem item hmem), (List.isChain_cons.1 h.apart).2⟩

/-! ## Reading unit by unit -/

section Reading

variable (format : String) (pending : List Char)

theorem readFrom_plain {c : Char} (h : c ≠ '%') (rest : List Char) :
    readFrom format pending (c :: rest) = readFrom format (pending ++ [c]) rest := by
  rw [readFrom]
  -- none of the earlier cases of the reader begins with such a character
  all_goals
    intros
    contradiction

theorem readFrom_directive {c : Char} {item : FormatItem} (h : directive? c = some item)
    (rest : List Char) :
    readFrom format pending ('%' :: c :: rest) =
      (readFrom format [] rest).map fun items => literal pending ++ item :: items := by
  rw [readFrom]
  · rw [h]
  · rintro rfl
    cases h

/-- Literal text that is written is read as such. -/
theorem readFrom_spelled (s rest : List Char) :
    readFrom format pending (spelled s ++ rest) = readFrom format (pending ++ s) rest := by
  induction s generalizing pending with
  | nil => simp [spelled]
  | cons c s ih =>
    have hspelled : spelled (c :: s) = (if c = '%' then ['%', '%'] else [c]) ++ spelled s := rfl
    rw [hspelled, List.append_cons pending c s, ← ih]
    split
    · next hc =>
      subst hc
      rfl
    · next hc => exact readFrom_plain format pending hc _

end Reading

/-- **What is read is normal**, and it is written as the literal text that was pending and what was
left of the format. -/
theorem readFrom_sound {format : String} {pending s : List Char} {items : Format}
    (h : readFrom format pending s = .ok items) :
    IsNormal items ∧ items.flatMap writtenItem = spelled pending ++ s := by
  fun_induction readFrom format pending s generalizing items with
  | case1 pending =>
    cases h
    exact ⟨isNormal_literal pending, by rw [flatMap_writtenItem_literal, List.append_nil]⟩
  | case2 pending rest ih =>
    obtain ⟨hnormal, hwritten⟩ := ih h
    refine ⟨hnormal, ?_⟩
    rw [hwritten, spelled_concat_percent, List.append_assoc]
    rfl
  | case3 pending c rest hc hnone => cases h
  | case4 pending c rest hc item hitem ih =>
    -- the pending text becomes a piece in front of the directive
    obtain ⟨-, hletter, hliteral⟩ := directive?_eq_some hitem
    cases hrest : readFrom format [] rest with
    | error e =>
      rw [hrest] at h
      cases h
    | ok more =>
      rw [hrest] at h
      cases h
      obtain ⟨hnormal, hwritten⟩ := ih hrest
      refine ⟨isNormal_literal_append pending hliteral hnormal, ?_⟩
      rw [List.flatMap_append, List.flatMap_cons, flatMap_writtenItem_literal, hletter, hwritten]
      rfl
  | case5 pending => cases h
  | case6 pending c rest hdoubled hpair hlone ih =>
    have hc : c ≠ '%' := by
      rintro rfl
      cases rest with
      | nil => exact hlone rfl rfl
      | cons next rest => exact hpair next rest rfl rfl
    obtain ⟨hnormal, hwritten⟩ := ih h
    refine ⟨hnormal, ?_⟩
    rw [hwritten, spelled_concat_plain pending hc, List.append_assoc]
    rfl

/-- **A normal format is read as it is written**, behind literal text if it does not begin with
such a piece. -/
theorem readFrom_written (format : String) (pending : List Char) {items : Format}
    (h : IsNormal items) (hpending : pending ≠ [] → ∀ item ∈ items.head?, ¬ item.IsLiteral) :
    readFrom format pending (items.flatMap writtenItem) = .ok (literal pending ++ items) := by
  induction items generalizing pending with
  | nil => rw [List.append_nil]; rfl
  | cons item items ih =>
    have hnext := (List.isChain_cons.1 h.apart).1
    rw [List.flatMap_cons]
    rcases isLiteral_or_directive item with ⟨text, rfl⟩ | ⟨c, hc⟩
    · -- the piece is pending next, and the one behind it is a directive
      have hnone : pending = [] := by
        by_contra hne
        exact hpending hne _ rfl ⟨text, rfl⟩
      have hfilled : text ≠ "" := by
        rintro rfl
        exact h.filled List.mem_cons_self
      have hbehind : ∀ next ∈ items.head?, ¬ next.IsLiteral := fun next hmem hliteral =>
        hnext next hmem ⟨⟨text, rfl⟩, hliteral⟩
      rw [hnone, writtenItem_chars, readFrom_spelled, List.nil_append,
        ih text.toList h.tail fun _ => hbehind, literal_toList hfilled]
      rfl
    · obtain ⟨-, hwritten, -⟩ := directive?_eq_some hc
      have hrest := ih [] h.tail fun hne => absurd rfl hne
      rw [hwritten, List.cons_append, List.singleton_append, readFrom_directive format pending hc,
        hrest]
      rfl

/-! ## Texts in units -/

theorem inUnits_nil : InUnits [] := ⟨[], rfl, List.forall_mem_nil _⟩

theorem IsUnit.inUnits {s : List Char} (h : IsUnit s) : InUnits s :=
  ⟨[s], by simp, by simpa using h⟩

theorem InUnits.append {s t : List Char} (hs : InUnits s) (ht : InUnits t) : InUnits (s ++ t) := by
  obtain ⟨units, rfl, hunits⟩ := hs
  obtain ⟨more, rfl, hmore⟩ := ht
  exact ⟨units ++ more, List.flatten_append.symm, List.forall_mem_append.2 ⟨hunits, hmore⟩⟩

theorem inUnits_flatMap {α : Type} {f : α → List Char} {xs : List α} (h : ∀ x ∈ xs, InUnits (f x)) :
    InUnits (xs.flatMap f) := by
  induction xs with
  | nil => exact inUnits_nil
  | cons x xs ih =>
    rw [List.forall_mem_cons] at h
    rw [List.flatMap_cons]
    exact h.1.append (ih h.2)

/-- Every piece is written in units. -/
theorem inUnits_writtenItem (item : FormatItem) : InUnits (writtenItem item) := by
  rcases isLiteral_or_directive item with ⟨text, rfl⟩ | ⟨c, hc⟩
  · apply inUnits_flatMap
    intro c _
    split
    · exact IsUnit.doubled.inUnits
    · next hc => exact (IsUnit.plain hc).inUnits
  · obtain ⟨hletter, hwritten, -⟩ := directive?_eq_some hc
    rw [hwritten]
    exact (IsUnit.directive hletter).inUnits

/-- **A text in units is read**, whatever is pending. -/
theorem exists_readFrom (format : String) (pending : List Char) {units : List (List Char)}
    (h : ∀ unit ∈ units, IsUnit unit) :
    ∃ items, readFrom format pending units.flatten = .ok items := by
  induction units generalizing pending with
  | nil => exact ⟨literal pending, rfl⟩
  | cons unit units ih =>
    obtain ⟨hunit, hrest⟩ := List.forall_mem_cons.1 h
    rw [List.flatten_cons]
    cases hunit with
    | @plain c hc =>
      rw [List.singleton_append, readFrom_plain format pending hc]
      exact ih _ hrest
    | doubled => exact ih (pending ++ ['%']) hrest
    | @directive c hc =>
      obtain ⟨item, hitem⟩ := exists_directive hc
      obtain ⟨items, hitems⟩ := ih [] hrest
      refine ⟨literal pending ++ item :: items, ?_⟩
      rw [List.cons_append, List.singleton_append, readFrom_directive format pending hitem, hitems]
      rfl

/-- **Exactly the texts in units are formats.** What is read of such a text is normal and written as
the text, and every normal format is read from what is written of it. -/
theorem read_accepts_units :
    (∀ format : String,
      ((∃ items, read format = .ok items) ↔ InUnits format.toList) ∧
        ∀ items, read format = .ok items → IsNormal items ∧ written items = format) ∧
      ∀ items, IsNormal items → read (written items) = .ok items := by
  constructor
  · intro format
    have hsound : ∀ items, read format = .ok items →
        IsNormal items ∧ items.flatMap writtenItem = format.toList :=
      fun items hitems => readFrom_sound hitems
    refine ⟨⟨?_, ?_⟩, ?_⟩
    · rintro ⟨items, hitems⟩
      rw [← (hsound items hitems).2]
      exact inUnits_flatMap fun item _ => inUnits_writtenItem item
    · rintro ⟨units, hformat, hunits⟩
      rw [read, hformat]
      exact exists_readFrom format [] hunits
    · intro items hitems
      obtain ⟨hnormal, hwritten⟩ := hsound items hitems
      exact ⟨hnormal, by rw [written, hwritten, String.ofList_toList]⟩
  · intro items hitems
    rw [read, written, String.toList_ofList]
    exact readFrom_written _ [] hitems fun hne => absurd rfl hne

/-- Doubled percent signs next to a directive, and a character outside the basic plane. -/
theorem read_accepts_units_percents :
    read "%%%R%%😀" = .ok [.chars "%", .firstLine, .chars "%😀"] ∧
      written [.chars "%", .firstLine, .chars "%😀"] = "%%%R%%😀" ∧
        read (written [.chars "%", .firstLine, .chars "%😀"]) =
          .ok [.chars "%", .firstLine, .chars "%😀"] := by
  have hread : read "%%%R%%😀" = .ok [.chars "%", .firstLine, .chars "%😀"] := by rfl
  obtain ⟨hnormal, hwritten⟩ := (read_accepts_units.1 "%%%R%%😀").2 _ hread
  exact ⟨hread, hwritten, read_accepts_units.2 _ hnormal⟩

end Format

end RequestRunner
