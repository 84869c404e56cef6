import Mathlib.Data.List.DropRight
import RequestRunner.Text.Blank

/-!
# Trimmed texts

A text is trimmed if it has no blank at either end (`Trimmed`), and trimming makes it so
(`trimmed_trim`). What is trimmed off a joined text depends on the part at that end alone, unless
the part is blank (`trimEnd_append`, `trimStart_append`), so a trimmed text is found again between
blanks (`Trimmed.trim_between`).
-/

set_option autoImplicit false

namespace RequestRunner.Text

/-! ## Runs -/

section Runs

variable {α : Type} {p : α → Bool} {s rest : List α} (hs : ∀ c ∈ s, p c = true)
  (hrest : ∀ c, rest.head? = some c → p c = false)

include hs hrest

/-- A run ends where something else is next. -/
theorem takeWhile_run : (s ++ rest).takeWhile p = s := by
  rw [List.takeWhile_append_of_pos hs]
  cases rest with
  | nil => simp
  | cons c more => simp [List.takeWhile, hrest c rfl]

theorem dropWhile_run : (s ++ rest).dropWhile p = rest := by
  rw [List.dropWhile_append_of_pos hs]
  cases rest with
  | nil => rfl
  | cons c more => simp [List.dropWhile, hrest c rfl]

/-- What begins with a run begins with no other run of the kind. -/
theorem run_unique {s' rest' : List α} (hs' : ∀ c ∈ s', p c = true)
    (hrest' : ∀ c, rest'.head? = some c → p c = false) (h : s ++ rest = s' ++ rest') :
    s = s' ∧ rest = rest' := by
  have hrun := takeWhile_run hs hrest
  have hbehind := dropWhile_run hs hrest
  rw [h] at hrun hbehind
  exact ⟨hrun.symm.trans (takeWhile_run hs' hrest'), hbehind.symm.trans (dropWhile_run hs' hrest')⟩

end Runs

/-! ## Blanks -/

theorem allBlank_nil : allBlank [] = true := rfl

theorem allBlank_append (s t : List Char) : allBlank (s ++ t) = (allBlank s && allBlank t) :=
  List.all_append

theorem allBlank_leadingBlank (s : List Char) : allBlank (leadingBlank s) = true :=
  List.all_takeWhile

theorem allBlank_trailingBlank (s : List Char) : allBlank (trailingBlank s) = true := by
  rw [allBlank, trailingBlank, List.all_reverse]
  exact List.all_takeWhile

/-! ## The start -/

theorem trimStart_suffix (s : List Char) : trimStart s <:+ s := List.dropWhile_suffix _

theorem trimStart_of_allBlank {s : List Char} (h : allBlank s = true) : trimStart s = [] := by
  rw [trimStart, List.dropWhile_eq_nil_iff]
  exact List.all_eq_true.1 h

theorem trimStart_append_of_allBlank {s : List Char} (t : List Char) (h : allBlank s = true) :
    trimStart (s ++ t) = trimStart t :=
  List.dropWhile_append_of_pos (List.all_eq_true.1 h)

theorem trimStart_cons_of_not_isBlank {c : Char} (s : List Char) (h : isBlank c = false) :
    trimStart (c :: s) = c :: s := by
  rw [trimStart, List.dropWhile_cons_of_neg (Bool.eq_false_iff.1 h)]

/-- A text that is not blank has a first character that is not. -/
theorem exists_trimStart_eq_cons {s : List Char} (h : allBlank s = false) :
    ∃ c r, trimStart s = c :: r ∧ isBlank c = false := by
  cases hs : trimStart s with
  | nil =>
    rw [trimStart, List.dropWhile_eq_nil_iff, ← List.all_eq_true] at hs
    rw [allBlank, hs] at h
    cases h
  | cons c r => exact ⟨c, r, rfl, trimStart_head_not_blank s c r hs⟩

/-- Trimming the start of a joined text. -/
theorem trimStart_append {s : List Char} (t : List Char) (h : allBlank s = false) :
    trimStart (s ++ t) = trimStart s ++ t := by
  obtain ⟨c, r, hs, hc⟩ := exists_trimStart_eq_cons h
  calc trimStart (s ++ t)
      = trimStart (leadingBlank s ++ (trimStart s ++ t)) := by
        rw [← List.append_assoc, blank_append_trimStart]
    _ = trimStart (trimStart s ++ t) :=
        trimStart_append_of_allBlank _ (allBlank_leadingBlank s)
    _ = trimStart s ++ t := by
        rw [hs, List.cons_append, trimStart_cons_of_not_isBlank _ hc]

/-! ## The end -/

theorem trimEnd_isPrefix (s : List Char) : trimEnd s <+: s :=
  ⟨trailingBlank s, trimEnd_append_blank s⟩

theorem trimEnd_append_of_allBlank (s : List Char) {t : List Char} (h : allBlank t = true) :
    trimEnd (s ++ t) = trimEnd s := by
  rw [trimEnd, List.reverse_append, List.dropWhile_append_of_pos, ← trimEnd]
  intro c hc
  exact List.all_eq_true.1 h c (List.mem_reverse.1 hc)

/-- Trimming the end of a joined text. -/
theorem trimEnd_append (s : List Char) {t : List Char} (h : allBlank t = false) :
    trimEnd (s ++ t) = s ++ trimEnd t := by
  have hrev : allBlank t.reverse = false := by rw [allBlank, List.all_reverse, ← allBlank, h]
  have htrim := trimStart_append s.reverse hrev
  rw [trimEnd, List.reverse_append, ← trimStart, htrim, List.reverse_append, List.reverse_reverse]
  rfl

theorem trimEnd_append_singleton (s : List Char) {c : Char} (h : isBlank c = false) :
    trimEnd (s ++ [c]) = s ++ [c] := by
  have hc : allBlank [c] = false := by rw [allBlank, List.all_cons, h, Bool.false_and]
  rw [trimEnd_append s hc, trimEnd, List.reverse_singleton, ← trimStart,
    trimStart_cons_of_not_isBlank [] h, List.reverse_singleton]

/-- Trimming keeps a first character that is no blank. -/
theorem head?_trim_cons {c : Char} (s : List Char) (h : isBlank c = false) :
    (trim (c :: s)).head? = some c := by
  rw [trim, trimStart_cons_of_not_isBlank s h, ← List.singleton_append]
  cases hs : allBlank s with
  | true =>
    rw [trimEnd_append_of_allBlank _ hs, ← List.nil_append [c], trimEnd_append_singleton _ h]
    rfl
  | false =>
    rw [trimEnd_append _ hs]
    rfl

theorem trimEnd_trimEnd (s : List Char) : trimEnd (trimEnd s) = trimEnd s := by
  rw [trimEnd, trimEnd, List.reverse_reverse, List.dropWhile_idempotent]

/-- A text whose end is trimmed has no blank part there. -/
theorem not_allBlank_of_trimEnd {s t : List Char} (h : trimEnd (s ++ t) = s ++ t) (ht : t ≠ []) :
    allBlank t = false := by
  rw [Bool.eq_false_iff]
  intro hblank
  rw [trimEnd_append_of_allBlank s hblank] at h
  have hlength := (trimEnd_isPrefix s).length_le
  rw [h, List.length_append] at hlength
  have hpos := List.length_pos_iff.2 ht
  omega

/-- Trimming the end does not empty a text that is not blank. -/
theorem allBlank_trimEnd (s : List Char) : allBlank (trimEnd s) = allBlank s := by
  have hall := congrArg allBlank (trimEnd_append_blank s)
  rw [allBlank_append, allBlank_trailingBlank, Bool.and_true] at hall
  exact hall

/-- Beginnings that end with no blank are kept. -/
theorem prefix_trimEnd_iff {p s : List Char} (hp : trimEnd p = p) : p <+: trimEnd s ↔ p <+: s := by
  constructor
  · exact fun h => h.trans (trimEnd_isPrefix s)
  · rintro ⟨rest, rfl⟩
    cases hrest : allBlank rest with
    | true =>
      have heq : trimEnd (p ++ rest) = p := (trimEnd_append_of_allBlank p hrest).trans hp
      exact heq.symm ▸ List.prefix_refl p
    | false => exact trimEnd_append p hrest ▸ List.prefix_append p _

/-! ## Both ends -/

/-- No blank at either end. -/
structure Trimmed (s : List Char) : Prop where
  start : trimStart s = s
  stop : trimEnd s = s

/-- **A trimmed text is trimmed.** -/
theorem trimmed_trim (s : List Char) : Trimmed (trim s) := by
  constructor
  · cases hs : trimStart s with
    | nil => rw [trim, hs]; rfl
    | cons c r =>
      have hc := trimStart_head_not_blank s c r hs
      have hbegins : [c] <+: trim s := by
        rw [trim, hs]
        cases hr : allBlank r with
        | true =>
          have hend : trimEnd ([c] ++ r) = [c] :=
            (trimEnd_append_of_allBlank [c] hr).trans (trimEnd_append_singleton [] hc)
          exact hend ▸ List.prefix_refl [c]
        | false =>
          have hend : trimEnd ([c] ++ r) = [c] ++ trimEnd r := trimEnd_append [c] hr
          exact hend ▸ List.prefix_append [c] _
      obtain ⟨rest, hrest⟩ := hbegins
      rw [← hrest, List.singleton_append, trimStart_cons_of_not_isBlank rest hc]
  · exact trimEnd_trimEnd _

/-- The two ends are trimmed in any order. -/
theorem trimStart_trimEnd (s : List Char) : trimStart (trimEnd s) = trim s := by
  cases hs : allBlank s with
  | true =>
    rw [trim, trimStart_of_allBlank hs, trimStart_of_allBlank ((allBlank_trimEnd s).trans hs)]
    rfl
  | false =>
    obtain ⟨c, r, hstart, hc⟩ := exists_trimStart_eq_cons hs
    have hrest : allBlank (trimStart s) = false := by
      rw [hstart, allBlank, List.all_cons, hc, Bool.false_and]
    have hend : trimEnd s = leadingBlank s ++ trim s := by
      rw [trim, ← trimEnd_append _ hrest, blank_append_trimStart]
    rw [hend, trimStart_append_of_allBlank _ (allBlank_leadingBlank s), (trimmed_trim s).start]

/-- A text without blanks is trimmed. -/
theorem Trimmed.of_forall {s : List Char} (h : ∀ c ∈ s, isBlank c = false) : Trimmed s := by
  have hkeep : ∀ {t : List Char}, (∀ c ∈ t, isBlank c = false) → t.dropWhile isBlank = t := by
    intro t ht
    cases t with
    | nil => rfl
    | cons c r => exact List.dropWhile_cons_of_neg (by simp [ht c List.mem_cons_self])
  constructor
  · exact hkeep h
  · rw [trimEnd, hkeep fun c hc => h c (List.mem_reverse.1 hc), List.reverse_reverse]

theorem Trimmed.trim_eq {s : List Char} (h : Trimmed s) : trim s = s := by
  rw [trim, h.start, h.stop]

theorem trim_isInfix (s : List Char) : trim s <:+: s :=
  (trimEnd_isPrefix _).isInfix.trans (trimStart_suffix s).isInfix

/-- A trimmed text is found between blanks. -/
theorem Trimmed.trim_between {s : List Char} (h : Trimmed s) (before after : List Char)
    (hbefore : allBlank before = true) (hafter : allBlank after = true) :
    trim (before ++ (s ++ after)) = s := by
  rw [trim, trimStart_append_of_allBlank _ hbefore]
  cases hs : allBlank s with
  | true =>
    have hnil : s = [] := by rw [← h.start, trimStart_of_allBlank hs]
    subst hnil
    rw [List.nil_append, trimStart_of_allBlank hafter]
    rfl
  | false => rw [trimStart_append after hs, h.start, trimEnd_append_of_allBlank s hafter, h.stop]

theorem Trimmed.trim_append {s : List Char} (h : Trimmed s) (before : List Char)
    (hbefore : allBlank before = true) : trim (before ++ s) = s := by
  have hbetween := h.trim_between before [] hbefore rfl
  rw [List.append_nil] at hbetween
  exact hbetween

end RequestRunner.Text
