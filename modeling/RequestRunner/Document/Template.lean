import RequestRunner.Document.Selection
import RequestRunner.Text.Blank
import RequestRunner.Text.Search

/-!
# Templates

A template is a text with placeholders. A placeholder opens with two braces and reaches to the first
two closing braces behind them; its script is the trimmed text between. An opening without a closing
is literal text.

`pieces` cuts a text at its placeholders, `Template.ofText` records them with their positions, and
`Template.fill` substitutes them from left to right. A substitution replaces the first occurrence of
the placeholder's text that is left, so equal placeholders are resolved one by one.

Main statement: the pieces make up the text (`join_pieces`).
-/

set_option autoImplicit false

namespace RequestRunner

/-- What opens a placeholder. -/
def openBraces : List Char := ['\x7b', '\x7b']

/-- What closes a placeholder. -/
def closeBraces : List Char := ['\x7d', '\x7d']

/-- The first placeholder of a text: the literal text before it, its inner text, and the rest. -/
def nextPlaceholder? (s : List Char) : Option (List Char × List Char × List Char) :=
  match Text.cut? openBraces s with
  | none => none
  | some (before, opened) =>
    match Text.cut? closeBraces opened with
    | none => none
    | some (inner, rest) => some (before, inner, rest)

/-- A found placeholder and its surroundings make up the text. -/
theorem nextPlaceholder?_eq_some {s before inner rest : List Char}
    (h : nextPlaceholder? s = some (before, inner, rest)) :
    s = before ++ openBraces ++ inner ++ closeBraces ++ rest := by
  unfold nextPlaceholder? at h
  split at h
  · exact absurd h (by simp)
  · next b o hb =>
    split at h
    · exact absurd h (by simp)
    · next i r hi =>
      injection h with h
      injection h with h₁ h
      injection h with h₂ h₃
      subst h₁ h₂ h₃
      rw [Text.cut?_eq_some hb, Text.cut?_eq_some hi]
      simp [List.append_assoc]

/-- A text cut at its placeholders: each literal stretch with the inner text behind it, and the last
literal stretch. -/
structure Pieces where
  /-- The literal stretch before each placeholder, and the placeholder's inner text. -/
  holes : List (List Char × List Char)
  /-- The literal text behind the last placeholder. -/
  last : List Char
  deriving DecidableEq, Repr

/-- The pieces of a text. -/
def pieces (s : List Char) : Pieces :=
  match h : nextPlaceholder? s with
  | none => ⟨[], s⟩
  | some (before, inner, rest) =>
    have : rest.length < s.length := by
      rw [nextPlaceholder?_eq_some h]
      simp [openBraces, closeBraces]
      omega
    let more := pieces rest
    ⟨(before, inner) :: more.holes, more.last⟩
termination_by s.length

/-- The text that pieces were cut from. -/
def Pieces.join (p : Pieces) : List Char :=
  (p.holes.flatMap fun (before, inner) => before ++ openBraces ++ inner ++ closeBraces) ++ p.last

/-- **The pieces make up the text.** -/
theorem join_pieces (s : List Char) : (pieces s).join = s := by
  induction s using pieces.induct with
  | case1 s h =>
    rw [pieces]
    split
    · simp [Pieces.join]
    · next heq => simp [h] at heq
  | case2 s before inner rest h hlt ih =>
    rw [pieces]
    split
    · next heq => simp [h] at heq
    · next b i r heq =>
      rw [h] at heq
      injection heq with heq
      injection heq with h₁ heq
      injection heq with h₂ h₃
      subst h₁ h₂ h₃
      refine Eq.trans ?_ (nextPlaceholder?_eq_some h).symm
      simp only [Pieces.join, List.append_assoc] at ih
      simp only [Pieces.join, List.flatMap_cons, List.append_assoc, ih]

/-- A placeholder of a template. -/
structure Placeholder where
  /-- The trimmed inner text: a variable name, or an expression that starts with a dollar sign. -/
  script : String
  /-- The whole placeholder as written. -/
  text : String
  /-- Where it stands. -/
  selection : Selection
  deriving DecidableEq, Repr

/-- A text with its placeholders, in order. -/
structure Template where
  /-- The raw text, placeholders left in place. -/
  text : String
  /-- The placeholders in order of appearance. -/
  placeholders : List Placeholder
  /-- Where the text stands. -/
  selection : Selection
  deriving DecidableEq, Repr

namespace Template

/-- The placeholders behind the given literal stretches, the first of which starts at the
position. -/
def placeholdersFrom (filename : String) : Position → List (List Char × List Char) →
    List Placeholder
  | _, [] => []
  | at_, (before, inner) :: more =>
    let start := at_.after before
    let written := openBraces ++ inner ++ closeBraces
    let stop := start.after written
    ⟨String.ofList (Text.trim inner), String.ofList written, ⟨filename, start, stop⟩⟩ ::
      placeholdersFrom filename stop more

/-- The template of a text that starts at a position of a file. -/
def ofText (filename : String) (text : List Char) (start : Position) : Template :=
  ⟨String.ofList text, placeholdersFrom filename start (pieces text).holes,
    ⟨filename, start, start.after text⟩⟩

/-- A text with the first occurrence of a placeholder replaced. -/
def substitute (text placeholder replacement : String) : String :=
  String.ofList (Text.replaceFirst placeholder.toList replacement.toList text.toList)

/-- The template with its placeholders resolved from left to right. Each answer replaces the first
occurrence that is left of its placeholder's text. -/
def fill {m : Type → Type} [Monad m] (resolve : String → m String) (template : Template) :
    m String :=
  template.placeholders.foldlM
    (fun text placeholder => do
      let answer ← resolve placeholder.script
      pure (substitute text placeholder.text answer))
    template.text

end Template

/-- What stands for a name that nothing defines: the name as a placeholder. -/
def unresolved (name : String) : String := "\x7b\x7b" ++ name ++ "\x7d\x7d"

end RequestRunner
