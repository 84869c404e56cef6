import RequestRunner.Document.Section
import RequestRunner.Decimal.Notation

/-!
# Reading documents

`Document.read` reads a source section by section; the first section that is malformed is the fault
of the whole source. `Document.choose` selects the sections to work on: all of them, or one by its
number.

Main statement: the sections are indexed by their places (`mem_indexed_iff`).
-/

set_option autoImplicit false

namespace RequestRunner

/-- Reads sections in order, leaving out those that hold no request. -/
def readSections (filename : String) :
    List SectionLines → Except ParseError (List RequestSection)
  | [] => .ok []
  | source :: rest => do
    let section_ ← readSection filename source
    let more ← readSections filename rest
    pure (section_.toList ++ more)

/-- The number by which a request is asked for. -/
inductive Ordinal where
  /-- The n-th request, from one. -/
  | nth (n : Nat)
  /-- A number that counts nothing, such as a fraction. -/
  | uncountable (x : Float)

/-- The text of the number. -/
def Ordinal.text : Ordinal → String
  | nth n => Decimal.text (Decimal.ofNat n)
  | uncountable x => Decimal.text x

/-- The number asks for the request at an index from zero. -/
def Ordinal.picks : Ordinal → Nat → Bool
  | nth n, index => index + 1 == n
  | uncountable _, _ => false

namespace Document

/-- Reads the lines of a source. -/
def ofLines (filename : String) (lines : List Line) : Except ParseError Document := do
  let sections ← readSections filename (sectionsOf lines)
  pure ⟨filename, sections⟩

/-- Reads a source. -/
def read (filename source : String) : Except ParseError Document :=
  ofLines filename (sourceLines source)

/-- Why no section could be chosen. -/
inductive ChoiceError where
  /-- The document holds no request. -/
  | empty (filename : String)
  /-- The document has no request of that number. -/
  | absent (filename : String) (wanted : Ordinal) (available : Nat)

/-- The message of a failed choice. -/
def ChoiceError.message : ChoiceError → String
  | empty filename => "No requests found in " ++ filename
  | absent filename wanted available =>
    s!"Request #{wanted.text} not found in {filename} ({available} available)"

/-- The sections with their indices from zero. -/
def indexed (document : Document) : List (Nat × RequestSection) :=
  (List.range document.sections.length).zip document.sections

/-- The sections to work on with their indices from zero: all of them, or the one that is asked
for. -/
def choose (document : Document) (wanted : Option Ordinal) :
    Except ChoiceError (List (Nat × RequestSection)) :=
  let chosen := document.indexed.filter fun (index, _) => wanted.all fun n => n.picks index
  if chosen.isEmpty then
    match wanted with
    | none => .error (.empty document.filename)
    | some n => .error (.absent document.filename n document.sections.length)
  else .ok chosen

/-- **The sections are indexed by their places.** -/
theorem mem_indexed_iff (document : Document) (index : Nat) (part : RequestSection) :
    (index, part) ∈ document.indexed ↔ document.sections[index]? = some part := by
  rw [indexed, List.mem_iff_getElem?]
  constructor
  · rintro ⟨i, hi⟩
    rw [List.getElem?_zip_eq_some] at hi
    obtain ⟨h₁, h₂⟩ := hi
    have : i = index := by
      rw [List.getElem?_range] at h₁
      · simpa using h₁
      · simpa using (List.getElem?_eq_some_iff.1 h₁).1
    subst this
    exact h₂
  · intro h
    refine ⟨index, ?_⟩
    rw [List.getElem?_zip_eq_some]
    have hlt := (List.getElem?_eq_some_iff.1 h).1
    exact ⟨List.getElem?_range hlt, h⟩

end Document

end RequestRunner
