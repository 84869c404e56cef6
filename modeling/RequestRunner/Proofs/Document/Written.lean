import RequestRunner.Document.Reader
import RequestRunner.Proofs.Document.Lines
import RequestRunner.Proofs.Document.Version
import RequestRunner.Proofs.Template.Substitution

/-!
# Written documents

A document is written section by section: a separator with the name, the declarations, the script
before the request, the request line with its version token, the headers, the body and the response
handler, one below the other (`RequestSection.written`). A template is written as its raw text, so
what is lost is the places alone: `RequestSection.unplaced` is a section without them, and two
templates that were read from one text differ in nothing else (`Template.unplaced_eq`).
-/

set_option autoImplicit false

namespace RequestRunner

/-! ## Contents -/

/-- A placeholder without its place. -/
def Placeholder.unplaced (placeholder : Placeholder) : Placeholder :=
  { placeholder with selection := Selection.none }

/-- A template without places. -/
def Template.unplaced (template : Template) : Template :=
  ⟨template.text, template.placeholders.map Placeholder.unplaced, Selection.none⟩

/-- A declaration without places. -/
def Declaration.unplaced (declaration : Declaration) : Declaration :=
  (declaration.1, declaration.2.unplaced)

/-- A header without places. -/
def Header.unplaced (header : Header) : Header :=
  ⟨header.name, header.value.unplaced, Selection.none⟩

/-- A handler without its place. -/
def Handler.unplaced (handler : Handler) : Handler := ⟨handler.script, Selection.none⟩

/-- A request without places. -/
def RequestTemplate.unplaced (request : RequestTemplate) : RequestTemplate :=
  ⟨request.method, Selection.none, request.target.unplaced, request.headers.map Header.unplaced,
    request.body.map Template.unplaced, Selection.none⟩

/-- A section without places: its name, declarations, scripts and request. -/
def RequestSection.unplaced (part : RequestSection) : RequestSection :=
  ⟨part.name, part.declarations.map Declaration.unplaced, part.preHandler.map Handler.unplaced,
    part.request.unplaced, part.handler.map Handler.unplaced, Selection.none⟩

theorem Template.unplaced_placeholdersFrom (filename other : String)
    (holes : List (List Char × List Char)) (start elsewhere : Position) :
    (placeholdersFrom filename start holes).map Placeholder.unplaced =
      (placeholdersFrom other elsewhere holes).map Placeholder.unplaced := by
  induction holes generalizing start elsewhere with
  | nil => rfl
  | cons hole more ih =>
    simp only [placeholdersFrom, List.map_cons, Placeholder.unplaced]
    exact congrArg _ (ih _ _)

/-- **Templates that were read from one text differ in their places alone.** -/
theorem Template.unplaced_eq {first second : Template} (hfirst : first.IsRead)
    (hsecond : second.IsRead) (h : first.text = second.text) :
    first.unplaced = second.unplaced := by
  obtain ⟨filename, text, start, rfl⟩ := hfirst
  obtain ⟨other, same, elsewhere, rfl⟩ := hsecond
  obtain rfl : text = same := String.ofList_injective h
  rw [unplaced, unplaced, ofText, ofText,
    unplaced_placeholdersFrom filename other _ start elsewhere]

theorem Template.isRead_ofText (filename : String) (text : List Char) (start : Position) :
    (ofText filename text start).IsRead := ⟨filename, text, start, rfl⟩

theorem Template.toList_text_ofText (filename : String) (text : List Char) (start : Position) :
    (ofText filename text start).text.toList = text := String.toList_ofList

/-- A template is read again from its raw text, up to its place. -/
theorem Template.unplaced_ofText {template : Template} (h : template.IsRead) (filename : String)
    (start : Position) :
    (ofText filename template.text.toList start).unplaced = template.unplaced :=
  unplaced_eq (isRead_ofText _ _ _) h String.ofList_toList

/-- A trimmed text on one line: a declared value, the value of a header or the name of a section. -/
structure IsValue (s : List Char) : Prop where
  trimmed : Text.Trimmed s
  unbroken : Text.Unbroken s

/-! ## The written form -/

/-- The separator of a section. -/
def writtenSeparator : Option String → List Char
  | none => ['#', '#', '#']
  | some name => ['#', '#', '#', ' '] ++ name.toList

/-- The line of a declaration. -/
def Declaration.written (declaration : Declaration) : List Char :=
  '@' :: declaration.1.toList ++ [' ', '=', ' '] ++ declaration.2.text.toList

/-- The lines of a handler. -/
def Handler.written (marker : Marker) (handler : Handler) : List Char :=
  [marker.char, ' ', '\x7b', '%', ' '] ++ handler.script.toList ++ [' ', '%', '\x7d']

/-- The lines of the method and the target. -/
def RequestTemplate.writtenLine (request : RequestTemplate) : List Char :=
  request.method.name.toList ++ ' ' :: request.target.text.toList ++ ' ' :: versionToken

/-- The line of a header. -/
def Header.written (header : Header) : List Char :=
  header.name.toList ++ [':', ' '] ++ header.value.text.toList

/-- The parts of a request from the request line on: a body stands behind a blank line. -/
def RequestTemplate.written (request : RequestTemplate) : List (List Char) :=
  request.writtenLine ::
    (request.headers.map Header.written ++
      request.body.toList.flatMap fun body => [[], body.text.toList])

/-- The parts of a section below its separator; a response handler stands behind a blank line. -/
def RequestSection.writtenParts (part : RequestSection) : List (List Char) :=
  part.declarations.map Declaration.written ++
    (part.preHandler.toList.map (Handler.written .before) ++
      (part.request.written ++
        part.handler.toList.flatMap fun handler => [[], handler.written .after]))

/-- The parts of a section. -/
def RequestSection.written (part : RequestSection) : List (List Char) :=
  writtenSeparator part.name :: part.writtenParts

/-- The text of a document. -/
def Document.written (document : Document) : String :=
  String.ofList (joinLines (document.sections.flatMap RequestSection.written))

end RequestRunner
