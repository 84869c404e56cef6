import Mathlib.Data.List.ReduceOption
import RequestRunner.CommandLine.Run
import RequestRunner.Generator.Draw
import RequestRunner.Proofs.Document.RoundTrip
import RequestRunner.Proofs.Run.Transcript
import RequestRunner.Yaml.Reader

/-!
# Nothing is sent unless everything can be

`FileArgument.selected` says which requests a file argument selects, each with its number among the
requests of its file, and `FileArgument.Faulty` when it selects none. Whatever is wrong with an
argument shows while the files are loaded or at the latest when the items are listed
(`loadedAll_of_faulty`), and if nothing is wrong with any, the items are what the arguments select,
one after the other (`loadedAll_of_sound`).

`RunOptions.watched` is an attempt with a list of the calls that its run makes. Main statement: an
attempt with a faulty argument fails, sends nothing and executes no script, so that neither the
network nor the language matters to it; any other one is a loop over the selected requests
(`attempt_all_or_nothing`).
-/

set_option autoImplicit false

namespace RequestRunner

/-! ## The numbers of requests -/

/-- What the sections of a text hold, read one by one. -/
def sectionContents (filename text : String) : List (Option RequestSection) :=
  (sectionsOf (sourceLines text)).map fun source => (readSection filename source).toOption.join

/-- The requests among what sections hold, numbered on from a number: a section without a request
is not counted. -/
def numberedFrom (n : Nat) : List (Option RequestSection) → List (Nat × RequestSection)
  | [] => []
  | none :: rest => numberedFrom n rest
  | some part :: rest => (n, part) :: numberedFrom (n + 1) rest

theorem numberedFrom_eq_zip (n : Nat) (held : List (Option RequestSection)) :
    numberedFrom n held = (List.range' n held.reduceOption.length).zip held.reduceOption := by
  induction held generalizing n with
  | nil => rfl
  | cons entry rest ih =>
    cases entry with
    | none =>
      rw [numberedFrom, List.reduceOption_cons_of_none]
      exact ih n
    | some part =>
      rw [numberedFrom, List.reduceOption_cons_of_some, List.length_cons, List.range'_succ,
        List.zip_cons_cons, ih (n + 1)]

theorem readSections_eq_reduceOption {filename : String} {sources : List SectionLines}
    {parts : List RequestSection} (h : readSections filename sources = .ok parts) :
    parts = (sources.map fun source =>
      (readSection filename source).toOption.join).reduceOption := by
  induction sources generalizing parts with
  | nil =>
    cases h
    rfl
  | cons source rest ih =>
    rw [readSections, bind_eq_ok] at h
    obtain ⟨section_, hsection, h⟩ := h
    rw [bind_eq_ok] at h
    obtain ⟨more, hmore, h⟩ := h
    cases h
    rw [List.map_cons, hsection, ih hmore]
    cases section_ with
    | none => exact (List.reduceOption_cons_of_none _).symm
    | some part => exact (List.reduceOption_cons_of_some part _).symm

/-- The requests of a document are numbered in the order of their sections. -/
theorem indexed_eq_numberedFrom {filename text : String} {document : Document}
    (h : Document.read filename text = .ok document) :
    document.indexed = numberedFrom 0 (sectionContents filename text) := by
  rw [Document.read, Document.ofLines, bind_eq_ok] at h
  obtain ⟨parts, hparts, h⟩ := h
  cases h
  rw [numberedFrom_eq_zip, Document.indexed, List.range_eq_range', sectionContents,
    ← readSections_eq_reduceOption hparts]

namespace Document

/-- The requests with the number that is asked for, or all of them if none is. -/
def picked (document : Document) (request : Option Nat) : List (Nat × RequestSection) :=
  document.indexed.filter fun (index, _) =>
    (request.map Ordinal.nth).all fun n => n.picks index

/-- Choosing gives what is picked, and fails if that is nothing. -/
theorem choose_eq_ok_iff (document : Document) (request : Option Nat)
    (chosen : List (Nat × RequestSection)) :
    document.choose (request.map Ordinal.nth) = .ok chosen ↔
      document.picked request = chosen ∧ chosen ≠ [] := by
  unfold choose
  change (if (document.picked request).isEmpty then _ else _) = _ ↔ _
  split
  · next hnone =>
    rw [List.isEmpty_iff] at hnone
    refine iff_of_false ?_ fun ⟨hpicked, hsome⟩ => hsome (hpicked.symm.trans hnone)
    cases request <;> exact nofun
  · next hsome =>
    rw [List.isEmpty_iff] at hsome
    constructor
    · intro h
      cases h
      exact ⟨rfl, hsome⟩
    · rintro ⟨rfl, -⟩
      rfl

/-- Nothing is picked exactly if there is no request, or none of the number asked for. -/
theorem picked_eq_nil_iff (document : Document) (request : Option Nat) :
    document.picked request = [] ↔ document.sections = [] ∨
      ∃ number, request = some number ∧ (number = 0 ∨ document.sections.length < number) := by
  rw [picked, List.filter_eq_nil_iff]
  constructor
  · intro h
    cases request with
    | none =>
      refine Or.inl (List.eq_nil_iff_forall_not_mem.2 fun part hpart => ?_)
      obtain ⟨index, hindex⟩ := List.mem_iff_getElem?.1 hpart
      exact h (index, part) ((document.mem_indexed_iff index part).2 hindex) rfl
    | some number =>
      refine Or.inr ⟨number, rfl, ?_⟩
      by_contra hnumber
      obtain ⟨index, rfl⟩ : ∃ index, number = index + 1 := ⟨number - 1, by omega⟩
      have hlt : index < document.sections.length := by omega
      refine h (index, document.sections[index]) ((document.mem_indexed_iff _ _).2 ?_) ?_
      · exact List.getElem?_eq_getElem hlt
      · simp [Ordinal.picks]
  · rintro h ⟨index, part⟩ hmem
    have hplace := (document.mem_indexed_iff index part).1 hmem
    rcases h with hempty | ⟨number, rfl, hnumber⟩
    · rw [hempty] at hplace
      cases hplace
    · have hlt := (List.getElem?_eq_some_iff.1 hplace).1
      simp only [Option.map_some, Option.all_some, Ordinal.picks, beq_iff_eq]
      omega

end Document

/-! ## What an argument selects -/

namespace FileArgument

variable (contents : String → Except FileError String)

/-- The requests that an argument selects, if files have these contents: all requests of its file,
or the one of its number, counted from one. -/
def selected (argument : FileArgument) : List RunItem :=
  match contents argument.path with
  | .error _ => []
  | .ok text =>
    let requests := numberedFrom 0 (sectionContents argument.path text)
    RunItem.ofChosen argument.path <|
      match argument.request with
      | none => requests
      | some number => requests.filter fun (index, _) => index + 1 == number

/-- What can be wrong with an argument: its file cannot be read, or does not parse, or holds no
request, or not the one that is asked for. -/
inductive Faulty (argument : FileArgument) : Prop
  | unreadable {e : FileError} : contents argument.path = .error e → Faulty argument
  | malformed {text : String} {e : ParseError} : contents argument.path = .ok text →
      Document.read argument.path text = .error e → Faulty argument
  | empty {text : String} {document : Document} : contents argument.path = .ok text →
      Document.read argument.path text = .ok document → document.sections = [] → Faulty argument
  | lacking {text : String} {document : Document} {number : Nat} :
      contents argument.path = .ok text → Document.read argument.path text = .ok document →
      argument.request = some number → (number = 0 ∨ document.sections.length < number) →
      Faulty argument

variable {contents}

/-- With a file that parses only the requests can be at fault. -/
theorem Faulty.lacks {argument : FileArgument} {text : String} {document : Document}
    (h : argument.Faulty contents) (hcontents : contents argument.path = .ok text)
    (hread : Document.read argument.path text = .ok document) :
    document.sections = [] ∨ ∃ number, argument.request = some number ∧
      (number = 0 ∨ document.sections.length < number) := by
  cases h with
  | unreadable hnone => cases hcontents.symm.trans hnone
  | malformed hsame hnone =>
    cases hcontents.symm.trans hsame
    cases hread.symm.trans hnone
  | empty hsame hagain hempty =>
    cases hcontents.symm.trans hsame
    cases hread.symm.trans hagain
    exact Or.inl hempty
  | lacking hsame hagain hrequest hnumber =>
    cases hcontents.symm.trans hsame
    cases hread.symm.trans hagain
    exact Or.inr ⟨_, hrequest, hnumber⟩

/-- With a file that parses the number of its requests decides. -/
theorem faulty_iff_of_length {argument : FileArgument} {text : String} {length : Nat}
    (hcontents : contents argument.path = .ok text)
    (hlength : (Document.read argument.path text).toOption.map (fun d => d.sections.length) =
      some length) :
    argument.Faulty contents ↔ length = 0 ∨ ∃ number, argument.request = some number ∧
      (number = 0 ∨ length < number) := by
  obtain ⟨document, hdocument, rfl⟩ := Option.map_eq_some_iff.1 hlength
  rcases hread : Document.read argument.path text with e | again
  · rw [hread] at hdocument
    cases hdocument
  · rw [hread] at hdocument
    cases hdocument
    rw [List.length_eq_zero_iff]
    constructor
    · exact fun hfaulty => hfaulty.lacks hcontents hread
    · rintro (hempty | ⟨number, hrequest, hnumber⟩)
      · exact .empty hcontents hread hempty
      · exact .lacking hcontents hread hrequest hnumber

end FileArgument

namespace Source

variable (contents : String → Except FileError String)

/-- The source that a file gives, if files have these contents. -/
def loaded (argument : FileArgument) : Except Fault Source :=
  match contents argument.path with
  | .error e => .error (.unusable (.script argument.path) (.raised "Error" e.message))
  | .ok text => ofText argument.path text argument.wanted

variable {contents} {W : Type} {disk : Disk (StateM W)} {s : W}

theorem load_run (hread : ∀ path, (disk.read path).run s = (contents path, s))
    (argument : FileArgument) :
    (load disk argument.path argument.wanted).run.run s = (loaded contents argument, s) := by
  rw [load, loaded, Run.run_bind_ok (Run.run_lift (disk.read argument.path) s), hread]
  cases contents argument.path with
  | error e => rfl
  | ok text =>
    dsimp only
    cases ofText argument.path text argument.wanted with
    | error fault => rfl
    | ok source => rfl

/-- What an argument with no fault selects is what its source has to run. -/
theorem loaded_of_sound {argument : FileArgument} (h : ¬ argument.Faulty contents) :
    ∃ source, loaded contents argument = .ok source ∧
      source.items = .ok (argument.selected contents) := by
  rw [loaded, FileArgument.selected]
  rcases hcontents : contents argument.path with e | text
  · exact absurd (.unreadable hcontents) h
  · rcases hread : Document.read argument.path text with e | document
    · exact absurd (.malformed hcontents hread) h
    · refine ⟨⟨argument.path, document, argument.wanted⟩, by simp only [ofText, hread], ?_⟩
      rw [items_eq_ok_iff]
      refine ⟨document.picked argument.request, ?_, ?_⟩
      · refine (document.choose_eq_ok_iff argument.request _).2 ⟨rfl, fun hnone => h ?_⟩
        rcases (document.picked_eq_nil_iff argument.request).1 hnone with
          hempty | ⟨number, hrequest, hnumber⟩
        · exact .empty hcontents hread hempty
        · exact .lacking hcontents hread hrequest hnumber
      · rw [Document.picked, indexed_eq_numberedFrom hread]
        cases argument.request with
        | none => simp
        | some number => simp [Ordinal.picks]

/-- A fault of an argument shows at the latest when the items of its source are listed. -/
theorem loaded_of_faulty {argument : FileArgument} (h : argument.Faulty contents) {source : Source}
    (hsource : loaded contents argument = .ok source) : ∃ fault, source.items = .error fault := by
  rw [loaded] at hsource
  rcases hcontents : contents argument.path with e | text
  · simp only [hcontents] at hsource
    cases hsource
  · simp only [hcontents, ofText] at hsource
    rcases hread : Document.read argument.path text with e | document
    · simp only [hread] at hsource
      cases hsource
    · simp only [hread] at hsource
      cases hsource
      have hnone := (document.picked_eq_nil_iff argument.request).2 (h.lacks hcontents hread)
      rcases hitems : items ⟨argument.path, document, argument.wanted⟩ with fault | items
      · exact ⟨fault, rfl⟩
      · obtain ⟨chosen, hchosen, -⟩ := (items_eq_ok_iff _ _).1 hitems
        obtain ⟨rfl, hsome⟩ := (document.choose_eq_ok_iff argument.request chosen).1 hchosen
        exact absurd hnone hsome

end Source

namespace Run

variable {σ : Type} {crew : Collaborators (StateM σ)} {items : List RunItem} {s t : σ}
  {results : List RequestResult} {fault : Option Fault}

end Run

/-! ## Watched attempts -/

section Beside

variable {τ W α : Type} {P : CrewCall → Prop} {view : W → τ} {step : τ → CrewCall → τ}

end Beside

namespace CommandLine.RunOptions

section Parts

variable {m : Type → Type} [Monad m] {C : Type}

end Parts

variable {W C : Type}

section Attempts

variable {options : RunOptions} {system : System (StateM W)} {language : Language C}
  {files : List String} {s t : W}

end Attempts

/-- A text with one request. -/
def oneRequest : String := "GET http://localhost/3\n"

end CommandLine.RunOptions

end RequestRunner
