import RequestRunner.Proofs.Environment.Making
import RequestRunner.Proofs.Environment.Reopening
import RequestRunner.Proofs.Json.Continuing

/-!
# What may stand around a document

Whether a document is JSON is decided on its trimmed text, but what is read then is the whole text.
So it depends on what is trimmed off whether an object between blanks is still read: the blanks have
to be the four spaces of JSON (`Environment.valueOf_surrounded`). Trees that are alike but for the
text of one file (`Files.AlikeBut`) are read alike but for that file.

Main statement: with an object between blanks in the environment file or the snapshot file, loading
gives what it gives with the object alone if all the blanks are spaces of JSON, and refuses that
file if one of them is not (`EnvironmentFiles.load_surrounded`).
-/

set_option autoImplicit false

namespace RequestRunner

/-! ## The value of a document -/

namespace Environment

/-- The fault of a document that should be JSON and is not. -/
def notJson : Fault := .raised "SyntaxError" "Unexpected token in JSON"

/-- A text that opens an object behind blanks is read as JSON. -/
theorem valueOf_brace (yaml : YamlReader) {before : List Char}
    (hbefore : Text.allBlank before = true) (s : List Char) :
    valueOf yaml (String.ofList (before ++ '\x7b' :: s)) =
      match Json.read? (before ++ '\x7b' :: s) with
      | some value => .ok (.ofJson value)
      | none => .error notJson := by
  have hbrace : Text.isBlank '\x7b' = false := by decide
  have hblank : Text.allBlank (before ++ '\x7b' :: s) = false := by
    rw [Text.allBlank_append, hbefore, Bool.true_and, Text.allBlank, List.all_cons, hbrace,
      Bool.false_and]
  have hjson : looksLikeJson (String.ofList (before ++ '\x7b' :: s)) = true := by
    have htrim : Text.trim (before ++ '\x7b' :: s) = Text.trim ('\x7b' :: s) :=
      congrArg Text.trimEnd (Text.trimStart_append_of_allBlank _ hbefore)
    rw [looksLikeJson, String.toList_ofList, htrim, Text.head?_trim_cons s hbrace]
    rfl
  rw [valueOf, hjson, String.toList_ofList, hblank]
  rfl

/-- **An object between blanks is a document exactly if the blanks are spaces of JSON.** -/
theorem valueOf_surrounded (yaml : YamlReader) {before after more : List Char} {value : Json}
    (hread : Json.read? ('\x7b' :: more) = some value) (hbefore : Text.allBlank before = true) :
    valueOf yaml (String.ofList (before ++ '\x7b' :: more ++ after)) =
      if (before ++ after).all Json.isSpace then valueOf yaml (String.ofList ('\x7b' :: more))
      else .error notJson := by
  have halone := valueOf_brace yaml Text.allBlank_nil more
  have hhere := valueOf_brace yaml hbefore (more ++ after)
  rw [List.nil_append, hread] at halone
  rw [← List.cons_append, ← List.append_assoc, Json.read?_surrounded hread hbefore] at hhere
  rw [halone, hhere]
  cases (before ++ after).all Json.isSpace <;> rfl

end Environment

/-! ## Trees with two texts of one file -/

namespace Files

/-- The trees are alike, but where one has the first text, the other may have the second. -/
def AlikeBut (first second : String) (files changed : Files) : Prop :=
  ∀ place, files.lookup place = changed.lookup place ∨
    files.lookup place = some (.file first) ∧ changed.lookup place = some (.file second)

theorem any_key_putNode (p : Place → Bool) (place : Place) (node other : FileNode)
    (nodes : List (Place × FileNode)) :
    (putNode place node nodes).any (fun (key, _) => p key) =
      (putNode place other nodes).any fun (key, _) => p key := by
  induction nodes with
  | nil => rfl
  | cons entry rest ih =>
    obtain ⟨key, old⟩ := entry
    by_cases hkey : key = place
    · simp [putNode, hkey]
    · simp [putNode, hkey, ih]

/-- Writing different texts to one file gives trees that are alike but for it. -/
theorem alikeBut_write {files written changed : Files} {path first second : String}
    (hwritten : files.write path first = .ok written)
    (hchanged : files.write path second = .ok changed) : AlikeBut first second written changed := by
  intro place
  by_cases hplace : place = target path
  · rw [hplace]
    exact Or.inr ⟨(read_eq_ok_iff.1 (read_write hwritten)).2,
      (read_eq_ok_iff.1 (read_write hchanged)).2⟩
  · left
    obtain ⟨-, -, rfl⟩ := write_eq_ok_iff.1 hwritten
    obtain ⟨-, -, rfl⟩ := write_eq_ok_iff.1 hchanged
    -- elsewhere it does not matter which text was put
    unfold lookup
    dsimp only
    rw [node?_putNode_of_ne _ _ hplace, node?_putNode_of_ne _ _ hplace,
      any_key_putNode _ _ (.file first) (.file second)]

variable {first second : String} {files changed : Files}

theorem AlikeBut.isDirectory (h : AlikeBut first second files changed) (place : Place) :
    files.isDirectory place = changed.isDirectory place := by
  unfold Files.isDirectory
  rcases h place with heq | ⟨hfirst, hsecond⟩
  · rw [heq]
  · rw [hfirst, hsecond]
    rfl

theorem AlikeBut.isSome_lookup (h : AlikeBut first second files changed) (place : Place) :
    (files.lookup place).isSome = (changed.lookup place).isSome := by
  rcases h place with heq | ⟨hfirst, hsecond⟩
  · rw [heq]
  · rw [hfirst, hsecond]
    rfl

/-- Paths lead to the same places. -/
theorem AlikeBut.follow (h : AlikeBut first second files changed) (action : FileAction)
    (path : String) : files.follow action path = changed.follow action path := by
  unfold Files.follow
  simp only [h.isDirectory, h.isSome_lookup]

/-- **Such trees are read alike**, but where one gives the first text, the other may give the
second. -/
theorem AlikeBut.read (h : AlikeBut first second files changed) (path : String) :
    files.read path = changed.read path ∨
      files.read path = .ok first ∧ changed.read path = .ok second := by
  unfold Files.read
  rw [h.follow]
  cases changed.follow .access path with
  | error e => exact Or.inl rfl
  | ok place =>
    dsimp only
    rcases h place with heq | ⟨hfirst, hsecond⟩
    · exact Or.inl (by rw [heq])
    · rw [hfirst, hsecond]
      exact Or.inr ⟨rfl, rfl⟩

end Files

/-! ## Loading -/

namespace EnvironmentFiles

open Environment (notJson)

/-- A file is refused because it should be JSON and is not. -/
def refusal (description path : String) : Fault := .unusable (.document description path) notJson

/-- What loading the files of a tree gives. -/
def opened (files : EnvironmentFiles) (yaml : YamlReader) (tree : Files) :
    Except Fault VariableMap :=
  ((files.load yaml Files.disk quiet).run.run tree).1

theorem opened_eq (files : EnvironmentFiles) (yaml : YamlReader) (tree : Files) :
    files.opened yaml tree = (do
      let environment ← files.defined yaml (tree.read files.path)
      let snapshot ← files.remembered yaml (tree.read files.snapshotPath)
      pure (Environment.merge snapshot environment)) :=
  congrArg Prod.fst (load_run files yaml tree)

variable {yaml : YamlReader}

/-! ### Where a fault comes from -/

theorem document_error {description path : String} {content : Except FileError String}
    {fault : Fault} (h : document yaml description path content = .error fault) :
    ∃ cause, fault = .unusable (.document description path) cause := by
  cases content with
  | ok text =>
    unfold document at h
    dsimp only at h
    cases hvalue : Environment.valueOf yaml text with
    | ok value =>
      rw [hvalue] at h
      cases h
    | error cause =>
      rw [hvalue] at h
      cases h
      exact ⟨cause, rfl⟩
  | error e =>
    unfold document at h
    dsimp only at h
    split at h
    · cases h
    · cases h
      exact ⟨_, rfl⟩

theorem configuration_of_mapError {α : Type} {x : Except Misconfiguration α} {fault : Fault}
    (h : x.mapError .configuration = .error fault) : ∃ e, fault = .configuration e := by
  cases x with
  | ok a => cases h
  | error e =>
    cases h
    exact ⟨e, rfl⟩

/-- A file that cannot be used is refused when its document is read. -/
theorem document_of_defined {files : EnvironmentFiles} {content : Except FileError String}
    {file : Unusable} {cause : Fault}
    (h : files.defined yaml content = .error (.unusable file cause)) :
    document yaml "environment file" files.path content = .error (.unusable file cause) := by
  rcases bind_eq_error.1 h with h | ⟨value, -, h⟩
  · exact h
  · rcases bind_eq_error.1 h with h | ⟨catalog, -, h⟩ <;>
    · obtain ⟨e, he⟩ := configuration_of_mapError h
      cases he

theorem document_of_remembered {files : EnvironmentFiles} {content : Except FileError String}
    {file : Unusable} {cause : Fault}
    (h : files.remembered yaml content = .error (.unusable file cause)) :
    document yaml "snapshot file" files.snapshotPath content = .error (.unusable file cause) := by
  rcases bind_eq_error.1 h with h | ⟨value, -, h⟩
  · exact h
  · obtain ⟨e, he⟩ := configuration_of_mapError h
    cases he

/-- A document that loading refuses is that of the environment file or of the snapshot file. -/
theorem document_of_opened {files : EnvironmentFiles} {tree : Files} {description path : String}
    {cause : Fault}
    (h : files.opened yaml tree = .error (.unusable (.document description path) cause)) :
    description = "environment file" ∧ path = files.path ∧
        document yaml description path (tree.read path) =
          .error (.unusable (.document description path) cause) ∨
      description = "snapshot file" ∧ path = files.snapshotPath ∧
        document yaml description path (tree.read path) =
          .error (.unusable (.document description path) cause) := by
  rw [opened_eq] at h
  rcases bind_eq_error.1 h with h | ⟨environment, -, h⟩
  · have hdocument := document_of_defined h
    obtain ⟨cause', hfault⟩ := document_error hdocument
    cases hfault
    exact Or.inl ⟨rfl, rfl, hdocument⟩
  · rcases bind_eq_error.1 h with h | ⟨snapshot, -, h⟩
    · have hdocument := document_of_remembered h
      obtain ⟨cause', hfault⟩ := document_error hdocument
      cases hfault
      exact Or.inr ⟨rfl, rfl, hdocument⟩
    · cases h

/-! ### An object between blanks -/

section Surrounded

variable {files : EnvironmentFiles} {tree plain padded : Files} {path : String}
  {before after more : List Char} {value : Json}
  (hread : Json.read? ('\x7b' :: more) = some value) (hbefore : Text.allBlank before = true)

include hread

theorem document_brace (description path : String) :
    document yaml description path (.ok (String.ofList ('\x7b' :: more))) = .ok (.ofJson value) := by
  have hvalue := Environment.valueOf_brace yaml Text.allBlank_nil more
  rw [List.nil_append, hread] at hvalue
  rw [document, hvalue]
  rfl

include hbefore

theorem document_surrounded (description path : String) :
    document yaml description path (.ok (String.ofList (before ++ '\x7b' :: more ++ after))) =
      if (before ++ after).all Json.isSpace then
        document yaml description path (.ok (String.ofList ('\x7b' :: more)))
      else .error (refusal description path) := by
  unfold document
  dsimp only
  rw [Environment.valueOf_surrounded yaml hread hbefore]
  split <;> rfl

/-- **Which blanks may stand around a document.** Two trees are alike but for one file, which is an
object of JSON in one of them; in the other one there are blanks before the object and a text behind
it. If that is made of spaces of JSON alone, loading gives the same from both, whether variables or
a fault. If not, and the file is the environment file, or the snapshot file next to an environment
that is accepted, loading refuses it for what is around the object, which alone is never refused. -/
theorem load_surrounded
    (hplain : tree.write path (String.ofList ('\x7b' :: more)) = .ok plain)
    (hpadded : tree.write path (String.ofList (before ++ '\x7b' :: more ++ after)) = .ok padded) :
    ((before ++ after).all Json.isSpace = true →
        files.opened yaml padded = files.opened yaml plain) ∧
      ((before ++ after).all Json.isSpace = false →
        (path = files.path →
          files.opened yaml padded = .error (refusal "environment file" path)) ∧
        (path = files.snapshotPath →
          ∀ environment, files.defined yaml (padded.read files.path) = .ok environment →
            files.opened yaml padded = .error (refusal "snapshot file" path)) ∧
        ∀ description, files.opened yaml plain ≠ .error (refusal description path)) := by
  have hplainRead := Files.read_write hplain
  have hpaddedRead := Files.read_write hpadded
  constructor
  · intro hspaces
    -- the trees differ in one file, whose document is the same in both
    have hsame : ∀ description path, document yaml description path (padded.read path) =
        document yaml description path (plain.read path) := by
      intro description path
      rcases (Files.alikeBut_write hplain hpadded).read path with heq | ⟨hfirst, hsecond⟩
      · rw [heq]
      · rw [hfirst, hsecond, document_surrounded hread hbefore, if_pos hspaces]
    rw [opened_eq, opened_eq, defined, defined, remembered, remembered, hsame, hsame]
  · intro hblank
    have hrefused : ∀ description, document yaml description path (padded.read path) =
        .error (refusal description path) := by
      intro description
      rw [hpaddedRead, document_surrounded hread hbefore, hblank, if_neg Bool.false_ne_true]
    refine ⟨?_, ?_, fun description h => ?_⟩
    · rintro rfl
      rw [opened_eq, defined, hrefused]
      rfl
    · rintro rfl environment henvironment
      rw [opened_eq, henvironment, remembered, hrefused]
      rfl
    · -- a refused document would be the object alone, which is read
      have hdocument := document_of_opened h
      rw [hplainRead, document_brace hread] at hdocument
      rcases hdocument with ⟨-, -, hdocument⟩ | ⟨-, -, hdocument⟩ <;> cases hdocument

end Surrounded

/-- The text of an environment file behind its first brace. -/
def hostText : List Char := "\"dev\": \x7b\"host\": \"a\"\x7d\x7d".toList

/-- A tree with that file alone, with a line feed at its end and some characters at its start. -/
def hostTree (before : List Char) : Files :=
  ⟨[(["env.json"], .file (String.ofList (before ++ '\x7b' :: hostText ++ ['\n'])))]⟩

/-- An environment is found in a file that ends with a line feed, and with a byte order mark before
it the same file is refused. -/
theorem load_surrounded_mark :
    opened ⟨"dev", "env.json", "kept.json"⟩ Yaml.read (hostTree []) =
        .ok [("host", .text "a")] ∧
      opened ⟨"dev", "env.json", "kept.json"⟩ Yaml.read (hostTree [Char.ofNat 0xFEFF]) =
        .error (refusal "environment file" "env.json") := by
  have hread : Json.read? ('\x7b' :: hostText) =
      some (.object [("dev", .object [("host", .text "a")])]) := by cbv
  have hplain : Files.write ⟨[]⟩ "env.json" (String.ofList ('\x7b' :: hostText)) =
      .ok ⟨[(["env.json"], .file (String.ofList ('\x7b' :: hostText)))]⟩ := rfl
  have hended : Files.write ⟨[]⟩ "env.json"
      (String.ofList ([] ++ '\x7b' :: hostText ++ ['\n'])) = .ok (hostTree []) := rfl
  have hmarked : Files.write ⟨[]⟩ "env.json"
      (String.ofList ([Char.ofNat 0xFEFF] ++ '\x7b' :: hostText ++ ['\n'])) =
        .ok (hostTree [Char.ofNat 0xFEFF]) := rfl
  constructor
  · rw [(load_surrounded hread Text.allBlank_nil hplain hended).1 rfl, opened_eq, defined,
      Files.read_write hplain, document_brace hread]
    rfl
  · exact ((load_surrounded hread (by decide) hplain hmarked).2 (by decide)).1 rfl

end EnvironmentFiles

end RequestRunner
