import RequestRunner.Generator.Draw
import RequestRunner.Proofs.Environment.Known
import RequestRunner.Proofs.Environment.Saving
import RequestRunner.Proofs.Json.Rereading
import RequestRunner.Proofs.Text.Trim
import RequestRunner.Yaml.Reader

/-!
# Starting again from a saved snapshot

A run that ends leaves a snapshot in a file, and the next run loads it together with the
environment. `load_run` says what loading makes of the two files, whatever lies in them, and
`remembered_snapshotText` that the text of a snapshot is always accepted: it defines what was saved,
reread from its text. Main statement: loading succeeds again, and a session starts from what is
loaded exactly if nothing was saved under the name of the scripting object
(`saved_snapshot_starts_again`).
-/

set_option autoImplicit false

namespace RequestRunner

namespace EnvironmentFiles

open Files

/-- The value of a document, by what reading its file gave. -/
def document (yaml : YamlReader) (description path : String) :
    Except FileError String → Except Fault Datum
  | .ok content =>
    (Environment.valueOf yaml content).mapError (.unusable (.document description path))
  | .error e =>
    if e.isAbsent then .ok (.object [])
    else .error (.unusable (.document description path) (.raised "Error" e.message))

/-- The variables of the selected environment, by what reading the environment file gave. -/
def defined (files : EnvironmentFiles) (yaml : YamlReader) (content : Except FileError String) :
    Except Fault VariableMap := do
  let value ← document yaml "environment file" files.path content
  let catalog ← (Environment.Catalog.ofValue "environment file" value).mapError .configuration
  (Environment.selectedVariables files.name (catalog.select files.name)).mapError .configuration

/-- The variables of earlier runs, by what reading the snapshot file gave. -/
def remembered (files : EnvironmentFiles) (yaml : YamlReader)
    (content : Except FileError String) : Except Fault VariableMap := do
  let value ← document yaml "snapshot file" files.snapshotPath content
  (Environment.variablesOf "snapshot file" value).mapError .configuration

/-- Reading a document looks at its file and changes nothing. -/
theorem readValue_run (yaml : YamlReader) (tree : Files) (description path : String) :
    (readValue yaml Files.disk quiet description path).run.run tree =
      (document yaml description path (tree.read path), tree) := by
  refine (Run.run_bind_ok (a := tree.read path) (t := tree) rfl).trans ?_
  cases tree.read path with
  | ok content =>
    unfold document
    dsimp only
    cases Environment.valueOf yaml content <;> rfl
  | error e =>
    unfold document
    dsimp only
    cases e.isAbsent <;> rfl

theorem allowed_run {α : Type} (tree : Files) (x : Except Misconfiguration α) :
    (allowed x : Attempt (StateM Files) α).run.run tree = (x.mapError .configuration, tree) := by
  cases x <;> rfl

/-- Loading reads the two files and merges what they give. -/
theorem load_run (files : EnvironmentFiles) (yaml : YamlReader) (tree : Files) :
    (files.load yaml Files.disk quiet).run.run tree =
      (do
        let environment ← files.defined yaml (tree.read files.path)
        let snapshot ← files.remembered yaml (tree.read files.snapshotPath)
        pure (Environment.merge snapshot environment), tree) := by
  unfold load defined remembered
  simp only [bind_assoc]
  refine Run.run_bind_still (readValue_run yaml tree _ _) fun value => ?_
  refine Run.run_bind_still (allowed_run tree _) fun catalog => ?_
  have hrest := Run.run_bind_still (allowed_run tree
      (Environment.selectedVariables files.name (catalog.select files.name))) fun environment =>
    Run.run_bind_still (readValue_run yaml tree "snapshot file" files.snapshotPath) fun value =>
    Run.run_bind_still (allowed_run tree (Environment.variablesOf "snapshot file" value))
      fun snapshot => (rfl : (pure (Environment.merge snapshot environment) :
        Attempt (StateM Files) VariableMap).run.run tree = (pure _, tree))
  -- a name that is not there is only logged
  split
  · exact (Run.run_bind_ok rfl).trans hrest
  · exact hrest

/-! ## The snapshot -/

/-- The text of a snapshot is the text of its reread value. -/
theorem valueOf_snapshotText (yaml : YamlReader) (kept : VariableMap) :
    Environment.valueOf yaml (snapshotText kept) =
      .ok (.object (Datum.ofJsonFields (Fields.ofEntries (Json.rereadFields kept)))) := by
  obtain ⟨more, hmore⟩ := Json.exists_pretty_object kept
  have htext : (snapshotText kept).toList = '\x7b' :: (more ++ ['\n']) := by
    rw [snapshotText, String.toList_append, hmore]
    rfl
  have hbrace : Text.isBlank '\x7b' = false := by decide
  have hblank : Text.allBlank (snapshotText kept).toList = false := by
    rw [htext, Text.allBlank, List.all_cons, hbrace, Bool.false_and]
  have hjson : Environment.looksLikeJson (snapshotText kept) = true := by
    rw [Environment.looksLikeJson, htext, Text.head?_trim_cons _ hbrace]
    rfl
  rw [Environment.valueOf, hblank, hjson, snapshotText, Json.read?_pretty]
  rfl

theorem mem_names_definitions {name : String} (hname : name ≠ reservedKey) (fields : Fields Json) :
    name ∈ Fields.names (Environment.definitions (Datum.ofJsonFields fields)) ↔
      name ∈ Fields.names fields := by
  rw [Environment.definitions, Fields.mem_names_ofEntries]
  induction fields with
  | nil => rfl
  | cons field rest ih =>
    obtain ⟨key, value⟩ := field
    obtain ⟨copy, hcopy⟩ := Option.isSome_iff_exists.1 (Datum.json?_ofJson_isSome value)
    rw [Datum.ofJsonFields, Fields.names_cons, List.mem_cons, ← ih, List.filterMap_cons]
    dsimp only
    rw [hcopy]
    by_cases hkey : key = reservedKey
    · rw [if_pos hkey, or_iff_right]
      rintro rfl
      exact hname hkey
    · rw [if_neg hkey, Option.map_some]
      exact List.mem_cons

/-- **A saved snapshot is accepted**: it defines the reread values. -/
theorem remembered_snapshotText (files : EnvironmentFiles) (yaml : YamlReader)
    (kept : VariableMap) :
    files.remembered yaml (.ok (snapshotText kept)) =
      .ok (Environment.definitions
        (Datum.ofJsonFields (Fields.ofEntries (Json.rereadFields kept)))) := by
  rw [remembered, document, valueOf_snapshotText]
  rfl

/-- A saved snapshot defines the names that were saved. -/
theorem mem_names_of_remembered {files : EnvironmentFiles} {yaml : YamlReader}
    {kept snapshot : VariableMap}
    (h : files.remembered yaml (.ok (snapshotText kept)) = .ok snapshot) {name : String}
    (hname : name ≠ reservedKey) : name ∈ Fields.names snapshot ↔ name ∈ Fields.names kept := by
  rw [remembered_snapshotText] at h
  cases h
  rw [mem_names_definitions hname, Fields.mem_names_ofEntries, Json.names_rereadFields]

/-! ## Loading again -/

theorem eq_ok_of_mapError {ε α : Type} {x : Except ε α} {f : ε → Fault} {a : α}
    (h : x.mapError f = .ok a) : x = .ok a := by
  cases x with
  | error e => cases h
  | ok b =>
    cases h
    rfl

variable {files : EnvironmentFiles} {yaml : YamlReader} {tree saved : Files}
  {known kept : VariableMap}

/-- What was loaded is an environment over a snapshot. -/
theorem load_inv (h : (files.load yaml Files.disk quiet).run.run tree = (.ok known, tree)) :
    ∃ environment snapshot, files.defined yaml (tree.read files.path) = .ok environment ∧
      files.remembered yaml (tree.read files.snapshotPath) = .ok snapshot ∧
      known = Environment.merge snapshot environment := by
  rw [load_run, Prod.mk.injEq] at h
  obtain ⟨environment, henvironment, h⟩ := bind_eq_ok.1 h.1
  obtain ⟨snapshot, hsnapshot, h⟩ := bind_eq_ok.1 h
  cases h
  exact ⟨environment, snapshot, henvironment, hsnapshot, rfl⟩

theorem definable_of_remembered {content : Except FileError String} {snapshot : VariableMap}
    (h : files.remembered yaml content = .ok snapshot) : Environment.Definable snapshot := by
  obtain ⟨value, -, h⟩ := bind_eq_ok.1 h
  exact Environment.definable_of_variablesOf (eq_ok_of_mapError h)

theorem definable_of_defined {content : Except FileError String} {environment : VariableMap}
    (h : files.defined yaml content = .ok environment) : Environment.Definable environment := by
  obtain ⟨value, -, h⟩ := bind_eq_ok.1 h
  obtain ⟨catalog, -, h⟩ := bind_eq_ok.1 h
  have hselected := eq_ok_of_mapError h
  unfold Environment.selectedVariables at hselected
  split at hselected
  · cases hselected
    exact Environment.definable_nil
  · cases hselected
    exact Environment.definable_nil
  · exact Environment.definable_of_variablesOf hselected

theorem definable_of_load (h : (files.load yaml Files.disk quiet).run.run tree = (.ok known, tree)) :
    Environment.Definable known := by
  obtain ⟨environment, snapshot, henvironment, hsnapshot, rfl⟩ := load_inv h
  exact (definable_of_remembered hsnapshot).merge (definable_of_defined henvironment)

theorem document_of_isAbsent {e : FileError} (h : e.isAbsent = true) (description path : String) :
    document yaml description path (.error e) = .ok (.object []) :=
  if_pos h

/-- A file that defines something can be read, or it is not there. -/
theorem isAbsent_of_defined {e : FileError} {environment : VariableMap}
    (h : files.defined yaml (.error e) = .ok environment) : e.isAbsent = true := by
  cases he : e.isAbsent with
  | true => rfl
  | false =>
    rw [defined, document, he] at h
    cases h

/-- The environment is the same after saving, if nothing comes about at its path. -/
theorem defined_save (hsaved : (files.save Files.disk quiet kept).run.run tree = (.ok (), saved))
    (hplace : target files.path ≠ target files.snapshotPath)
    (hstill : saved.isThere files.path = true → tree.isThere files.path = true)
    {environment : VariableMap} (h : files.defined yaml (tree.read files.path) = .ok environment) :
    files.defined yaml (saved.read files.path) = .ok environment := by
  cases hread : tree.read files.path with
  | ok text =>
    rw [read_save_of_ne hsaved hplace hread, ← hread]
    exact h
  | error e =>
    rw [hread] at h
    have hnone : tree.isThere files.path = false := by
      rw [isThere, hread]
      simp [isAbsent_of_defined h]
    have hnowhere : saved.isThere files.path = false :=
      Bool.eq_false_iff.2 fun hthere => Bool.eq_false_iff.1 hnone (hstill hthere)
    rw [isThere] at hnowhere
    cases hagain : saved.read files.path with
    | ok text =>
      rw [hagain] at hnowhere
      cases hnowhere
    | error e' =>
      rw [hagain] at hnowhere
      rw [← h, defined, defined, document_of_isAbsent (isAbsent_of_defined h),
        document_of_isAbsent (by simpa using hnowhere)]

/-- **After saving, loading is possible again**, if the environment lies at another place and nothing
comes about there by the saving. What is loaded has the names that were saved besides those of the
environment. -/
theorem load_save (hload : (files.load yaml Files.disk quiet).run.run tree = (.ok known, tree))
    (hsaved : (files.save Files.disk quiet kept).run.run tree = (.ok (), saved))
    (hplace : target files.path ≠ target files.snapshotPath)
    (hstill : saved.isThere files.path = true → tree.isThere files.path = true) :
    ∃ again, (files.load yaml Files.disk quiet).run.run saved = (.ok again, saved) ∧
      ∀ name, name ≠ reservedKey → name ∉ Fields.names known →
        (name ∈ Fields.names again ↔ name ∈ Fields.names kept) := by
  obtain ⟨environment, snapshot, henvironment, -, rfl⟩ := load_inv hload
  obtain ⟨renewed, hrenewed⟩ :
      ∃ renewed, files.remembered yaml (.ok (snapshotText kept)) = .ok renewed :=
    ⟨_, remembered_snapshotText files yaml kept⟩
  refine ⟨Environment.merge renewed environment, ?_, fun name hname hknown => ?_⟩
  · rw [load_run, defined_save hsaved hplace hstill henvironment, read_save_self hsaved, hrenewed]
    rfl
  · rw [Environment.mem_names_merge, not_or] at hknown
    rw [Environment.mem_names_merge, or_iff_left hknown.2, mem_names_of_remembered hrenewed hname]

end EnvironmentFiles

namespace Session

open EnvironmentFiles

variable {C W : Type} {language : Language C} {outside : Outside (StateM W)}
  {items : Except Fault (List RunItem)}

/-- A session starts unless the name of the scripting object is known. -/
theorem start_iff {known : VariableMap} {kind : PrinterKind} {now : Int} {entropy : Entropy} :
    (∃ session, start language known kind now entropy = .ok session) ↔
      "client" ∉ Fields.names known := by
  rw [← Fields.get?_eq_none_iff, start, Engine.new, Fields.has]
  cases Fields.get? "client" known with
  | none => exact iff_of_true ⟨_, rfl⟩ rfl
  | some value =>
    constructor
    · rintro ⟨session, hstart⟩
      cases hstart
    · intro hnone
      cases hnone

/-- A session knows what was loaded for it. -/
theorem knows_of_start {known : VariableMap} {kind : PrinterKind} {now : Int} {entropy : Entropy}
    {session : Session C} (hknown : Environment.Definable known)
    (h : start language known kind now entropy = .ok session) : session.Knows known := by
  obtain ⟨hpersisted, henvironment⟩ := start_eq_ok h
  exact ⟨hknown, hpersisted, henvironment⟩

/-- **When a saved snapshot can be started from.** After a run, however it ended, has saved its map
next to an environment file at another place, where nothing comes about by the saving, the same files
are loaded again, and a session starts from them exactly if the map has no value under the name of
the scripting object. That is so if no
script sets that name; where a value is saved under it, every later start fails. -/
theorem saved_snapshot_starts_again {files : EnvironmentFiles} {yaml : YamlReader}
    {tree saved : Files}
    {known kept : VariableMap} {kind : PrinterKind} {now : Int} {entropy : Entropy}
    {session : Session C} {w : W} {t : Session C × W} {calls : List CrewCall}
    {result : Except Fault (List RequestResult)}
    (hload : (files.load yaml Files.disk quiet).run.run tree = (.ok known, tree))
    (hstart : start language known kind now entropy = .ok session)
    (hrun : (Run.execute (watchedCrew language outside items)).run.run ((session, w), []) =
      (result, (t, calls)))
    (hkept : .save kept ∈ calls)
    (hsaved : (files.save Files.disk quiet kept).run.run tree = (.ok (), saved))
    (hplace : Files.target files.path ≠ Files.target files.snapshotPath)
    (hstill : saved.isThere files.path = true → tree.isThere files.path = true) :
    ∃ again, (files.load yaml Files.disk quiet).run.run saved = (.ok again, saved) ∧
      (∀ kind now entropy, (∃ next, start language again kind now entropy = .ok next) ↔
        Fields.get? "client" kept = none) ∧
      ((∀ event ∈ session.engine.history language calls, ¬ event.Sets "client") →
        Fields.get? "client" kept = none) := by
  have hunknown : "client" ∉ Fields.names known := start_iff.1 ⟨session, hstart⟩
  obtain ⟨again, hagain, hnames⟩ := load_save hload hsaved hplace hstill
  refine ⟨again, hagain, fun kind now entropy => ?_, fun hunset => ?_⟩
  · rw [start_iff, hnames "client" (by decide) hunknown, Fields.get?_eq_none_iff]
  · have hknows := knows_of_start (definable_of_load hload) hstart
    obtain ⟨hremoved, hstays⟩ := hknows.get?_kept_of_unset hrun hkept fun event hmem hstores =>
      hunset event hmem hstores.sets
    by_cases hremoves : ∃ event ∈ session.engine.history language calls, event.Removes "client"
    · exact hremoved hremoves
    · rw [hstays fun event hmem hevent => hremoves ⟨event, hmem, hevent⟩,
        Environment.held_eq_none hunknown]

/-- An environment next to a directory for the snapshot. -/
def clientFiles : EnvironmentFiles := ⟨"dev", "env.json", "state/kept.json"⟩

/-- The text of an environment file. -/
def clientEnvironment : String := snapshotText [("dev", .object [("host", .text "h")])]

/-- A tree with that file alone. -/
def clientTree : Files := ⟨[(["env.json"], .file clientEnvironment)]⟩

/-- A session that knows the variables of that environment. -/
def clientSession : Session Unit :=
  ⟨⟨⟨Store.ofMap [("host", .text "h")] false, Store.empty, Store.ofMap [("host", .text "h")] true,
    Report.empty, [], 0, .seeded 1⟩, ()⟩, Printer.new .table⟩

/-- Every script keeps a value under the name of the scripting object. -/
def clientLanguage : Language Unit :=
  Language.ofCalls fun _ => [.write .persisted (some "client") (some (.text "x"))]

/-- The collaborators of a run of one request with such a script. -/
def clientCrew : Collaborators (StateM ((Session Unit × Unit) × List CrewCall)) :=
  watchedCrew clientLanguage (Outside.replying ⟨"HTTP/1.1", 200, "OK", [], none⟩)
    (.ok [.handling "first" none (some "keep")])

/-- That run. -/
def clientRun : Except Fault (List RequestResult) × ((Session Unit × Unit) × List CrewCall) :=
  (Run.execute clientCrew).run.run ((clientSession, ()), [])

/-- What the run saves. -/
def clientKept : VariableMap := [("host", .text "h"), ("client", .text "x")]

/-- The tree in which it is saved. -/
def clientSaved : Files :=
  ((clientFiles.save Files.disk quiet clientKept).run.run clientTree).2

/-- The run saves a map that is loaded again, but no session starts from it. -/
theorem saved_snapshot_starts_again_client :
    ∃ again, (clientFiles.load Yaml.read Files.disk quiet).run.run clientSaved =
        (.ok again, clientSaved) ∧
      ¬ ∃ next, start clientLanguage again .table 1 (.seeded 2) = .ok next := by
  have hload : (clientFiles.load Yaml.read Files.disk quiet).run.run clientTree =
      (.ok [("host", .text "h")], clientTree) := by
    have hread : clientTree.read clientFiles.path = .ok clientEnvironment := rfl
    rw [load_run, hread, defined, document, clientEnvironment, valueOf_snapshotText]
    rfl
  have hstart : start clientLanguage [("host", .text "h")] .table 0 (.seeded 1) =
      .ok clientSession := rfl
  have hrun : (Run.execute clientCrew).run.run ((clientSession, ()), []) =
      (clientRun.1, (clientRun.2.1, clientRun.2.2)) := rfl
  have hkept : .save clientKept ∈ clientRun.2.2 := by
    refine (save_mem_iff hrun clientKept).2 ?_
    with_unfolding_all rfl
  have hsaved : (clientFiles.save Files.disk quiet clientKept).run.run clientTree =
      (.ok (), clientSaved) := rfl
  obtain ⟨again, hagain, hstarts, -⟩ :=
    saved_snapshot_starts_again hload hstart hrun hkept hsaved (by decide) fun _ => rfl
  refine ⟨again, hagain, fun hnext => ?_⟩
  cases (hstarts .table 1 (.seeded 2)).1 hnext

end Session

end RequestRunner
