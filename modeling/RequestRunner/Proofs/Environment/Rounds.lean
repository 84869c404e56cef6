import RequestRunner.Proofs.Environment.Making
import RequestRunner.Proofs.Environment.Reopening
import RequestRunner.Proofs.Json.Keeping

/-!
# Saving and opening again

What was saved is read back value by value (`EnvironmentFiles.remembered_of_ordered`), and what was
opened lists its fields in order (`EnvironmentFiles.ordered_of_load`), so that saving it and opening
it again finds the same map. Main statement: the environment counts over what was saved, and
saving what was opened changes nothing that is opened, however often it is done, as long as the
saving brings nothing about at the path of the environment (`EnvironmentFiles.reopen_after_saving`).
It can do so by making a directory at its end, and then opening fails, or by making one that the
path goes up behind, and then another environment is opened
(`EnvironmentFiles.directory_at_environment`).
-/

set_option autoImplicit false

namespace RequestRunner

namespace Fields

variable {α : Type}

/-- Setting a name to the value that it has changes nothing. -/
theorem insert_of_get? {name : String} {value : α} {fields : Fields α}
    (h : get? name fields = some value) : insert name value fields = fields := by
  have hhas : has name fields = true := by rw [has, h]; rfl
  rw [insert, if_pos hhas]
  clear hhas
  induction fields with
  | nil => cases h
  | cons entry rest ih =>
    obtain ⟨key, old⟩ := entry
    by_cases hkey : key = name
    · simp_all [get?, replace]
    · rw [get?, if_neg hkey] at h
      rw [replace, if_neg hkey, ih h]

theorem foldl_insert_of_get? {fields : Fields α} (entries : Fields α)
    (h : ∀ entry ∈ entries, get? entry.1 fields = some entry.2) :
    entries.foldl (fun fields (name, value) => insert name value fields) fields = fields := by
  induction entries with
  | nil => rfl
  | cons entry rest ih =>
    rw [List.foldl_cons]
    dsimp only
    rw [insert_of_get? (h entry List.mem_cons_self)]
    exact ih fun other hmem => h other (List.mem_cons_of_mem _ hmem)

end Fields

namespace Environment

variable {snapshot environment : VariableMap}

theorem get?_merge (hsnapshot : Definable snapshot) (henvironment : Definable environment)
    (name : String) : Fields.get? name (merge snapshot environment) =
      (Fields.get? name environment).or (Fields.get? name snapshot) :=
  Fields.get?_ofEntries_append hsnapshot.nodup henvironment.nodup name

theorem merge_eq_foldl (snapshot environment : VariableMap) :
    merge snapshot environment =
      environment.foldl (fun fields (name, value) => Fields.insert name value fields)
        (Fields.ofEntries snapshot) := by
  rw [merge, Fields.ofEntries, List.foldl_append]
  rfl

/-- Merging an environment a second time changes nothing. -/
theorem merge_merge (hsnapshot : Definable snapshot) (henvironment : Definable environment) :
    merge (merge snapshot environment) environment = merge snapshot environment := by
  have hlisted : Fields.Listed (merge snapshot environment) := Fields.listed_ofEntries _
  rw [merge_eq_foldl (merge snapshot environment), Fields.ofEntries_eq_self hlisted]
  refine Fields.foldl_insert_of_get? environment fun entry hmem => ?_
  rw [get?_merge hsnapshot henvironment, Fields.mem_iff_get?_eq henvironment.nodup |>.1 hmem]
  rfl

/-- The definitions of a map whose values come back from their text are the map. -/
theorem definitions_ofJsonFields {fields : VariableMap} (hordered : (Json.object fields).Ordered)
    (hexact : (Json.object fields).Exact) (hreserved : reservedKey ∉ Fields.names fields) :
    definitions (Datum.ofJsonFields fields) = fields := by
  obtain ⟨hlisted, hvalues⟩ := hordered.object_inv
  cases hexact with
  | object hcopies =>
    have hkept : ∀ entries : VariableMap, (∀ entry ∈ entries, entry ∈ fields) →
        (Datum.ofJsonFields entries).filterMap (fun entry =>
          if entry.1 = reservedKey then none else entry.2.json?.map (Prod.mk entry.1)) =
        entries := by
      intro entries hentries
      induction entries with
      | nil => rfl
      | cons entry rest ih =>
        obtain ⟨name, value⟩ := entry
        have hmem := hentries (name, value) List.mem_cons_self
        have hname : name ≠ reservedKey := by
          rintro rfl
          exact hreserved (List.mem_map_of_mem (f := Prod.fst) hmem)
        have hcopy : (Datum.ofJson value).json? = some value := by
          rw [(hvalues _ hmem).json?_ofJson, (hcopies _ hmem).copy_eq]
        have hrest := ih fun other hother => hentries other (List.mem_cons_of_mem _ hother)
        rw [Datum.ofJsonFields, List.filterMap_cons]
        dsimp only
        rw [if_neg hname, hcopy, hrest]
        rfl
    have hall := hkept fields fun entry hmem => hmem
    exact (congrArg Fields.ofEntries hall).trans (Fields.ofEntries_eq_self hlisted)

/-- What a document defines are copies of loose values. -/
theorem ordered_of_mem_definitions {fields : Fields Datum} {entry : String × Json}
    (h : entry ∈ definitions fields) : entry.2.Ordered := by
  obtain ⟨⟨name, value⟩, -, hentry⟩ := List.mem_filterMap.1 (Fields.mem_ofEntries h)
  dsimp only at hentry
  split at hentry
  · cases hentry
  · obtain ⟨copy, hcopy, rfl⟩ := Option.map_eq_some_iff.1 hentry
    exact Datum.ordered_of_json? value copy hcopy

theorem ordered_of_variablesOf {description : String} {value : Datum} {found : VariableMap}
    (h : variablesOf description value = .ok found) : ∀ entry ∈ found, entry.2.Ordered := by
  cases value with
  | object fields =>
    cases h
    exact fun entry hmem => ordered_of_mem_definitions hmem
  | _ => cases h

theorem ordered_merge (hsnapshot : ∀ entry ∈ snapshot, entry.2.Ordered)
    (henvironment : ∀ entry ∈ environment, entry.2.Ordered) :
    (Json.object (merge snapshot environment)).Ordered := by
  refine .object (Fields.listed_ofEntries _) fun entry hmem => ?_
  rcases List.mem_append.1 (Fields.mem_ofEntries hmem) with hold | hnew
  · exact hsnapshot entry hold
  · exact henvironment entry hnew

end Environment

namespace EnvironmentFiles

open Files Environment

variable {files : EnvironmentFiles} {yaml : YamlReader} {tree saved : Files}
  {known kept : VariableMap}

/-- The values of a selected environment list their fields in order. -/
theorem ordered_of_defined {content : Except FileError String} {environment : VariableMap}
    (h : files.defined yaml content = .ok environment) :
    ∀ entry ∈ environment, entry.2.Ordered := by
  obtain ⟨value, -, h⟩ := bind_eq_ok.1 h
  obtain ⟨catalog, -, h⟩ := bind_eq_ok.1 h
  have hselected := eq_ok_of_mapError h
  unfold selectedVariables at hselected
  split at hselected
  · cases hselected
    exact nofun
  · cases hselected
    exact nofun
  · exact ordered_of_variablesOf hselected

/-- **What is opened lists its fields in order.** -/
theorem ordered_of_load (h : (files.load yaml Files.disk quiet).run.run tree = (.ok known, tree)) :
    (Json.object known).Ordered := by
  obtain ⟨environment, snapshot, henvironment, hsnapshot, rfl⟩ := load_inv h
  obtain ⟨value, -, hvariables⟩ := bind_eq_ok.1 hsnapshot
  exact ordered_merge (ordered_of_variablesOf (eq_ok_of_mapError hvariables))
    (ordered_of_defined henvironment)

/-- **What was saved is remembered**, if it lists its fields in order, its numbers are read as they
are written, and the reserved key is none of its names. -/
theorem remembered_of_ordered (hordered : (Json.object kept).Ordered)
    (hexact : (Json.object kept).Exact) (hreserved : reservedKey ∉ Fields.names kept) :
    files.remembered yaml (.ok (snapshotText kept)) = .ok kept := by
  have hreread : Fields.ofEntries (Json.rereadFields kept) = kept :=
    Json.object.inj (hordered.reread_eq hexact)
  rw [remembered_snapshotText, hreread, definitions_ofJsonFields hordered hexact hreserved]

/-- Opening after saving merges the same environment over what was saved. -/
theorem load_after_save {environment : VariableMap}
    (hsaved : (files.save Files.disk quiet kept).run.run tree = (.ok (), saved))
    (hplace : target files.path ≠ target files.snapshotPath)
    (hstill : saved.isThere files.path = true → tree.isThere files.path = true)
    (henvironment : files.defined yaml (tree.read files.path) = .ok environment)
    (hordered : (Json.object kept).Ordered) (hexact : (Json.object kept).Exact)
    (hreserved : reservedKey ∉ Fields.names kept) :
    (files.load yaml Files.disk quiet).run.run saved = (.ok (merge kept environment), saved) := by
  rw [load_run, defined_save hsaved hplace hstill henvironment, read_save_self hsaved,
    remembered_of_ordered hordered hexact hreserved]
  rfl

/-- Opens the files, and so many times saves what was opened and opens them again. -/
def rounds (files : EnvironmentFiles) (yaml : YamlReader) :
    Nat → Attempt (StateM Files) VariableMap
  | 0 => files.load yaml Files.disk quiet
  | n + 1 => do
    let known ← files.load yaml Files.disk quiet
    files.save Files.disk quiet known
    rounds files yaml n

/-- From what was saved on every round opens the same map and leaves the files as they are. -/
theorem rounds_run (hopened : (files.load yaml Files.disk quiet).run.run saved = (.ok known, saved))
    (hsaved : (files.save Files.disk quiet known).run.run saved = (.ok (), saved)) (n : Nat) :
    (files.rounds yaml n).run.run saved = (.ok known, saved) := by
  induction n with
  | zero => exact hopened
  | succ n ih => exact (Run.run_bind_ok hopened).trans ((Run.run_bind_ok hsaved).trans ih)

/-- **Saving and opening again.** For files that can be opened, with the snapshot at another place
than the environment, and wherever saving brings nothing about at the path of the environment: after
a map is saved, the environment counts over it and no other names are there; and after what was
opened is saved, the same map is opened again, with the same order of names, however often it is
saved. -/
theorem reopen_after_saving
    (hopen : (files.load yaml Files.disk quiet).run.run tree = (.ok known, tree))
    (hplace : target files.path ≠ target files.snapshotPath) :
    ∃ environment, files.defined yaml (tree.read files.path) = .ok environment ∧
      (∀ kept saved, (Json.object kept).Ordered → (Json.object kept).Exact →
        reservedKey ∉ Fields.names kept →
        (files.save Files.disk quiet kept).run.run tree = (.ok (), saved) →
        (saved.isThere files.path = true → tree.isThere files.path = true) →
        ∃ again, (files.load yaml Files.disk quiet).run.run saved = (.ok again, saved) ∧
          ∀ name, Fields.get? name again =
            (Fields.get? name environment).or (Fields.get? name kept)) ∧
      ∀ saved, (Json.object known).Exact →
        (files.save Files.disk quiet known).run.run tree = (.ok (), saved) →
        (saved.isThere files.path = true → tree.isThere files.path = true) →
        ∀ n, (files.rounds yaml (n + 1)).run.run tree = (.ok known, saved) := by
  obtain ⟨environment, snapshot, henvironment, hsnapshot, hknown⟩ := load_inv hopen
  have hdefined := definable_of_defined henvironment
  refine ⟨environment, henvironment, fun kept saved hordered hexact hreserved hsaved hstill => ?_,
    fun saved hexact hsaved hstill n => ?_⟩
  · exact ⟨merge kept environment,
      load_after_save hsaved hplace hstill henvironment hordered hexact hreserved,
      get?_merge ⟨hordered.object_inv.1.nodup, hreserved⟩ hdefined⟩
  · have hordered := ordered_of_load hopen
    have hopened := load_after_save hsaved hplace hstill henvironment hordered hexact
      (definable_of_load hopen).reserved
    -- What was opened has the environment in it already.
    rw [hknown, merge_merge (definable_of_remembered hsnapshot) hdefined, ← hknown] at hopened
    exact (Run.run_bind_ok hopen).trans ((Run.run_bind_ok hsaved).trans
      (rounds_run hopened (save_again hsaved) n))

/-- A map with an index among its names, a number, a null and a value for a name of the
environment. -/
def roundsKept : VariableMap :=
  [("2", .text "b"), ("host", .text "x"), ("n", .number 1), ("a", .null)]

theorem mem_roundsKept {entry : String × Json} (h : entry ∈ roundsKept) :
    entry.2 = .text "b" ∨ entry.2 = .text "x" ∨ entry.2 = .number 1 ∨ entry.2 = .null := by
  simp only [roundsKept, List.mem_cons, List.not_mem_nil, or_false] at h
  rcases h with rfl | rfl | rfl | rfl <;> simp

/-- The tree in which it is saved. -/
def roundsSaved : Files :=
  ((Session.clientFiles.save Files.disk quiet roundsKept).run.run Session.clientTree).2

/-- The tree in which what was opened is saved. -/
def roundsReopened : Files :=
  ((Session.clientFiles.save Files.disk quiet [("host", .text "h")]).run.run Session.clientTree).2

/-- An environment that is not there, next to the snapshot in a directory that is not there. -/
def siblingFiles : EnvironmentFiles := ⟨"dev", "conf/env.json", "conf/kept.json"⟩

/-- The tree in which its map is saved. -/
def siblingSaved : Files :=
  ((siblingFiles.save Files.disk quiet [("host", .text "h")]).run.run ⟨[]⟩).2

/-- The host is that of the environment, everything else is as it was saved, and saving what was
opened three times finds it again. The directory that is made for the snapshot may be the one that
the environment would lie in. -/
theorem reopen_after_saving_client :
    (∃ again, (Session.clientFiles.load Yaml.read Files.disk quiet).run.run roundsSaved =
        (.ok again, roundsSaved) ∧
      Fields.get? "host" again = some (.text "h") ∧ Fields.get? "2" again = some (.text "b") ∧
      Fields.get? "n" again = some (.number 1) ∧ Fields.get? "a" again = some .null ∧
      Fields.get? "b" again = none) ∧
    (Session.clientFiles.rounds Yaml.read 3).run.run Session.clientTree =
      (.ok [("host", .text "h")], roundsReopened) ∧
    ∃ again, (siblingFiles.load Yaml.read Files.disk quiet).run.run siblingSaved =
        (.ok again, siblingSaved) ∧
      Fields.get? "host" again = some (.text "h") := by
  have hread : Session.clientTree.read Session.clientFiles.path = .ok Session.clientEnvironment :=
    rfl
  have hvariables : Session.clientFiles.defined Yaml.read (.ok Session.clientEnvironment) =
      .ok [("host", .text "h")] := by
    rw [defined, document, Session.clientEnvironment, valueOf_snapshotText]
    rfl
  have hopen : (Session.clientFiles.load Yaml.read Files.disk quiet).run.run Session.clientTree =
      (.ok [("host", .text "h")], Session.clientTree) := by
    rw [load_run, hread, hvariables]
    rfl
  have hordered : (Json.object roundsKept).Ordered := by
    refine .object (Fields.listed_ofEntries roundsKept) fun entry hmem => ?_
    rcases mem_roundsKept hmem with h | h | h | h <;> rw [h]
    exacts [.text _, .text _, .number _, .null]
  have hexact : (Json.object roundsKept).Exact := by
    refine .object fun entry hmem => ?_
    rcases mem_roundsKept hmem with h | h | h | h <;> rw [h]
    exacts [.text _, .text _, .number (by with_unfolding_all rfl), .null]
  have hhost : (Json.object [("host", .text "h")]).Exact := by
    refine .object fun entry hmem => ?_
    obtain rfl := List.mem_singleton.1 hmem
    exact .text "h"
  have hthere : Session.clientTree.isThere Session.clientFiles.path = true := rfl
  refine ⟨?_, ?_, ?_⟩
  · obtain ⟨environment, henvironment, hkept, -⟩ := reopen_after_saving hopen (by decide)
    obtain ⟨again, hagain, hvalues⟩ :=
      hkept roundsKept roundsSaved hordered hexact (by decide) rfl fun _ => hthere
    rw [hread, hvariables] at henvironment
    cases henvironment
    exact ⟨again, hagain, hvalues "host", hvalues "2", hvalues "n", hvalues "a", hvalues "b"⟩
  · obtain ⟨-, -, -, hrounds⟩ := reopen_after_saving hopen (by decide)
    exact hrounds roundsReopened hhost rfl (fun _ => hthere) 2
  · have hsibling : (siblingFiles.load Yaml.read Files.disk quiet).run.run ⟨[]⟩ = (.ok [], ⟨[]⟩) :=
      rfl
    have hlisted : (Json.object [("host", .text "h")]).Ordered := by
      refine .object (Fields.listed_ofEntries [("host", .text "h")]) fun entry hmem => ?_
      obtain rfl := List.mem_singleton.1 hmem
      exact .text "h"
    have hsaved : (siblingFiles.save Files.disk quiet [("host", .text "h")]).run.run ⟨[]⟩ =
        (.ok (), siblingSaved) := rfl
    obtain ⟨environment, henvironment, hkept, -⟩ := reopen_after_saving hsibling (by decide)
    obtain ⟨again, hagain, hvalues⟩ := hkept _ _ hlisted hhost (by decide) hsaved
      (isThere_of_save hsaved (by decide) (by decide) (by decide))
    cases henvironment
    exact ⟨again, hagain, hvalues "host"⟩

/-- An environment that is not there, at a directory of the snapshot. -/
def nestedFiles : EnvironmentFiles := ⟨"dev", "state", "state/kept.json"⟩

/-- The environment of `Session.clientTree`, by a path through a directory of the snapshot. -/
def roundaboutFiles : EnvironmentFiles := ⟨"dev", "state/../env.json", "state/kept.json"⟩

/-- **Saving can bring something about at the path of the environment.** A directory is made at its
end: the files can be opened and a map be saved, and then they can be opened no more. Or a directory
is made that the path goes up behind: what was opened is saved, and then something else is opened. -/
theorem directory_at_environment :
    (∃ saved fault, (nestedFiles.load Yaml.read Files.disk quiet).run.run ⟨[]⟩ = (.ok [], ⟨[]⟩) ∧
      target nestedFiles.path ≠ target nestedFiles.snapshotPath ∧
      (nestedFiles.save Files.disk quiet [("a", .text "x")]).run.run ⟨[]⟩ = (.ok (), saved) ∧
      (nestedFiles.load Yaml.read Files.disk quiet).run.run saved = (.error fault, saved)) ∧
    ∃ saved, (roundaboutFiles.load Yaml.read Files.disk quiet).run.run Session.clientTree =
        (.ok [], Session.clientTree) ∧
      target roundaboutFiles.path ≠ target roundaboutFiles.snapshotPath ∧
      (roundaboutFiles.save Files.disk quiet []).run.run Session.clientTree = (.ok (), saved) ∧
      (roundaboutFiles.load Yaml.read Files.disk quiet).run.run saved =
        (.ok [("host", .text "h")], saved) := by
  refine ⟨⟨_, _, rfl, by decide, rfl, rfl⟩, _, rfl, by decide, rfl, ?_⟩
  have hvariables : roundaboutFiles.defined Yaml.read (.ok Session.clientEnvironment) =
      .ok [("host", .text "h")] := by
    rw [defined, document, Session.clientEnvironment, valueOf_snapshotText]
    rfl
  have hremembered := remembered_snapshotText roundaboutFiles Yaml.read []
  refine (load_run _ _ _).trans (Prod.ext ?_ rfl)
  refine (congrArg₂ (fun environment snapshot => do
    let environment ← environment
    let snapshot ← snapshot
    pure (merge snapshot environment)) hvariables hremembered).trans rfl

end EnvironmentFiles

end RequestRunner
