import RequestRunner.Proofs.Environment.Reopening
import RequestRunner.Proofs.Json.Ordered

/-!
# Where the values of a run come from

A run starts from files: an environment and a snapshot, which are merged into one map. The session
knows this map twice (`Session.StartsFrom.knows`), as what its scripts persist and as its
environment, so that the environment answers for names of the snapshot, and the snapshot that is
saved holds values of the environment.

Main statements, for every run: a name that was removed is answered from the snapshot with which the
run started, unless the environment defines it (`Session.removed_name_is_answered_by_snapshot`); and
a name that only the environment defines is saved with its value, unless it was removed, and what
was saved reaches the next run under any other environment of the same file
(`Session.environment_is_saved_with_snapshot`).
-/

set_option autoImplicit false

namespace RequestRunner

/-! ## Sessions that start from files -/

namespace Session

open EnvironmentFiles Environment

variable {C W : Type} {language : Language C} {outside : Outside (StateM W)}
  {items : Except Fault (List RunItem)}

/-- A session starts from the files of a tree. -/
def StartsFrom (language : Language C) (yaml : YamlReader) (files : EnvironmentFiles) (tree : Files)
    (session : Session C) : Prop :=
  ∃ known kind now entropy, (files.load yaml Files.disk quiet).run.run tree = (.ok known, tree) ∧
    start language known kind now entropy = .ok session

/-- A session that starts from files knows what they define, merged. -/
theorem StartsFrom.knows {files : EnvironmentFiles} {yaml : YamlReader} {tree : Files}
    {session : Session C}
    (h : StartsFrom language yaml files tree session) :
    ∃ environment snapshot, files.defined yaml (tree.read files.path) = .ok environment ∧
      files.remembered yaml (tree.read files.snapshotPath) = .ok snapshot ∧
      session.Knows (merge snapshot environment) := by
  obtain ⟨known, kind, now, entropy, hload, hstart⟩ := h
  have hknown := definable_of_load hload
  obtain ⟨environment, snapshot, henvironment, hsnapshot, rfl⟩ := load_inv hload
  exact ⟨environment, snapshot, henvironment, hsnapshot, knows_of_start hknown hstart⟩

/-! ## Removed names -/

/-- **A removed name is answered by the snapshot.** In every run that starts from files, once a
script has removed a persisted name, by itself or with all others, and until a script stores a value
under it, a script that reads the name gets what the snapshot file held under it at the start, and a
placeholder of the name is filled with it; unless the environment defines the name or the request
does. So the removal shows exactly if the snapshot file had no value there. -/
theorem removed_name_is_answered_by_snapshot {files : EnvironmentFiles} {yaml : YamlReader}
    {tree : Files}
    {session : Session C} {w : W} {t : Session C × W} {calls : List CrewCall}
    {result : Except Fault (List RequestResult)} {before between rest : List HostEvent}
    {removing : HostEvent} {name : String}
    (hstart : StartsFrom language yaml files tree session)
    (hrun : (Run.execute (watchedCrew language outside items)).run.run ((session, w), []) =
      (result, (t, calls)))
    (hhistory : session.engine.history language calls =
      before ++ removing :: (between ++ rest))
    (hremoves : removing.Removes name) (hunset : ∀ event ∈ between, ¬ event.Stores name) :
    ∃ environment snapshot u, files.defined yaml (tree.read files.path) = .ok environment ∧
      files.remembered yaml (tree.read files.snapshotPath) = .ok snapshot ∧
      Host.Course session.engine.host (before ++ removing :: between) u ∧
      Host.Course u rest t.1.engine.host ∧
      (name ∉ Fields.names environment →
        u.answer (.read .persisted (some name)) = Store.held snapshot name ∧
        (u.request.get? name = none → ¬ ['$'] <+: name.toList → ∀ context : C,
          (Engine.resolve language name).run.run ⟨u, context⟩ =
            (.ok (heldText snapshot name), ⟨u, context⟩))) := by
  obtain ⟨environment, snapshot, henvironment, hsnapshot, hknows⟩ := hstart.knows
  have hcourse := Engine.course_history language session.engine calls
  rw [hhistory, ← List.cons_append, ← List.append_assoc, ← engine_of_run hrun] at hcourse
  -- the host at the place of the readings, and the one that is asked to remove the name
  obtain ⟨u, hplace, hrest⟩ := hcourse.exists_of_append
  obtain ⟨v, hbefore, hremoved⟩ := hplace.exists_of_append
  refine ⟨environment, snapshot, u, henvironment, hsnapshot, hplace, hrest, fun hname => ?_⟩
  have hanswers := hknows.answers language hplace
    (Or.inl (hremoved.get?_of_removed (hbefore.sound hknows.sound) hremoves hunset))
  have hheld := held_merge (definable_of_remembered hsnapshot) (definable_of_defined henvironment)
    name
  rw [if_neg hname] at hheld
  rw [heldText, hheld] at hanswers
  exact hanswers

/-- The text of an environment file with two environments, the second one without variables. -/
def hostEnvironments : String :=
  snapshotText [("dev", .object [("host", .text "h")]), ("prod", .object [])]

/-- The variables of the first environment. -/
def hostVariables : VariableMap := [("host", .text "h")]

theorem defined_hostEnvironments (yaml : YamlReader) :
    clientFiles.defined yaml (.ok hostEnvironments) = .ok hostVariables := by
  rw [defined, document, hostEnvironments, valueOf_snapshotText]
  rfl

/-- That file, and a snapshot with a token. -/
def oldTree : Files :=
  ⟨[(["env.json"], .file hostEnvironments),
    (["state", "kept.json"], .file (snapshotText [("token", .text "old")]))]⟩

/-- What is loaded from them. -/
def oldVariables : VariableMap := [("token", .text "old"), ("host", .text "h")]

/-- A session that starts with it. -/
def oldSession : Session Unit :=
  ⟨⟨⟨Store.ofMap oldVariables false, Store.empty, Store.ofMap oldVariables true, Report.empty, [],
    0, .seeded 1⟩, ()⟩, Printer.new .table⟩

/-- Every script removes the token. -/
def removingLanguage : Language Unit := Language.ofCalls fun _ => [.clear .persisted (some "token")]

/-- The collaborators of a run of two requests, the first of which has such a script. -/
def removingCrew : Collaborators (StateM ((Session Unit × Unit) × List CrewCall)) :=
  watchedCrew removingLanguage (Outside.replying ⟨"HTTP/1.1", 200, "OK", [], none⟩)
    (.ok [.handling "first" none (some "remove"), .handling "second" none none])

/-- That run. -/
def removingRun : Except Fault (List RequestResult) × ((Session Unit × Unit) × List CrewCall) :=
  (Run.execute removingCrew).run.run ((oldSession, ()), [])

/-- When the second request starts, the token that was removed has its old value. -/
theorem removed_name_is_answered_by_snapshot_token :
    ∃ u, Host.Course oldSession.engine.host
        [.call (.clear .persisted (some "token")) (), .drained, .renewed] u ∧
      u.answer (.read .persisted (some "token")) = some (.text "old") ∧
      (Engine.resolve removingLanguage "token").run.run ⟨u, ()⟩ = (.ok "old", ⟨u, ()⟩) := by
  have hdefined : clientFiles.defined Yaml.read (oldTree.read clientFiles.path) =
      .ok hostVariables := defined_hostEnvironments Yaml.read
  have hremembered : clientFiles.remembered Yaml.read (oldTree.read clientFiles.snapshotPath) =
      .ok [("token", .text "old")] :=
    remembered_snapshotText clientFiles Yaml.read [("token", .text "old")]
  have hload : (clientFiles.load Yaml.read Files.disk quiet).run.run oldTree =
      (.ok oldVariables, oldTree) := by
    rw [load_run, hdefined, hremembered]
    rfl
  have hstart : StartsFrom removingLanguage Yaml.read clientFiles oldTree oldSession :=
    ⟨oldVariables, .table, 0, (.seeded 1), hload, rfl⟩
  have hrun : (Run.execute removingCrew).run.run ((oldSession, ()), []) =
      (removingRun.1, (removingRun.2.1, removingRun.2.2)) := rfl
  have hhistory : oldSession.engine.history removingLanguage removingRun.2.2 =
      [] ++ .call (.clear .persisted (some "token")) () ::
        ([.drained, .renewed] ++ [.renewed]) := by
    with_unfolding_all rfl
  have hunset : ∀ event ∈ [HostEvent.drained, .renewed], ¬ event.Stores "token" := by
    simp [HostEvent.Stores]
  obtain ⟨environment, snapshot, u, henvironment, hsnapshot, hcourse, -, hanswers⟩ :=
    removed_name_is_answered_by_snapshot hstart hrun hhistory rfl hunset
  cases hdefined.symm.trans henvironment
  cases hremembered.symm.trans hsnapshot
  obtain ⟨hread, hresolve⟩ := hanswers (by decide)
  have hrenewed : u.request = Store.empty :=
    congrArg Host.request (hcourse.unique (.call _ (.drained (.renewed (.nil _)))))
  exact ⟨u, hcourse, hread, hresolve (by rw [hrenewed]; rfl) (by decide) ()⟩

/-! ## Saved values -/

/-- What the text of a saved map defines is held as the map that is reread from it. -/
theorem held_remembered {files : EnvironmentFiles} {yaml : YamlReader}
    {kept snapshot : VariableMap}
    (hkept : Definable kept) (h : files.remembered yaml (.ok (snapshotText kept)) = .ok snapshot)
    (name : String) : Store.held snapshot name = Store.held (Json.rereadFields kept) name := by
  rw [remembered_snapshotText] at h
  cases h
  have hreread : Definable (Json.rereadFields kept) := by
    constructor
    · rw [Json.names_rereadFields]
      exact hkept.nodup
    · rw [Json.names_rereadFields]
      exact hkept.reserved
  by_cases hname : name = reservedKey
  · subst hname
    have hdefined := definable_of_remembered (remembered_snapshotText files yaml kept)
    rw [held_eq_none hdefined.reserved, held_eq_none hreread.reserved]
  · have hdocument : (Fields.names (Datum.ofJsonFields
        (Fields.ofEntries (Json.rereadFields kept)))).Nodup := by
      rw [Datum.names_ofJsonFields]
      exact Fields.nodup_names_ofEntries _
    rw [Store.held, get?_definitions hdocument hname, Datum.get?_ofJsonFields,
      Fields.get?_ofEntries hreread.nodup, Store.held]
    cases hvalue : Fields.get? name (Json.rereadFields kept) with
    | none => rfl
    | some value =>
      have hmem := (Fields.mem_iff_get?_eq hreread.nodup).2 hvalue
      have hcopy := (Json.ordered_of_mem_rereadFields kept _ hmem).json?_ofJson
      rw [Option.map_some, Option.bind_some, hcopy, Option.map_some, Option.map_some,
        Json.copy_copy]

/-- **The environment is saved with the snapshot.** In every run that starts from files, a name
that is not in the snapshot file at the start, and under which no script stores a value, is saved
with the value that the environment holds under it, unless a script removes the name. And whatever
was saved under the name reaches the next run, also under another environment that does not define
it: as long as no script stores a value under the name there, a placeholder of the name is filled
with what is reread from the snapshot, unless the request defines it. -/
theorem environment_is_saved_with_snapshot {files : EnvironmentFiles} {yaml : YamlReader}
    {tree : Files}
    {session : Session C} {w : W} {t : Session C × W} {calls : List CrewCall}
    {result : Except Fault (List RequestResult)} {kept : VariableMap} {name : String}
    (hstart : StartsFrom language yaml files tree session)
    (hrun : (Run.execute (watchedCrew language outside items)).run.run ((session, w), []) =
      (result, (t, calls)))
    (hkept : .save kept ∈ calls)
    (hunset : ∀ event ∈ session.engine.history language calls, ¬ event.Stores name) :
    ∃ environment snapshot, files.defined yaml (tree.read files.path) = .ok environment ∧
      files.remembered yaml (tree.read files.snapshotPath) = .ok snapshot ∧
      (name ∉ Fields.names snapshot →
        ((∃ event ∈ session.engine.history language calls, event.Removes name) →
          Fields.get? name kept = none) ∧
        ((∀ event ∈ session.engine.history language calls, ¬ event.Removes name) →
          Fields.get? name kept = Store.held environment name)) ∧
      ∀ saved other next,
        (files.save Files.disk quiet kept).run.run tree = (.ok (), saved) →
        StartsFrom language yaml { files with name := other } saved next →
        ∃ another,
          { files with name := other }.defined yaml (saved.read files.path) = .ok another ∧
          (name ∉ Fields.names another → ∀ later before rest,
            next.engine.history language later = before ++ rest →
            (∀ event ∈ before, ¬ event.Stores name) →
            ∃ u, Host.Course next.engine.host before u ∧
              (u.request.get? name = none → ¬ ['$'] <+: name.toList → ∀ context : C,
                (Engine.resolve language name).run.run ⟨u, context⟩ =
                  (.ok (heldText (Json.rereadFields kept) name), ⟨u, context⟩))) := by
  obtain ⟨environment, snapshot, henvironment, hsnapshot, hknows⟩ := hstart.knows
  refine ⟨environment, snapshot, henvironment, hsnapshot, fun hname => ?_, ?_⟩
  · -- the snapshot has no value there, so what is known is what the environment holds
    have hheld := held_merge (definable_of_remembered hsnapshot)
      (definable_of_defined henvironment) name
    have horigin : Store.held (merge snapshot environment) name = Store.held environment name := by
      rw [hheld]
      split
      · rfl
      · next habsent => rw [held_eq_none hname, held_eq_none habsent]
    rw [← horigin]
    exact hknows.get?_kept_of_unset hrun hkept hunset
  · intro saved other next hsaved hnext
    obtain ⟨another, again, hanother, hagain, hnextKnows⟩ := hnext.knows
    refine ⟨another, hanother, fun hname later before rest hhistory hunsetNext => ?_⟩
    have hcourse := Engine.course_history language next.engine later
    rw [hhistory] at hcourse
    obtain ⟨u, hplace, -⟩ := hcourse.exists_of_append
    refine ⟨u, hplace, ?_⟩
    have hanswers := (hnextKnows.answers_of_unset language hplace hunsetNext).2
    -- the other environment leaves the name to the snapshot, which is the saved one
    have hread : saved.read files.snapshotPath = .ok (snapshotText kept) := read_save_self hsaved
    have hdefined : EnvironmentFiles.remembered { files with name := other }
        yaml (.ok (snapshotText kept)) = .ok again := hread ▸ hagain
    have hheld := held_merge (definable_of_remembered hagain) (definable_of_defined hanother) name
    rw [if_neg hname, held_remembered (definable_kept hrun hkept) hdefined] at hheld
    rw [heldText, hheld] at hanswers
    exact hanswers

/-- The file with two environments alone. -/
def hostTree : Files := ⟨[(["env.json"], .file hostEnvironments)]⟩

/-- Every script does nothing. -/
def silentLanguage : Language Unit := Language.ofCalls fun _ => []

/-- The collaborators of a run of one request without scripts. -/
def silentCrew : Collaborators (StateM ((Session Unit × Unit) × List CrewCall)) :=
  watchedCrew silentLanguage (Outside.replying ⟨"HTTP/1.1", 200, "OK", [], none⟩)
    (.ok [.handling "first" none none])

/-- That run, in a session that knows the variables of the first environment. -/
def silentRun : Except Fault (List RequestResult) × ((Session Unit × Unit) × List CrewCall) :=
  (Run.execute silentCrew).run.run ((clientSession, ()), [])

/-- The tree in which its map is saved. -/
def hostSaved : Files :=
  ((clientFiles.save Files.disk quiet hostVariables).run.run hostTree).2

/-- A run that touches nothing saves the variables of its environment, and a placeholder is filled
with one of them under another environment, which is empty. -/
theorem environment_is_saved_with_snapshot_host :
    (∃ kept, .save kept ∈ silentRun.2.2 ∧ Fields.get? "host" kept = some (.text "h")) ∧
      ∃ next : Session Unit,
        StartsFrom silentLanguage Yaml.read { clientFiles with name := "prod" } hostSaved next ∧
        (Engine.resolve silentLanguage "host").run.run next.engine = (.ok "h", next.engine) := by
  have hdefined : clientFiles.defined Yaml.read (hostTree.read clientFiles.path) =
      .ok hostVariables := defined_hostEnvironments Yaml.read
  have hremembered : clientFiles.remembered Yaml.read (hostTree.read clientFiles.snapshotPath) =
      .ok [] := rfl
  have hload : (clientFiles.load Yaml.read Files.disk quiet).run.run hostTree =
      (.ok hostVariables, hostTree) := by
    rw [load_run, hdefined, hremembered]
    rfl
  have hstart : StartsFrom silentLanguage Yaml.read clientFiles hostTree clientSession :=
    ⟨hostVariables, .table, 0, (.seeded 1), hload, rfl⟩
  have hrun : (Run.execute silentCrew).run.run ((clientSession, ()), []) =
      (silentRun.1, (silentRun.2.1, silentRun.2.2)) := rfl
  have hkept : .save hostVariables ∈ silentRun.2.2 := by
    refine (save_mem_iff hrun hostVariables).2 ?_
    with_unfolding_all rfl
  have hhistory : clientSession.engine.history silentLanguage silentRun.2.2 = [.renewed] := by
    with_unfolding_all rfl
  have huntouched : ∀ event ∈ clientSession.engine.history silentLanguage silentRun.2.2,
      ¬ event.Stores "host" ∧ ¬ event.Removes "host" := by
    simp [hhistory, HostEvent.Stores, HostEvent.Removes]
  obtain ⟨environment, snapshot, henvironment, hsnapshot, hfirst, hnext⟩ :=
    environment_is_saved_with_snapshot hstart hrun hkept fun event hmem =>
      (huntouched event hmem).1
  cases hdefined.symm.trans henvironment
  cases hremembered.symm.trans hsnapshot
  have hsaved : (clientFiles.save Files.disk quiet hostVariables).run.run hostTree =
      (.ok (), hostSaved) := rfl
  have hother : EnvironmentFiles.defined { clientFiles with name := "prod" } Yaml.read
      (hostSaved.read clientFiles.path) = .ok [] := by
    have hread : hostSaved.read clientFiles.path = .ok hostEnvironments := rfl
    rw [hread, defined, document, hostEnvironments, valueOf_snapshotText]
    rfl
  have hreload : (EnvironmentFiles.load { clientFiles with name := "prod" } Yaml.read Files.disk
      quiet).run.run hostSaved = (.ok hostVariables, hostSaved) := by
    have hread : hostSaved.read clientFiles.snapshotPath = .ok (snapshotText hostVariables) := rfl
    rw [load_run, hother, hread, remembered_snapshotText]
    rfl
  have hstartNext : StartsFrom silentLanguage Yaml.read { clientFiles with name := "prod" } hostSaved
      clientSession :=
    ⟨hostVariables, .table, 0, (.seeded 1), hreload, rfl⟩
  obtain ⟨another, hanother, hanswers⟩ := hnext hostSaved "prod" clientSession hsaved hstartNext
  cases hother.symm.trans hanother
  obtain ⟨u, hcourse, hresolve⟩ := hanswers (by decide) [] [] [] rfl (by simp)
  cases hcourse
  exact ⟨⟨hostVariables, hkept,
    (hfirst (by decide)).2 fun event hmem => (huntouched event hmem).2⟩,
    clientSession, hstartNext, hresolve rfl (by decide) ()⟩

end Session

end RequestRunner
