import RequestRunner.Proofs.Output.Alignment
import RequestRunner.Proofs.Run.Reports
import RequestRunner.Proofs.Run.Transcript

/-!
# The accounts of failed tests

Three parts of the program say whether a test failed: the run, which ends with the failures that it
collected; a formatted printer, which keeps a flag and lists the failures at the end; and a table
printer, which counts over the results. `Run.failures` is the list that the run ends with. The other
accounts are read off it: the lines of a formatted printer (`Printer.failureLines_eq`), the rows of
a table that say that a test failed (`Printer.failedRows_eq`), its summary
(`Printer.failedRequests_eq`) and the exit code. Main statement: after every run that nothing
stopped, all of them agree (`Session.failure_accounts_agree`).
-/

set_option autoImplicit false

namespace RequestRunner

instance (report : Report) : Decidable report.HasFailure :=
  decidable_of_iff (report.failed ≠ []) report.failed_ne_nil_iff

/-! ## What the printers say -/

/-- A failure under its number. -/
def TestFailure.line (number : Nat) (failure : TestFailure) : String :=
  s!"{number}. Test `{failure.test}` in `[{failure.request}]` FAILED with {failure.reason}\n"

/-- The failures as a formatted printer lists them: nothing if there are none. -/
def Run.failureListing : List TestFailure → List String
  | [] => []
  | failures => "RUN FAILED\n" :: (failures.zipIdx 1).map fun (failure, number) =>
      failure.line number

theorem Run.failureListing_of_ne_nil {failures : List TestFailure} (h : failures ≠ []) :
    Run.failureListing failures =
      "RUN FAILED\n" :: (failures.zipIdx 1).map fun (failure, number) => failure.line number := by
  cases failures with
  | nil => exact absurd rfl h
  | cons failure rest => rfl

namespace Writing

/-- The texts that went to a stream, in order. -/
def textsOn (stream : Stream) (writings : List Writing) : List String :=
  (writings.filter fun writing => writing.stream = stream).map (·.text)

theorem textsOn_append (stream : Stream) (writings more : List Writing) :
    textsOn stream (writings ++ more) = textsOn stream writings ++ textsOn stream more := by
  rw [textsOn, List.filter_append, List.map_append]
  rfl

theorem textsOn_map (stream : Stream) (texts : List String) :
    textsOn stream (texts.map (Writing.mk stream)) = texts := by
  have hall : ∀ writing ∈ texts.map (Writing.mk stream),
      decide (writing.stream = stream) = true := by
    intro writing hmem
    obtain ⟨text, -, rfl⟩ := List.mem_map.1 hmem
    exact decide_eq_true rfl
  rw [textsOn, List.filter_eq_self.2 hall, List.map_map]
  exact List.map_id texts

theorem textsOn_eq_nil {stream : Stream} {writings : List Writing}
    (h : ∀ writing ∈ writings, writing.stream ≠ stream) : textsOn stream writings = [] := by
  rw [textsOn, List.map_eq_nil_iff, List.filter_eq_nil_iff]
  exact fun writing hmem => by simpa using h writing hmem

end Writing

namespace Printer

/-- The request and the test of a row that says that a test failed. -/
def failedRow? : Table.Row → Option (String × String)
  | [file, request, test, "FAILED"] => some (file ++ " / " ++ request, test)
  | _ => none

theorem exitCode_eq_one_iff (printer : Printer) :
    printer.exitCode = 1 ↔ printer.failed = true := by
  unfold exitCode
  split
  · next h => exact iff_of_true rfl h
  · next h => exact iff_of_false nofun h

/-- The lines of a formatted printer are those of the failures of the run. -/
theorem failureLines_eq (n : Nat) (failed : List (RequestResult × String × String)) :
    failureLines n failed = ((failed.map fun (result, test, reason) =>
      (⟨result.file ++ " / " ++ result.request, test, reason⟩ : TestFailure)).zipIdx n).map
        fun (failure, number) => failure.line number := by
  induction failed generalizing n with
  | nil => rfl
  | cons failure rest ih =>
    obtain ⟨result, test, reason⟩ := failure
    have hline : failureLine n result test reason =
        TestFailure.line n ⟨result.file ++ " / " ++ result.request, test, reason⟩ := by
      simp only [failureLine, TestFailure.line, toString, String.append_assoc]
    rw [failureLines, ih, hline, List.map_cons, List.zipIdx_cons, List.map_cons]

/-- The failures of a run are the failed tests that its printer finds in the results. -/
theorem failures_eq_map (results : List RequestResult) :
    Run.failures results = (failures results).map fun (result, test, reason) =>
      (⟨result.file ++ " / " ++ result.request, test, reason⟩ : TestFailure) := by
  rw [Run.failures, failures, List.map_flatMap]
  congr 1
  funext result
  rw [RequestResult.failures, List.map_map]
  rfl

/-- A row for each failed test of a result says so. -/
theorem filterMap_tableRows (result : RequestResult) :
    (tableRows result).filterMap failedRow? =
      result.failures.map fun failure => (failure.request, failure.test) := by
  rw [tableRows, RequestResult.failures, Report.failed]
  split
  · next hempty =>
    have hall := result.report.all_perm
    rw [List.isEmpty_iff.1 hempty] at hall
    rw [hall.eq_nil]
    rfl
  · rw [List.filterMap_map, List.map_map, List.map_filterMap]
    congr 1
    funext entry
    obtain ⟨test, outcome⟩ := entry
    cases outcome <;> rfl

/-- **The rows of the table that say that a test failed are the failures of the run.** -/
theorem failedRows_eq (results : List RequestResult) :
    (results.flatMap tableRows).filterMap failedRow? =
      (Run.failures results).map fun failure => (failure.request, failure.test) := by
  rw [List.filterMap_flatMap, Run.failures, List.map_flatMap]
  congr 1
  funext result
  exact filterMap_tableRows result

/-- **The summary of the table counts the results whose report has a failed test.** -/
theorem failedRequests_eq (results : List RequestResult) :
    failedRequests results = results.countP fun result => result.report.HasFailure := by
  rw [failedRequests, ← List.countP_eq_length_filter]
  congr 1
  funext result
  rw [Bool.eq_iff_iff, Bool.not_eq_true', List.isEmpty_eq_false_iff, decide_eq_true_iff]
  exact result.report.failed_ne_nil_iff

theorem any_iff_hasFailure (results : List RequestResult) :
    (results.any fun result => !result.report.failed.isEmpty) = true ↔
      ∃ result ∈ results, result.report.HasFailure := by
  rw [List.any_eq_true]
  refine exists_congr fun result => and_congr_right fun _ => ?_
  rw [Bool.not_eq_true', List.isEmpty_eq_false_iff]
  exact result.report.failed_ne_nil_iff

end Printer

/-! ## Printers at the end of a run -/

namespace Printer

/-- Once all results are printed, the exit code is one exactly if one of them has a failed test. -/
theorem exitCode_tests (kind : PrinterKind) (results : List RequestResult) :
    (((new kind).seeing results).tests results).1.exitCode = 1 ↔
      ∃ result ∈ results, result.report.HasFailure := by
  rw [exitCode_eq_one_iff]
  cases kind with
  | formatted request response =>
    rw [← any_iff_hasFailure]
    simp only [new, seeing, tests, Bool.false_or]
    split <;> rfl
  | table =>
    have hcount : (results.countP fun result => result.report.HasFailure) ≠ 0 ↔
        ∃ result ∈ results, result.report.HasFailure := by
      rw [← Nat.pos_iff_ne_zero, List.countP_pos_iff]
      simp only [decide_eq_true_iff]
    rw [← hcount, ← failedRequests_eq]
    exact bne_iff_ne

/-- What a formatted printer lists at the end. -/
theorem tests_formatted (request response : Format) (results : List RequestResult) :
    (((new (.formatted request response)).seeing results).tests results).2 =
      (Run.failureListing (Run.failures results)).map (Writing.mk .err) := by
  have hany := (any_iff_hasFailure results).trans (Run.failures_ne_nil_iff results).symm
  simp only [new, seeing, tests, Bool.false_or]
  split
  · next hfailed =>
    rw [Run.failureListing_of_ne_nil (hany.1 hfailed), failureLines_eq, ← failures_eq_map]
  · next hfailed =>
    rw [not_not.1 (mt hany.2 hfailed)]
    rfl

end Printer

namespace Session

variable {C W : Type} {language : Language C} {outside : Outside (StateM W)}
  {items : Except Fault (List RunItem)}

/-- The collaborators of a session in a world with a transcript. -/
abbrev transcribedCrew (language : Language C) (outside : Outside (StateM W))
    (items : Except Fault (List RunItem)) :
    Collaborators (StateM (Session C × (W × List Writing))) :=
  worldCrew language outside.transcribed items

/-- **All accounts of failed tests agree.** A run that nothing stopped, and that saved its
variables, fails exactly if the exit code of its new printer is one at the end, and that is so
exactly if some result has a failed test. The failures with which it ends are those that a formatted
printer lists on the error stream, in the same order, each under its number. A table printer writes
a row for every test of the results; the rows that say that a test failed are the failures of the
run, in the same order; and the summary counts the results that have one. -/
theorem failure_accounts_agree {s : Session C} {w : W} {kind : PrinterKind}
    {results : List RequestResult} {t u : Session C × (W × List Writing)}
    (hprinter : s.printer = Printer.new kind)
    (hrun : (Run.runAll (transcribedCrew language outside items)).run.run (s, (w, [])) =
      (.ok results, t))
    (hsaving : Run.savingAt (transcribedCrew language outside items) t = (.ok (), u)) :
    ∃ listed outcome ended, items = .ok listed ∧
      Run.failures results = ((listed.zip results).flatMap fun (item, result) =>
        result.report.failed.map fun (test, reason) => ⟨item.name, test, reason⟩) ∧
      (Run.execute (transcribedCrew language outside items)).run.run (s, (w, [])) =
        (outcome, ended) ∧
      (Run.execute (worldCrew language outside items)).run.run (s, w) =
        (outcome, (ended.1, ended.2.1)) ∧
      outcome = (if Run.failures results = [] then .ok results
        else .error (.testsFailed (Run.failures results))) ∧
      ((∃ failed, outcome = .error (.testsFailed failed)) ↔ ended.1.printer.exitCode = 1) ∧
      (ended.1.printer.exitCode = 1 ↔ ∃ result ∈ results, result.report.HasFailure) ∧
      (∀ request response, kind = .formatted request response →
        Writing.textsOn .err ended.2.2 = Run.failureListing (Run.failures results)) ∧
      (kind = .table → ∃ groups table,
        List.Forall₂ RequestResult.HasRows results groups ∧
        Table.IsTable Printer.tableHeader groups.flatten table ∧
        ended.2.2 = [⟨.out, table⟩,
          ⟨.out, toString results.length ++ " requests completed, " ++
            toString (results.countP fun result => result.report.HasFailure) ++
            " have failed tests\n"⟩] ∧
        groups.flatten.filterMap Printer.failedRow? =
          (Run.failures results).map fun failure => (failure.request, failure.test)) := by
  obtain ⟨hseen, more, hmore, hall⟩ := printed_runAll hrun
  have hexecute := Run.execute_of_saved hrun hsaving
  generalize hended :
    (((transcribedCrew language outside items).printTests results).run u).2 = ended at hexecute
  -- the saving prints nothing, and then the printer is told the results
  have hsaved : printing u = printing t := (congrArg (fun ran => printing ran.2) hsaving).symm
  have htold : printing ended = tell (fun printer => printer.tests results) (printing t) := by
    rw [← hended, ← hsaved]
    exact printing_print outside _ u
  have hnew : (printing (s, (w, ([] : List Writing)))).1 = Printer.new kind := hprinter
  rw [hnew] at hseen hall
  have hcode : ended.1.printer.exitCode = 1 ↔ ∃ result ∈ results, result.report.HasFailure := by
    have hlast : ended.1.printer = (((Printer.new kind).seeing results).tests results).1 := by
      rw [← hseen]
      exact congrArg Prod.fst htold
    rw [hlast]
    exact Printer.exitCode_tests kind results
  have hwritten : ended.2.2 =
      more ++ (((Printer.new kind).seeing results).tests results).2 := by
    rw [← hseen]
    refine (congrArg Prod.snd htold).trans ?_
    rw [tell, hmore]
    rfl
  obtain ⟨listed, _, hitems, hattempts⟩ := Run.attempts_of_runAll hrun
  refine ⟨listed, _, ended, congrArg Prod.fst hitems, Run.failures_eq_zip (hattempts.places rfl),
    hexecute, ?_, ?_, ?_, hcode, ?_, ?_⟩
  · have hplain := execute_transcribed language outside items (s, (w, []))
    rw [hexecute] at hplain
    exact hplain
  · exact Run.verdict_of_saved results
  · rw [hcode]
    exact Run.verdict_eq_testsFailed_iff results
  · rintro request response rfl
    have hout : ∀ writing ∈ more, writing.stream ≠ .err := by
      intro writing hmem herr
      cases herr.symm.trans (hall writing hmem).1
    rw [hwritten, Printer.tests_formatted, Writing.textsOn_append, Writing.textsOn_eq_nil hout,
      Writing.textsOn_map]
    rfl
  · rintro rfl
    have hnone : more = [] := List.eq_nil_iff_forall_not_mem.2 fun writing hmem =>
      (hall writing hmem).2 rfl
    have hgroups : List.Forall₂ RequestResult.HasRows results (results.map Printer.tableRows) := by
      rw [List.forall₂_map_right_iff, List.forall₂_same]
      exact fun result _ => result.hasRows_tableRows
    refine ⟨_, _, hgroups, Printer.isTable_render results, ?_, Printer.failedRows_eq results⟩
    rw [hwritten, hnone, ← Printer.failedRequests_eq]
    rfl

/-- The collaborators of a run of two requests, each of which records a failing test. -/
def failingCrew : Collaborators (StateM (Session Unit × (Unit × List Writing))) :=
  transcribedCrew (Language.ofCalls checkScripts) checkOutside (.ok [heard, heard])

/-- A session with a printer that writes no messages, only the list of failed tests. -/
def listingSession : Session Unit := { checkSession with printer := Printer.new (.formatted [] []) }

/-- The results of that run. -/
def failingResults : List RequestResult :=
  [⟨"sample.http", "heard", heardReport⟩, ⟨"sample.http", "heard", heardReport⟩]

/-- The failure of one of its requests. -/
def heardFailure : TestFailure := ⟨"sample.http / heard", "ready", "not ready"⟩

/-- One printer lists two failures, the other one counts two requests. -/
theorem failure_accounts_agree_heard :
    (∃ ended, (Run.execute failingCrew).run.run (listingSession, ((), [])) =
        (.error (.testsFailed [heardFailure, heardFailure]), ended) ∧
      ended.1.printer.exitCode = 1 ∧
      Writing.textsOn .err ended.2.2 = ["RUN FAILED\n",
        "1. Test `ready` in `[sample.http / heard]` FAILED with not ready\n",
        "2. Test `ready` in `[sample.http / heard]` FAILED with not ready\n"]) ∧
      ∃ ended, (Run.execute failingCrew).run.run (checkSession, ((), [])) =
          (.error (.testsFailed [heardFailure, heardFailure]), ended) ∧
        ended.1.printer.exitCode = 1 ∧
        ∃ rows table, Table.IsTable Printer.tableHeader rows table ∧
          rows.filterMap Printer.failedRow? =
            [("sample.http / heard", "ready"), ("sample.http / heard", "ready")] ∧
          ended.2.2 =
            [⟨.out, table⟩, ⟨.out, "2 requests completed, 2 have failed tests\n"⟩] := by
  have hsaving : ∀ t, Run.savingAt failingCrew t = (.ok (), t) := fun _ => rfl
  have hfailures : Run.failures failingResults = [heardFailure, heardFailure] := by
    decide +kernel
  constructor
  · have hprinter : listingSession.printer = Printer.new (.formatted [] []) := rfl
    have hresults : ((Run.runAll failingCrew).run.run (listingSession, ((), []))).1.toOption =
        some failingResults := by
      decide +kernel
    obtain ⟨t, hrun⟩ := Run.exists_of_toOption hresults
    obtain ⟨-, outcome, ended, -, -, hexecute, -, hfailed, hcode, -, hlisted, -⟩ :=
      failure_accounts_agree hprinter hrun (hsaving t)
    rw [hfailures] at hfailed hlisted
    subst hfailed
    refine ⟨ended, hexecute, hcode.1 ⟨_, rfl⟩, (hlisted [] [] rfl).trans ?_⟩
    decide +kernel
  · have hprinter : checkSession.printer = Printer.new .table := rfl
    have hresults : ((Run.runAll failingCrew).run.run (checkSession, ((), []))).1.toOption =
        some failingResults := by
      decide +kernel
    obtain ⟨t, hrun⟩ := Run.exists_of_toOption hresults
    obtain ⟨-, outcome, ended, -, -, hexecute, -, hfailed, hcode, -, -, htable⟩ :=
      failure_accounts_agree hprinter hrun (hsaving t)
    rw [hfailures] at hfailed htable
    subst hfailed
    obtain ⟨groups, table, -, htable, hwritten, hrows⟩ := htable rfl
    have hcount : (failingResults.countP fun result => result.report.HasFailure) = 2 := by
      decide +kernel
    refine ⟨ended, hexecute, hcode.1 ⟨_, rfl⟩, _, table, htable, hrows, hwritten.trans ?_⟩
    rw [hcount]
    rfl

end Session

end RequestRunner
