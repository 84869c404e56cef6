import RequestRunner.Generator.Draw
import RequestRunner.Proofs.Engine.Records
import RequestRunner.Proofs.Run.World

/-!
# What the report of a request holds

`Run.Completed` relates the place in a run where a request is begun to the place where it is
completed, with the report that it gives. A request starts with an engine that has recorded nothing
(`Session.report_of_begun`), the report of a request with a response handler is the engine's own,
and that of any other request is empty (`Session.report_of_respond`). Main statement: the report of
a completed request, which is also the one that is printed with its response, holds the last outcome
of every test that the scripts of the request recorded if there is a response handler, and nothing
otherwise; and a run that nothing stopped fails exactly if a request of the first kind has a test
that failed last (`Session.reports_of_completed_requests`).
-/

set_option autoImplicit false

namespace RequestRunner

namespace Run

variable {σ : Type}

/-- Among items that are run from a state, one is begun in a state and completed with a report in
another one. -/
inductive Completes (crew : Collaborators (StateM σ)) :
    List RunItem → σ → RunItem → σ → Report → σ → Prop
  | here {item : RunItem} {rest : List RunItem} {s t : σ} {report : Report} :
      (item.execute crew).run.run (begun crew item s) = (.ok report, t) →
      Completes crew (item :: rest) s item (begun crew item s) report t
  | later {item other : RunItem} {rest : List RunItem} {s t u v : σ} {report found : Report} :
      (item.execute crew).run.run (begun crew item s) = (.ok report, t) →
      Completes crew rest (forgotten crew item report t) other u found v →
      Completes crew (item :: rest) s other u found v

/-- In a run from a state, an item is begun in a state and completed with a report in another
one. -/
def Completed (crew : Collaborators (StateM σ)) (s : σ) (item : RunItem) (u : σ) (report : Report)
    (v : σ) : Prop :=
  ∃ items t, crew.items.run.run s = (.ok items, t) ∧ Completes crew items t item u report v

/-- A completed item came through its stages. -/
theorem Completes.execute_eq {crew : Collaborators (StateM σ)} {items : List RunItem}
    {s u v : σ} {item : RunItem} {report : Report} (h : Completes crew items s item u report v) :
    (item.execute crew).run.run u = (.ok report, v) := by
  induction h with
  | here hrun => exact hrun
  | later _ _ ih => exact ih

/-- The results of a run are those of its completed items. -/
theorem Attempts.mem_results_iff {crew : Collaborators (StateM σ)} {items : List RunItem}
    {s t : σ} {results : List RequestResult} {fault : Option Fault}
    (h : Attempts crew items s results fault t) (result : RequestResult) :
    result ∈ results ↔ ∃ item u report v, Completes crew items s item u report v ∧
      result = ⟨item.file, item.sectionName, report⟩ := by
  induction h with
  | nil s =>
    constructor
    · intro hmem
      cases hmem
    · rintro ⟨item, u, report, v, hcompletes, -⟩
      cases hcompletes
  | failed hfailed =>
    constructor
    · intro hmem
      cases hmem
    · rintro ⟨item, u, report, v, hcompletes, -⟩
      cases hcompletes with
      | here hrun => cases hrun.symm.trans hfailed
      | later hrun _ => cases hrun.symm.trans hfailed
  | completed hrun _ ih =>
    rw [List.mem_cons, ih]
    constructor
    · rintro (rfl | ⟨item, u, report, v, hcompletes, rfl⟩)
      · exact ⟨_, _, _, _, .here hrun, rfl⟩
      · exact ⟨item, u, report, v, .later hrun hcompletes, rfl⟩
    · rintro ⟨item, u, report, v, hcompletes, rfl⟩
      cases hcompletes with
      | here hother =>
        cases hother.symm.trans hrun
        exact Or.inl rfl
      | later hother hrest =>
        cases hother.symm.trans hrun
        exact Or.inr ⟨item, u, report, v, hrest, rfl⟩

theorem Loop.mem_results_iff {crew : Collaborators (StateM σ)} {items : List RunItem}
    {s t : σ} {results : List RequestResult} {fault : Option Fault}
    (h : Loop crew s items results fault t) (result : RequestResult) :
    result ∈ results ↔ ∃ item u report v, Completed crew s item u report v ∧
      result = ⟨item.file, item.sectionName, report⟩ := by
  cases h with
  | unlisted hitems =>
    constructor
    · intro hmem
      cases hmem
    · rintro ⟨item, u, report, v, ⟨listed, start, hlisted, -⟩, -⟩
      cases hlisted.symm.trans hitems
  | listed hitems hattempts =>
    rw [hattempts.mem_results_iff]
    constructor
    · rintro ⟨item, u, report, v, hcompletes, rfl⟩
      exact ⟨item, u, report, v, ⟨_, _, hitems, hcompletes⟩, rfl⟩
    · rintro ⟨item, u, report, v, ⟨listed, start, hlisted, hcompletes⟩, rfl⟩
      cases hlisted.symm.trans hitems
      exact ⟨item, u, report, v, hcompletes, rfl⟩

end Run

/-- Where every test is listed once, a report has a failure if the outcome of some test is one. -/
theorem Report.hasFailure_iff {report : Report} (h : report.names.Nodup) :
    report.HasFailure ↔ ∃ name reason, report.get? name = some (.failure reason) :=
  exists₂_congr fun name reason => report.mem_entries_iff h name (.failure reason)

namespace Session

variable {C W : Type} {language : Language C} {outside : Outside (StateM W)}
  {items : Except Fault (List RunItem)}

/-- The engine's report behind the stages of a response, or none without a handler. -/
theorem report_of_respond {part : RequestSection} {response : Response} {report : Report}
    {u v : (Session C × W) × List CrewCall}
    (h : (RunItem.respond (watchedCrew language outside items) part response).run.run u =
      (.ok report, v)) :
    report = if part.handler.isSome then v.1.1.engine.report else Report.empty := by
  rw [RunItem.respond] at h
  cases hhandler : part.handler with
  | none =>
    rw [hhandler] at h
    cases h
    rfl
  | some handler =>
    rw [hhandler] at h
    obtain ⟨_, t, -, hreport⟩ := Run.run_bind_inv h
    rw [Run.run_lift] at hreport
    cases hreport
    rfl

/-- The last thing a completed request does is to print its response with its report. -/
theorem execute_inv {item : RunItem} {report : Report} {u v : (Session C × W) × List CrewCall}
    (h : (item.execute (watchedCrew language outside items)).run.run u = (.ok report, v)) :
    report = (if item.part.handler.isSome then v.1.1.engine.report else Report.empty) ∧
      ∃ response, v.2.getLast? = some (.printResponse response report) := by
  -- declaring, preparing, resolving, printing, sending, responding, printing
  obtain ⟨_, t₁, -, h⟩ := Run.run_bind_inv h
  obtain ⟨_, t₂, -, h⟩ := Run.run_bind_inv h
  obtain ⟨request, t₃, -, h⟩ := Run.run_bind_inv h
  obtain ⟨_, t₄, -, h⟩ := Run.run_bind_inv h
  obtain ⟨response, t₅, -, h⟩ := Run.run_bind_inv h
  obtain ⟨found, t₆, hrespond, h⟩ := Run.run_bind_inv h
  obtain ⟨_, t₇, hprint, h⟩ := Run.run_bind_inv h
  cases h
  have hfound := report_of_respond (Run.run_attempt_inv hrespond)
  cases hprint
  exact ⟨hfound, response, List.getLast?_concat⟩

/-- The calls that were made between two places of a run. -/
def callsBetween (u v : (Session C × W) × List CrewCall) : List CrewCall := v.2.drop u.2.length

/-- The outcome that scripts recorded last for a test between two places of a run. -/
def lastOutcome? (language : Language C) (u v : (Session C × W) × List CrewCall) (test : String) :
    Option TestOutcome :=
  (HostEvent.outcomes test (u.1.1.engine.history language (callsBetween u v))).getLast?

/-- The calls that a completed request makes lead to its report. -/
theorem calls_of_execute {item : RunItem} {report : Report}
    {u v : (Session C × W) × List CrewCall}
    (h : (item.execute (watchedCrew language outside items)).run.run u = (.ok report, v)) :
    (∃ response, (callsBetween u v).getLast? = some (.printResponse response report)) ∧
      (∀ call ∈ callsBetween u v, call ≠ .reset) ∧
      report = if item.part.handler.isSome
        then (u.1.1.engine.afterAll language (callsBetween u v)).report else Report.empty := by
  obtain ⟨during, hstaged, hmoved, hrun⟩ :=
    follows_execute (moves_engine language outside items) item u.1
  -- the same calls are made whatever was on the list before
  have hhere := h.symm.trans (hrun u.2)
  have halone := hrun []
  rw [Prod.mk.injEq] at hhere
  obtain ⟨hreport, rfl⟩ := hhere
  rw [← hreport] at halone
  obtain ⟨hengine, hlast⟩ := execute_inv halone
  have hbetween : callsBetween u (((item.execute (worldCrew language outside items)).run.run u.1).2,
      u.2 ++ during) = during := List.drop_left
  rw [hbetween]
  refine ⟨hlast, ?_, ?_⟩
  · rintro call hmem rfl
    cases hstaged _ hmem
  · rw [hengine]
    exact congrArg (fun engine : Engine C => if item.part.handler.isSome then engine.report
      else Report.empty) hmoved

/-- A request is begun with an engine that has recorded nothing. -/
theorem report_of_begun {listed : List RunItem} {s u v : (Session C × W) × List CrewCall}
    {item : RunItem} {report : Report}
    (h : Run.Completes (watchedCrew language outside items) listed s item u report v)
    (hempty : s.1.1.engine.report = Report.empty) : u.1.1.engine.report = Report.empty := by
  induction h with
  | here _ => exact hempty
  | later _ _ ih => exact ih rfl

/-- The report of a completed request by tests; it lists every test once. -/
theorem report_of_completed {s u v : (Session C × W) × List CrewCall} {item : RunItem}
    {report : Report} (hempty : s.1.1.engine.report = Report.empty)
    (h : Run.Completed (watchedCrew language outside items) s item u report v) :
    report.names.Nodup ∧ ∀ test, report.get? test =
      if item.part.handler.isSome then lastOutcome? language u v test else none := by
  obtain ⟨listed, t, hitems, hcompletes⟩ := h
  have hlisted : t.1.1.engine.report = Report.empty := by
    cases hitems
    exact hempty
  have hbegun := report_of_begun hcompletes hlisted
  obtain ⟨-, hreset, hreport⟩ := calls_of_execute hcompletes.execute_eq
  rw [hreport]
  cases item.part.handler.isSome with
  | false => exact ⟨List.nodup_nil, fun test => rfl⟩
  | true =>
    exact ⟨Engine.nodup_report_afterAll language _ hbegun,
      fun test => Engine.get?_report_afterAll language hreset hbegun test⟩

theorem report_of_new {initial environment : VariableMap} {now : Int} {entropy : Entropy}
    {engine : Engine C} (hnew : Engine.new language initial environment now entropy = .ok engine) :
    engine.report = Report.empty := by
  obtain ⟨-, rfl⟩ := Engine.new_inv hnew
  rfl

/-- **What becomes of recorded tests.** A completed request prints its response with its report,
and what the report holds is decided by its response handler: with one, the last outcome of every
test that any of its scripts recorded; without one, nothing at all. A run that nothing stopped, and
that saved its variables, fails exactly if in a completed request with a response handler some test
failed last. -/
theorem reports_of_completed_requests {initial environment : VariableMap} {now : Int}
    {entropy : Entropy} {s : Session C} (w : W)
    (hnew : Engine.new language initial environment now entropy = .ok s.engine) :
    (∀ item u report v,
      Run.Completed (watchedCrew language outside items) ((s, w), []) item u report v →
        (∃ response, (callsBetween u v).getLast? = some (.printResponse response report)) ∧
        ∀ test, report.get? test =
          if item.part.handler.isSome then lastOutcome? language u v test else none) ∧
    ∀ results t,
      (Run.runAll (watchedCrew language outside items)).run.run ((s, w), []) = (.ok results, t) →
      (Run.savingAt (worldCrew language outside items) t.1).1 = .ok () →
        ((∃ failed, ((Run.execute (watchedCrew language outside items)).run.run ((s, w), [])).1 =
            .error (.testsFailed failed)) ↔
          ∃ item u report v test reason,
            Run.Completed (watchedCrew language outside items) ((s, w), []) item u report v ∧
            item.part.handler.isSome ∧ lastOutcome? language u v test = some (.failure reason)) := by
  have hempty : s.engine.report = Report.empty := report_of_new hnew
  constructor
  · intro item u report v hcompleted
    obtain ⟨listed, t, -, hcompletes⟩ := id hcompleted
    exact ⟨(calls_of_execute hcompletes.execute_eq).1, (report_of_completed hempty hcompleted).2⟩
  · rintro results ⟨t, calls⟩ hrun hsaving
    obtain ⟨listed, found, fault, u, hloop, hall⟩ :=
      Run.runAll_loop (watchedCrew language outside items) ((s, w), [])
    have hhanded := hrun.symm.trans hall
    cases fault with
    | some fault => cases hhanded
    | none =>
      cases hhanded
      obtain ⟨v, hexecute⟩ := Run.execute_of_loop (worldCrew language outside items) hall
      rw [hexecute, hsaving, Run.verdict_eq_testsFailed_iff]
      constructor
      · -- a result with a failure is that of a completed request
        rintro ⟨result, hmem, hfailure⟩
        obtain ⟨item, u, report, v, hcompleted, rfl⟩ := (hloop.mem_results_iff result).1 hmem
        obtain ⟨hnodup, hreport⟩ := report_of_completed hempty hcompleted
        obtain ⟨test, reason, hfailed⟩ := (Report.hasFailure_iff hnodup).1 hfailure
        rw [hreport test] at hfailed
        split at hfailed
        · next hhandler => exact ⟨item, u, report, v, test, reason, hcompleted, hhandler, hfailed⟩
        · cases hfailed
      · rintro ⟨item, u, report, v, test, reason, hcompleted, hhandler, hfailed⟩
        obtain ⟨hnodup, hreport⟩ := report_of_completed hempty hcompleted
        refine ⟨_, (hloop.mem_results_iff _).2 ⟨item, u, report, v, hcompleted, rfl⟩, ?_⟩
        apply (Report.hasFailure_iff hnodup).2
        exact ⟨test, reason, by rw [hreport test, if_pos hhandler, hfailed]⟩

/-- One script records a failed test, the other one records nothing. -/
def checkScripts : String → List HostCall
  | "check" => [.record "ready" (.failure "not ready")]
  | _ => []

/-- A session that has recorded nothing. -/
def checkSession : Session Unit :=
  ⟨⟨⟨Store.ofMap [] false, Store.empty, Store.ofMap [] true, Report.empty, [], 0, .seeded 1⟩, ()⟩,
    Printer.new .table⟩

/-- A request with a failing check and no response handler. -/
def unheard : RunItem := .handling "unheard" (some "check") none

/-- A request with a failing check and a response handler. -/
def heard : RunItem := .handling "heard" (some "check") (some "")

/-- An outside that answers every request. -/
def checkOutside : Outside (StateM Unit) := Outside.replying ⟨"HTTP/1.1", 200, "OK", [], none⟩

/-- The collaborators of the run of these requests. -/
def checkCrew : Collaborators (StateM ((Session Unit × Unit) × List CrewCall)) :=
  watchedCrew (Language.ofCalls checkScripts) checkOutside (.ok [unheard, heard])

/-- Where the first request is begun. -/
def unheardBegun : (Session Unit × Unit) × List CrewCall :=
  Run.begun checkCrew unheard ((checkSession, ()), [.items])

/-- Where the first request is completed. -/
def unheardDone : (Session Unit × Unit) × List CrewCall :=
  ((unheard.execute checkCrew).run.run unheardBegun).2

/-- Where the second request is begun. -/
def heardBegun : (Session Unit × Unit) × List CrewCall :=
  Run.begun checkCrew heard (Run.forgotten checkCrew unheard Report.empty unheardDone)

/-- Where the second request is completed. -/
def heardDone : (Session Unit × Unit) × List CrewCall :=
  ((heard.execute checkCrew).run.run heardBegun).2

/-- The report of the second request. -/
def heardReport : Report := ⟨[("ready", .failure "not ready")]⟩

/-- The failed check of the first request is not in its report; the run fails by the second one. -/
theorem reports_of_completed_requests_unheard :
    lastOutcome? (Language.ofCalls checkScripts) unheardBegun unheardDone "ready" =
        some (.failure "not ready") ∧
      Report.empty.get? "ready" = none ∧
      heardReport.get? "ready" = some (.failure "not ready") ∧
      ∃ failed, ((Run.execute checkCrew).run.run ((checkSession, ()), [])).1 =
        .error (.testsFailed failed) := by
  have hnew : Engine.new (Language.ofCalls checkScripts) [] [] 0 (.seeded 1) =
      .ok checkSession.engine := rfl
  have hfirst : (unheard.execute checkCrew).run.run unheardBegun =
      (.ok Report.empty, unheardDone) := by
    with_unfolding_all rfl
  have hsecond : (heard.execute checkCrew).run.run heardBegun = (.ok heardReport, heardDone) := by
    with_unfolding_all rfl
  have hunheard : Run.Completed checkCrew ((checkSession, ()), []) unheard unheardBegun
      Report.empty unheardDone :=
    ⟨[unheard, heard], _, rfl, .here hfirst⟩
  have hheard : Run.Completed checkCrew ((checkSession, ()), []) heard heardBegun heardReport
      heardDone :=
    ⟨[unheard, heard], _, rfl, .later hfirst (.here hsecond)⟩
  have hloop : Run.Loop checkCrew ((checkSession, ()), []) _ _ none _ :=
    .listed rfl (.completed hfirst (.completed hsecond (.nil _)))
  have hlast : lastOutcome? (Language.ofCalls checkScripts) heardBegun heardDone "ready" =
      some (.failure "not ready") := by
    with_unfolding_all rfl
  refine ⟨by with_unfolding_all rfl, ?_, ?_, ?_⟩
  · exact ((reports_of_completed_requests () hnew).1 _ _ _ _ hunheard).2 "ready"
  · exact (((reports_of_completed_requests () hnew).1 _ _ _ _ hheard).2 "ready").trans hlast
  · exact ((reports_of_completed_requests () hnew).2 _ _ hloop.runAll_eq rfl).2
      ⟨_, _, _, _, "ready", "not ready", hheard, rfl, hlast⟩

end Session

end RequestRunner
