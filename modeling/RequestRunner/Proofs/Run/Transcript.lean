import RequestRunner.Proofs.Run.Ending
import RequestRunner.Proofs.Run.World

/-!
# What a run prints

`Outside.transcribed` is an outside that keeps a transcript of what is written to it. What a run
prints is read off the printer and the transcript (`Session.printing`): nothing but the printing of
a request, of a response and of the results moves them, and each of these does what the printer
says (`Session.printing_print`). So a completed request is told to the printer in two steps
(`Session.printing_execute`), and all requests of a run leave behind a printer that has seen exactly
their reports, with a transcript on which nothing stands on the error stream
(`Session.printed_attempts`).
-/

set_option autoImplicit false

namespace RequestRunner

/-! ## Transcripts -/

/-- A step of a world, with something beside the world that it leaves alone. -/
def beside {W V α : Type} (x : StateM W α) : StateM (W × V) α :=
  fun state => ((x.run state.1).1, ((x.run state.1).2, state.2))

/-- An outside that keeps a transcript of what is written to it. -/
def Outside.transcribed {W : Type} (outside : Outside (StateM W)) :
    Outside (StateM (W × List Writing)) where
  write writing := fun state =>
    ((), (((outside.write writing).run state.1).2, state.2 ++ [writing]))
  log entry := beside (outside.log entry)
  send request := ExceptT.mk (beside (outside.send request).run)
  save kept := ExceptT.mk (beside (outside.save kept).run)

/-! ## Printers -/

namespace Printer

/-- The printer that was told of the responses of requests with these results. -/
def seeing (printer : Printer) (results : List RequestResult) : Printer :=
  match printer.kind with
  | .formatted _ _ =>
    { printer with
      failed := printer.failed || results.any fun result => !result.report.failed.isEmpty }
  | .table => printer

/-- A piece of text that the printer may write before all results are there. -/
def MayWrite (printer : Printer) (writing : Writing) : Prop :=
  writing.stream = .out ∧ printer.kind ≠ .table

theorem kind_seeing (printer : Printer) (results : List RequestResult) :
    (printer.seeing results).kind = printer.kind := by
  unfold seeing
  split <;> rfl

theorem seeing_nil (printer : Printer) : printer.seeing [] = printer := by
  unfold seeing
  split
  · rw [List.any_nil, Bool.or_false]
  · rfl

theorem seeing_cons (printer : Printer) (result : RequestResult) (results : List RequestResult) :
    (printer.seeing [result]).seeing results = printer.seeing (result :: results) := by
  obtain ⟨kind, failed⟩ := printer
  cases kind with
  | formatted request response =>
    simp only [seeing, List.any_cons, List.any_nil, Bool.or_false, Bool.or_assoc]
  | table => rfl

/-- A response shows a printer whether the report has a failed test. -/
theorem response_fst (printer : Printer) (response : Response) (result : RequestResult) :
    (printer.response response result.report).1 = printer.seeing [result] := by
  obtain ⟨kind, failed⟩ := printer
  cases kind with
  | formatted request response =>
    simp only [Printer.response, seeing, List.any_cons, List.any_nil, Bool.or_false]
  | table => rfl

theorem mayWrite_request {printer : Printer} {request : Request} {name : String}
    {writing : Writing} (h : writing ∈ printer.request request name) :
    printer.MayWrite writing := by
  unfold Printer.request at h
  split at h
  · next hkind =>
    obtain ⟨text, -, rfl⟩ := List.mem_map.1 h
    exact ⟨rfl, by rw [hkind]; nofun⟩
  · cases h

theorem mayWrite_response {printer : Printer} {response : Response} {report : Report}
    {writing : Writing} (h : writing ∈ (printer.response response report).2) :
    printer.MayWrite writing := by
  unfold Printer.response at h
  split at h
  · next hkind =>
    obtain ⟨text, -, rfl⟩ := List.mem_map.1 h
    exact ⟨rfl, by rw [hkind]; nofun⟩
  · cases h

end Printer

/-! ## Matchings that keep what is seen -/

/-- Leaving what is seen of the state as it is, as a matching of effects with themselves. -/
def Matching.keeping {σ τ : Type} (view : σ → τ) : Matching (StateM σ) (StateM σ) where
  Rel x _ := ∀ s, view (x.run s).2 = view s
  pure _ _ := rfl
  bind hx hf s := (hf _ _).trans (hx s)

theorem Matching.view_eq_of_keeping {σ τ α : Type} {view : σ → τ} {x : Attempt (StateM σ) α}
    (h : (Matching.keeping view).Tries x x) {result : Except Fault α} {s t : σ}
    (hrun : x.run.run s = (result, t)) : view t = view s := by
  have hkept := h s
  rw [hrun] at hkept
  exact hkept

/-- Doing the same on a part of the state, as a matching of effects. -/
def Matching.through {σ τ : Type} (part : σ → τ) : Matching (StateM σ) (StateM τ) where
  Rel x y := ∀ s, y.run (part s) = ((x.run s).1, part (x.run s).2)
  pure _ _ := rfl
  bind {_ _ x y f g} hx hf s := by
    rw [StateT.run_bind, StateT.run_bind, hx s]
    exact hf _ _

namespace Session

open Matching

variable {C W : Type}

theorem each_keeps {V α τ : Type} (view : V → τ) {effect : α → StateM V Unit}
    (h : ∀ a v, view ((effect a).run v).2 = view v) (as : List α) (v : V) :
    view ((each effect as).run v).2 = view v := by
  induction as generalizing v with
  | nil => rfl
  | cons a rest ih => exact (ih _).trans (h a v)

/-- What is written one after the other stands on the transcript in this order. -/
theorem each_transcribed (outside : Outside (StateM W)) (writings : List Writing)
    (world : W × List Writing) :
    ((each outside.transcribed.write writings).run world).2.2 = world.2 ++ writings := by
  induction writings generalizing world with
  | nil => exact (List.append_nil _).symm
  | cons writing rest ih => exact (ih _).trans (List.append_assoc world.2 [writing] rest)

/-- The printer of a session, and what was written so far. -/
def printing (state : Session C × (W × List Writing)) : Printer × List Writing :=
  (state.1.printer, state.2.2)

/-- What becomes of a printer and of what was written when the printer is told something. -/
def tell (f : Printer → Printer × List Writing) (before : Printer × List Writing) :
    Printer × List Writing :=
  ((f before.1).1, before.2 ++ (f before.1).2)

variable (language : Language C) (outside : Outside (StateM W))
  (items : Except Fault (List RunItem))

/-- An engine that acts logs lines, but it prints nothing. -/
theorem printing_act {α : Type} (action : EngineAction C α)
    (state : Session C × (W × List Writing)) :
    printing ((joint (act outside.transcribed action).run).run state).2 = printing state := by
  have hlog : ∀ line world,
      ((outside.transcribed.log (.script line)).run world).2.2 = world.2 := fun _ _ => rfl
  exact congrArg (Prod.mk state.1.printer)
    (each_keeps Prod.snd hlog (action.run state.1.engine).2.drain.1 state.2)

/-- What the printer says is written. -/
theorem printing_print (f : Printer → Printer × List Writing)
    (state : Session C × (W × List Writing)) :
    printing ((joint (print outside.transcribed f)).run state).2 = tell f (printing state) :=
  congrArg (Prod.mk (f state.1.printer).1)
    (each_transcribed outside (f state.1.printer).2 state.2)

/-- Of the stages of a request only the printing prints. -/
theorem matchQuiet_printing :
    (worldCrew language outside.transcribed items).MatchQuiet (Matching.keeping printing)
      (worldCrew language outside.transcribed items) where
  define _ _ := printing_act outside _
  resolve _ := printing_act outside _
  preHandle _ _ := printing_act outside _
  handle _ _ := printing_act outside _
  report _ := rfl
  send _ _ := rfl

variable {language outside items}

/-- **A completed request is told to the printer in two steps.** -/
theorem printing_execute {item : RunItem} {report : Report}
    {u v : Session C × (W × List Writing)}
    (h : (item.execute (worldCrew language outside.transcribed items)).run.run u =
      (.ok report, v)) :
    ∃ request response, printing v =
      tell (fun printer => printer.response response report)
        (tell (fun printer => (printer, printer.request request item.name)) (printing u)) := by
  have hquiet := matchQuiet_printing language outside items
  -- declaring, preparing, resolving, printing, sending, responding, printing
  obtain ⟨_, t₁, hdeclare, h⟩ := Run.run_bind_inv h
  obtain ⟨_, t₂, hprepare, h⟩ := Run.run_bind_inv h
  obtain ⟨request, t₃, hresolve, h⟩ := Run.run_bind_inv h
  obtain ⟨_, t₄, hrequest, h⟩ := Run.run_bind_inv h
  obtain ⟨response, t₅, hsend, h⟩ := Run.run_bind_inv h
  obtain ⟨_, t₆, hrespond, h⟩ := Run.run_bind_inv h
  obtain ⟨_, _, hresponse, h⟩ := Run.run_bind_inv h
  cases h
  have hdeclared := view_eq_of_keeping
    (tries_attempt _ (match_declare hquiet item.part.declarations)) hdeclare
  have hprepared := view_eq_of_keeping (tries_attempt _ (match_prepare hquiet item.part)) hprepare
  have hresolved := view_eq_of_keeping
    (tries_attempt _ (match_resolve hquiet.resolve item.part.request)) hresolve
  have hsent := view_eq_of_keeping (tries_attempt _ (hquiet.send request)) hsend
  have hresponded := view_eq_of_keeping
    (tries_attempt _ (match_respond hquiet item.part response)) hrespond
  have hasked := printing_print outside
    (fun printer => (printer, printer.request request item.name)) t₃
  have hanswered := printing_print outside (fun printer => printer.response response report) t₆
  have hprinted := congrArg (fun ran => printing ran.2) hrequest
  have hlast := congrArg (fun ran => printing ran.2) hresponse
  refine ⟨request, response, ?_⟩
  calc
    printing v = tell (fun printer => printer.response response report) (printing t₆) :=
      hlast.symm.trans hanswered
    _ = tell (fun printer => printer.response response report) (printing t₄) := by
      rw [hresponded, hsent]
    _ = tell (fun printer => printer.response response report)
        (tell (fun printer => (printer, printer.request request item.name)) (printing t₃)) :=
      congrArg _ (hprinted.symm.trans hasked)
    _ = _ := by rw [hresolved, hprepared, hdeclared]

/-- **The requests of a run leave behind a printer that has seen their reports**, and nothing on
the transcript but what a printer may write before all results are there. -/
theorem printed_attempts {listed : List RunItem} {s t : Session C × (W × List Writing)}
    {results : List RequestResult} {fault : Option Fault}
    (h : Run.Attempts (worldCrew language outside.transcribed items) listed s results fault t)
    (hfault : fault = none) :
    (printing t).1 = (printing s).1.seeing results ∧
      ∃ more, (printing t).2 = (printing s).2 ++ more ∧
        ∀ writing ∈ more, (printing s).1.MayWrite writing := by
  induction h with
  | nil s => exact ⟨(Printer.seeing_nil _).symm, [], (List.append_nil _).symm, nofun⟩
  | failed _ => cases hfault
  | @completed item rest s t u report results fault hrun _ ih =>
    obtain ⟨hprinter, later, hlater, hall⟩ := ih hfault
    obtain ⟨request, response, hprinted⟩ := printing_execute hrun
    -- neither the beginning nor the forgetting of a request prints anything
    have hbegun : printing (Run.begun (worldCrew language outside.transcribed items) item s) =
        printing s := rfl
    have hforgotten : printing (Run.forgotten (worldCrew language outside.transcribed items) item
        report t) = printing t := rfl
    rw [hbegun] at hprinted
    rw [hforgotten] at hprinter hlater hall
    generalize printing s = before at *
    have hseen : (printing t).1 = before.1.seeing [⟨item.file, item.sectionName, report⟩] := by
      rw [hprinted]
      exact Printer.response_fst _ response ⟨item.file, item.sectionName, report⟩
    have hwritten : (printing t).2 = before.2 ++ before.1.request request item.name ++
        (before.1.response response report).2 := by
      rw [hprinted]
      rfl
    refine ⟨?_, before.1.request request item.name ++
      ((before.1.response response report).2 ++ later), ?_, ?_⟩
    · rw [hprinter, hseen, Printer.seeing_cons]
    · rw [hlater, hwritten, List.append_assoc, List.append_assoc]
    · intro writing hmem
      rcases List.mem_append.1 hmem with hmem | hmem
      · exact Printer.mayWrite_request hmem
      · rcases List.mem_append.1 hmem with hmem | hmem
        · exact Printer.mayWrite_response hmem
        · -- what is seen does not change how a run is printed
          obtain ⟨hout, hkind⟩ := hall writing hmem
          rw [hseen, Printer.kind_seeing] at hkind
          exact ⟨hout, hkind⟩

/-- The same from the beginning of a run that nothing stopped. -/
theorem printed_runAll {s t : Session C × (W × List Writing)} {results : List RequestResult}
    (h : (Run.runAll (worldCrew language outside.transcribed items)).run.run s =
      (.ok results, t)) :
    (printing t).1 = (printing s).1.seeing results ∧
      ∃ more, (printing t).2 = (printing s).2 ++ more ∧
        ∀ writing ∈ more, (printing s).1.MayWrite writing := by
  obtain ⟨listed, u, hitems, hattempts⟩ := Run.attempts_of_runAll h
  -- the listing of the items prints nothing
  cases hitems
  exact printed_attempts hattempts rfl

/-! ## Without a transcript -/

/-- A session in a world without the transcript beside it. -/
def forgetTranscript (state : Session C × (W × List Writing)) : Session C × W :=
  (state.1, state.2.1)

theorem each_through {α V U : Type} {part : V → U} {effect : α → StateM V Unit}
    {other : α → StateM U Unit}
    (h : ∀ a v, ((other a).run (part v)).2 = part ((effect a).run v).2) (as : List α) (v : V) :
    ((each other as).run (part v)).2 = part ((each effect as).run v).2 := by
  induction as generalizing v with
  | nil => rfl
  | cons a rest ih =>
    refine Eq.trans ?_ (ih ((effect a).run v).2)
    exact congrArg (fun u => ((each other rest).run u).2) (h a v)

theorem act_transcribed {α : Type} (action : EngineAction C α) :
    (Matching.through forgetTranscript).Rel (joint (act outside.transcribed action).run)
      (joint (act outside action).run) := by
  intro state
  have hlog : ∀ line (world : W × List Writing), ((outside.log (.script line)).run world.1).2 =
      ((outside.transcribed.log (.script line)).run world).2.1 := fun _ _ => rfl
  exact Prod.ext rfl (Prod.ext rfl
    (each_through hlog (action.run state.1.engine).2.drain.1 state.2))

theorem print_transcribed (f : Printer → Printer × List Writing) :
    (Matching.through (forgetTranscript (C := C))).Rel (joint (print outside.transcribed f))
      (joint (print outside f)) := by
  intro state
  have hwrite : ∀ writing (world : W × List Writing), ((outside.write writing).run world.1).2 =
      ((outside.transcribed.write writing).run world).2.1 := fun _ _ => rfl
  exact Prod.ext rfl (Prod.ext rfl (each_through hwrite (f state.1.printer).2 state.2))

variable (language outside items)

/-- **Keeping a transcript changes nothing else.** -/
theorem execute_transcribed (state : Session C × (W × List Writing)) :
    (Run.execute (worldCrew language outside items)).run.run (forgetTranscript state) =
      (((Run.execute (worldCrew language outside.transcribed items)).run.run state).1,
        forgetTranscript
          ((Run.execute (worldCrew language outside.transcribed items)).run.run state).2) :=
  match_run (R := Matching.through forgetTranscript)
    (c := worldCrew language outside.transcribed items) (d := worldCrew language outside items)
    (fun _ => rfl)
    { define := fun _ _ => act_transcribed _
      resolve := fun _ => act_transcribed _
      preHandle := fun _ _ => act_transcribed _
      handle := fun _ _ => act_transcribed _
      report := fun _ => rfl
      send := fun _ _ => rfl
      printRequest := fun request name =>
        tries_lift (print_transcribed fun printer => (printer, printer.request request name))
      printResponse := fun response report =>
        tries_lift (print_transcribed fun printer => printer.response response report)
      reset := fun _ => rfl
      log := fun _ _ => rfl }
    { snapshot := fun _ => rfl
      save := fun _ _ => rfl
      printTests := fun _ => print_transcribed _ } state

end Session

end RequestRunner
