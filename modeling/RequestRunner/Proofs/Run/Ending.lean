import RequestRunner.Proofs.Report.Failures
import RequestRunner.Proofs.Run.Trace

/-!
# How runs end

`Attempts` is the loop of a run as a relation: items are taken one after the other, each from the
state that the one before it left behind, up to the first that fails. `Loop` puts the listing of the
items in front of it. What a run gathers on the way is read off the results of its loop: the failed
tests are those of its reports, in the same order (`Loop.gather_eq`). Main statement: whatever
fails, a run is its loop, then one saving of the variables as the loop left them, and then at most
one more call; how it ends is read off the loop and the saving (`execute_ends`).
-/

set_option autoImplicit false

namespace RequestRunner

namespace Run

variable {σ : Type}

/-- The loop of a run on its own, for its results. -/
def runAll (crew : Collaborators (StateM σ)) : Attempt (StateM σ) (List RequestResult) := do
  let progress ← gather crew
  pure progress.results

/-- The state in which an item is attempted: its beginning was logged. -/
def begun (crew : Collaborators (StateM σ)) (item : RunItem) (s : σ) : σ :=
  ((crew.log (.debug ("▶️  " ++ item.name))).run s).2

/-- The state behind a completed item: its completion was logged and its request forgotten. -/
def forgotten (crew : Collaborators (StateM σ)) (item : RunItem) (report : Report) (s : σ) : σ :=
  (crew.reset.run ((crew.log (completion item report)).run s).2).2

/-- Items attempted in order up to the first that fails: the results of those that completed, the
fault of the one that did not, and the state at the end. -/
inductive Attempts (crew : Collaborators (StateM σ)) :
    List RunItem → σ → List RequestResult → Option Fault → σ → Prop
  | nil (s : σ) : Attempts crew [] s [] none s
  | failed {item : RunItem} {rest : List RunItem} {s t : σ} {fault : Fault} :
      (item.execute crew).run.run (begun crew item s) = (.error fault, t) →
      Attempts crew (item :: rest) s [] (some fault) t
  | completed {item : RunItem} {rest : List RunItem} {s t u : σ} {report : Report}
      {results : List RequestResult} {fault : Option Fault} :
      (item.execute crew).run.run (begun crew item s) = (.ok report, t) →
      Attempts crew rest (forgotten crew item report t) results fault u →
      Attempts crew (item :: rest) s (⟨item.file, item.sectionName, report⟩ :: results) fault u

/-- The loop of a run: the items, as far as they could be listed, and how attempting them ended. -/
inductive Loop (crew : Collaborators (StateM σ)) :
    σ → List RunItem → List RequestResult → Option Fault → σ → Prop
  | unlisted {s t : σ} {fault : Fault} :
      crew.items.run.run s = (.error fault, t) → Loop crew s [] [] (some fault) t
  | listed {s t u : σ} {items : List RunItem} {results : List RequestResult}
      {fault : Option Fault} :
      crew.items.run.run s = (.ok items, t) → Attempts crew items t results fault u →
      Loop crew s items results fault u

/-- What a loop hands on: its results, unless it was stopped. -/
def handedOn (results : List RequestResult) : Option Fault → Except Fault (List RequestResult)
  | none => .ok results
  | some fault => .error fault

/-- What a loop has gathered, unless it was stopped: its results, and the failed tests of these. -/
def gathered (results : List RequestResult) : Option Fault → Except Fault Progress
  | none => .ok ⟨results, failures results⟩
  | some fault => .error fault

/-- How a run ends: with the fault that stopped it, else with the fault of the saving, else with the
failed tests if there are any, else with its results. -/
def verdict (results : List RequestResult) :
    Option Fault → Except Fault Unit → Except Fault (List RequestResult)
  | some fault, _ => .error fault
  | none, .error fault => .error (.during "Error writing snapshot" fault)
  | none, .ok () =>
    match failures results with
    | [] => .ok results
    | failed => .error (.testsFailed failed)

/-- A run that nothing stopped ends with its failures, if there are any. -/
theorem verdict_of_saved (results : List RequestResult) :
    verdict results none (.ok ()) =
      if failures results = [] then .ok results else .error (.testsFailed (failures results)) := by
  rw [verdict]
  cases failures results with
  | nil => rfl
  | cons failure more => rfl

/-- A run that nothing stopped fails exactly if a report has a failure. -/
theorem verdict_eq_testsFailed_iff (results : List RequestResult) :
    (∃ failed, verdict results none (.ok ()) = .error (.testsFailed failed)) ↔
      ∃ result ∈ results, result.report.HasFailure := by
  rw [verdict_of_saved, ← failures_ne_nil_iff]
  split
  · next hnone => exact iff_of_false nofun fun hsome => hsome hnone
  · next hsome => exact iff_of_true ⟨_, rfl⟩ hsome

/-- The calls behind the saving: the results are printed if everything went well, and a saving that
failed behind a fault is worth a warning. -/
def callsBehindSaving (results : List RequestResult) :
    Option Fault → Except Fault Unit → List CrewCall
  | none, .ok () => [.printTests results]
  | none, .error _ => []
  | some _, .ok () => []
  | some _, .error fault => [.log (.warn ("Could not save snapshot: " ++ fault.message))]

/-! ## Running attempts -/

theorem run_bind_ok {α β : Type} {x : Attempt (StateM σ) α} {f : α → Attempt (StateM σ) β}
    {s t : σ} {a : α} (h : x.run.run s = (.ok a, t)) :
    (x >>= f).run.run s = (f a).run.run t := by
  rw [ExceptT.run_bind, StateT.run_bind, h]
  rfl

theorem run_bind_error {α β : Type} {x : Attempt (StateM σ) α} {f : α → Attempt (StateM σ) β}
    {s t : σ} {fault : Fault} (h : x.run.run s = (.error fault, t)) :
    (x >>= f).run.run s = (.error fault, t) := by
  rw [ExceptT.run_bind, StateT.run_bind, h]
  rfl

theorem run_bind_inv {α β : Type} {x : Attempt (StateM σ) α} {f : α → Attempt (StateM σ) β}
    {s u : σ} {b : β} (h : (x >>= f).run.run s = (.ok b, u)) :
    ∃ a t, x.run.run s = (.ok a, t) ∧ (f a).run.run t = (.ok b, u) := by
  rcases hx : x.run.run s with ⟨fault | a, t⟩
  · rw [run_bind_error hx] at h
    cases h
  · rw [run_bind_ok hx] at h
    exact ⟨a, t, rfl, h⟩

/-- Steps that change nothing and may fail come together as their results do. -/
theorem run_bind_still {α β : Type} {x : Attempt (StateM σ) α} {f : α → Attempt (StateM σ) β}
    {s : σ} {result : Except Fault α} {next : α → Except Fault β}
    (hx : x.run.run s = (result, s)) (hf : ∀ a, (f a).run.run s = (next a, s)) :
    (x >>= f).run.run s = (result >>= next, s) := by
  cases result with
  | error fault => exact run_bind_error hx
  | ok a => exact (run_bind_ok hx).trans (hf a)

theorem run_attempt_inv {α : Type} {activity : String} {x : Attempt (StateM σ) α} {s t : σ}
    {a : α} (h : (attempt activity x).run.run s = (.ok a, t)) : x.run.run s = (.ok a, t) := by
  rcases hx : x.run.run s with ⟨fault | b, u⟩
  · cases h.symm.trans (attempt_error hx)
  · cases h.symm.trans (attempt_ok hx)
    rfl

theorem exists_of_toOption {α : Type} {x : Attempt (StateM σ) α} {s : σ} {a : α}
    (h : (x.run.run s).1.toOption = some a) : ∃ t, x.run.run s = (.ok a, t) := by
  rcases hx : x.run.run s with ⟨fault | b, t⟩
  · rw [hx] at h
    cases h
  · rw [hx] at h
    cases h
    exact ⟨t, rfl⟩

theorem run_lift {α : Type} (x : StateM σ α) (s : σ) :
    (liftM x : Attempt (StateM σ) α).run.run s = (.ok (x.run s).1, (x.run s).2) :=
  rfl

/-! ## The loop -/

/-- The report of a completed item is added, and its request forgotten. -/
theorem runItem_of_ok {crew : Collaborators (StateM σ)} {item : RunItem} {s t : σ}
    {report : Report} (progress : Progress)
    (h : (item.execute crew).run.run (begun crew item s) = (.ok report, t)) :
    (runItem crew progress item).run.run s =
      (.ok (progress.add item report), forgotten crew item report t) := by
  rw [runItem, run_bind_ok (run_lift _ s)]
  exact (run_bind_ok h).trans rfl

/-- A failed item fails with its own fault. -/
theorem runItem_of_error {crew : Collaborators (StateM σ)} {item : RunItem} {s t : σ}
    {fault : Fault} (progress : Progress)
    (h : (item.execute crew).run.run (begun crew item s) = (.error fault, t)) :
    (runItem crew progress item).run.run s = (.error fault, t) := by
  rw [runItem, run_bind_ok (run_lift _ s)]
  exact run_bind_error h

/-- The report of an item is added to what was gathered as its result is. -/
theorem add_eq (before : List RequestResult) (item : RunItem) (report : Report) :
    Progress.add ⟨before, failures before⟩ item report =
      ⟨before ++ [⟨item.file, item.sectionName, report⟩],
        failures (before ++ [⟨item.file, item.sectionName, report⟩])⟩ := by
  rw [Progress.add, failures, failures, List.flatMap_append, List.flatMap_singleton]
  rfl

/-- Running items adds to what was gathered what attempting them results in: no result is lost, and
the failures stay those of the results. -/
theorem Attempts.runItems_eq {crew : Collaborators (StateM σ)} {items : List RunItem} {s t : σ}
    {results : List RequestResult} {fault : Option Fault}
    (h : Attempts crew items s results fault t) (before : List RequestResult) :
    (runItems crew ⟨before, failures before⟩ items).run.run s =
      (gathered (before ++ results) fault, t) := by
  -- for whatever was gathered before, so that each step may add its own result to it
  induction h generalizing before with
  | nil s => rw [List.append_nil]; rfl
  | failed hrun => exact run_bind_error (runItem_of_error _ hrun)
  | @completed item rest s t u report results fault hrun _ ih =>
    rw [runItems, run_bind_ok (runItem_of_ok _ hrun), add_eq, ih, List.append_assoc]
    rfl

/-- Items can always be attempted. -/
theorem exists_attempts (crew : Collaborators (StateM σ)) (items : List RunItem) (s : σ) :
    ∃ results fault t, Attempts crew items s results fault t := by
  induction items generalizing s with
  | nil => exact ⟨[], none, s, .nil s⟩
  | cons item rest ih =>
    rcases hrun : (item.execute crew).run.run (begun crew item s) with ⟨fault | report, t⟩
    · exact ⟨[], some fault, t, .failed hrun⟩
    · obtain ⟨results, fault, u, hattempts⟩ := ih (forgotten crew item report t)
      exact ⟨_, fault, u, .completed hrun hattempts⟩

/-- **What a run gathers is read off its loop.** -/
theorem Loop.gather_eq {crew : Collaborators (StateM σ)} {items : List RunItem} {s t : σ}
    {results : List RequestResult} {fault : Option Fault} (h : Loop crew s items results fault t) :
    (gather crew).run.run s = (gathered results fault, t) := by
  cases h with
  | unlisted hitems => exact run_bind_error hitems
  | listed hitems hattempts => exact (run_bind_ok hitems).trans (hattempts.runItems_eq [])

/-- A loop decides what the run goes on with. -/
theorem Loop.runAll_eq {crew : Collaborators (StateM σ)} {items : List RunItem} {s t : σ}
    {results : List RequestResult} {fault : Option Fault} (h : Loop crew s items results fault t) :
    (runAll crew).run.run s = (handedOn results fault, t) := by
  cases fault with
  | none => exact (run_bind_ok h.gather_eq).trans rfl
  | some fault => exact run_bind_error h.gather_eq

/-- Every run has a loop. -/
theorem runAll_loop (crew : Collaborators (StateM σ)) (s : σ) :
    ∃ items results fault t, Loop crew s items results fault t ∧
      (runAll crew).run.run s = (handedOn results fault, t) := by
  rcases hitems : crew.items.run.run s with ⟨fault | items, t⟩
  · exact ⟨[], [], some fault, t, .unlisted hitems, Loop.runAll_eq (.unlisted hitems)⟩
  · obtain ⟨results, fault, u, hattempts⟩ := exists_attempts crew items t
    have hloop : Loop crew s items results fault u := .listed hitems hattempts
    exact ⟨items, results, fault, u, hloop, hloop.runAll_eq⟩

/-- The loop and what is gathered in it end alike. -/
theorem gather_of_runAll {crew : Collaborators (StateM σ)} {s t : σ} {results : List RequestResult}
    {fault : Option Fault} (h : (runAll crew).run.run s = (handedOn results fault, t)) :
    (gather crew).run.run s = (gathered results fault, t) := by
  obtain ⟨items, found, stop, u, hloop, hall⟩ := runAll_loop crew s
  -- the run has one outcome, so its loop is stopped by the same fault or has the same results
  have hhanded := h.symm.trans hall
  rw [hloop.gather_eq]
  cases fault <;> cases stop <;> cases hhanded <;> rfl

/-- Items that came through were listed and attempted one after the other. -/
theorem attempts_of_runAll {crew : Collaborators (StateM σ)} {s t : σ}
    {results : List RequestResult} (h : (runAll crew).run.run s = (.ok results, t)) :
    ∃ items u, crew.items.run.run s = (.ok items, u) ∧ Attempts crew items u results none t := by
  obtain ⟨items, found, fault, u, hloop, hall⟩ := runAll_loop crew s
  have hhanded := h.symm.trans hall
  cases fault with
  | some fault => cases hhanded
  | none =>
    cases hhanded
    cases hloop with
    | listed hitems hattempts => exact ⟨items, _, hitems, hattempts⟩

/-- A loop that was not stopped has one result for each item, in the order of the items. -/
theorem Attempts.places {crew : Collaborators (StateM σ)} {items : List RunItem} {s t : σ}
    {results : List RequestResult} {fault : Option Fault}
    (h : Attempts crew items s results fault t) (hfault : fault = none) :
    results.map (fun result => (result.file, result.request)) =
      items.map fun item => (item.file, item.sectionName) := by
  induction h with
  | nil s => rfl
  | failed _ => cases hfault
  | completed _ _ ih => rw [List.map_cons, List.map_cons, ih hfault]

theorem Loop.places {crew : Collaborators (StateM σ)} {items : List RunItem} {s t : σ}
    {results : List RequestResult} {fault : Option Fault}
    (h : Loop crew s items results fault t) (hfault : fault = none) :
    results.map (fun result => (result.file, result.request)) =
      items.map fun item => (item.file, item.sectionName) := by
  cases h with
  | unlisted _ => cases hfault
  | listed _ hattempts => exact hattempts.places hfault

/-! ## Behind the loop -/

/-- The variables that a run saves when its loop ends in a state. -/
def variablesAt (crew : Collaborators (StateM σ)) (t : σ) : VariableMap := (crew.snapshot.run t).1

/-- How the saving of the variables goes when the loop ends in a state, and the state behind it. -/
def savingAt (crew : Collaborators (StateM σ)) (t : σ) : Except Fault Unit × σ :=
  (crew.save (variablesAt crew t)).run.run (crew.snapshot.run t).2

/-- What a run that came through ends with, once its results are printed. -/
theorem run_conclusion (results : List RequestResult) (s : σ) :
    (match failures results with
      | [] => pure results
      | failed => throw (.testsFailed failed) :
        Attempt (StateM σ) (List RequestResult)).run.run s = (verdict results none (.ok ()), s) := by
  rw [verdict]
  cases failures results with
  | nil => rfl
  | cons failure more => rfl

/-- A run that came through and saved its variables prints its results at last. -/
theorem execute_of_saved {crew : Collaborators (StateM σ)} {s t u : σ}
    {results : List RequestResult}
    (hrun : (runAll crew).run.run s = (handedOn results none, t))
    (hsaving : savingAt crew t = (.ok (), u)) :
    (execute crew).run.run s =
      (verdict results none (.ok ()), ((crew.printTests results).run u).2) := by
  have hsave : (saveSnapshot crew).run.run t = (.ok (), u) := by
    rw [saveSnapshot, run_bind_ok (run_lift _ t)]
    exact hsaving
  have hfinish : (finish crew ⟨results, failures results⟩).run.run t =
      (verdict results none (.ok ()), ((crew.printTests results).run u).2) := by
    rw [finish, run_bind_ok (attempt_ok hsave), run_bind_ok (run_lift _ u)]
    exact run_conclusion results _
  rw [execute, ExceptT.run_mk, StateT.run_bind, gather_of_runAll hrun]
  exact hfinish

theorem saveSnapshot_recorded (crew : Collaborators (StateM σ)) (t : σ) (calls : List CrewCall) :
    (saveSnapshot crew.recorded).run.run (t, calls) =
      ((savingAt crew t).1,
        ((savingAt crew t).2, calls ++ [.snapshot, .save (variablesAt crew t)])) := by
  rw [saveSnapshot, run_bind_ok (run_lift _ _), List.append_cons]
  rfl

/-- A call behind the saving is added to the list. -/
theorem run_recorded_snd {α : Type} (call : CrewCall) (x : StateM σ α) (v : σ)
    (calls : List CrewCall) (kept : VariableMap) :
    ((record call x).run (v, calls ++ [.snapshot, .save kept])).2 =
      ((x.run v).2, calls ++ [.snapshot, .save kept, call]) := by
  change (_, (calls ++ [_, _]) ++ [_]) = _
  rw [List.append_assoc]
  rfl

/-- A run that came through saves once, and prints its results if that went well. -/
theorem finish_recorded (crew : Collaborators (StateM σ)) (results : List RequestResult) (t : σ)
    (calls : List CrewCall) :
    ∃ u, (finish crew.recorded ⟨results, failures results⟩).run.run (t, calls) =
      (verdict results none (savingAt crew t).1,
        (u, calls ++ .snapshot :: .save (variablesAt crew t) ::
          callsBehindSaving results none (savingAt crew t).1)) := by
  have hsave := saveSnapshot_recorded crew t calls
  rcases hsaving : savingAt crew t with ⟨fault | _, v⟩
  · rw [hsaving] at hsave
    exact ⟨v, run_bind_error (attempt_error hsave)⟩
  · rw [hsaving] at hsave
    refine ⟨((crew.printTests results).run v).2, ?_⟩
    rw [finish, run_bind_ok (attempt_ok hsave), run_bind_ok (run_lift _ _)]
    refine (run_conclusion results _).trans (Prod.ext rfl ?_)
    exact run_recorded_snd _ (crew.printTests results) v calls _

/-- A run that was stopped saves once, and warns if that failed too. -/
theorem rescue_recorded (crew : Collaborators (StateM σ)) (fault : Fault)
    (results : List RequestResult) (t : σ) (calls : List CrewCall) :
    ∃ u, (rescue crew.recorded).run (t, calls) =
      ((), (u, calls ++ .snapshot :: .save (variablesAt crew t) ::
        callsBehindSaving results (some fault) (savingAt crew t).1)) := by
  have hsave := saveSnapshot_recorded crew t calls
  rcases hsaving : savingAt crew t with ⟨saveFault | _, v⟩
  · rw [hsaving] at hsave
    have hlog := run_recorded_snd (.log (.warn ("Could not save snapshot: " ++ saveFault.message)))
      (crew.log (.warn ("Could not save snapshot: " ++ saveFault.message))) v calls
      (variablesAt crew t)
    rw [rescue, StateT.run_bind, hsave]
    exact ⟨_, Prod.ext rfl hlog⟩
  · rw [hsaving] at hsave
    refine ⟨v, ?_⟩
    rw [rescue, StateT.run_bind, hsave]
    rfl

/-- Behind its loop a run saves the variables as the loop left them, and makes at most one more
call. -/
theorem execute_of_loop (crew : Collaborators (StateM σ)) {s t : σ} {calls : List CrewCall}
    {results : List RequestResult} {fault : Option Fault}
    (h : (runAll crew.recorded).run.run (s, []) = (handedOn results fault, (t, calls))) :
    ∃ u, (execute crew.recorded).run.run (s, []) =
      (verdict results fault (savingAt crew t).1,
        (u, calls ++ .snapshot :: .save (variablesAt crew t) ::
          callsBehindSaving results fault (savingAt crew t).1)) := by
  rw [execute, ExceptT.run_mk, StateT.run_bind, gather_of_runAll h]
  cases fault with
  | none => exact finish_recorded crew results t calls
  | some fault =>
    obtain ⟨u, hu⟩ := rescue_recorded crew fault results t calls
    refine ⟨u, ?_⟩
    change (rescue crew.recorded >>= fun _ => pure (Except.error fault)).run (t, calls) = _
    rw [StateT.run_bind, hu]
    rfl

/-- **How a run ends.** Whatever may fail, a run is its loop, in which nothing is saved and no
results are printed; then one saving, of the variables as the loop left them; then the results are
printed if nothing failed. It ends with the fault of the loop, else with that of the saving, else
with the failed tests if some report has one, else with its results. These failed tests are, item by
item, the failures of its report. -/
theorem execute_ends (crew : Collaborators (StateM σ)) (s : σ) :
    ∃ items results fault t calls u,
      Loop crew.recorded (s, []) items results fault (t, calls) ∧
      (∀ call ∈ calls, call.isClosing = false) ∧
      (execute crew.recorded).run.run (s, []) =
        (verdict results fault (savingAt crew t).1,
          (u, calls ++ .snapshot :: .save (variablesAt crew t) ::
            callsBehindSaving results fault (savingAt crew t).1)) ∧
      (execute crew).run.run s = (verdict results fault (savingAt crew t).1, u) ∧
      (fault = none → results.map (fun result => (result.file, result.request)) =
        items.map fun item => (item.file, item.sectionName)) ∧
      (fault = none → ∃ groups,
        List.Forall₂ (fun (item, result) group =>
          RunItem.HasFailures item (RequestResult.report result) group) (items.zip results) groups ∧
        failures results = groups.flatten) ∧
      (failures results = [] ↔ ∀ result ∈ results, ¬ result.report.HasFailure) := by
  obtain ⟨items, results, fault, ⟨t, calls⟩, hloop, hrun⟩ := runAll_loop crew.recorded (s, [])
  obtain ⟨u, hu⟩ := execute_of_loop crew hrun
  refine ⟨items, results, fault, t, calls, u, hloop, ?_, hu, ?_, hloop.places,
    fun hfault => exists_failures (hloop.places hfault), ?_⟩
  · -- the calls of the loop are those that gathering makes, and none of these is a closing one
    obtain ⟨added, hadded, hall⟩ := traces_gather crew s []
    rw [hloop.gather_eq, Prod.mk.injEq, Prod.mk.injEq] at hall
    rw [hall.2.2]
    exact hadded
  · -- keeping a list of the calls changes nothing else
    obtain ⟨added, -, hall⟩ := traces_run crew s []
    rw [hu, Prod.mk.injEq, Prod.mk.injEq] at hall
    exact Prod.ext hall.1.symm hall.2.1.symm
  · rw [failures_eq_nil_iff]
    exact forall₂_congr fun result _ => result.report.failed_eq_nil_iff

end Run

end RequestRunner
