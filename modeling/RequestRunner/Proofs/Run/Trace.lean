import RequestRunner.Proofs.Run.Matching

/-!
# Traces of runs

`Collaborators.recorded` are collaborators that keep a list of the calls made to them and otherwise
do what they did before. `Follows P view step x y` says that `x` does what `y` does and adds to the
list calls with the property `P`, and that what is seen of the state moves by the steps of these
calls. It is a matching of effects (`Follows.matching`), so what is known of single calls is known
of whole runs. Main statements: running items makes no call that ends a run (`traces_gather`), and a
recorded run does what the run does (`traces_run`).
-/

set_option autoImplicit false

namespace RequestRunner

/-- A call of a run to one of its collaborators. -/
inductive CrewCall where
  | items
  | define (name value : String)
  | resolve (name : String)
  | preHandle (handler : Handler) (request : RequestTemplate)
  | handle (handler : Handler) (response : Response)
  | report
  | reset
  | snapshot
  | send (request : Request)
  | printRequest (request : Request) (name : String)
  | printResponse (response : Response) (report : Report)
  | printTests (results : List RequestResult)
  | save (kept : VariableMap)
  | log (entry : LogEntry)

/-- The calls that belong to the end of a run: the saving and the printing of the results. -/
def CrewCall.isClosing : CrewCall → Bool
  | printTests _ => true
  | save _ => true
  | _ => false

/-- The calls that the stages of a request make. -/
def CrewCall.isStage : CrewCall → Bool
  | define _ _ => true
  | resolve _ => true
  | preHandle _ _ => true
  | handle _ _ => true
  | report => true
  | send _ => true
  | printRequest _ _ => true
  | printResponse _ _ => true
  | _ => false

section Recording

variable {σ α β : Type}

/-- Does something and adds a call to the list. -/
def record (call : CrewCall) (x : StateM σ α) : StateM (σ × List CrewCall) α :=
  fun state => ((x.run state.1).1, ((x.run state.1).2, state.2 ++ [call]))

/-- Attempts something and adds a call to the list. -/
def recordAttempt (call : CrewCall) (x : Attempt (StateM σ) α) :
    Attempt (StateM (σ × List CrewCall)) α :=
  ExceptT.mk (record call x.run)

/-- The collaborators with a list of the calls made to them. -/
def Collaborators.recorded (crew : Collaborators (StateM σ)) :
    Collaborators (StateM (σ × List CrewCall)) where
  items := recordAttempt .items crew.items
  define name value := recordAttempt (.define name value) (crew.define name value)
  resolve name := recordAttempt (.resolve name) (crew.resolve name)
  preHandle handler request :=
    recordAttempt (.preHandle handler request) (crew.preHandle handler request)
  handle handler response := recordAttempt (.handle handler response) (crew.handle handler response)
  report := record .report crew.report
  reset := record .reset crew.reset
  snapshot := record .snapshot crew.snapshot
  send request := recordAttempt (.send request) (crew.send request)
  printRequest request name :=
    recordAttempt (.printRequest request name) (crew.printRequest request name)
  printResponse response report :=
    recordAttempt (.printResponse response report) (crew.printResponse response report)
  printTests results := record (.printTests results) (crew.printTests results)
  save kept := recordAttempt (.save kept) (crew.save kept)
  log entry := record (.log entry) (crew.log entry)

/-- The first action does what the second does and adds calls with a property to the list. -/
def Traces (P : CrewCall → Prop) (x : StateM (σ × List CrewCall) α) (y : StateM σ α) : Prop :=
  ∀ s calls, ∃ added, (∀ call ∈ added, P call) ∧
    x.run (s, calls) = ((y.run s).1, ((y.run s).2, calls ++ added))

/-- The same for something that may fail. -/
abbrev TracesAttempt (P : CrewCall → Prop) (x : Attempt (StateM (σ × List CrewCall)) α)
    (y : Attempt (StateM σ) α) : Prop :=
  Traces P x.run y.run

/-- The first action does what the second does and adds calls with a property to the list, whatever
stands there. What is seen of the state moves by one step for each of them. -/
def Follows {τ : Type} (P : CrewCall → Prop) (view : σ → τ) (step : τ → CrewCall → τ)
    (x : StateM (σ × List CrewCall) α) (y : StateM σ α) : Prop :=
  ∀ s, ∃ added, (∀ call ∈ added, P call) ∧ view (y.run s).2 = added.foldl step (view s) ∧
    ∀ calls, x.run (s, calls) = ((y.run s).1, ((y.run s).2, calls ++ added))

/-! ## What following is closed under -/

variable {τ : Type} {P : CrewCall → Prop} {view : σ → τ} {step : τ → CrewCall → τ}

theorem follows_pure (a : α) : Follows P view step (pure a) (pure a) := by
  intro s
  exact ⟨[], by simp, rfl, fun calls => by rw [List.append_nil]; rfl⟩

theorem follows_bind {x : StateM (σ × List CrewCall) α} {y : StateM σ α}
    {f : α → StateM (σ × List CrewCall) β} {g : α → StateM σ β} (hxy : Follows P view step x y)
    (hfg : ∀ a, Follows P view step (f a) (g a)) : Follows P view step (x >>= f) (y >>= g) := by
  intro s
  -- the calls of the first action, and behind them those of the second one from where it begins
  obtain ⟨first, hfirst, hmiddle, hx⟩ := hxy s
  obtain ⟨second, hsecond, hend, hf⟩ := hfg (y.run s).1 (y.run s).2
  refine ⟨first ++ second, ?_, ?_, ?_⟩
  · intro call hmem
    rcases List.mem_append.1 hmem with hmem | hmem
    · exact hfirst call hmem
    · exact hsecond call hmem
  · rw [List.foldl_append, ← hmiddle]
    exact hend
  · intro calls
    rw [StateT.run_bind, StateT.run_bind, hx]
    exact (hf _).trans (by rw [List.append_assoc]; rfl)

theorem follows_record {call : CrewCall} (hcall : P call) {x : StateM σ α}
    (hstep : ∀ s, view (x.run s).2 = step (view s) call) :
    Follows P view step (record call x) x := by
  intro s
  exact ⟨[call], by simpa using hcall, hstep s, fun calls => rfl⟩

/-- Following as a matching of effects. -/
def Follows.matching (P : CrewCall → Prop) (view : σ → τ) (step : τ → CrewCall → τ) :
    Matching (StateM (σ × List CrewCall)) (StateM σ) where
  Rel := Follows P view step
  pure := follows_pure
  bind := follows_bind

/-- What is known of an action that follows another one, from how it ended. -/
theorem Follows.inv {x : StateM (σ × List CrewCall) α} {y : StateM σ α}
    (h : Follows P view step x y) {s t : σ} {calls more : List CrewCall} {a : α}
    (hrun : x.run (s, calls) = (a, (t, more))) :
    ∃ added, more = calls ++ added ∧ (∀ call ∈ added, P call) ∧
      view t = added.foldl step (view s) ∧ y.run s = (a, t) := by
  obtain ⟨added, hadded, hview, hx⟩ := h s
  rw [hx calls, Prod.mk.injEq, Prod.mk.injEq] at hrun
  obtain ⟨rfl, rfl, rfl⟩ := hrun
  exact ⟨added, rfl, hadded, hview, rfl⟩

theorem Follows.traces {x : StateM (σ × List CrewCall) α} {y : StateM σ α}
    (h : Follows P view step x y) : Traces P x y := by
  intro s calls
  obtain ⟨added, hadded, -, hx⟩ := h s
  exact ⟨added, hadded, hx calls⟩

end Recording

/-! ## Recorded runs -/

section Runs

variable {σ τ : Type}

/-- The call does not belong to the end of a run. -/
abbrev CrewCall.Open (call : CrewCall) : Prop := call.isClosing = false

/-- The call is one that the stages of a request make. -/
abbrev CrewCall.Staged (call : CrewCall) : Prop := call.isStage = true

/-- What is seen of the state moves by one step for each call to the collaborators. -/
structure Collaborators.Moves (crew : Collaborators (StateM σ)) (view : σ → τ)
    (step : τ → CrewCall → τ) : Prop where
  items : ∀ s, view (crew.items.run.run s).2 = step (view s) .items
  define : ∀ name value s,
    view ((crew.define name value).run.run s).2 = step (view s) (.define name value)
  resolve : ∀ name s, view ((crew.resolve name).run.run s).2 = step (view s) (.resolve name)
  preHandle : ∀ handler request s,
    view ((crew.preHandle handler request).run.run s).2 = step (view s) (.preHandle handler request)
  handle : ∀ handler response s,
    view ((crew.handle handler response).run.run s).2 = step (view s) (.handle handler response)
  report : ∀ s, view (crew.report.run s).2 = step (view s) .report
  reset : ∀ s, view (crew.reset.run s).2 = step (view s) .reset
  snapshot : ∀ s, view (crew.snapshot.run s).2 = step (view s) .snapshot
  send : ∀ request s, view ((crew.send request).run.run s).2 = step (view s) (.send request)
  printRequest : ∀ request name s,
    view ((crew.printRequest request name).run.run s).2 = step (view s) (.printRequest request name)
  printResponse : ∀ response report s,
    view ((crew.printResponse response report).run.run s).2 =
      step (view s) (.printResponse response report)
  printTests : ∀ results s,
    view ((crew.printTests results).run s).2 = step (view s) (.printTests results)
  save : ∀ kept s, view ((crew.save kept).run.run s).2 = step (view s) (.save kept)
  log : ∀ entry s, view ((crew.log entry).run s).2 = step (view s) (.log entry)

variable {crew : Collaborators (StateM σ)} {view : σ → τ} {step : τ → CrewCall → τ}
  {P : CrewCall → Prop}

theorem recorded_matchStages (h : crew.Moves view step)
    (hP : ∀ call : CrewCall, call.Staged → P call) :
    crew.recorded.MatchStages (Follows.matching P view step) crew where
  define name value := follows_record (hP _ rfl) (h.define name value)
  resolve name := follows_record (hP _ rfl) (h.resolve name)
  preHandle handler request := follows_record (hP _ rfl) (h.preHandle handler request)
  handle handler response := follows_record (hP _ rfl) (h.handle handler response)
  report := follows_record (hP _ rfl) h.report
  send request := follows_record (hP _ rfl) (h.send request)
  printRequest request name := follows_record (hP _ rfl) (h.printRequest request name)
  printResponse response report := follows_record (hP _ rfl) (h.printResponse response report)

theorem CrewCall.Staged.toOpen {call : CrewCall} (h : call.Staged) : call.Open := by
  cases call with
  | printTests results => cases h
  | save kept => cases h
  | _ => rfl

theorem recorded_match (h : crew.Moves view step) (hP : ∀ call : CrewCall, call.Open → P call) :
    crew.recorded.Match (Follows.matching P view step) crew where
  toMatchStages := recorded_matchStages h fun _ hcall => hP _ hcall.toOpen
  reset := follows_record (hP _ rfl) h.reset
  log entry := follows_record (hP _ rfl) (h.log entry)

/-- A recorded request follows the request, and only its stages make calls. -/
theorem follows_execute (h : crew.Moves view step) (item : RunItem) :
    Follows CrewCall.Staged view step (item.execute crew.recorded).run (item.execute crew).run :=
  match_execute (recorded_matchStages h fun _ hcall => hcall) item

/-- The loop of a recorded run follows that of the run and makes no call that ends a run. -/
theorem follows_gather (h : crew.Moves view step) :
    Follows CrewCall.Open view step (Run.gather crew.recorded).run (Run.gather crew).run :=
  match_gather (recorded_match h fun _ hcall => hcall)
    (follows_record (P := CrewCall.Open) rfl h.items)

/-- A recorded run follows the run. -/
theorem follows_run (h : crew.Moves view step) :
    Follows (fun _ => True) view step (Run.execute crew.recorded).run (Run.execute crew).run :=
  match_run (R := Follows.matching _ view step) (follows_record trivial h.items)
    (recorded_match h fun _ _ => trivial)
    { snapshot := follows_record trivial h.snapshot
      save := fun kept => follows_record trivial (h.save kept)
      printTests := fun results => follows_record trivial (h.printTests results) }

/-- Nothing is seen of any state, so that every call may be made. -/
theorem moves_unseen (crew : Collaborators (StateM σ)) :
    crew.Moves (fun _ => ()) fun _ _ => () := by
  constructor <;> intros <;> rfl

theorem traces_gather (crew : Collaborators (StateM σ)) :
    TracesAttempt CrewCall.Open (Run.gather crew.recorded) (Run.gather crew) :=
  (follows_gather (moves_unseen crew)).traces

/-- A recorded run does what the run does. -/
theorem traces_run (crew : Collaborators (StateM σ)) :
    TracesAttempt (fun _ => True) (Run.execute crew.recorded) (Run.execute crew) :=
  (follows_run (moves_unseen crew)).traces

end Runs

end RequestRunner
