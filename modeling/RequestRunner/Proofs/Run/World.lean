import RequestRunner.Proofs.Engine.History
import RequestRunner.Run.Session

/-!
# Sessions in a world

The outside of a session keeps a state of its own, the world: what the servers know, what lies in
files, what was printed. `Session.joint` lets a session and its world step together, and
`Session.worldCrew` are the collaborators of a session that do so. A run with them is the run of the
session (`execute_worldCrew`); only the engine's own calls move the engine (`moves_engine`), so the
engine of a run is read off the calls that were made (`engine_of_run`).
-/

set_option autoImplicit false

namespace RequestRunner

/-- Collaborators with effects of another kind. -/
def Collaborators.map {m n : Type → Type} (f : {α : Type} → m α → n α) (crew : Collaborators m) :
    Collaborators n where
  items := ExceptT.mk (f crew.items.run)
  define name value := ExceptT.mk (f (crew.define name value).run)
  resolve name := ExceptT.mk (f (crew.resolve name).run)
  preHandle handler request := ExceptT.mk (f (crew.preHandle handler request).run)
  handle handler response := ExceptT.mk (f (crew.handle handler response).run)
  report := f crew.report
  reset := f crew.reset
  snapshot := f crew.snapshot
  send request := ExceptT.mk (f (crew.send request).run)
  printRequest request name := ExceptT.mk (f (crew.printRequest request name).run)
  printResponse response report := ExceptT.mk (f (crew.printResponse response report).run)
  printTests results := f (crew.printTests results)
  save kept := ExceptT.mk (f (crew.save kept).run)
  log entry := f (crew.log entry)

namespace Session

variable {C W : Type}

/-- A step of a session in a world, as a step of both together. -/
def joint {α : Type} (x : StateT (Session C) (StateM W) α) : StateM (Session C × W) α :=
  fun state =>
    let after := (x.run state.1).run state.2
    (after.1.1, (after.1.2, after.2))

/-- The collaborators of a session, each of which moves the session and the world together. -/
def worldCrew (language : Language C) (outside : Outside (StateM W))
    (items : Except Fault (List RunItem)) : Collaborators (StateM (Session C × W)) :=
  (crew language outside items).map joint

/-- The collaborators of a session in a world, with a list of the calls made to them. -/
abbrev watchedCrew (language : Language C) (outside : Outside (StateM W))
    (items : Except Fault (List RunItem)) :
    Collaborators (StateM ((Session C × W) × List CrewCall)) :=
  (worldCrew language outside items).recorded

/-- Being the joint step of a step, as a matching of effects. -/
def joining : Matching (StateM (Session C × W)) (StateT (Session C) (StateM W)) where
  Rel x y := x = joint y
  pure _ := rfl
  bind hxy hfg := by
    subst hxy
    obtain rfl := funext hfg
    rfl

variable (language : Language C) (outside : Outside (StateM W))
  (items : Except Fault (List RunItem))

/-- Only the engine's own calls move the engine. -/
theorem moves_engine :
    (worldCrew language outside items).Moves (fun state => state.1.engine)
      (Engine.after language) := by
  constructor <;> intros <;> rfl

variable {language outside items}

/-- The engine behind a run is the one that its calls lead to. -/
theorem engine_of_run {s t : Session C × W} {calls : List CrewCall}
    {result : Except Fault (List RequestResult)}
    (h : (Run.execute (watchedCrew language outside items)).run.run (s, []) =
      (result, (t, calls))) :
    t.1.engine = s.1.engine.afterAll language calls := by
  obtain ⟨added, rfl, -, hmoved, -⟩ := (follows_run (moves_engine language outside items)).inv h
  exact hmoved

variable (language) in
/-- The calls behind the saving are none of the engine's business. -/
theorem afterAll_callsBehindSaving (engine : Engine C) (results : List RequestResult)
    (fault : Option Fault) (saving : Except Fault Unit) :
    engine.afterAll language (Run.callsBehindSaving results fault saving) = engine := by
  cases fault <;> cases saving <;> rfl

/-- **A run saves exactly one map**, the snapshot of the engine that it leaves behind. -/
theorem save_mem_iff {s t : Session C × W} {calls : List CrewCall}
    {result : Except Fault (List RequestResult)}
    (h : (Run.execute (watchedCrew language outside items)).run.run (s, []) = (result, (t, calls)))
    (kept : VariableMap) : .save kept ∈ calls ↔ kept = t.1.engine.snapshot := by
  obtain ⟨listed, results, fault, ⟨u, before⟩, hloop, hall⟩ :=
    Run.runAll_loop (watchedCrew language outside items) (s, [])
  obtain ⟨v, hrun⟩ := Run.execute_of_loop (worldCrew language outside items) hall
  have hengine := engine_of_run h
  rw [h, Prod.mk.injEq, Prod.mk.injEq] at hrun
  obtain ⟨-, -, hcalls⟩ := hrun
  obtain ⟨added, hbefore, hopen, hmoved, -⟩ :=
    (follows_gather (moves_engine language outside items)).inv hloop.gather_eq
  rw [List.nil_append] at hbefore
  subst hbefore
  -- behind the loop nothing moves the engine
  have hsame : t.1.engine = u.1.engine := by
    rw [hengine, hcalls, Engine.afterAll, List.foldl_append, ← hmoved]
    exact afterAll_callsBehindSaving language u.1.engine results fault _
  have hclosing : .save kept ∉ Run.callsBehindSaving results fault
      (Run.savingAt (worldCrew language outside items) u).1 := by
    unfold Run.callsBehindSaving
    split <;> simp
  have hloop : .save kept ∉ before := fun hmem => Bool.noConfusion (hopen _ hmem)
  have hkept : Run.variablesAt (worldCrew language outside items) u = t.1.engine.snapshot :=
    congrArg Engine.snapshot hsame.symm
  rw [hcalls, hkept, List.mem_append, List.mem_cons, List.mem_cons]
  simp [hclosing, hloop]

end Session

/-! ## A small language and a small world -/

/-- Makes calls in order, whatever the answers are. -/
def Activity.ofCalls : List HostCall → Activity Unit
  | [] => .done ()
  | request :: rest => .call request fun _ => ofCalls rest

/-- The language whose scripts stand for lists of calls. -/
def Language.ofCalls (calls : String → List HostCall) : Language Unit where
  fresh := ()
  run source _ _ _ := (Activity.ofCalls (calls source)).bind fun _ => .done (.ok (), ())
  evaluate source _ _ :=
    (Activity.ofCalls (calls source)).bind fun _ => .done (.ok ⟨"string", source⟩, ())

/-- An outside that answers every request in the same way and keeps nothing. -/
def Outside.replying (response : Response) : Outside (StateM Unit) where
  write _ := pure ()
  log _ := pure ()
  send _ := pure response
  save _ := pure ()

/-- An item whose only scripts are handlers. -/
def RunItem.handling (name : String) (preHandler handler : Option String) : RunItem :=
  ⟨"sample.http", 0,
    ⟨some name, [], preHandler.map fun script => ⟨script, Selection.none⟩,
      ⟨.get, Selection.none, ⟨"http://localhost/", [], Selection.none⟩, [], none, Selection.none⟩,
      handler.map fun script => ⟨script, Selection.none⟩, Selection.none⟩⟩

end RequestRunner
