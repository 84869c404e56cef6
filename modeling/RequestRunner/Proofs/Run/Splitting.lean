import RequestRunner.Generator.Draw
import RequestRunner.Proofs.Engine.Enumeration
import RequestRunner.Proofs.Run.World

/-!
# Splitting a run

A reset engine is a new one: the engine that is started with the snapshot behind a completed request
is the engine that the request leaves behind (`Engine.new_of_reset`). What a session does is decided
by its engine and its world alone, whatever its printer and the list of calls are (`Session.Alike`),
if printing, logging and saving leave the world alone (`Outside.Quiet`). Main statement: running
items behind others gives the results and the exchanges of running the others, and then these items
with a new engine that is started with the snapshot (`Session.run_splits`).
-/

set_option autoImplicit false

namespace RequestRunner

/-! ## New engines -/

namespace Engine

variable {C : Type} {language : Language C}

/-- Every call passes on what it logs. -/
theorem printed_after {engine : Engine C} (h : engine.host.printed = []) (call : CrewCall) :
    (engine.after language call).host.printed = [] := by
  cases call <;> first | exact h | rfl

theorem printed_afterAll {engine : Engine C} (h : engine.host.printed = [])
    (calls : List CrewCall) : (engine.afterAll language calls).host.printed = [] := by
  induction calls generalizing engine with
  | nil => exact h
  | cons call rest ih => exact ih (printed_after h call)

/-- What a run leaves as it was when its engine was new. -/
structure Begun (environment : VariableMap) (now : Int) (engine : Engine C) : Prop where
  open_environment : Fields.has "client" environment = false
  environment_eq : engine.host.environment = Store.ofMap environment true
  printed_eq : engine.host.printed = []
  now_eq : engine.host.now = now

theorem begun_of_new {initial environment : VariableMap} {now : Int} {entropy : Entropy}
    {engine : Engine C} (hnew : new language initial environment now entropy = .ok engine) :
    engine.Begun environment now := by
  obtain ⟨hopen, rfl⟩ := new_inv hnew
  exact ⟨hopen, rfl, rfl, rfl⟩

theorem Begun.afterAll {environment : VariableMap} {now : Int} {engine : Engine C}
    (h : engine.Begun environment now) (calls : List CrewCall) :
    (engine.afterAll language calls).Begun environment now := by
  have hcourse := course_history language engine calls
  constructor
  · exact h.open_environment
  · rw [hcourse.environment, h.environment_eq]
  · exact printed_afterAll h.printed_eq calls
  · rw [hcourse.now, h.now_eq]

/-- **A reset engine is a new one**, started with its own snapshot. -/
theorem new_of_reset {environment : VariableMap} {now : Int} {engine : Engine C}
    (h : engine.Begun environment now) :
    new language (engine.reset language).snapshot environment now engine.host.entropy =
      .ok (engine.reset language) := by
  -- the store was refilled from a listing, so refilling it again changes nothing
  have hrefilled : Store.ofMap (engine.reset language).snapshot false =
      Store.ofMap engine.snapshot false := by
    have hheld : Store.held engine.snapshot reservedKey = none := by
      rw [Store.held, snapshot, Store.get?_toMap_reservedKey]
      rfl
    have hlisting : (engine.reset language).snapshot = Store.keep engine.snapshot :=
      Store.toMap_keep (Store.listed_toMap _) hheld false
    rw [Store.ofMap, hlisting, Store.keep_keep, Store.ofMap]
  rw [new, h.open_environment, if_neg Bool.false_ne_true, hrefilled, reset, ← h.environment_eq,
    ← h.printed_eq, ← h.now_eq]

/-- **A new engine is the one that is started with its snapshot**, if its variables are listed and
the reserved key has no value. -/
theorem new_of_new {initial environment : VariableMap} {now : Int} {entropy : Entropy}
    {engine : Engine C} (hlisted : Fields.Listed initial)
    (hreserved : Store.held initial reservedKey = none)
    (hnew : new language initial environment now entropy = .ok engine) :
    new language engine.snapshot environment now engine.host.entropy = .ok engine := by
  obtain ⟨hopen, rfl⟩ := new_inv hnew
  have hlisting : Store.toMap (Store.ofMap initial false) = Store.keep initial :=
    Store.toMap_keep hlisted hreserved false
  rw [new, hopen, snapshot, hlisting, Store.ofMap, Store.keep_keep]
  rfl

end Engine

namespace Run

variable {σ : Type}

/-- Attempting items behind others is attempting the others first. -/
theorem Attempts.append {crew : Collaborators (StateM σ)} {items more : List RunItem} {s t u : σ}
    {results others : List RequestResult} {stopped fault : Option Fault}
    (first : Attempts crew items s results stopped t) (hstopped : stopped = none)
    (second : Attempts crew more t others fault u) :
    Attempts crew (items ++ more) s (results ++ others) fault u := by
  induction first with
  | nil s => exact second
  | failed _ => cases hstopped
  | completed hrun _ ih => exact .completed hrun (ih hstopped second)

/-- The results of the requests that a run from a state completes. -/
def Results (crew : Collaborators (StateM σ)) (s : σ) (results : List RequestResult) : Prop :=
  ∃ items fault t, Loop crew s items results fault t

end Run

/-- The calls by which requests are sent, and requests and responses are printed. -/
def CrewCall.isExchange : CrewCall → Bool
  | send _ => true
  | printRequest _ _ => true
  | printResponse _ _ => true
  | _ => false

/-- The requests and responses of a run, as they were sent and printed. -/
def exchanges (calls : List CrewCall) : List CrewCall := calls.filter CrewCall.isExchange

theorem exchanges_append (calls more : List CrewCall) :
    exchanges (calls ++ more) = exchanges calls ++ exchanges more :=
  List.filter_append calls more

/-! ## What a session depends on -/

/-- Printing, logging and saving leave the world alone, so that only requests change it. -/
structure Outside.Quiet {W : Type} (outside : Outside (StateM W)) : Prop where
  write : ∀ writing w, ((outside.write writing).run w).2 = w
  log : ∀ entry w, ((outside.log entry).run w).2 = w
  save : ∀ kept w, ((outside.save kept).run.run w).2 = w

namespace Session

variable {C W : Type} {language : Language C} {outside : Outside (StateM W)}

/-- What a session depends on: its engine and its world. -/
def seen (state : Session C × W) : Engine C × W := (state.1.engine, state.2)

theorem world_each {α : Type} {effect : α → StateM W Unit}
    (h : ∀ a w, ((effect a).run w).2 = w) (list : List α) (w : W) :
    ((each effect list).run w).2 = w := by
  induction list generalizing w with
  | nil => rfl
  | cons a rest ih => exact (ih _).trans (h a w)

/-- An action whose result, and what is seen of the state behind it, depend on what was seen of the
state before it. -/
def Sees {α : Type} (x : StateM (Session C × W) α) : Prop :=
  ∃ f : Engine C × W → α × (Engine C × W), ∀ s, ((x.run s).1, seen (x.run s).2) = f (seen s)

theorem sees_act (h : outside.Quiet) {α : Type} (action : EngineAction C α) :
    Sees (joint (act outside action).run) := by
  refine ⟨fun state => ((action.run state.1).1, (state.1.acted action, state.2)), fun s => ?_⟩
  have hworld := world_each (fun line => h.log (.script line))
    (action.run s.1.engine).2.host.printed s.2
  exact Prod.ext rfl (Prod.ext rfl hworld)

theorem sees_print (h : outside.Quiet) (f : Printer → Printer × List Writing) :
    Sees (C := C) (joint (ExceptT.lift (print outside f) : Attempt _ Unit).run) := by
  refine ⟨fun state => (.ok (), state), fun s => ?_⟩
  exact Prod.ext rfl (Prod.ext rfl (world_each h.write (f s.1.printer).2 s.2))

/-- The two actions have the same result, make the same calls, and lead to what looks alike, from
whatever looks alike. -/
def Alike {α : Type} (x y : StateM ((Session C × W) × List CrewCall) α) : Prop :=
  ∀ u v, seen u.1 = seen v.1 → ∃ added, (x.run u).1 = (y.run v).1 ∧
    seen (x.run u).2.1 = seen (y.run v).2.1 ∧
    (x.run u).2.2 = u.2 ++ added ∧ (y.run v).2.2 = v.2 ++ added

theorem alike_pure {α : Type} (a : α) :
    Alike (C := C) (W := W) (pure a) (pure a) := by
  intro u v hseen
  exact ⟨[], rfl, hseen, (List.append_nil _).symm, (List.append_nil _).symm⟩

theorem alike_bind {α β : Type} {x y : StateM ((Session C × W) × List CrewCall) α}
    {f g : α → StateM ((Session C × W) × List CrewCall) β} (hxy : Alike x y)
    (hfg : ∀ a, Alike (f a) (g a)) : Alike (x >>= f) (y >>= g) := by
  intro u v hseen
  obtain ⟨first, hresult, hmiddle, hx, hy⟩ := hxy u v hseen
  obtain ⟨second, hresult', hend, hf, hg⟩ := hfg (x.run u).1 (x.run u).2 (y.run v).2 hmiddle
  rw [hx] at hf
  rw [hy] at hg
  rw [StateT.run_bind, StateT.run_bind]
  -- both go on with the same result, as the first actions end alike
  refine ⟨first ++ second, ?_, ?_, ?_, ?_⟩
  · change ((f (x.run u).1).run (x.run u).2).1 = ((g (y.run v).1).run (y.run v).2).1
    rw [← hresult]
    exact hresult'
  · change seen ((f (x.run u).1).run (x.run u).2).2.1 = seen ((g (y.run v).1).run (y.run v).2).2.1
    rw [← hresult]
    exact hend
  · rw [← List.append_assoc]
    exact hf
  · rw [← List.append_assoc, ← hg, hresult]
    rfl

/-- Looking alike, as a matching of effects. -/
def looking : Matching (StateM ((Session C × W) × List CrewCall))
    (StateM ((Session C × W) × List CrewCall)) where
  Rel := Alike
  pure := alike_pure
  bind := alike_bind

theorem alike_record {α : Type} {x : StateM (Session C × W) α} (call : CrewCall) (h : Sees x) :
    Alike (record call x) (record call x) := by
  intro u v hseen
  obtain ⟨f, hf⟩ := h
  have hu := hf u.1
  rw [hseen, ← hf v.1, Prod.mk.injEq] at hu
  exact ⟨[call], hu.1, hu.2, rfl, rfl⟩

/-- Sessions in quiet surroundings look alike, whatever their items are. -/
theorem watchedCrew_alike (h : outside.Quiet) (items others : Except Fault (List RunItem)) :
    (watchedCrew language outside items).Match looking (watchedCrew language outside others) where
  define _ _ := alike_record _ (sees_act h _)
  resolve _ := alike_record _ (sees_act h _)
  preHandle _ _ := alike_record _ (sees_act h _)
  handle _ _ := alike_record _ (sees_act h _)
  report := alike_record _ ⟨fun state => (state.1.report, state), fun _ => rfl⟩
  send request := alike_record _
    ⟨fun state => (((outside.send request).run.run state.2).1,
      (state.1, ((outside.send request).run.run state.2).2)), fun _ => rfl⟩
  printRequest _ _ := alike_record _ (sees_print h _)
  printResponse _ _ := alike_record _ (sees_print h _)
  reset := alike_record _ ⟨fun state => ((), (state.1.reset language, state.2)), fun _ => rfl⟩
  log entry := alike_record _
    ⟨fun state => ((), state), fun s => Prod.ext rfl (Prod.ext rfl (h.log entry s.2))⟩

/-! ## Runs that look alike -/

section Attempts

variable {c d : Collaborators (StateM ((Session C × W) × List CrewCall))}

theorem execute_alike (h : c.Match looking d) {item : RunItem}
    {s t u : (Session C × W) × List CrewCall} {result : Except Fault Report}
    (hrun : (item.execute c).run.run (Run.begun c item s) = (result, t))
    (hseen : seen s.1 = seen u.1) :
    ∃ v added, (item.execute d).run.run (Run.begun d item u) = (result, v) ∧
      seen t.1 = seen v.1 ∧ t.2 = s.2 ++ added ∧ v.2 = u.2 ++ added := by
  obtain ⟨first, -, hbegun, hs, hu⟩ := h.log (.debug ("▶️  " ++ item.name)) s u hseen
  obtain ⟨second, hresult, hend, ht, hv⟩ :=
    match_execute h.toMatchStages item (Run.begun c item s) (Run.begun d item u) hbegun
  refine ⟨((item.execute d).run.run (Run.begun d item u)).2, first ++ second, ?_, ?_, ?_, ?_⟩
  · have hfirst : ((item.execute c).run.run (Run.begun c item s)).1 = result := by rw [hrun]
    exact Prod.ext (hresult.symm.trans hfirst) rfl
  · rw [← hend]
    exact congrArg (fun after => seen after.2.1) hrun.symm
  · rw [← List.append_assoc, ← hs]
    exact (congrArg (fun after => after.2.2) hrun).symm.trans ht
  · rw [← List.append_assoc, ← hu]
    exact hv

theorem forgotten_alike (h : c.Match looking d) (item : RunItem) (report : Report)
    {s u : (Session C × W) × List CrewCall} (hseen : seen s.1 = seen u.1) :
    ∃ added, seen (Run.forgotten c item report s).1 = seen (Run.forgotten d item report u).1 ∧
      (Run.forgotten c item report s).2 = s.2 ++ added ∧
      (Run.forgotten d item report u).2 = u.2 ++ added := by
  obtain ⟨first, -, hlogged, hs, hu⟩ := h.log (Run.completion item report) s u hseen
  obtain ⟨second, -, hend, ht, hv⟩ := h.reset _ _ hlogged
  refine ⟨first ++ second, hend, ?_, ?_⟩
  · rw [← List.append_assoc, ← hs]
    exact ht
  · rw [← List.append_assoc, ← hu]
    exact hv

/-- Attempted items go the same way from what looks alike. -/
theorem attempts_alike (h : c.Match looking d) {listed : List RunItem}
    {s t u : (Session C × W) × List CrewCall} {results : List RequestResult}
    {fault : Option Fault} (hattempts : Run.Attempts c listed s results fault t)
    (hseen : seen s.1 = seen u.1) :
    ∃ v added, Run.Attempts d listed u results fault v ∧ seen t.1 = seen v.1 ∧
      t.2 = s.2 ++ added ∧ v.2 = u.2 ++ added := by
  induction hattempts generalizing u with
  | nil s =>
    exact ⟨u, [], .nil u, hseen, (List.append_nil _).symm, (List.append_nil _).symm⟩
  | failed hrun =>
    obtain ⟨v, added, hother, hend, ht, hv⟩ := execute_alike h hrun hseen
    exact ⟨v, added, .failed hother, hend, ht, hv⟩
  | completed hrun _ ih =>
    obtain ⟨v, first, hother, hmiddle, ht, hv⟩ := execute_alike h hrun hseen
    obtain ⟨second, hforgotten, hs, hu⟩ := forgotten_alike h _ _ hmiddle
    obtain ⟨z, third, hrest, hend, hx, hy⟩ := ih hforgotten
    refine ⟨z, first ++ second ++ third, .completed hother hrest, hend, ?_, ?_⟩
    · rw [hx, hs, ht]
      simp only [List.append_assoc]
    · rw [hy, hu, hv]
      simp only [List.append_assoc]

end Attempts

/-- An action behind which everything looks as before, as a matching of effects. -/
def stilling : Matching (StateM ((Session C × W) × List CrewCall))
    (StateM ((Session C × W) × List CrewCall)) where
  Rel x _ := ∀ u, seen (x.run u).2.1 = seen u.1
  pure _ _ := rfl
  bind hx hf u := (hf _ _).trans (hx u)

/-- The end of a run in quiet surroundings leaves everything as it looks. -/
theorem watchedCrew_still (h : outside.Quiet) (items : Except Fault (List RunItem)) :
    (watchedCrew language outside items).MatchClosing stilling
      (watchedCrew language outside items) where
  snapshot _ := rfl
  save kept u := Prod.ext rfl (h.save kept u.1.2)
  printTests _ u := Prod.ext rfl (world_each h.write _ u.1.2)

theorem seen_execute (h : outside.Quiet) {items : Except Fault (List RunItem)}
    {s t : (Session C × W) × List CrewCall} {result : Except Fault (List RequestResult)}
    (hrun : (Run.runAll (watchedCrew language outside items)).run.run s = (result, t)) :
    seen ((Run.execute (watchedCrew language outside items)).run.run s).2.1 = seen t.1 := by
  have hclosing : (watchedCrew language outside items).MatchClosing stilling
      (watchedCrew language outside items) := watchedCrew_still h items
  have hlog (entry : LogEntry) : stilling.Rel ((watchedCrew language outside items).log entry)
      ((watchedCrew language outside items).log entry) :=
    fun u => Prod.ext rfl (h.log entry u.1.2)
  obtain ⟨listed, results, fault, u, hloop, hall⟩ :=
    Run.runAll_loop (watchedCrew language outside items) s
  obtain rfl : u = t := congrArg Prod.snd (hall.symm.trans hrun)
  rw [Run.execute, ExceptT.run_mk, StateT.run_bind, hloop.gather_eq]
  cases fault with
  | none => exact match_finish hclosing _ u
  | some fault => exact match_rescue hlog hclosing u

/-! ## Splitting -/

/-- A run of items: how it ends, the session and the world behind it, and the calls that were
made. -/
def watchedRun (language : Language C) (outside : Outside (StateM W)) (items : List RunItem)
    (session : Session C) (w : W) :
    Except Fault (List RequestResult) × ((Session C × W) × List CrewCall) :=
  (Run.execute (watchedCrew language outside (.ok items))).run.run ((session, w), [])

/-- The end of a run exchanges nothing. -/
theorem exchanges_watchedRun {items : List RunItem} {session : Session C} {w : W}
    {results : List RequestResult} {fault : Option Fault} {t : (Session C × W) × List CrewCall}
    (hrun : (Run.runAll (watchedCrew language outside (.ok items))).run.run ((session, w), []) =
      (Run.handedOn results fault, t)) :
    exchanges (watchedRun language outside items session w).2.2 = exchanges t.2 := by
  obtain ⟨t, calls⟩ := t
  obtain ⟨u, hexecute⟩ := Run.execute_of_loop (worldCrew language outside (.ok items)) hrun
  have hclosing (kept : VariableMap) (saving : Except Fault Unit) :
      exchanges (.snapshot :: .save kept :: Run.callsBehindSaving results fault saving) = [] := by
    cases fault <;> cases saving <;> rfl
  rw [watchedRun, hexecute]
  dsimp only
  rw [exchanges_append, hclosing, List.append_nil]

/-- The engine behind attempted items is a new one, started with its own snapshot. -/
theorem new_of_attempts {items : Except Fault (List RunItem)} {environment : VariableMap}
    {now : Int} {listed : List RunItem} {s t : (Session C × W) × List CrewCall}
    {results : List RequestResult} {fault : Option Fault}
    (h : Run.Attempts (watchedCrew language outside items) listed s results fault t)
    (hfault : fault = none) (hlisted : listed ≠ []) (hbegun : s.1.1.engine.Begun environment now) :
    Engine.new language t.1.1.engine.snapshot environment now t.1.1.engine.host.entropy =
      .ok t.1.1.engine := by
  induction h with
  | nil s => exact absurd rfl hlisted
  | failed _ => cases hfault
  | @completed item rest s u t report results fault hrun hrest ih =>
    -- the engine behind the item, before its request is forgotten
    have hitem : u.1.1.engine.Begun environment now := by
      obtain ⟨added, -, -, hmoved, -⟩ :=
        (follows_execute (moves_engine language outside items) item).inv hrun
      rw [hmoved]
      exact hbegun.afterAll added
    -- a run that goes on begins again with the engine behind the reset
    cases rest with
    | cons next more => exact ih hfault (List.cons_ne_nil _ _) (hitem.afterAll [.reset])
    | nil =>
      cases hrest
      exact Engine.new_of_reset hitem

/-- Items that are run to the end are attempted. -/
theorem attempts_of_runAll {items : List RunItem} {s t : (Session C × W) × List CrewCall}
    {results : List RequestResult}
    (h : (Run.runAll (watchedCrew language outside (.ok items))).run.run s = (.ok results, t)) :
    Run.Attempts (watchedCrew language outside (.ok items)) items (s.1, s.2 ++ [.items]) results
      none t := by
  obtain ⟨listed, found, fault, u, hloop, hall⟩ :=
    Run.runAll_loop (watchedCrew language outside (.ok items)) s
  have hhanded := h.symm.trans hall
  cases fault with
  | some fault => cases hhanded
  | none =>
    cases hhanded
    cases hloop with
    | listed hitems hattempts =>
      cases hitems
      exact hattempts

/-- **A run can be split.** If items are run and nothing stops them, a new engine can be started
with the snapshot that they leave, and running more items behind them exchanges the same requests
and responses, and gives the same results, as running them, and then the others with the new engine
and any printer. Only where nothing is run before, the first engine must not have a value under the
reserved key. -/
theorem run_splits {initial environment : VariableMap} {now : Int} {entropy : Entropy}
    {engine : Engine C} (hquiet : outside.Quiet) (hlisted : Fields.Listed initial)
    (hnew : Engine.new language initial environment now entropy = .ok engine)
    (items more : List RunItem)
    (hreserved : items ≠ [] ∨ Store.held initial reservedKey = none) (printer other : Printer)
    {w v : W} {session : Session C} {ending : Except Fault (List RequestResult)}
    {calls : List CrewCall} {results : List RequestResult}
    {place : (Session C × W) × List CrewCall}
    (hfirst : watchedRun language outside items ⟨engine, printer⟩ w =
      (ending, ((session, v), calls)))
    (hresults : (Run.runAll (watchedCrew language outside (.ok items))).run.run
      ((⟨engine, printer⟩, w), []) = (.ok results, place)) :
    ∃ fresh, Engine.new language session.engine.snapshot environment now
        session.engine.host.entropy = .ok fresh ∧
      exchanges (watchedRun language outside (items ++ more) ⟨engine, printer⟩ w).2.2 =
        exchanges calls ++ exchanges (watchedRun language outside more ⟨fresh, other⟩ v).2.2 ∧
      ∃ others,
        Run.Results (watchedCrew language outside (.ok more)) ((⟨fresh, other⟩, v), []) others ∧
        Run.Results (watchedCrew language outside (.ok (items ++ more)))
          ((⟨engine, printer⟩, w), []) (results ++ others) := by
  have hattempts := attempts_of_runAll hresults
  have hseen : seen (session, v) = seen place.1 := by
    have hend := seen_execute hquiet hresults
    rw [watchedRun] at hfirst
    rw [hfirst] at hend
    exact hend
  have hengine : session.engine = place.1.1.engine := congrArg Prod.fst hseen
  have hfresh : Engine.new language session.engine.snapshot environment now
      session.engine.host.entropy = .ok session.engine := by
    rw [hengine]
    by_cases hnone : items = []
    · -- no item has reset the engine
      subst hnone
      cases hattempts
      exact Engine.new_of_new hlisted (hreserved.resolve_left fun h => h rfl) hnew
    · exact new_of_attempts hattempts rfl hnone (Engine.begun_of_new hnew)
  -- the first items as a part of the whole run, and the others behind them
  obtain ⟨middle, first, hitems, hmiddle, hplace, hfirstCalls⟩ :=
    attempts_alike (watchedCrew_alike hquiet (.ok items) (.ok (items ++ more))) hattempts
      (u := ((⟨engine, printer⟩, w), [.items])) rfl
  obtain ⟨others, fault, t, halone⟩ := Run.exists_attempts
    (watchedCrew language outside (.ok more)) more ((⟨session.engine, other⟩, v), [.items])
  obtain ⟨u, second, hmore, -, hsecond, hwholeCalls⟩ :=
    attempts_alike (watchedCrew_alike hquiet (.ok more) (.ok (items ++ more))) halone
      (u := middle) (hseen.trans hmiddle)
  have hloop : Run.Loop (watchedCrew language outside (.ok more))
      ((⟨session.engine, other⟩, v), []) more others fault t := .listed rfl halone
  have hwhole : Run.Loop (watchedCrew language outside (.ok (items ++ more)))
      ((⟨engine, printer⟩, w), []) (items ++ more) (results ++ others) fault u :=
    .listed rfl (hitems.append rfl hmore)
  refine ⟨session.engine, hfresh, ?_, others, ⟨more, fault, t, hloop⟩, ⟨_, fault, u, hwhole⟩⟩
  -- saving and printing the results, at the end of the first run, exchange nothing
  have hcalls : exchanges calls = exchanges place.2 := by
    have hexchanged := exchanges_watchedRun
      (show _ = (Run.handedOn results none, place) from hresults)
    rw [hfirst] at hexchanged
    exact hexchanged
  rw [exchanges_watchedRun hwhole.runAll_eq, exchanges_watchedRun hloop.runAll_eq, hcalls, hplace,
    hwholeCalls, hsecond, hfirstCalls, exchanges_append, exchanges_append [.items] second]
  rfl

/-- One script logs in, the other one uses the login. -/
def loginScripts : String → List HostCall
  | "login" => [.write .persisted (some "token") (some (.text "abc")),
      .write .request (some "password") (some (.text "secret")), .record "login" .success]
  | "use" => [.read .persisted (some "token"), .read .request (some "password")]
  | _ => []

/-- An engine that knows a user. -/
def loginEngine : Engine Unit :=
  ⟨⟨Store.ofMap [("user", .text "u")] false, Store.empty, Store.ofMap [] true, Report.empty, [], 0,
    .seeded 1⟩, ()⟩

/-- An outside that answers every request. -/
def loginOutside : Outside (StateM Unit) := Outside.replying ⟨"HTTP/1.1", 200, "OK", [], none⟩

/-- A run from that engine. -/
def loginRun (items : List RunItem) :
    Except Fault (List RequestResult) × ((Session Unit × Unit) × List CrewCall) :=
  watchedRun (Language.ofCalls loginScripts) loginOutside items
    ⟨loginEngine, Printer.new .table⟩ ()

/-- The request that logs in. -/
def loginItem : RunItem := .handling "login" none (some "login")

/-- The request that uses the login. -/
def useItem : RunItem := .handling "use" (some "use") none

/-- The run of two requests is that of the first one, and of the second one with a new engine. -/
theorem run_splits_login :
    ∃ fresh, Engine.new (Language.ofCalls loginScripts)
        (loginRun [loginItem]).2.1.1.engine.snapshot [] 0
        (loginRun [loginItem]).2.1.1.engine.host.entropy = .ok fresh ∧
      exchanges (loginRun [loginItem, useItem]).2.2 = exchanges (loginRun [loginItem]).2.2 ++
        exchanges (watchedRun (Language.ofCalls loginScripts) loginOutside [useItem]
          ⟨fresh, Printer.new .table⟩ ()).2.2 := by
  have hquiet : loginOutside.Quiet := ⟨fun _ _ => rfl, fun _ _ => rfl, fun _ _ => rfl⟩
  have hlisted : Fields.Listed [("user", Json.text "u")] := List.pairwise_singleton _ _
  have hnew : Engine.new (Language.ofCalls loginScripts) [("user", .text "u")] [] 0 (.seeded 1) =
      .ok loginEngine := rfl
  have hresults : (Run.runAll (watchedCrew (Language.ofCalls loginScripts) loginOutside
      (.ok [loginItem]))).run.run ((⟨loginEngine, Printer.new .table⟩, ()), []) =
      (.ok [⟨"sample.http", "login", ⟨[("login", .success)]⟩⟩],
        ((Run.runAll (watchedCrew (Language.ofCalls loginScripts) loginOutside
          (.ok [loginItem]))).run.run ((⟨loginEngine, Printer.new .table⟩, ()), [])).2) := by
    with_unfolding_all rfl
  have hfirst : watchedRun (Language.ofCalls loginScripts) loginOutside [loginItem]
      ⟨loginEngine, Printer.new .table⟩ () = ((loginRun [loginItem]).1,
        (((loginRun [loginItem]).2.1.1, ()), (loginRun [loginItem]).2.2)) := rfl
  obtain ⟨fresh, hfresh, hexchanged, -⟩ := run_splits hquiet hlisted hnew
    [loginItem] [useItem] (Or.inl (List.cons_ne_nil _ _)) (Printer.new .table) (Printer.new .table)
    hfirst hresults
  exact ⟨fresh, hfresh, hexchanged⟩

end Session

end RequestRunner
