import RequestRunner.Proofs.Engine.VariableMaps
import RequestRunner.Proofs.Run.Ending
import RequestRunner.Proofs.Run.Splitting
import RequestRunner.Proofs.Script.Confinement
import RequestRunner.Proofs.Template.Substitution

/-!
# Declared variables

A section declares variables for its own placeholders. What that means is said without an engine: a
scope is a list of names with their texts, placeholders look into it first (`Collaborators.within`),
and a declaration fills its template within the scope so far and puts its name in front
(`RunItem.declareWithin`).

Executing the declarations does the same. The engine keeps the scope among the variables of the
request (`Session.declaring`), where the names hide what is persisted or in the environment, and a
reset removes them. Placeholders that are expressions are the exception, on both sides: they are
evaluated, and a name that begins like one is never looked up. Evaluating them cannot touch the
scope as long as the context gives no hold on the request (`Language.KeepsApart`,
`Session.Settled`).

The main result is `Session.declared_variables_scoped`.
-/

set_option autoImplicit false

namespace RequestRunner

/-! ## Scopes -/

section Scopes

variable {m : Type → Type} [Monad m]

/-- The text for a placeholder within a scope, a list of names with their texts, the latest first: a
name of the scope stands for its latest text. Expressions, and names that are not in the scope, are
left to the collaborator. -/
def Collaborators.within (crew : Collaborators m) (scope : Fields String) (script : String) :
    Attempt m String :=
  if Script.isExpression script then crew.resolve script
  else
    match Fields.get? script scope with
    | some text => pure text
    | none => crew.resolve script

/-- The scope behind declarations: each template is filled within the scope that those before it
leave. The collaborator never hears of the names. -/
def RunItem.declareWithin (crew : Collaborators m) :
    List Declaration → Fields String → Attempt m (Fields String)
  | [], scope => pure scope
  | (name, template) :: rest, scope => do
    let text ← template.fill (crew.within scope)
    declareWithin crew rest ((name, text) :: scope)

end Scopes

section Declarations

variable {σ : Type} {crew : Collaborators (StateM σ)} {s t : σ}

/-- Declarations in two parts: the second part begins with the scope of the first. -/
theorem declareWithin_append (before after : List Declaration) (scope : Fields String) :
    RunItem.declareWithin crew (before ++ after) scope =
      RunItem.declareWithin crew before scope >>= RunItem.declareWithin crew after := by
  induction before generalizing scope with
  | nil =>
    rw [List.nil_append, RunItem.declareWithin, pure_bind]
  | cons declaration rest ih =>
    rw [List.cons_append, RunItem.declareWithin, RunItem.declareWithin, bind_assoc]
    exact bind_congr fun text => ih _

/-- Declarations of other names leave a name as it is. -/
theorem get?_declareWithin_of_ne {declarations : List Declaration} {name : String}
    (hname : ∀ declaration ∈ declarations, declaration.1 ≠ name) {scope final : Fields String}
    (h : (RunItem.declareWithin crew declarations scope).run.run s = (.ok final, t)) :
    Fields.get? name final = Fields.get? name scope := by
  induction declarations generalizing scope s with
  | nil =>
    cases h
    rfl
  | cons declaration rest ih =>
    obtain ⟨hfirst, hrest⟩ := List.forall_mem_cons.1 hname
    obtain ⟨text, u, -, h⟩ := Run.run_bind_inv h
    rw [ih hrest h, Fields.get?, if_neg hfirst]

/-- A name has the text of its latest declaration, filled within the scope before it. -/
theorem get?_declareWithin {before between : List Declaration} {name : String}
    {template : Template} (hlatest : ∀ declaration ∈ between, declaration.1 ≠ name)
    {scope final : Fields String}
    (h : (RunItem.declareWithin crew (before ++ (name, template) :: between) scope).run.run s =
      (.ok final, t)) :
    ∃ earlier u text v,
      (RunItem.declareWithin crew before scope).run.run s = (.ok earlier, u) ∧
      (template.fill (crew.within earlier)).run.run u = (.ok text, v) ∧
      Fields.get? name final = some text := by
  rw [declareWithin_append] at h
  obtain ⟨earlier, u, hbefore, h⟩ := Run.run_bind_inv h
  obtain ⟨text, v, hfill, h⟩ := Run.run_bind_inv h
  refine ⟨earlier, u, text, v, hbefore, hfill, ?_⟩
  rw [get?_declareWithin_of_ne hlatest h, Fields.get?, if_pos rfl]

end Declarations

/-! ## Stores and engines with a scope -/

/-- A store in which the texts of a scope were set, the latest last. -/
def Store.declaring (store : Store) : Fields String → Store
  | [] => store
  | (name, text) :: scope =>
    ⟨Store.put name (.text text) (store.declaring scope).values, store.readOnly⟩

theorem Store.get?_declaring (store : Store) (scope : Fields String) (name : String) :
    (store.declaring scope).get? name =
      ((Fields.get? name scope).map Json.text).or (store.get? name) := by
  induction scope with
  | nil => rfl
  | cons entry rest ih =>
    obtain ⟨key, text⟩ := entry
    rw [declaring, Store.get?, Fields.get?]
    split
    · next hkey =>
      rw [hkey, Store.get?_put_self]
      rfl
    · next hkey =>
      rw [Store.get?_put_of_ne _ _ (Ne.symm hkey)]
      exact ih

namespace Engine

variable {C : Type}

/-- The engine with a scope among its request variables. -/
def declaring (engine : Engine C) (scope : Fields String) : Engine C :=
  { engine with
    host := engine.host.withStore .request (engine.host.request.declaring scope) }

theorem lookup_declaring (engine : Engine C) (scope : Fields String) (name : String) :
    (engine.declaring scope).host.lookup name =
      ((Fields.get? name scope).map Json.text).or (engine.host.lookup name) := by
  change Host.firstValue [(engine.host.request.declaring scope).get? name, _, _] = _
  rw [Store.get?_declaring]
  cases Fields.get? name scope <;> rfl

theorem readOnly_declaring (engine : Engine C) (scope : Fields String) :
    (engine.declaring scope).host.request.readOnly = engine.host.request.readOnly := by
  change (engine.host.request.declaring scope).readOnly = _
  cases scope <;> rfl

/-- Setting a request variable puts it in front of the scope. -/
theorem define_declaring {engine : Engine C} (hopen : engine.host.request.readOnly = false)
    (scope : Fields String) (name text : String) :
    (define name text).run.run (engine.declaring scope) =
      (.ok (), engine.declaring ((name, text) :: scope)) := by
  have hset : (engine.declaring scope).host.request.set name (.text text) =
      .ok (engine.host.request.declaring ((name, text) :: scope)) := by
    rw [Store.set, readOnly_declaring, hopen, if_neg Bool.false_ne_true]
    exact congrArg (fun readOnly => Except.ok (⟨_, readOnly⟩ : Store)) hopen.symm
  have heffect : (engine.declaring scope).host.effect
      (.write .request (some name) (some (.text text))) =
        (engine.declaring ((name, text) :: scope)).host := by
    have haccessor : ((engine.declaring scope).host.accessor .request).set (some name)
        (some (.text text)) =
        .ok ⟨engine.host.request.declaring ((name, text) :: scope), none⟩ :=
      congrArg (Except.map fun store => (⟨store, none⟩ : Accessor)) hset
    rw [Host.effect, Host.change, haccessor]
    rfl
  exact congrArg (fun host => (Except.ok (), (⟨host, engine.context⟩ : Engine C))) heffect

/-- A placeholder that is no expression changes nothing. -/
theorem resolve_plain (language : Language C) (engine : Engine C) {name : String}
    (hplain : Script.isExpression name = false) :
    (resolve language name).run.run engine =
      (((resolve language name).run.run engine).1, engine) := by
  rw [resolve, if_neg (Bool.eq_false_iff.1 hplain)]
  rfl

/-- A placeholder that is no expression, within a scope of the engine. -/
theorem resolve_plain_declaring (language : Language C) (engine : Engine C)
    (scope : Fields String) {name : String} (hplain : Script.isExpression name = false) :
    (resolve language name).run.run (engine.declaring scope) =
      (match Fields.get? name scope with
        | some text => (.ok text, engine.declaring scope)
        | none => (((resolve language name).run.run engine).1, engine.declaring scope)) := by
  rw [resolve, if_neg (Bool.eq_false_iff.1 hplain)]
  change (Except.ok ((((engine.declaring scope).host.lookup name).map _).getD _), _) = _
  rw [lookup_declaring]
  cases Fields.get? name scope <;> rfl

end Engine

/-- Evaluating a script stays apart from the request variables, and keeps a property of contexts. -/
def Language.KeepsApart {C : Type} (language : Language C) (P : C → Prop) : Prop :=
  ∀ source selection context, P context →
    (language.evaluate source selection context).StaysApart fun (_, after) => P after

/-- Placeholder scripts stay apart from the request where nothing gives a hold on it. -/
theorem javaScript_keepsApart (limit : Float) :
    (javaScript limit).KeepsApart Script.Machine.Detached := fun source selection _ h =>
  Script.evaluateTask_staysApart limit source selection h

section Expressions

variable {C : Type} {language : Language C} {P : C → Prop}

/-- What stays apart from the request is done in the same way within any scope of the engine. -/
theorem Engine.act_declaring {α : Type} {activity : C → Activity (Except Fault α × C)}
    {engine : Engine C} (h : (activity engine.context).StaysApart fun (_, after) => P after)
    (scope : Fields String) :
    (act activity).run.run (engine.declaring scope) =
        (((act activity).run.run engine).1, ((act activity).run.run engine).2.declaring scope) ∧
      P ((act activity).run.run engine).2.context ∧
      ((act activity).run.run engine).2.host.request = engine.host.request := by
  obtain ⟨hrun, hrequest, hafter⟩ :=
    h.run_eq engine.host (engine.host.request.declaring scope)
  refine ⟨?_, hafter, hrequest⟩
  -- the request variables are those from before, so the scope can be added before or behind
  have hhost : ((act activity).run.run engine).2.declaring scope =
      ⟨((activity engine.context).run engine.host).2.withStore .request
          (engine.host.request.declaring scope),
        ((activity engine.context).run engine.host).1.2⟩ := by
    rw [declaring, ← hrequest]
    rfl
  rw [hhost]
  exact congrArg (fun after => (after.1.1, (⟨after.2, after.1.2⟩ : Engine C))) hrun

/-- An expression is evaluated in the same way within any scope of the engine. -/
theorem Engine.resolve_expression_declaring (hlanguage : language.KeepsApart P)
    {engine : Engine C} (hcontext : P engine.context) (scope : Fields String) {script : String}
    (hscript : Script.isExpression script = true) :
    (resolve language script).run.run (engine.declaring scope) =
        (((resolve language script).run.run engine).1,
          ((resolve language script).run.run engine).2.declaring scope) ∧
      P ((resolve language script).run.run engine).2.context ∧
      ((resolve language script).run.run engine).2.host.request = engine.host.request := by
  obtain ⟨hrun, hafter, hrequest⟩ :=
    act_declaring (hlanguage script Selection.none engine.context hcontext) scope
  have hresolve : resolve language script = (do
      let result ← act (language.evaluate script Selection.none)
      pure result.text) := by rw [resolve, if_pos hscript]
  rw [hresolve]
  rcases hact : (act (language.evaluate script Selection.none)).run.run engine with
    ⟨fault | result, after⟩
  · rw [hact] at hrun hafter hrequest
    rw [Run.run_bind_error hrun, Run.run_bind_error hact]
    exact ⟨rfl, hafter, hrequest⟩
  · rw [hact] at hrun hafter hrequest
    rw [Run.run_bind_ok hrun, Run.run_bind_ok hact]
    exact ⟨rfl, hafter, hrequest⟩

end Expressions

/-! ## Sessions with a scope -/

/-- Some placeholder of the section is an expression. -/
def RequestSection.HasExpression (part : RequestSection) : Prop :=
  ∃ template ∈ part.templates, ∃ script ∈ template.scripts, Script.isExpression script = true

theorem RequestSection.hasExpression_of_mem (part : RequestSection) :
    ∀ template ∈ part.templates, ∀ script ∈ template.scripts,
      Script.isExpression script = true → part.HasExpression :=
  fun template hmem script hscript h => ⟨template, hmem, script, hscript, h⟩

namespace Session

variable {C W : Type}

/-- A session and its world, with a scope among the request variables of the engine. -/
def declaring (scope : Fields String) (s : Session C × W) : Session C × W :=
  ({ s.1 with engine := s.1.engine.declaring scope }, s.2)

/-- A session as it is between the steps of a run: every logged line was written, and request
variables can be set. If a fact holds, its context has a property. -/
structure Settled (P : C → Prop) (X : Prop) (s : Session C × W) : Prop where
  printed : s.1.engine.host.printed = []
  writable : s.1.engine.host.request.readOnly = false
  context : X → P s.1.engine.context

/-- Doing the same within a scope as without it, from a settled session to a settled one. -/
def scoping (P : C → Prop) (X : Prop) (scope : Fields String) :
    Matching (StateM (Session C × W)) (StateM (Session C × W)) where
  Rel x y := ∀ s, Settled P X s →
    x.run (declaring scope s) = ((y.run s).1, declaring scope (y.run s).2) ∧
      Settled P X (y.run s).2
  pure a := fun s hs => ⟨rfl, hs⟩
  bind := by
    intro α β x y f g hxy hfg s hs
    obtain ⟨hx, hmiddle⟩ := hxy s hs
    obtain ⟨hf, hend⟩ := hfg (y.run s).1 (y.run s).2 hmiddle
    refine ⟨?_, hend⟩
    rw [StateT.run_bind, hx]
    exact hf

variable {P : C → Prop} {X : Prop} {language : Language C} {outside : Outside (StateM W)}
  {items : Except Fault (List RunItem)} {scope : Fields String}

/-- A step of the engine, and then the lines that were logged. -/
theorem joint_act {α : Type} (action : EngineAction C α) (s : Session C × W) :
    (joint (act outside action).run).run s =
      ((action.run.run s.1.engine).1,
        ({ s.1 with engine := (action.run.run s.1.engine).2.drain.2 },
          ((each (fun line => outside.log (.script line))
            (action.run.run s.1.engine).2.drain.1).run s.2).2)) :=
  rfl

/-- Where every line was written and no line is logged, only the engine changes. -/
theorem joint_act_of_silent {α : Type} {action : EngineAction C α} {s : Session C × W}
    {result : Except Fault α} {engine : Engine C}
    (h : action.run.run s.1.engine = (result, engine)) (hprinted : engine.host.printed = []) :
    (joint (act outside action).run).run s = (result, ({ s.1 with engine := engine }, s.2)) := by
  have hdrain : engine.drain = ([], engine) := by
    obtain ⟨⟨persisted, request, environment, report, printed, now, entropy⟩, context⟩ := engine
    cases hprinted
    rfl
  rw [joint_act, h, hdrain]
  rfl

/-- Setting a request variable puts it in front of the scope. -/
theorem define_declaring {s : Session C × W} (hs : Settled P X s) (name text : String) :
    ((worldCrew language outside items).define name text).run.run (declaring scope s) =
      (.ok (), declaring ((name, text) :: scope) s) :=
  joint_act_of_silent (Engine.define_declaring hs.writable scope name text) hs.printed

/-- A placeholder is answered within a scope of the engine as it is beside it. -/
theorem tries_within (hlanguage : language.KeepsApart P) {script : String}
    (hX : Script.isExpression script = true → X) :
    (scoping P X scope).Tries ((worldCrew language outside items).resolve script)
      ((worldCrew language outside items).within scope script) := by
  intro s hs
  rw [Collaborators.within]
  cases hscript : Script.isExpression script with
  | true =>
    -- an expression is evaluated on both sides, and its evaluation does not see the scope
    rw [if_pos rfl]
    obtain ⟨hrun, hcontext, hrequest⟩ :=
      Engine.resolve_expression_declaring hlanguage (hs.context (hX hscript)) scope hscript
    constructor
    · change (joint (act outside (Engine.resolve language script)).run).run _ =
        (((joint (act outside (Engine.resolve language script)).run).run s).1, _)
      rw [joint_act, joint_act]
      exact congrArg (fun after : Except Fault String × Engine C =>
        (after.1, ({ s.1 with engine := after.2.drain.2 },
          ((each (fun line => outside.log (.script line)) after.2.drain.1).run s.2).2))) hrun
    · exact ⟨rfl, (congrArg Store.readOnly hrequest).trans hs.writable, fun _ => hcontext⟩
  | false =>
    -- a name is looked up: in the list on one side, among the request variables on the other
    rw [if_neg Bool.false_ne_true]
    have hplain := Engine.resolve_plain_declaring language s.1.engine scope hscript
    cases hget : Fields.get? script scope with
    | some text =>
      rw [hget] at hplain
      exact ⟨joint_act_of_silent hplain hs.printed, hs⟩
    | none =>
      rw [hget] at hplain
      have hbeside : ((worldCrew language outside items).resolve script).run.run s =
          (((Engine.resolve language script).run.run s.1.engine).1, s) :=
        joint_act_of_silent (Engine.resolve_plain language s.1.engine hscript) hs.printed
      rw [hbeside]
      exact ⟨joint_act_of_silent hplain hs.printed, hs⟩

/-! ## Declarations -/

/-- Declarations are executed as if they only made a scope. -/
theorem declare_eq (hlanguage : language.KeepsApart P) {declarations : List Declaration}
    (hX : ∀ template ∈ declarations.map (·.2), ∀ script ∈ template.scripts,
      Script.isExpression script = true → X) (scope : Fields String) {s : Session C × W}
    (hs : Settled P X s) {result : Except Fault (Fields String)} {t : Session C × W}
    (h : (RunItem.declareWithin (worldCrew language outside items) declarations scope).run.run s =
      (result, t)) :
    ∃ final, (RunItem.declare (worldCrew language outside items) declarations).run.run
        (declaring scope s) = (result.map fun _ => (), declaring final t) ∧
      (∀ last, result = .ok last → last = final) ∧ Settled P X t := by
  -- the scope grows with every declaration, so the induction is for all scopes and sessions
  induction declarations generalizing scope s with
  | nil =>
    cases h
    exact ⟨scope, rfl, fun last hlast => (Except.ok.inj hlast).symm, hs⟩
  | cons declaration rest ih =>
    obtain ⟨name, template⟩ := declaration
    obtain ⟨hfirst, hrest⟩ := List.forall_mem_cons.1 hX
    have htries : (scoping P X scope).Tries
        (template.fill (worldCrew language outside items).resolve)
        (template.fill ((worldCrew language outside items).within scope)) :=
      match_fill_of_mem fun script hmem => tries_within hlanguage (hfirst script hmem)
    obtain ⟨hfill, hmiddle⟩ := htries s hs
    rw [RunItem.declareWithin] at h
    rw [RunItem.declare]
    rcases hwithin : (template.fill ((worldCrew language outside items).within scope)).run.run s
      with ⟨fault | text, u⟩
    · rw [hwithin] at hfill hmiddle
      rw [Run.run_bind_error hwithin] at h
      cases h
      exact ⟨scope, Run.run_bind_error hfill, nofun, hmiddle⟩
    · rw [hwithin] at hfill hmiddle
      rw [Run.run_bind_ok hwithin] at h
      rw [Run.run_bind_ok hfill, Run.run_bind_ok (define_declaring hmiddle name text)]
      exact ih hrest _ hmiddle h

/-- Without a handler before the request, the request is resolved as if declarations only made a
scope. -/
theorem resolve_eq (hlanguage : language.KeepsApart P) {part : RequestSection}
    (hnone : part.preHandler = none) {s : Session C × W} (hs : Settled P part.HasExpression s)
    {result : Except Fault Request} {t : Session C × W}
    (h : (do
      let scope ← RunItem.declareWithin (worldCrew language outside items) part.declarations []
      part.request.resolve ((worldCrew language outside items).within scope)).run.run s =
        (result, t)) :
    ∃ final, (do
      RunItem.declare (worldCrew language outside items) part.declarations
      RunItem.prepare (worldCrew language outside items) part
      part.request.resolve (worldCrew language outside items).resolve).run.run s =
        (result, declaring final t) := by
  obtain ⟨hdeclarations, hrequest⟩ := List.forall_mem_append.1 part.hasExpression_of_mem
  rcases hwithin : (RunItem.declareWithin (worldCrew language outside items) part.declarations
    []).run.run s with ⟨fault | scope, u⟩
  · -- a declaration that fails is the end on both sides
    obtain ⟨final, hdeclare, -, -⟩ := declare_eq hlanguage hdeclarations [] hs hwithin
    rw [Run.run_bind_error hwithin] at h
    cases h
    exact ⟨final, Run.run_bind_error hdeclare⟩
  · obtain ⟨final, hdeclare, hfinal, hmiddle⟩ := declare_eq hlanguage hdeclarations [] hs hwithin
    obtain rfl := hfinal scope rfl
    have htries : (scoping P part.HasExpression scope).Tries
        (part.request.resolve (worldCrew language outside items).resolve)
        (part.request.resolve ((worldCrew language outside items).within scope)) :=
      match_resolve_of_mem fun template hmem script hscript =>
        tries_within hlanguage (hrequest template hmem script hscript)
    obtain ⟨hresolve, -⟩ := htries u hmiddle
    rw [Run.run_bind_ok hwithin] at h
    rw [h] at hresolve
    refine ⟨scope, (Run.run_bind_ok hdeclare).trans ?_⟩
    rw [RunItem.prepare, hnone, pure_bind]
    exact hresolve

/-! ## Between the requests of a run -/

/-- A session that has just begun or forgotten a request is settled. -/
theorem settled_of_fresh {s : Session C × W} (hprinted : s.1.engine.host.printed = [])
    (hrequest : s.1.engine.host.request = Store.empty) (hcontext : P s.1.engine.context) :
    Settled P X s :=
  ⟨hprinted, congrArg Store.readOnly hrequest, fun _ => hcontext⟩

theorem settled_start {known : VariableMap} {kind : PrinterKind} {now : Int} {entropy : Entropy}
    {session : Session C} (h : start language known kind now entropy = .ok session)
    (hfresh : P language.fresh) (w : W) : Settled P X (session, w) := by
  rw [start] at h
  rcases hnew : Engine.new language known known now entropy with misconfiguration | engine
  · rw [hnew] at h
    cases h
  · rw [hnew] at h
    obtain ⟨-, rfl⟩ := Engine.new_inv hnew
    cases h
    exact settled_of_fresh rfl rfl hfresh

/-- Whatever a request does, its lines are written. -/
theorem printed_execute {item : RunItem} {s t : Session C × W} {result : Except Fault Report}
    (hprinted : s.1.engine.host.printed = [])
    (h : (item.execute (worldCrew language outside items)).run.run s = (result, t)) :
    t.1.engine.host.printed = [] := by
  obtain ⟨added, -, hengine, -⟩ := follows_execute (moves_engine language outside items) item s
  change ((item.execute (worldCrew language outside items)).run.run s).2.1.engine = _ at hengine
  rw [h] at hengine
  rw [hengine]
  exact Engine.printed_afterAll hprinted added

/-- **Each request of a run begins with a settled session**: the reset behind the one before it takes
away whatever its scripts kept. -/
theorem settled_attempts (hfresh : P language.fresh) {done : List RunItem} {s t : Session C × W}
    {results : List RequestResult} {fault : Option Fault}
    (h : Run.Attempts (worldCrew language outside items) done s results fault t)
    (hfault : fault = none) (hs : Settled P X s) : Settled P X t := by
  induction h with
  | nil s => exact hs
  | failed _ => cases hfault
  | @completed item rest s t u report results fault hrun _ ih =>
    -- the log of its beginning leaves the engine alone
    have hbegun : (Run.begun (worldCrew language outside items) item s).1.engine.host.printed = [] :=
      hs.printed
    have hprinted : t.1.engine.host.printed = [] := printed_execute hbegun hrun
    exact ih hfault (settled_of_fresh hprinted rfl hfresh)

end Session

/-- The text for a name that only what lasts beyond a request can define. -/
def Engine.lastingText {C : Type} (engine : Engine C) (name : String) : String :=
  ((Host.firstValue [engine.host.persisted.get? name, engine.host.environment.get? name]).map
    Json.stringify).getD (unresolved name)

namespace Session

variable {C W : Type} {language : Language C} {P : C → Prop}

/-- **Declared variables are usable where they are in scope**, as long as their names are not taken
for expressions. In a language whose placeholder scripts keep apart from the request, as those of
handlers do (`javaScript_keepsApart`), and between the steps of a run, with a context that gives no
hold on the request:

* a declared name, in a later declaration or behind the declarations, stands for the text of its
  latest declaration, filled within the scope before it, and cannot fail;
* executing the declarations of a section does what keeping a scope does, without an engine that
  knows of any of them, so that no placeholder sees a declaration behind it, and values of the name
  that are persisted or in the environment do not matter;
* without a handler before the request, so does resolving the request;
* the reset that follows removes every trace of the scope, and whatever happened in between, it
  leaves for each name what is persisted or in the environment;
* a run is in such a session where it begins and behind each request that it completed. -/
theorem declared_variables_scoped (hlanguage : language.KeepsApart P) (hfresh : P language.fresh)
    (outside : Outside (StateM W)) (items : Except Fault (List RunItem)) (part : RequestSection)
    {s : Session C × W} (hs : Settled P part.HasExpression s) :
    let crew := worldCrew language outside items
    (∀ before name template between final t,
      (RunItem.declareWithin crew (before ++ (name, template) :: between) []).run.run s =
        (.ok final, t) →
      (∀ declaration ∈ between, declaration.1 ≠ name) → Script.isExpression name = false →
      ∃ earlier u text v,
        (RunItem.declareWithin crew before []).run.run s = (.ok earlier, u) ∧
        (template.fill (crew.within earlier)).run.run u = (.ok text, v) ∧
        crew.within final name = pure text) ∧
    (∀ result t, (RunItem.declareWithin crew part.declarations []).run.run s = (result, t) →
      ∃ final, (RunItem.declare crew part.declarations).run.run s =
          (result.map fun _ => (), declaring final t) ∧
        ∀ last, result = .ok last → last = final) ∧
    (part.preHandler = none → ∀ result t,
      (do
        let scope ← RunItem.declareWithin crew part.declarations []
        part.request.resolve (crew.within scope)).run.run s = (result, t) →
      ∃ final, (do
        RunItem.declare crew part.declarations
        RunItem.prepare crew part
        part.request.resolve crew.resolve).run.run s = (result, declaring final t)) ∧
    (∀ scope t, crew.reset.run (declaring scope t) = crew.reset.run t) ∧
    (∀ t name, Script.isExpression name = false →
      ((crew.resolve name).run.run (crew.reset.run t).2).1 =
        .ok ((crew.reset.run t).2.1.engine.lastingText name)) ∧
    ∀ known kind now entropy session w done results t,
      start language known kind now entropy = .ok session →
      Run.Attempts crew done (session, w) results none t →
      Settled P part.HasExpression t := by
  intro crew
  obtain ⟨hdeclarations, -⟩ := List.forall_mem_append.1 part.hasExpression_of_mem
  refine ⟨?_, ?_, ?_, fun scope t => rfl, fun t name hplain => ?_, ?_⟩
  · intro before name template between final t h hlatest hplain
    obtain ⟨earlier, u, text, v, hbefore, hfill, hget⟩ := get?_declareWithin hlatest h
    refine ⟨earlier, u, text, v, hbefore, hfill, ?_⟩
    rw [Collaborators.within, if_neg (Bool.eq_false_iff.1 hplain), hget]
  · intro result t h
    obtain ⟨final, hrun, hfinal, -⟩ := declare_eq hlanguage hdeclarations [] hs h
    exact ⟨final, hrun, hfinal⟩
  · intro hnone result t h
    exact resolve_eq hlanguage hnone hs h
  · change ((Engine.resolve _ name).run.run _).1 = _
    rw [Engine.resolve, if_neg (Bool.eq_false_iff.1 hplain)]
    rfl
  · intro known kind now entropy session w done results t hstart hattempts
    exact settled_attempts hfresh hattempts rfl (settled_start hstart hfresh w)

/-- A template read from a text at the top of a file. -/
def sampleTemplate (text : String) : Template :=
  Template.ofText "sample.http" text.toList ⟨1, 1⟩

/-- A section that declares one name before its use in another declaration and again behind it. -/
def redeclaring : RequestSection where
  name := none
  declarations := [("path", sampleTemplate "first"),
    ("base", sampleTemplate "http://localhost/\x7b\x7bpath\x7d\x7d"),
    ("path", sampleTemplate "second")]
  preHandler := none
  request := ⟨.get, Selection.none,
    sampleTemplate "\x7b\x7bbase\x7d\x7d/\x7b\x7bpath\x7d\x7d", [], none, Selection.none⟩
  handler := none
  selection := Selection.none

/-- A session that begins with values for the redeclared name. -/
def knowingSession : Session Script.Machine × Unit :=
  (⟨⟨⟨Store.ofMap [("path", .text "known")] false, Store.empty,
    Store.ofMap [("path", .text "defined")] true, Report.empty, [], 0, .seeded 1⟩,
    Script.Machine.fresh⟩, Printer.new .table⟩, ())

/-- What answers the requests of that session. -/
def knowingOutside : Outside (StateM Unit) := Outside.replying ⟨"HTTP/1.1", 200, "OK", [], none⟩

/-- The collaborators of that session. -/
def knowingCrew : Collaborators (StateM (Session Script.Machine × Unit)) :=
  worldCrew (javaScript Script.defaultLimit) knowingOutside (.ok [])

/-- Each use sees the declaration before it, and none sees what the session knew. -/
theorem declared_variables_scoped_redeclaring :
    (javaScript Script.defaultLimit).KeepsApart Script.Machine.Detached ∧
    Script.Machine.Detached (javaScript Script.defaultLimit).fresh ∧
    Settled Script.Machine.Detached redeclaring.HasExpression knowingSession ∧
    ∃ after, (do
        RunItem.declare knowingCrew redeclaring.declarations
        RunItem.prepare knowingCrew redeclaring
        redeclaring.request.resolve knowingCrew.resolve).run.run knowingSession =
      (.ok ⟨.get, "http://localhost/first/second", [], none⟩, after) := by
  have hs : Settled Script.Machine.Detached redeclaring.HasExpression knowingSession :=
    settled_of_fresh rfl rfl Script.Machine.detached_fresh
  have hresult : ((do
      let scope ← RunItem.declareWithin knowingCrew redeclaring.declarations []
      redeclaring.request.resolve (knowingCrew.within scope)).run.run knowingSession).1.toOption =
        some ⟨.get, "http://localhost/first/second", [], none⟩ := by
    decide +kernel
  obtain ⟨t, hwithin⟩ := Run.exists_of_toOption hresult
  have hlanguage := javaScript_keepsApart Script.defaultLimit
  have hfresh : Script.Machine.Detached (javaScript Script.defaultLimit).fresh :=
    Script.Machine.detached_fresh
  obtain ⟨-, -, hresolve, -⟩ := declared_variables_scoped hlanguage hfresh knowingOutside (.ok [])
    redeclaring hs
  obtain ⟨final, hrun⟩ := hresolve rfl _ _ hwithin
  exact ⟨hlanguage, hfresh, hs, _, hrun⟩

end Session

end RequestRunner
