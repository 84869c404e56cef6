import RequestRunner.Proofs.Template.Substitution
import RequestRunner.Run.Outcome

/-!
# Runs with matching collaborators

A run never looks at the effects that it is made of: it only does one thing after another. So
whatever relation between two kinds of effects is kept by doing nothing and by doing one thing after
another (`Matching`), holds of two runs as soon as it holds of the calls to their collaborators.
`Collaborators.Match` says so of the calls that are made for the items of a run. The main statements
carry it to a request (`match_execute`), to items in order (`match_runItems`) and to whole runs
(`match_run`).
-/

set_option autoImplicit false

namespace RequestRunner

/-- A relation between effects of two kinds that is kept by doing nothing and by doing one thing
after another. -/
structure Matching (m n : Type → Type) [Monad m] [Monad n] where
  /-- The two actions match. -/
  Rel : {α : Type} → m α → n α → Prop
  pure : ∀ {α : Type} (a : α), Rel (Pure.pure a) (Pure.pure a)
  bind : ∀ {α β : Type} {x : m α} {y : n α} {f : α → m β} {g : α → n β},
    Rel x y → (∀ a, Rel (f a) (g a)) → Rel (x >>= f) (y >>= g)

variable {m n : Type → Type} [Monad m] [Monad n] [LawfulMonad m] [LawfulMonad n]

namespace Matching

variable (R : Matching m n) {α β : Type}

/-- The two attempts match. -/
abbrev Tries (x : Attempt m α) (y : Attempt n α) : Prop := R.Rel x.run y.run

variable {R}

omit [LawfulMonad m] [LawfulMonad n] in
theorem tries_pure (a : α) : R.Tries (Pure.pure a) (Pure.pure a) := R.pure (Except.ok a)

omit [LawfulMonad m] [LawfulMonad n] in
theorem tries_throw (fault : Fault) :
    R.Tries (throw fault : Attempt m α) (throw fault : Attempt n α) :=
  R.pure (Except.error fault)

omit [LawfulMonad m] [LawfulMonad n] in
theorem tries_bind {x : Attempt m α} {y : Attempt n α} {f : α → Attempt m β}
    {g : α → Attempt n β} (hxy : R.Tries x y) (hfg : ∀ a, R.Tries (f a) (g a)) :
    R.Tries (x >>= f) (y >>= g) := by
  rw [Tries, ExceptT.run_bind, ExceptT.run_bind]
  apply R.bind hxy
  intro result
  cases result with
  | ok a => exact hfg a
  | error fault => exact R.pure (Except.error fault)

theorem tries_lift {x : m α} {y : n α} (hxy : R.Rel x y) :
    R.Tries (liftM x : Attempt m α) (liftM y : Attempt n α) := by
  have hlift : R.Rel (x >>= fun a => Pure.pure (Except.ok a : Except Fault α))
      (y >>= fun a => Pure.pure (Except.ok a)) := R.bind hxy fun a => R.pure (Except.ok a)
  rw [← map_eq_pure_bind, ← map_eq_pure_bind] at hlift
  exact hlift

omit [LawfulMonad m] [LawfulMonad n] in
theorem tries_attempt (activity : String) {x : Attempt m α} {y : Attempt n α}
    (hxy : R.Tries x y) : R.Tries (attempt activity x) (attempt activity y) :=
  R.bind hxy fun result => R.pure (during activity result)

end Matching

open Matching

/-- The calls match that the stages of a request make without printing anything. -/
structure Collaborators.MatchQuiet (R : Matching m n) (c : Collaborators m)
    (d : Collaborators n) : Prop where
  define : ∀ name value, R.Tries (c.define name value) (d.define name value)
  resolve : ∀ name, R.Tries (c.resolve name) (d.resolve name)
  preHandle : ∀ handler request, R.Tries (c.preHandle handler request) (d.preHandle handler request)
  handle : ∀ handler response, R.Tries (c.handle handler response) (d.handle handler response)
  report : R.Rel c.report d.report
  send : ∀ request, R.Tries (c.send request) (d.send request)

/-- The calls that the stages of a request make match. -/
structure Collaborators.MatchStages (R : Matching m n) (c : Collaborators m)
    (d : Collaborators n) : Prop extends Collaborators.MatchQuiet R c d where
  printRequest : ∀ request name, R.Tries (c.printRequest request name) (d.printRequest request name)
  printResponse : ∀ response report,
    R.Tries (c.printResponse response report) (d.printResponse response report)

/-- The calls that are made for the items of a run match. -/
structure Collaborators.Match (R : Matching m n) (c : Collaborators m)
    (d : Collaborators n) : Prop extends Collaborators.MatchStages R c d where
  reset : R.Rel c.reset d.reset
  log : ∀ entry, R.Rel (c.log entry) (d.log entry)

/-- The calls that are made at the end of a run match. -/
structure Collaborators.MatchClosing (R : Matching m n) (c : Collaborators m)
    (d : Collaborators n) : Prop where
  snapshot : R.Rel c.snapshot d.snapshot
  save : ∀ kept, R.Tries (c.save kept) (d.save kept)
  printTests : ∀ results, R.Rel (c.printTests results) (d.printTests results)

/-! ## Filling templates -/

section Filling

variable {R : Matching m n}

omit [LawfulMonad m] [LawfulMonad n]

/-- A template that is filled asks for its own scripts alone. -/
theorem match_fill_of_mem {f : String → Attempt m String} {g : String → Attempt n String}
    {template : Template} (hfg : ∀ script ∈ template.scripts, R.Tries (f script) (g script)) :
    R.Tries (template.fill f) (template.fill g) := by
  -- the text that is filled so far is what the fold carries, so this is for every text
  have key : ∀ (placeholders : List Placeholder) (text : String),
      (∀ placeholder ∈ placeholders, R.Tries (f placeholder.script) (g placeholder.script)) →
      R.Tries
        (placeholders.foldlM (fun text placeholder => do
          let answer ← f placeholder.script
          pure (Template.substitute text placeholder.text answer)) text)
        (placeholders.foldlM (fun text placeholder => do
          let answer ← g placeholder.script
          pure (Template.substitute text placeholder.text answer)) text) := by
    intro placeholders
    induction placeholders with
    | nil => exact fun text _ => tries_pure text
    | cons placeholder rest ih =>
      intro text h
      obtain ⟨hfirst, hrest⟩ := List.forall_mem_cons.1 h
      rw [List.foldlM_cons, List.foldlM_cons]
      apply tries_bind _ fun text => ih text hrest
      exact tries_bind hfirst fun answer => tries_pure _
  exact key template.placeholders template.text fun placeholder hmem =>
    hfg placeholder.script (List.mem_map_of_mem hmem)

theorem match_fill {f : String → Attempt m String} {g : String → Attempt n String}
    (hfg : ∀ script, R.Tries (f script) (g script)) (template : Template) :
    R.Tries (template.fill f) (template.fill g) :=
  match_fill_of_mem fun script _ => hfg script

theorem match_resolveHeaders_of_mem {f : String → Attempt m String} {g : String → Attempt n String}
    {headers : List Header}
    (hfg : ∀ header ∈ headers, ∀ script ∈ header.value.scripts, R.Tries (f script) (g script)) :
    R.Tries (resolveHeaders f headers) (resolveHeaders g headers) := by
  induction headers with
  | nil => exact tries_pure []
  | cons header rest ih =>
    obtain ⟨hfirst, hrest⟩ := List.forall_mem_cons.1 hfg
    apply tries_bind
    · exact tries_bind (match_fill_of_mem hfirst) fun value => tries_pure _
    · exact fun first => tries_bind (ih hrest) fun more => tries_pure _

/-- A request that is resolved asks for the scripts of its templates alone. -/
theorem match_resolve_of_mem {f : String → Attempt m String} {g : String → Attempt n String}
    {request : RequestTemplate}
    (hfg : ∀ template ∈ request.templates, ∀ script ∈ template.scripts,
      R.Tries (f script) (g script)) :
    R.Tries (request.resolve f) (request.resolve g) := by
  obtain ⟨method, methodSelection, target, headers, body, selection⟩ := request
  simp only [RequestTemplate.templates, List.forall_mem_append, List.forall_mem_cons,
    List.forall_mem_map] at hfg
  obtain ⟨⟨htarget, hheaders⟩, hbody⟩ := hfg
  apply tries_bind
  · exact tries_bind (match_fill_of_mem htarget) fun target => tries_pure _
  intro target
  apply tries_bind (match_resolveHeaders_of_mem hheaders)
  intro headers
  apply tries_bind _ fun body => tries_pure _
  cases body with
  | none => exact tries_pure none
  | some body =>
    have hfill := match_fill_of_mem (hbody body List.mem_cons_self)
    exact tries_bind hfill fun text => tries_pure _

theorem match_resolve {f : String → Attempt m String} {g : String → Attempt n String}
    (hfg : ∀ script, R.Tries (f script) (g script)) (request : RequestTemplate) :
    R.Tries (request.resolve f) (request.resolve g) :=
  match_resolve_of_mem fun _ _ script _ => hfg script

end Filling

/-! ## The stages of a request -/

section Stages

variable {R : Matching m n} {c : Collaborators m} {d : Collaborators n}

section Quiet

variable (h : c.MatchQuiet R d)

include h

omit [LawfulMonad m] [LawfulMonad n] in
theorem match_declare (declarations : List Declaration) :
    R.Tries (RunItem.declare c declarations) (RunItem.declare d declarations) := by
  induction declarations with
  | nil => exact tries_pure ()
  | cons declaration rest ih =>
    obtain ⟨name, template⟩ := declaration
    apply tries_bind (match_fill h.resolve template)
    intro value
    exact tries_bind (h.define name value) fun _ => ih

omit [LawfulMonad m] [LawfulMonad n] in
theorem match_prepare (part : RequestSection) :
    R.Tries (RunItem.prepare c part) (RunItem.prepare d part) := by
  unfold RunItem.prepare
  cases part.preHandler with
  | none => exact tries_pure ()
  | some handler => exact h.preHandle handler part.request

theorem match_respond (part : RequestSection) (response : Response) :
    R.Tries (RunItem.respond c part response) (RunItem.respond d part response) := by
  unfold RunItem.respond
  cases part.handler with
  | none => exact tries_pure Report.empty
  | some handler => exact tries_bind (h.handle handler response) fun _ => tries_lift h.report

end Quiet

/-- Requests with matching collaborators match. -/
theorem match_execute (h : c.MatchStages R d) (item : RunItem) :
    R.Tries (item.execute c) (item.execute d) := by
  apply tries_bind (tries_attempt _ (match_declare h.toMatchQuiet item.part.declarations))
  intro _
  apply tries_bind (tries_attempt _ (match_prepare h.toMatchQuiet item.part))
  intro _
  apply tries_bind (tries_attempt _ (match_resolve h.resolve item.part.request))
  intro request
  apply tries_bind (h.printRequest request item.name)
  intro _
  apply tries_bind (tries_attempt _ (h.send request))
  intro response
  apply tries_bind (tries_attempt _ (match_respond h.toMatchQuiet item.part response))
  intro report
  exact tries_bind (h.printResponse response report) fun _ => tries_pure report

end Stages

/-! ## The items of a run -/

section Items

variable {R : Matching m n} {c : Collaborators m} {d : Collaborators n} (h : c.Match R d)

include h

theorem match_runItem (progress : Progress) (item : RunItem) :
    R.Tries (Run.runItem c progress item) (Run.runItem d progress item) := by
  apply tries_bind (tries_lift (h.log _))
  intro _
  apply tries_bind (match_execute h.toMatchStages item)
  intro report
  apply tries_bind (tries_lift (h.log _))
  intro _
  exact tries_bind (tries_lift h.reset) fun _ => tries_pure _

/-- Items that are run with matching collaborators match. -/
theorem match_runItems (progress : Progress) (items : List RunItem) :
    R.Tries (Run.runItems c progress items) (Run.runItems d progress items) := by
  induction items generalizing progress with
  | nil => exact tries_pure progress
  | cons item rest ih => exact tries_bind (match_runItem h progress item) fun added => ih added

theorem match_gather (hitems : R.Tries c.items d.items) :
    R.Tries (Run.gather c) (Run.gather d) :=
  tries_bind hitems fun items => match_runItems h .start items

end Items

/-! ## Whole runs -/

section Closing

variable {R : Matching m n} {c : Collaborators m} {d : Collaborators n}

theorem match_saveSnapshot (h : c.MatchClosing R d) :
    R.Tries (Run.saveSnapshot c) (Run.saveSnapshot d) :=
  tries_bind (tries_lift h.snapshot) fun kept => h.save kept

theorem match_finish (h : c.MatchClosing R d) (progress : Progress) :
    R.Tries (Run.finish c progress) (Run.finish d progress) := by
  obtain ⟨results, failures⟩ := progress
  apply tries_bind (tries_attempt _ (match_saveSnapshot h))
  intro _
  apply tries_bind (tries_lift (h.printTests results))
  intro _
  cases failures with
  | nil => exact tries_pure results
  | cons failure more => exact tries_throw _

theorem match_rescue (hlog : ∀ entry, R.Rel (c.log entry) (d.log entry))
    (h : c.MatchClosing R d) : R.Rel (Run.rescue c) (Run.rescue d) := by
  apply R.bind (match_saveSnapshot h)
  intro saving
  cases saving with
  | ok _ => exact R.pure ()
  | error fault => exact hlog _

/-- **Runs with matching collaborators match.** -/
theorem match_run (hitems : R.Tries c.items d.items) (h : c.Match R d)
    (hclosing : c.MatchClosing R d) : R.Tries (Run.execute c) (Run.execute d) := by
  apply R.bind (match_gather h hitems)
  intro result
  -- only a loop that nothing stopped comes to its results; another one is rescued
  cases result with
  | ok progress => exact match_finish hclosing progress
  | error fault => exact R.bind (match_rescue h.log hclosing) fun _ => R.pure _

end Closing

end RequestRunner
