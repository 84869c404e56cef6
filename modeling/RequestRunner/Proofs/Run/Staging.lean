import RequestRunner.Proofs.Run.Ending

/-!
# A request step by step

A request stands somewhere between its beginning and the printing of its response (`Stand`), and
each step takes it through one stage (`RunItem.advance`). Taking an item through its stages is seven
steps from the beginning (`execute_eq_proceed`). Every stage has its own calls to the collaborators
(`RunItem.stageCalls`), and a stage that fails has made a part of them, with the failing one at the
end.

Main statement: whatever the collaborators do, a request makes the calls of its stages in order, up
to the first that fails, and none behind it; a failure of a script or of the network is reported
with the stage and the request in front of its wording and itself underneath (`execute_in_order`).
-/

set_option autoImplicit false

namespace RequestRunner

/-- How far a request has got. -/
inductive Stand where
  /-- Nothing was done. -/
  | begun
  /-- Its variables are declared. -/
  | declared
  /-- Its handler has run. -/
  | prepared
  /-- Its placeholders are filled. -/
  | resolved (request : Request)
  /-- It is printed. -/
  | printed (request : Request)
  /-- A response has arrived. -/
  | answered (request : Request) (response : Response)
  /-- The handler of the response has run. -/
  | handled (request : Request) (response : Response) (report : Report)
  /-- The response is printed. -/
  | shown (request : Request) (response : Response) (report : Report)

namespace Stand

/-- The number of stages behind a request. -/
def rank : Stand → Nat
  | begun => 0
  | declared => 1
  | prepared => 2
  | resolved _ => 3
  | printed _ => 4
  | answered _ _ => 5
  | handled _ _ _ => 6
  | shown _ _ _ => 7

/-- What a failure of the next stage is reported under; printing is not reported under anything. -/
def heading? : Stand → Option String
  | begun => some "Failed processing request "
  | declared => some "Error pre handling request "
  | prepared => some "Failed processing request "
  | printed _ => some "Error executing request "
  | answered _ _ => some "Error handling response for request "
  | _ => none

/-- The report of a request whose response was handled. -/
def report : Stand → Report
  | handled _ _ report => report
  | shown _ _ report => report
  | _ => Report.empty

end Stand

namespace RunItem

section Steps

variable {m : Type → Type} [Monad m]

/-- The stage that follows, as it is. -/
def stage (crew : Collaborators m) (item : RunItem) : Stand → Attempt m Stand
  | .begun => (fun _ => .declared) <$> declare crew item.part.declarations
  | .declared => (fun _ => .prepared) <$> prepare crew item.part
  | .prepared => .resolved <$> item.part.request.resolve crew.resolve
  | .resolved request => (fun _ => .printed request) <$> crew.printRequest request item.name
  | .printed request => .answered request <$> crew.send request
  | .answered request response => .handled request response <$> respond crew item.part response
  | .handled request response report =>
    (fun _ => .shown request response report) <$> crew.printResponse response report
  | .shown request response report => pure (.shown request response report)

/-- A failure of a stage as it is reported. -/
def reported (item : RunItem) (stand : Stand) (fault : Fault) : Fault :=
  match stand.heading? with
  | some heading => .during (heading ++ item.name) fault
  | none => fault

/-- One step: the stage that follows, with its failure as it is reported. -/
def advance (crew : Collaborators m) (item : RunItem) (stand : Stand) : Attempt m Stand :=
  match stand.heading? with
  | some heading => attempt (heading ++ item.name) (stage crew item stand)
  | none => stage crew item stand

/-- Some steps. -/
def proceed (crew : Collaborators m) (item : RunItem) : Nat → Stand → Attempt m Stand
  | 0, stand => pure stand
  | n + 1, stand => do
    let next ← advance crew item stand
    proceed crew item n next

theorem attempt_map [LawfulMonad m] {α β : Type} (activity : String) (f : α → β)
    (x : Attempt m α) : attempt activity (f <$> x) = f <$> attempt activity x := by
  apply ExceptT.ext
  simp only [attempt, ExceptT.run_mk, ExceptT.run_map, bind_map_left, map_bind, map_pure]
  refine congrArg (x.run >>= ·) (funext fun result => ?_)
  cases result <;> rfl

/-- **The stages of a request are seven steps.** -/
theorem execute_eq_proceed [LawfulMonad m] (crew : Collaborators m) (item : RunItem) :
    item.execute crew = Stand.report <$> proceed crew item 7 .begun := by
  simp only [execute, proceed, advance, stage, Stand.heading?, attempt_map, map_bind,
    bind_map_left, bind_pure_comp, Functor.map_map, Stand.report]

end Steps

/-! ## The calls of the stages -/

/-- The calls that fill a template. -/
def fillCalls (template : Template) : List CrewCall := template.scripts.map .resolve

/-- The calls that declare variables with the given values. -/
def declarationCalls : List Declaration → List String → List CrewCall
  | (name, template) :: rest, value :: values =>
    fillCalls template ++ .define name value :: declarationCalls rest values
  | _, _ => []

/-- The calls of the stage that follows, if it does not fail. -/
def stageCalls (item : RunItem) (values : List String) : Stand → List CrewCall
  | .begun => declarationCalls item.part.declarations values
  | .declared => (item.part.preHandler.map (.preHandle · item.part.request)).toList
  | .prepared => item.part.request.templates.flatMap fillCalls
  | .resolved request => [.printRequest request item.name]
  | .printed request => [.send request]
  | .answered _ response =>
    match item.part.handler with
    | none => []
    | some handler => [.handle handler response, .report]
  | .handled _ response report => [.printResponse response report]
  | .shown _ _ _ => []

/-- The calls that make a request ready to be printed and sent. -/
def readyingCalls (item : RunItem) (values : List String) : List CrewCall :=
  stageCalls item values .begun ++ stageCalls item values .declared ++
    stageCalls item values .prepared

/-- The calls of the stages behind a request. -/
def callsBefore (item : RunItem) (values : List String) : Stand → List CrewCall
  | .begun => []
  | .declared => stageCalls item values .begun
  | .prepared => stageCalls item values .begun ++ stageCalls item values .declared
  | .resolved _ => readyingCalls item values
  | .printed request => readyingCalls item values ++ [.printRequest request item.name]
  | .answered request _ =>
    readyingCalls item values ++ [.printRequest request item.name, .send request]
  | .handled request response _ =>
    readyingCalls item values ++ [.printRequest request item.name, .send request] ++
      stageCalls item values (.answered request response)
  | .shown request response report =>
    readyingCalls item values ++ [.printRequest request item.name, .send request] ++
      stageCalls item values (.answered request response) ++ [.printResponse response report]

section Making

variable {σ α β : Type}

/-- From a state the attempt makes the given calls, whatever was called before, and ends with a
result in another state. -/
def Makes (x : Attempt (StateM (σ × List CrewCall)) α) (s : σ) (calls : List CrewCall)
    (result : Except Fault α) (t : σ) : Prop :=
  ∀ before, x.run.run (s, before) = (result, (t, before ++ calls))

theorem makes_pure (a : α) (s : σ) : Makes (pure a) s [] (.ok a) s := by
  intro before
  rw [List.append_nil]
  rfl

theorem makes_recordAttempt (call : CrewCall) {x : Attempt (StateM σ) α} {s t : σ}
    {result : Except Fault α} (h : x.run.run s = (result, t)) :
    Makes (recordAttempt call x) s [call] result t := by
  intro before
  change ((x.run.run s).1, ((x.run.run s).2, before ++ [call])) = _
  rw [h]

theorem Makes.bind_ok {x : Attempt (StateM (σ × List CrewCall)) α}
    {f : α → Attempt (StateM (σ × List CrewCall)) β} {s t u : σ} {calls more : List CrewCall} {a : α}
    {result : Except Fault β} (hx : Makes x s calls (.ok a) t) (hf : Makes (f a) t more result u) :
    Makes (x >>= f) s (calls ++ more) result u := by
  intro before
  rw [Run.run_bind_ok (hx before), hf, List.append_assoc]

theorem Makes.bind_error {x : Attempt (StateM (σ × List CrewCall)) α}
    {f : α → Attempt (StateM (σ × List CrewCall)) β} {s t : σ} {calls : List CrewCall}
    {fault : Fault} (hx : Makes x s calls (.error fault) t) :
    Makes (x >>= f) s calls (.error fault) t :=
  fun before => Run.run_bind_error (hx before)

theorem Makes.map {x : Attempt (StateM (σ × List CrewCall)) α} {s t : σ} {calls : List CrewCall}
    {result : Except Fault α} (hx : Makes x s calls result t) (f : α → β) :
    Makes (f <$> x) s calls (f <$> result) t := by
  rw [map_eq_pure_bind]
  cases result with
  | error fault => exact hx.bind_error
  | ok a =>
    have hpure := hx.bind_ok (f := fun a => pure (f a)) (makes_pure (f a) t)
    rw [List.append_nil] at hpure
    exact hpure

theorem Makes.attempt {x : Attempt (StateM (σ × List CrewCall)) α} {s t : σ}
    {calls : List CrewCall} {result : Except Fault α} (hx : Makes x s calls result t)
    (activity : String) : Makes (attempt activity x) s calls (during activity result) t := by
  intro before
  cases result with
  | error fault => exact attempt_error (hx before)
  | ok a => exact attempt_ok (hx before)

/-- From a state the attempt makes the given calls in order, up to the first that fails. If it
fails, then with a call. -/
def CallsFrom (x : Attempt (StateM (σ × List CrewCall)) α) (s : σ) (plan : List CrewCall) : Prop :=
  ∃ calls result t, Makes x s calls result t ∧ calls <+: plan ∧
    match result with
    | .ok _ => calls = plan
    | .error _ => calls ≠ []

theorem CallsFrom.of_ok {x : Attempt (StateM (σ × List CrewCall)) α} {s t : σ}
    {calls : List CrewCall} {a : α} (h : Makes x s calls (.ok a) t) : CallsFrom x s calls :=
  ⟨calls, .ok a, t, h, List.prefix_refl calls, rfl⟩

theorem CallsFrom.of_error {x : Attempt (StateM (σ × List CrewCall)) α} {s t : σ}
    {calls : List CrewCall} {fault : Fault} (h : Makes x s calls (.error fault) t)
    (hne : calls ≠ []) (more : List CrewCall) : CallsFrom x s (calls ++ more) :=
  ⟨calls, .error fault, t, h, List.prefix_append calls more, hne⟩

theorem CallsFrom.bind_ok {x : Attempt (StateM (σ × List CrewCall)) α}
    {f : α → Attempt (StateM (σ × List CrewCall)) β} {s t : σ} {first second : List CrewCall} {a : α}
    (hx : Makes x s first (.ok a) t) (hf : CallsFrom (f a) t second) :
    CallsFrom (x >>= f) s (first ++ second) := by
  obtain ⟨more, result, u, hmore, hprefix, hend⟩ := hf
  refine ⟨first ++ more, result, u, hx.bind_ok hmore, (List.prefix_append_right_inj _).2 hprefix, ?_⟩
  cases result with
  | error fault => exact List.append_ne_nil_of_right_ne_nil _ hend
  | ok b => exact congrArg (first ++ ·) hend

/-- From every state the attempt makes the given calls in order, up to the first that fails. -/
def Calls (x : Attempt (StateM (σ × List CrewCall)) α) (plan : List CrewCall) : Prop :=
  ∀ s, CallsFrom x s plan

theorem calls_pure (a : α) : Calls (pure a : Attempt (StateM (σ × List CrewCall)) α) [] :=
  fun s => .of_ok (makes_pure a s)

theorem calls_recordAttempt (call : CrewCall) (x : Attempt (StateM σ) α) :
    Calls (recordAttempt call x) [call] := by
  intro s
  rcases hx : x.run.run s with ⟨fault | a, t⟩
  · exact .of_error (makes_recordAttempt call hx) (List.cons_ne_nil _ _) []
  · exact .of_ok (makes_recordAttempt call hx)

theorem Calls.bind {x : Attempt (StateM (σ × List CrewCall)) α}
    {f : α → Attempt (StateM (σ × List CrewCall)) β} {first second : List CrewCall}
    (hx : Calls x first) (hf : ∀ a, Calls (f a) second) : Calls (x >>= f) (first ++ second) := by
  intro s
  obtain ⟨calls, result, t, hmakes, hprefix, hend⟩ := hx s
  cases result with
  | error fault =>
    obtain ⟨rest, rfl⟩ := hprefix
    rw [List.append_assoc]
    exact .of_error hmakes.bind_error hend _
  | ok a =>
    subst hend
    exact .bind_ok hmakes (hf a t)

theorem CallsFrom.map {x : Attempt (StateM (σ × List CrewCall)) α} {s : σ} {plan : List CrewCall}
    (h : CallsFrom x s plan) (f : α → β) : CallsFrom (f <$> x) s plan := by
  obtain ⟨calls, result, t, hmakes, hprefix, hend⟩ := h
  refine ⟨calls, f <$> result, t, hmakes.map f, hprefix, ?_⟩
  cases result <;> exact hend

theorem Calls.map {x : Attempt (StateM (σ × List CrewCall)) α} {plan : List CrewCall}
    (h : Calls x plan) (f : α → β) : Calls (f <$> x) plan :=
  fun s => (h s).map f

variable {crew : Collaborators (StateM σ)}

theorem calls_fill (crew : Collaborators (StateM σ)) (template : Template) :
    Calls (template.fill crew.recorded.resolve) (fillCalls template) := by
  have key : ∀ (placeholders : List Placeholder) (text : String),
      Calls (placeholders.foldlM (fun text placeholder => do
          let answer ← crew.recorded.resolve placeholder.script
          pure (Template.substitute text placeholder.text answer)) text)
        (placeholders.map fun placeholder => .resolve placeholder.script) := by
    intro placeholders
    induction placeholders with
    | nil => exact fun text => calls_pure text
    | cons placeholder rest ih =>
      intro text
      rw [List.foldlM_cons, List.map_cons, ← List.singleton_append]
      apply Calls.bind _ fun text => ih text
      rw [bind_pure_comp]
      exact (calls_recordAttempt _ (crew.resolve placeholder.script)).map _
  rw [fillCalls, Template.scripts, List.map_map]
  exact key template.placeholders template.text

theorem calls_resolveHeaders (crew : Collaborators (StateM σ)) (headers : List Header) :
    Calls (resolveHeaders crew.recorded.resolve headers)
      ((headers.map (·.value)).flatMap fillCalls) := by
  induction headers with
  | nil => exact calls_pure []
  | cons header rest ih =>
    rw [resolveHeaders, List.map_cons, List.flatMap_cons]
    apply Calls.bind
    · rw [Header.resolve, bind_pure_comp]
      exact (calls_fill crew header.value).map _
    · intro first
      rw [bind_pure_comp]
      exact ih.map _

/-- A request is resolved template by template: target, headers, body. -/
theorem calls_resolve (crew : Collaborators (StateM σ)) (request : RequestTemplate) :
    Calls (request.resolve crew.recorded.resolve) (request.templates.flatMap fillCalls) := by
  have hbody : Calls (resolveBody crew.recorded.resolve request.body)
      (request.body.toList.flatMap fillCalls) := by
    cases request.body with
    | none => exact calls_pure none
    | some body =>
      rw [resolveBody, bind_pure_comp, Option.toList_some, List.flatMap_singleton]
      exact (calls_fill crew body).map _
  rw [RequestTemplate.resolve, RequestTemplate.templates, List.flatMap_append, List.flatMap_cons,
    List.append_assoc]
  apply Calls.bind
  · rw [RequestTemplate.resolveTarget, bind_pure_comp]
    exact (calls_fill crew request.target).map _
  intro target
  apply Calls.bind (calls_resolveHeaders crew request.headers)
  intro headers
  rw [bind_pure_comp]
  exact hbody.map _

/-- Variables are declared one after the other, each when its value is filled. -/
theorem exists_declare (crew : Collaborators (StateM σ)) (declarations : List Declaration) (s : σ) :
    ∃ values, values.length = declarations.length ∧
      CallsFrom (declare crew.recorded declarations) s (declarationCalls declarations values) := by
  induction declarations generalizing s with
  | nil => exact ⟨[], rfl, calls_pure () s⟩
  | cons declaration rest ih =>
    obtain ⟨name, template⟩ := declaration
    -- values that were not filled are of no account
    have hlength : ∀ value : String, (value :: rest.map fun _ => "").length = rest.length + 1 := by
      intro value
      rw [List.length_cons, List.length_map]
    obtain ⟨calls, result, t, hmakes, hprefix, hend⟩ := calls_fill crew template s
    cases result with
    | error fault =>
      obtain ⟨more, hmore⟩ := hprefix
      refine ⟨_, hlength "", ?_⟩
      rw [declarationCalls, ← hmore, List.append_assoc]
      exact .of_error hmakes.bind_error hend _
    | ok value =>
      subst hend
      rcases hdefine : (crew.define name value).run.run t with ⟨fault | ⟨⟩, u⟩
      · refine ⟨_, hlength value, .bind_ok hmakes ?_⟩
        exact .of_error (makes_recordAttempt (.define name value) hdefine).bind_error
          (List.cons_ne_nil _ _) _
      · obtain ⟨values, hvalues, hrest⟩ := ih u
        exact ⟨value :: values, congrArg (· + 1) hvalues,
          .bind_ok hmakes (.bind_ok (makes_recordAttempt (.define name value) hdefine) hrest)⟩

/-! ## What a stage does -/

/-- The stage that follows makes its calls, where the values of the variables matter to their
declaration alone. -/
theorem calls_stage (crew : Collaborators (StateM σ)) (item : RunItem) (values : List String)
    {stand : Stand} (h : stand ≠ .begun) :
    Calls (stage crew.recorded item stand) (stageCalls item values stand) := by
  cases stand with
  | begun => exact absurd rfl h
  | declared =>
    apply Calls.map
    rw [prepare, stageCalls]
    cases item.part.preHandler with
    | none => exact calls_pure ()
    | some handler => exact calls_recordAttempt _ (crew.preHandle handler item.part.request)
  | prepared => exact (calls_resolve crew item.part.request).map _
  | resolved request => exact (calls_recordAttempt _ (crew.printRequest request item.name)).map _
  | printed request => exact (calls_recordAttempt _ (crew.send request)).map _
  | answered request response =>
    apply Calls.map
    rw [respond, stageCalls]
    cases item.part.handler with
    | none => exact calls_pure Report.empty
    | some handler =>
      have hreport : ∀ s, Makes (liftM crew.recorded.report) s [.report] (.ok (crew.report.run s).1)
          (crew.report.run s).2 := fun s before => rfl
      change Calls _ ([.handle handler response] ++ [.report])
      apply Calls.bind (calls_recordAttempt _ (crew.handle handler response))
      exact fun _ s => .of_ok (hreport s)
  | handled request response report =>
    exact (calls_recordAttempt _ (crew.printResponse response report)).map _
  | shown request response report => exact calls_pure _

/-- The attempt cannot end in two ways. -/
theorem Makes.unique {x : Attempt (StateM (σ × List CrewCall)) α} {s t u : σ}
    {calls more : List CrewCall} {result other : Except Fault α} (h : Makes x s calls result t)
    (h' : Makes x s more other u) : result = other ∧ t = u ∧ calls = more := by
  have hsame := (h []).symm.trans (h' [])
  rw [List.nil_append, List.nil_append, Prod.mk.injEq, Prod.mk.injEq] at hsame
  exact hsame

theorem CallsFrom.eq_of_ok {x : Attempt (StateM (σ × List CrewCall)) α} {s t : σ}
    {plan calls : List CrewCall} {a : α} (h : CallsFrom x s plan) (hx : Makes x s calls (.ok a) t) :
    calls = plan := by
  obtain ⟨made, result, u, hmakes, -, hend⟩ := h
  obtain ⟨rfl, -, rfl⟩ := hmakes.unique hx
  exact hend

theorem CallsFrom.prefix_of_error {x : Attempt (StateM (σ × List CrewCall)) α} {s t : σ}
    {plan calls : List CrewCall} {fault : Fault} (h : CallsFrom x s plan)
    (hx : Makes x s calls (.error fault) t) : calls ≠ [] ∧ calls <+: plan := by
  obtain ⟨made, result, u, hmakes, hprefix, hend⟩ := h
  obtain ⟨rfl, -, rfl⟩ := hmakes.unique hx
  exact ⟨hend, hprefix⟩

/-- A request that has got so far gets so far with its next stage. -/
inductive Next : Stand → Stand → Prop
  | declare : Next .begun .declared
  | prepare : Next .declared .prepared
  | resolve (request : Request) : Next .prepared (.resolved request)
  | print (request : Request) : Next (.resolved request) (.printed request)
  | send (request : Request) (response : Response) :
    Next (.printed request) (.answered request response)
  | handle (request : Request) (response : Response) (report : Report) :
    Next (.answered request response) (.handled request response report)
  | show_ (request : Request) (response : Response) (report : Report) :
    Next (.handled request response report) (.shown request response report)
  | stay (request : Request) (response : Response) (report : Report) :
    Next (.shown request response report) (.shown request response report)

theorem Makes.exists_of_map {x : Attempt (StateM (σ × List CrewCall)) α} {f : α → β} {s t : σ}
    {calls : List CrewCall} {b : β} (h : Makes (f <$> x) s calls (.ok b) t) : ∃ a, b = f a := by
  have hrun := h []
  rw [map_eq_pure_bind] at hrun
  obtain ⟨a, u, -, hpure⟩ := Run.run_bind_inv hrun
  cases hpure
  exact ⟨a, rfl⟩

theorem next_of_stage {item : RunItem} {stand next : Stand} {s t : σ} {calls : List CrewCall}
    (h : Makes (stage crew.recorded item stand) s calls (.ok next) t) : Next stand next := by
  cases stand with
  | begun =>
    obtain ⟨_, rfl⟩ := h.exists_of_map
    exact .declare
  | declared =>
    obtain ⟨_, rfl⟩ := h.exists_of_map
    exact .prepare
  | prepared =>
    obtain ⟨request, rfl⟩ := h.exists_of_map
    exact .resolve request
  | resolved request =>
    obtain ⟨_, rfl⟩ := h.exists_of_map
    exact .print request
  | printed request =>
    obtain ⟨response, rfl⟩ := h.exists_of_map
    exact .send request response
  | answered request response =>
    obtain ⟨report, rfl⟩ := h.exists_of_map
    exact .handle request response report
  | handled request response report =>
    obtain ⟨_, rfl⟩ := h.exists_of_map
    exact .show_ request response report
  | shown request response report =>
    obtain ⟨hnext, -⟩ := (makes_pure (Stand.shown request response report) s).unique h
    cases hnext
    exact .stay request response report

theorem Next.rank {stand next : Stand} (h : Next stand next) :
    next.rank = min 7 (stand.rank + 1) := by
  cases h <;> rfl

theorem Next.callsBefore {stand next : Stand} (h : Next stand next) (item : RunItem)
    (values : List String) :
    callsBefore item values next = callsBefore item values stand ++ stageCalls item values stand := by
  cases h <;> simp [RunItem.callsBefore, stageCalls, readyingCalls]

/-! ## From the beginning -/

/-- From its beginning in a state, a request gets so far with the given calls: no stage fails. -/
inductive Reaches (crew : Collaborators (StateM σ)) (item : RunItem) (s : σ) :
    Stand → List CrewCall → σ → Prop
  | begun : Reaches crew item s .begun [] s
  | step {stand next : Stand} {calls own : List CrewCall} {t u : σ} :
    Reaches crew item s stand calls t →
    Makes (stage crew.recorded item stand) t own (.ok next) u →
    Reaches crew item s next (calls ++ own) u

/-- How a request ends: behind its last stage, or with the failure of the stage that follows the
place where it has got to. -/
inductive Ends (crew : Collaborators (StateM σ)) (item : RunItem) (s : σ) :
    Stand → List CrewCall → Except Fault Report → σ → Prop
  | completed {request : Request} {response : Response} {report : Report} {calls : List CrewCall}
      {t : σ} :
    Reaches crew item s (.shown request response report) calls t →
    Ends crew item s (.shown request response report) calls (.ok report) t
  | failed {stand : Stand} {calls own : List CrewCall} {fault : Fault} {t u : σ} :
    Reaches crew item s stand calls t →
    Makes (stage crew.recorded item stand) t own (.error fault) u →
    Ends crew item s stand (calls ++ own) (.error (reported item stand fault)) u

theorem Makes.advance {item : RunItem} {stand : Stand} {s t : σ} {calls : List CrewCall}
    {result : Except Fault Stand} (h : Makes (stage crew.recorded item stand) s calls result t) :
    Makes (advance crew.recorded item stand) s calls
      (match result with
        | .ok next => .ok next
        | .error fault => .error (reported item stand fault)) t := by
  rw [RunItem.advance]
  cases hheading : stand.heading? with
  | none =>
    simp only [reported, hheading]
    cases result <;> exact h
  | some heading =>
    simp only [reported, hheading]
    have hattempt := h.attempt (heading ++ item.name)
    cases result <;> exact hattempt

/-- So far, a request has made the calls of the stages behind it, and makes those of the stage that
follows. -/
theorem Reaches.exists_calls {item : RunItem} {s t : σ} {stand : Stand} {calls : List CrewCall}
    (h : Reaches crew item s stand calls t) :
    ∃ values, values.length = item.part.declarations.length ∧
      calls = callsBefore item values stand ∧
      CallsFrom (stage crew.recorded item stand) t (stageCalls item values stand) := by
  induction h with
  | begun =>
    obtain ⟨values, hlength, hcalls⟩ := exists_declare crew item.part.declarations s
    exact ⟨values, hlength, rfl, hcalls.map _⟩
  | @step stand next calls own t u _ hstage ih =>
    obtain ⟨values, hlength, rfl, hcalls⟩ := ih
    have hnext := next_of_stage hstage
    have hbegun : next ≠ .begun := by
      rintro rfl
      cases hnext
    refine ⟨values, hlength, ?_, calls_stage crew item values hbegun u⟩
    rw [hnext.callsBefore, hcalls.eq_of_ok hstage]

/-- From everywhere a request comes to its end in as many steps as there are stages left. -/
theorem Reaches.exists_ends {item : RunItem} {s t : σ} {stand : Stand} {calls : List CrewCall}
    (h : Reaches crew item s stand calls t) {n : Nat} (hn : stand.rank + n = 7) :
    ∃ last more result u, Ends crew item s last (calls ++ more) result u ∧
      Makes (Stand.report <$> proceed crew.recorded item n stand) t more result u := by
  induction n generalizing stand calls t with
  | zero =>
    cases stand with
    | shown request response report =>
      refine ⟨.shown request response report, [], .ok report, t, ?_, (makes_pure _ t).map Stand.report⟩
      rw [List.append_nil]
      exact .completed h
    | _ => cases hn
  | succ n ih =>
    obtain ⟨values, -, -, own, result, u, hstage, -⟩ := h.exists_calls
    have hadvance := hstage.advance
    cases result with
    | error fault => exact ⟨stand, own, _, u, .failed h hstage, hadvance.bind_error.map Stand.report⟩
    | ok next =>
      have hnext := (next_of_stage hstage).rank
      obtain ⟨last, more, result, v, hends, hmore⟩ := ih (h.step hstage) (by omega)
      refine ⟨last, own ++ more, result, v, ?_, ?_⟩
      · rw [← List.append_assoc]
        exact hends
      · rw [proceed, map_bind]
        exact hadvance.bind_ok hmore

/-- Every request comes to an end. -/
theorem exists_ends (crew : Collaborators (StateM σ)) (item : RunItem) (s : σ) :
    ∃ last calls result t, Ends crew item s last calls result t ∧
      Makes (item.execute crew.recorded) s calls result t := by
  have hbegun : Reaches crew item s .begun [] s := .begun
  obtain ⟨last, calls, result, t, hends, hmakes⟩ := hbegun.exists_ends (n := 7) rfl
  rw [← execute_eq_proceed] at hmakes
  exact ⟨last, calls, result, t, hends, hmakes⟩

/-- The calls of a request that has come to its end: those of the stages behind it and, unless it
was completed, some of those of the stage that failed. -/
theorem Ends.exists_calls {item : RunItem} {s t : σ} {last : Stand} {calls : List CrewCall}
    {result : Except Fault Report} (h : Ends crew item s last calls result t) :
    ∃ values own, values.length = item.part.declarations.length ∧
      calls = callsBefore item values last ++ own ∧ own <+: stageCalls item values last ∧
      (own = [] → last.rank = 7) := by
  cases h with
  | completed hreaches =>
    obtain ⟨values, hlength, rfl, -⟩ := hreaches.exists_calls
    exact ⟨values, [], hlength, (List.append_nil _).symm, List.nil_prefix, fun _ => rfl⟩
  | @failed stand before own fault u t hreaches hstage =>
    obtain ⟨values, hlength, rfl, hcalls⟩ := hreaches.exists_calls
    obtain ⟨hne, hprefix⟩ := hcalls.prefix_of_error hstage
    exact ⟨values, own, hlength, rfl, hprefix, fun hnil => absurd hnil hne⟩

end Making

end RunItem

/-- The call shows a request or a response to somebody outside: it prints or sends it, or runs the
handler of the response. -/
def CrewCall.isOutward : CrewCall → Bool
  | printRequest _ _ => true
  | send _ => true
  | handle _ _ => true
  | printResponse _ _ => true
  | _ => false

namespace RunItem

/-- The outward calls of the stages behind a request and of the stage that follows. -/
def outwardCalls (item : RunItem) : Stand → List CrewCall
  | .begun => []
  | .declared => []
  | .prepared => []
  | .resolved request => [.printRequest request item.name]
  | .printed request => [.printRequest request item.name, .send request]
  | .answered request response =>
    [.printRequest request item.name, .send request] ++
      (item.part.handler.map (.handle · response)).toList
  | .handled request response report =>
    [.printRequest request item.name, .send request] ++
      (item.part.handler.map (.handle · response)).toList ++ [.printResponse response report]
  | .shown request response report =>
    [.printRequest request item.name, .send request] ++
      (item.part.handler.map (.handle · response)).toList ++ [.printResponse response report]

theorem filter_fillCalls (template : Template) :
    (fillCalls template).filter CrewCall.isOutward = [] := by
  rw [List.filter_eq_nil_iff]
  intro call hmem
  obtain ⟨script, -, rfl⟩ := List.mem_map.1 hmem
  exact Bool.false_ne_true

theorem filter_declarationCalls (declarations : List Declaration) (values : List String) :
    (declarationCalls declarations values).filter CrewCall.isOutward = [] := by
  induction declarations generalizing values with
  | nil => rfl
  | cons declaration rest ih =>
    cases values with
    | nil => rfl
    | cons value values =>
      rw [declarationCalls, List.filter_append, filter_fillCalls, List.nil_append,
        List.filter_cons_of_neg Bool.false_ne_true, ih]

/-- Nothing is shown to anybody before a request is resolved. -/
theorem filter_stageCalls (item : RunItem) (values : List String) {stand : Stand}
    (h : stand.rank < 3) : (stageCalls item values stand).filter CrewCall.isOutward = [] := by
  cases stand with
  | begun => exact filter_declarationCalls _ _
  | declared =>
    rw [stageCalls]
    cases item.part.preHandler <;> rfl
  | prepared =>
    rw [stageCalls, List.filter_flatMap]
    exact List.flatMap_eq_nil_iff.2 fun template _ => filter_fillCalls template
  | _ => exact absurd h (by simp [Stand.rank])

theorem filter_readyingCalls (item : RunItem) (values : List String) :
    (readyingCalls item values).filter CrewCall.isOutward = [] := by
  simp only [readyingCalls, List.filter_append]
  rw [filter_stageCalls item values (by decide), filter_stageCalls item values (by decide),
    filter_stageCalls item values (by decide)]
  rfl

theorem filter_responseCalls (item : RunItem) (values : List String) (request : Request)
    (response : Response) :
    (stageCalls item values (.answered request response)).filter CrewCall.isOutward =
      (item.part.handler.map (.handle · response)).toList := by
  rw [stageCalls]
  cases item.part.handler <;> rfl

/-- A response handler that fails was run. -/
theorem filter_of_answered {item : RunItem} {values : List String} {request : Request}
    {response : Response} {own : List CrewCall}
    (h : own <+: stageCalls item values (.answered request response)) (hne : own ≠ []) :
    own.filter CrewCall.isOutward = (item.part.handler.map (.handle · response)).toList := by
  rw [stageCalls] at h
  cases hhandler : item.part.handler with
  | none =>
    rw [hhandler] at h
    exact absurd (List.prefix_nil.1 h) hne
  | some handler =>
    rw [hhandler] at h
    rcases List.prefix_cons_iff.1 h with rfl | ⟨rest, rfl, hrest⟩
    · exact absurd rfl hne
    · have hreport : rest.filter CrewCall.isOutward <+: [] := hrest.filter CrewCall.isOutward
      rw [List.filter_cons_of_pos rfl, List.prefix_nil.1 hreport]
      rfl

/-- What a request shows to the outside depends on how far it gets alone. -/
theorem Ends.filter_calls {σ : Type} {crew : Collaborators (StateM σ)} {item : RunItem} {s t : σ}
    {last : Stand} {calls : List CrewCall} {result : Except Fault Report}
    (h : Ends crew item s last calls result t) :
    calls.filter CrewCall.isOutward = outwardCalls item last := by
  obtain ⟨values, own, -, rfl, hprefix, hnil⟩ := h.exists_calls
  have hready := filter_readyingCalls item values
  -- a stage of one call has made it
  have hone : ∀ call, stageCalls item values last = [call] → last.rank ≠ 7 → own = [call] := by
    intro call hcall hrank
    rw [hcall] at hprefix
    rcases List.prefix_cons_iff.1 hprefix with rfl | ⟨rest, rfl, hrest⟩
    · exact absurd (hnil rfl) hrank
    · rw [List.prefix_nil.1 hrest]
  have hquiet : last.rank < 3 → own.filter CrewCall.isOutward = [] := by
    intro hrank
    have hfilter := hprefix.filter CrewCall.isOutward
    rw [filter_stageCalls item values hrank] at hfilter
    exact List.prefix_nil.1 hfilter
  rw [List.filter_append]
  cases last with
  | begun => rw [hquiet (by decide)]; rfl
  | declared =>
    rw [hquiet (by decide), callsBefore, filter_stageCalls item values (by decide)]
    rfl
  | prepared =>
    rw [hquiet (by decide), callsBefore, List.filter_append,
      filter_stageCalls item values (by decide), filter_stageCalls item values (by decide)]
    rfl
  | resolved request =>
    rw [hone _ rfl (by simp [Stand.rank]), callsBefore, hready]
    rfl
  | printed request =>
    rw [hone _ rfl (by simp [Stand.rank]), callsBefore, List.filter_append, hready]
    rfl
  | answered request response =>
    rw [filter_of_answered hprefix fun hown => absurd (hnil hown) (by simp [Stand.rank]),
      callsBefore, List.filter_append, hready]
    rfl
  | handled request response report =>
    rw [hone _ rfl (by simp [Stand.rank]), callsBefore, List.filter_append, List.filter_append,
      hready, filter_responseCalls]
    rfl
  | shown request response report =>
    rw [List.prefix_nil.1 hprefix, callsBefore, List.filter_append, List.filter_append,
      List.filter_append, hready, filter_responseCalls, List.filter_nil, List.append_nil]
    rfl

/-- How a failure is reported: under the heading of its stage, and with the failure itself
underneath. -/
theorem reported_of_heading {item : RunItem} {stand : Stand} {heading : String}
    (h : stand.heading? = some heading) (fault : Fault) :
    (reported item stand fault).kind = "HttpScriptError" ∧
      (reported item stand fault).cause? = some fault ∧
      (reported item stand fault).message = heading ++ item.name ++ ": " ++ fault.message := by
  simp only [reported, h]
  exact ⟨rfl, rfl, rfl⟩

/-- **The stages of a request run in order, up to the first that fails.** Whatever the collaborators
do, a request gets through its stages to some place (`last`) and ends there: behind its last stage
with its report, or with the failure of the stage that follows. It has made the calls of the stages
behind that place, in order, and no other than those of the stage that failed. To the outside it has
shown what that place says: the one resolved request is printed once all before has succeeded, and
sent once it is printed; the response is handled once it has arrived and printed once it is handled.
A failure of a stage with a heading is reported with that heading, the name of the request and its
own wording, and is kept underneath. -/
theorem execute_in_order {σ : Type} (crew : Collaborators (StateM σ)) (item : RunItem) (s : σ) :
    ∃ last calls result t,
      (item.execute crew.recorded).run.run (s, []) = (result, (t, calls)) ∧
      (item.execute crew).run.run s = (result, t) ∧
      Ends crew item s last calls result t ∧
      (∃ values own, values.length = item.part.declarations.length ∧
        calls = callsBefore item values last ++ own ∧ own <+: stageCalls item values last) ∧
      calls.filter CrewCall.isOutward = outwardCalls item last ∧
      ∀ heading, last.heading? = some heading →
        ∃ u own fault wrapped, Makes (stage crew.recorded item last) u own (.error fault) t ∧
          result = .error wrapped ∧ wrapped.kind = "HttpScriptError" ∧
          wrapped.cause? = some fault ∧
          wrapped.message = heading ++ item.name ++ ": " ++ fault.message := by
  obtain ⟨last, calls, result, t, hends, hmakes⟩ := exists_ends crew item s
  have hrun := hmakes []
  rw [List.nil_append] at hrun
  obtain ⟨added, -, -, -, hplain⟩ := (follows_execute (moves_unseen crew) item).inv hrun
  obtain ⟨values, own, hlength, hcalls, hprefix, -⟩ := hends.exists_calls
  refine ⟨last, calls, result, t, hrun, hplain, hends, ⟨values, own, hlength, hcalls, hprefix⟩,
    hends.filter_calls, ?_⟩
  intro heading hheading
  cases hends with
  | completed hreaches => cases hheading
  | @failed stand before own fault u t hreaches hstage =>
    exact ⟨u, own, fault, _, hstage, rfl, reported_of_heading hheading fault⟩

end RunItem

end RequestRunner
