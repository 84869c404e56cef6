import RequestRunner.Engine
import RequestRunner.Proofs.Run.Ending

/-!
# The history of an engine

What a script does to its host is what it asks and what it is told: `Activity.dialogue` lists both.
`Engine.events` are the dialogues that one call to an engine brings about, `Engine.history` those of
many calls. A list of events is a `Host.Course` if every answer is the one that the host gave at its
place, and the main statement is that every history is one (`course_history`), so that a law about
all scripts is an induction over courses. No course changes the environment or the clock
(`Course.environment`, `Course.now`).
-/

set_option autoImplicit false

namespace RequestRunner

/-- Something that happens to a host in a run. -/
inductive HostEvent where
  /-- A call with the answer to it. -/
  | call (request : HostCall) (reply : request.Reply)
  /-- The logged lines were passed on. -/
  | drained
  /-- The request was forgotten, and the next one started. -/
  | renewed

/-- The calls that an activity makes when it is run against a host, with their answers. -/
def Activity.dialogue {α : Type} : Activity α → Host → List HostEvent
  | .done _, _ => []
  | .call request next, h =>
    .call request (h.answer request) :: (next (h.answer request)).dialogue (h.effect request)

namespace Host

/-- The host whose logged lines were passed on. -/
def drained (h : Host) : Host := { h with printed := [] }

/-- The host on which the next request starts. -/
def renewed (h : Host) : Host :=
  { h with
    persisted := Store.ofMap h.persisted.toMap false
    request := Store.empty
    report := Report.empty }

/-- From the first host to the second one happens what the list says, and every answer in it is the
host's own. -/
inductive Course : Host → List HostEvent → Host → Prop
  | nil (h : Host) : Course h [] h
  | call {h t : Host} {events : List HostEvent} (request : HostCall) :
      Course (h.effect request) events t → Course h (.call request (h.answer request) :: events) t
  | drained {h t : Host} {events : List HostEvent} :
      Course h.drained events t → Course h (.drained :: events) t
  | renewed {h t : Host} {events : List HostEvent} :
      Course h.renewed events t → Course h (.renewed :: events) t

namespace Course

variable {h t u : Host} {events more : List HostEvent}

theorem append (first : Course h events t) (second : Course t more u) :
    Course h (events ++ more) u := by
  induction first with
  | nil h => exact second
  | call request _ ih => exact .call request (ih second)
  | drained _ ih => exact .drained (ih second)
  | renewed _ ih => exact .renewed (ih second)

/-- A course can be cut at every place. -/
theorem exists_of_append (course : Course h (events ++ more) u) :
    ∃ t, Course h events t ∧ Course t more u := by
  induction events generalizing h with
  | nil => exact ⟨h, .nil h, course⟩
  | cons event rest ih =>
    cases course with
    | call request tail =>
      obtain ⟨t, first, second⟩ := ih tail
      exact ⟨t, .call request first, second⟩
    | drained tail =>
      obtain ⟨t, first, second⟩ := ih tail
      exact ⟨t, .drained first, second⟩
    | renewed tail =>
      obtain ⟨t, first, second⟩ := ih tail
      exact ⟨t, .renewed first, second⟩

/-- The first answer of a course is the host's, and the call has its effect. -/
theorem call_inv {request : HostCall} {reply : request.Reply}
    (course : Course h (.call request reply :: events) t) :
    reply = h.answer request ∧ Course (h.effect request) events t := by
  -- the answer's type depends on the call, so the list becomes a variable before the cases
  generalize hevents : HostEvent.call request reply :: events = all at course
  cases course with
  | call other tail =>
    injection hevents with hevent hrest
    injection hevent with hrequest hreply
    subst hrequest
    subst hrest
    exact ⟨eq_of_heq hreply, tail⟩
  | _ => cases hevents

/-- What happens decides where a course leads. -/
theorem unique (course : Course h events t) (other : Course h events u) : t = u := by
  induction course with
  | nil h =>
    cases other
    rfl
  | call request _ ih => exact ih other.call_inv.2
  | drained _ ih =>
    cases other with
    | drained tail => exact ih tail
  | renewed _ ih =>
    cases other with
    | renewed tail => exact ih tail

/-- **No course changes the environment.** -/
theorem environment (course : Course h events t) : t.environment = h.environment := by
  induction course with
  | nil h => rfl
  | call request _ ih => rw [ih, effect_environment]
  | drained _ ih => exact ih
  | renewed _ ih => exact ih

end Course

theorem change_now (h : Host) (scope : Scope) (f : Accessor → Except StoreError Accessor) :
    (h.change scope f).now = h.now := by
  unfold change
  split
  · cases scope <;> rfl
  · rfl

theorem effect_now (h : Host) (call : HostCall) : (h.effect call).now = h.now := by
  cases call <;> simp [effect, change_now]

/-- **No course changes the clock.** -/
theorem Course.now {h t : Host} {events : List HostEvent} (course : Course h events t) :
    t.now = h.now := by
  induction course with
  | nil h => rfl
  | call request _ ih => rw [ih, effect_now]
  | drained _ ih => exact ih
  | renewed _ ih => exact ih

end Host

/-- What an activity asks and is told is a course of its host. -/
theorem Activity.course_dialogue {α : Type} (activity : Activity α) (h : Host) :
    Host.Course h (activity.dialogue h) (activity.run h).2 := by
  induction activity generalizing h with
  | done a => exact .nil h
  | call request next ih => exact .call request (ih _ _)

namespace Engine

variable {C : Type} (language : Language C)

/-- The engine after an action, whose logged lines were passed on. -/
def acted {α : Type} (engine : Engine C) (action : EngineAction C α) : Engine C :=
  (action.run engine).2.drain.2

/-- The engine after a call of a run; most calls are none of its business. -/
def after (engine : Engine C) : CrewCall → Engine C
  | .define name value => engine.acted (define name value)
  | .resolve name => engine.acted (resolve language name)
  | .preHandle handler request => engine.acted (preHandle language handler request)
  | .handle handler response => engine.acted (handle language handler response)
  | .reset => engine.reset language
  | _ => engine

/-- What happens to the host of an engine when it runs an activity of the language. -/
def conversation {α : Type} (engine : Engine C) (activity : C → Activity (Except Fault α × C)) :
    List HostEvent :=
  (activity engine.context).dialogue engine.host ++ [.drained]

/-- What happens to the host of an engine at a call of a run. -/
def events (engine : Engine C) : CrewCall → List HostEvent
  | .define name value => [.call (.write .request (some name) (some (.text value))) (), .drained]
  | .resolve name =>
    if Script.isExpression name then engine.conversation (language.evaluate name Selection.none)
    else [.call (.lookup name) (engine.host.answer (.lookup name)), .drained]
  | .preHandle handler request =>
    engine.conversation (language.run handler.script handler.selection (some (.request request)))
  | .handle handler response =>
    engine.conversation
      (language.run handler.script handler.selection (some (.response response.toJson.compact)))
  | .reset => [.renewed]
  | _ => []

/-- The engine after calls of a run, one after the other. -/
def afterAll (engine : Engine C) (calls : List CrewCall) : Engine C :=
  calls.foldl (after language) engine

/-- What happens to the host of an engine at calls of a run, one after the other. -/
def history : Engine C → List CrewCall → List HostEvent
  | _, [] => []
  | engine, call :: rest => engine.events language call ++ history (engine.after language call) rest

variable {language}

/-- What an action of the language does is its conversation. -/
theorem course_conversation {α : Type} (engine : Engine C)
    (activity : C → Activity (Except Fault α × C)) :
    Host.Course engine.host (engine.conversation activity) (engine.acted (act activity)).host :=
  (Activity.course_dialogue _ _).append (.drained (.nil _))

theorem acted_map {α β : Type} (engine : Engine C) (action : EngineAction C α) (f : α → β) :
    engine.acted (action >>= fun a => pure (f a)) = engine.acted action := by
  change ((action >>= fun a => pure (f a)).run.run engine).2.drain.2 =
    (action.run.run engine).2.drain.2
  rcases h : action.run.run engine with ⟨fault | a, after⟩
  · rw [Run.run_bind_error h]
  · rw [Run.run_bind_ok h]
    rfl

theorem course_events (engine : Engine C) (call : CrewCall) :
    Host.Course engine.host (engine.events language call) (engine.after language call).host := by
  cases call with
  | define name value => exact .call _ (.drained (.nil _))
  | resolve name =>
    rw [after, events, resolve]
    split
    · -- what becomes of the value that was evaluated is none of the host's business
      rw [acted_map]
      exact course_conversation engine (language.evaluate name Selection.none)
    · exact .call _ (.drained (.nil _))
  | preHandle handler request => exact course_conversation engine _
  | handle handler response => exact course_conversation engine _
  | reset => exact .renewed (.nil _)
  | _ => exact .nil _

variable (language) in
/-- **A history is a course of the host.** -/
theorem course_history (engine : Engine C) (calls : List CrewCall) :
    Host.Course engine.host (engine.history language calls)
      (engine.afterAll language calls).host := by
  induction calls generalizing engine with
  | nil => exact .nil _
  | cons call rest ih => exact (course_events engine call).append (ih _)

end Engine

end RequestRunner
