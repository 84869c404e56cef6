import RequestRunner.Run.Item

/-!
# The stages of one request

A request goes through its stages in one order: its variables are declared, its handler runs, its
placeholders are filled, it is printed and sent, the handler of the response runs, and the response
is printed. The first stage that fails ends it; a failure of a script or of the network is reported
under the stage it belongs to and the name of the request.

Main statements: without a response handler the report is empty (`respond_none`), and a failed
attempt fails under its activity, a successful one with its result (`attempt_error`, `attempt_ok`).
-/

set_option autoImplicit false

namespace RequestRunner

namespace RunItem

variable {m : Type → Type} [Monad m]

/-- Declares request variables in order; the value of each may use those before it. -/
def declare (crew : Collaborators m) : List Declaration → Attempt m Unit
  | [] => pure ()
  | (name, template) :: rest => do
    let value ← template.fill crew.resolve
    crew.define name value
    declare crew rest

/-- Runs the handler of the request, if there is one. -/
def prepare (crew : Collaborators m) (part : RequestSection) : Attempt m Unit :=
  match part.preHandler with
  | none => pure ()
  | some handler => crew.preHandle handler part.request

/-- Runs the handler of the response, if there is one, for the report of the request. -/
def respond (crew : Collaborators m) (part : RequestSection) (response : Response) :
    Attempt m Report :=
  match part.handler with
  | none => pure Report.empty
  | some handler => do
    crew.handle handler response
    crew.report

/-- Takes an item through its stages. -/
def execute (crew : Collaborators m) (item : RunItem) : Attempt m Report := do
  let name := item.name
  attempt ("Failed processing request " ++ name) (declare crew item.part.declarations)
  attempt ("Error pre handling request " ++ name) (prepare crew item.part)
  let request ← attempt ("Failed processing request " ++ name)
    (item.part.request.resolve crew.resolve)
  crew.printRequest request name
  let response ← attempt ("Error executing request " ++ name) (crew.send request)
  let report ← attempt ("Error handling response for request " ++ name)
    (respond crew item.part response)
  crew.printResponse response report
  pure report

/-- **Without a response handler the report is empty.** -/
theorem respond_none (crew : Collaborators m) {part : RequestSection} (response : Response)
    (h : part.handler = none) : respond crew part response = pure Report.empty := by
  rw [respond, h]

end RunItem

/-- **A failed attempt fails under its activity.** -/
theorem attempt_error {σ α : Type} {activity : String} {x : Attempt (StateM σ) α} {s t : σ}
    {fault : Fault} (h : x.run s = (.error fault, t)) :
    (attempt activity x).run s = (.error (.during activity fault), t) := by
  simp only [attempt, ExceptT.run_mk]
  change (let (a, s') := x.run s; (during activity a, s')) = _
  rw [h]
  rfl

/-- **A successful attempt has its result.** -/
theorem attempt_ok {σ α : Type} {activity : String} {x : Attempt (StateM σ) α} {s t : σ} {a : α}
    (h : x.run s = (.ok a, t)) : (attempt activity x).run s = (.ok a, t) := by
  simp only [attempt, ExceptT.run_mk]
  change (let (a, s') := x.run s; (during activity a, s')) = _
  rw [h]
  rfl

end RequestRunner
