import RequestRunner.Generator.Static
import RequestRunner.Proofs.Engine.VariableMaps
import RequestRunner.Proofs.Json.Ordered
import RequestRunner.Proofs.Run.Ending
import RequestRunner.Proofs.Template.Substitution

/-!
# Previews

A request is previewed from a fixed map of variables, and it is sent by an engine that was started
with such a map. A preview reads the map itself and gives each value its text; an engine reads two
stores that were filled with copies. Both give the same answers to placeholders that do not start
with a dollar sign (`resolveStatic_run`, `Engine.resolve_run_new`), and neither changes its state
with them. Filling a template asks for its own scripts alone (`Template.fill_run`), so that the
previewed request is the one that is sent (`preview_agrees_with_engine`).
-/

set_option autoImplicit false

namespace RequestRunner

/-! ## Answers that change nothing -/

section Answers

variable {σ : Type} {resolve : String → Attempt (StateM σ) String} {s : σ}
  {answer : String → String}

/-- Where every script of a template has an answer that changes nothing, the template is filled with
the answers, and nothing changes. -/
theorem Template.fill_run {template : Template}
    (h : ∀ script ∈ template.scripts, (resolve script).run.run s = (.ok (answer script), s)) :
    (template.fill resolve).run.run s =
      (.ok (Id.run (template.fill fun script => pure (answer script))), s) := by
  obtain ⟨text, placeholders, selection⟩ := template
  rw [scripts, List.forall_mem_map] at h
  rw [fill, fill]
  dsimp only at h ⊢
  induction placeholders generalizing text with
  | nil => rfl
  | cons placeholder rest ih =>
    obtain ⟨hfirst, hrest⟩ := List.forall_mem_cons.1 h
    rw [List.foldlM_cons, bind_assoc, Run.run_bind_ok hfirst, pure_bind, ih _ hrest]
    rfl

theorem resolveHeaders_run {headers : List Header}
    (h : ∀ header ∈ headers, ∀ script ∈ header.value.scripts,
      (resolve script).run.run s = (.ok (answer script), s)) :
    (resolveHeaders resolve headers).run.run s =
      (.ok (Id.run (resolveHeaders (fun script => pure (answer script)) headers)), s) := by
  induction headers with
  | nil => rfl
  | cons header rest ih =>
    obtain ⟨hfirst, hrest⟩ := List.forall_mem_cons.1 h
    rw [resolveHeaders, Header.resolve, bind_assoc, Run.run_bind_ok (Template.fill_run hfirst),
      pure_bind, Run.run_bind_ok (ih hrest)]
    rfl

/-- The same for a request. -/
theorem RequestTemplate.resolve_run {request : RequestTemplate}
    (h : ∀ template ∈ request.templates, ∀ script ∈ template.scripts,
      (resolve script).run.run s = (.ok (answer script), s)) :
    (request.resolve resolve).run.run s =
      (.ok (Id.run (request.resolve fun script => pure (answer script))), s) := by
  obtain ⟨method, methodSelection, target, headers, body, selection⟩ := request
  simp only [templates, List.forall_mem_append, List.forall_mem_cons, List.forall_mem_map] at h
  obtain ⟨⟨htarget, hheaders⟩, hbody⟩ := h
  simp only [RequestTemplate.resolve, resolveTarget, bind_assoc, pure_bind]
  rw [Run.run_bind_ok (Template.fill_run htarget), Run.run_bind_ok (resolveHeaders_run hheaders)]
  cases body with
  | none => rfl
  | some body =>
    rw [resolveBody, bind_assoc,
      Run.run_bind_ok (Template.fill_run (hbody body List.mem_cons_self))]
    rfl

end Answers

/-! ## The two resolvers -/

variable {known : VariableMap}

/-- A preview gives a value the text of its copy. -/
theorem lookupText_eq (hordered : (Json.object known).Ordered)
    (hfinite : ∀ entry ∈ known, ∀ x, entry.2 = .number x → (x.isNaN || x.isInf) = false)
    (name : String) :
    lookupText name (Fields.get? name (Datum.ofJsonFields known)) = .ok (heldText known name) := by
  obtain ⟨hlisted, hvalues⟩ := hordered.object_inv
  rw [Datum.get?_ofJsonFields, heldText, Store.held]
  cases hvalue : Fields.get? name known with
  | none => rfl
  | some value =>
    have hmem := (Fields.mem_iff_get?_eq hlisted.nodup).2 hvalue
    have htext := (hvalues _ hmem).stringify?_ofJson (hfinite _ hmem)
    rw [Option.map_some, Option.map_some]
    cases value with
    | null => rfl
    | number x =>
      have hkept : (Json.number x).copy.isNull = false := by
        rw [Json.copy, Json.ofFloat, hfinite _ hmem x rfl, if_neg Bool.false_ne_true]
        split <;> rfl
      rw [Option.filter_some, hkept]
      exact congrArg (Except.mapError Fault.conversion) htext
    | _ => exact congrArg (Except.mapError Fault.conversion) htext

/-- A preview answers with the text of the copy. -/
theorem resolveStatic_run (hordered : (Json.object known).Ordered)
    (hfinite : ∀ entry ∈ known, ∀ x, entry.2 = .number x → (x.isNaN || x.isInf) = false)
    (clock : Int) {name : String} (hname : ¬ ['$'] <+: name.toList) (draws : Entropy) :
    (resolveStatic clock (Datum.ofJsonFields known) name).run.run draws =
      (.ok (heldText known name), draws) := by
  rw [resolveStatic]
  split
  · next rest hlist => exact absurd (hlist ▸ ⟨rest, rfl⟩) hname
  · rw [lookupText_eq hordered hfinite name]
    rfl

/-- An engine starts where the name of the scripting object is not defined. -/
theorem Engine.exists_new {C : Type} (language : Language C) (initial : VariableMap)
    {environment : VariableMap} (h : "client" ∉ Fields.names environment) (now : Int)
    (entropy : Entropy) :
    ∃ engine, Engine.new language initial environment now entropy = .ok engine := by
  rw [Engine.new, Fields.has, Fields.get?_eq_none_iff.2 h]
  exact ⟨_, rfl⟩

/-- A new engine answers with the text of the copy. -/
theorem Engine.resolve_run_new {C : Type} {language : Language C} {now : Int} {entropy : Entropy}
    {engine : Engine C} (hnames : (Fields.names known).Nodup)
    (hnew : Engine.new language known known now entropy = .ok engine) {name : String}
    (hname : ¬ ['$'] <+: name.toList) :
    (Engine.resolve language name).run.run engine = (.ok (heldText known name), engine) := by
  have hlookup := (simulates_new hnames hnames hnew).lookup name
  have hfirst : (VariableMaps.initially known known).first name = Store.held known name := by
    rw [VariableMaps.first, VariableMaps.initially, Option.none_or, Option.or_self]
  rw [hfirst] at hlookup
  rw [heldText, ← hlookup]
  exact resolve_of_plain language engine hname

/-- **A preview agrees with a run.** From a map of JSON values that does not define the name of the
scripting object, an engine starts, and it makes of a request whose placeholders do not start with a
dollar sign what a preview from the map makes of it: the same method, target, headers and body.
Neither of them draws, fails or changes anything. -/
theorem preview_agrees_with_engine {C : Type} (language : Language C)
    (hordered : (Json.object known).Ordered)
    (hfinite : ∀ entry ∈ known, ∀ x, entry.2 = .number x → (x.isNaN || x.isInf) = false)
    (hclient : "client" ∉ Fields.names known) {request : RequestTemplate}
    (hplain : ∀ template ∈ request.templates, ∀ script ∈ template.scripts,
      ¬ ['$'] <+: script.toList) (now : Int) (entropy : Entropy) :
    ∃ engine resolved, Engine.new language known known now entropy = .ok engine ∧
      (request.resolve (Engine.resolve language)).run.run engine = (.ok resolved, engine) ∧
      ∀ clock draws, (request.resolve
        (resolveStatic clock (Datum.ofJsonFields known))).run.run draws =
          (.ok resolved, draws) := by
  have hnames := hordered.object_inv.1.nodup
  obtain ⟨engine, hnew⟩ := Engine.exists_new language known hclient now entropy
  refine ⟨engine, Id.run (request.resolve fun script => pure (heldText known script)), hnew, ?_,
    fun clock draws => ?_⟩
  · exact RequestTemplate.resolve_run fun template htemplate script hscript =>
      Engine.resolve_run_new hnames hnew (hplain template htemplate script hscript)
  · exact RequestTemplate.resolve_run fun template htemplate script hscript =>
      resolveStatic_run hordered hfinite clock (hplain template htemplate script hscript) draws

/-- A map with a number, an object, a text without characters and a null. -/
def previewVariables : VariableMap :=
  Fields.ofEntries [("user", .object [("id", .number 1)]), ("7", .number 0), ("empty", .text ""),
    ("nothing", .null)]

/-- A request that asks for all of them, and for a name that is not there. -/
def previewRequest : RequestTemplate where
  method := .post
  methodSelection := Selection.none
  target := Template.ofText "a.http" "/\x7b\x7b7\x7d\x7d?u=\x7b\x7buser\x7d\x7d".toList ⟨1, 6⟩
  headers := [⟨"H", Template.ofText "a.http" "\x7b\x7bnothing\x7d\x7d".toList ⟨2, 4⟩,
    Selection.none⟩]
  body := some (Template.ofText "a.http"
    "\x7b\x7bempty\x7d\x7d\x7b\x7btoString\x7d\x7d".toList ⟨4, 1⟩)
  selection := Selection.none

theorem preview_agrees_with_engine_variables :
    ∃ engine resolved,
      Engine.new (javaScript Script.defaultLimit) previewVariables previewVariables 0 (.seeded 1) =
        .ok engine ∧
      (previewRequest.resolve (Engine.resolve (javaScript Script.defaultLimit))).run.run engine =
        (.ok resolved, engine) ∧
      ∀ clock draws, (previewRequest.resolve
        (resolveStatic clock (Datum.ofJsonFields previewVariables))).run.run draws =
          (.ok resolved, draws) := by
  have hordered : (Json.object previewVariables).Ordered := by
    refine .object (Fields.listed_ofEntries _) fun entry hmem => ?_
    have hentry := Fields.mem_ofEntries hmem
    simp only [List.mem_cons, List.not_mem_nil, or_false] at hentry
    rcases hentry with rfl | rfl | rfl | rfl
    · exact .object (Fields.listed_ofEntries [("id", .number 1)]) (by simp [Json.Ordered.number])
    · exact .number 0
    · exact .text ""
    · exact .null
  have hfinite : ∀ entry ∈ previewVariables, ∀ x, entry.2 = .number x →
      (x.isNaN || x.isInf) = false := by
    intro entry hmem x hx
    have hentry := Fields.mem_ofEntries hmem
    simp only [List.mem_cons, List.not_mem_nil, or_false] at hentry
    rcases hentry with rfl | rfl | rfl | rfl <;> cases hx
    decide +kernel
  exact preview_agrees_with_engine _ hordered hfinite (by decide +kernel) (by decide +kernel) 0
    (.seeded 1)

end RequestRunner
