import RequestRunner.Proofs.Engine.History
import RequestRunner.Proofs.Engine.StoredValues

/-!
# Recorded tests along a course

`HostEvent.note` is what an event does to the report, and a course does to it what its events do
(`Course.report`). `HostEvent.outcomes` lists the outcomes that events record for one test. As long
as no next request starts, the report holds the last of them (`get?_foldl_note`), and it lists every
test once (`nodup_foldl_note`), so that a failure among its entries is a test whose last outcome is
that failure (`Report.hasFailure_iff`).
-/

set_option autoImplicit false

namespace RequestRunner

namespace Report

/-- The names of the tests. -/
def names (report : Report) : List String := Fields.names report.entries

theorem names_put (name : String) (outcome : TestOutcome)
    (entries : List (String × TestOutcome)) :
    Fields.names (put name outcome entries) =
      if name ∈ Fields.names entries then Fields.names entries
      else Fields.names entries ++ [name] := by
  induction entries with
  | nil => rfl
  | cons entry rest ih =>
    obtain ⟨key, old⟩ := entry
    by_cases hk : key = name
    · subst hk
      simp [put, Fields.names_cons]
    · simp only [put, hk, if_false, Fields.names_cons, ih, List.mem_cons, Ne.symm hk, false_or]
      split <;> rfl

/-- Recording keeps every test listed once. -/
theorem nodup_record {report : Report} (h : report.names.Nodup) (name : String)
    (outcome : TestOutcome) : (report.record name outcome).names.Nodup := by
  rw [names, record, names_put]
  split
  · exact h
  · next habsent =>
    rw [List.nodup_append]
    refine ⟨h, List.pairwise_singleton _ _, ?_⟩
    intro other hother key hkey heq
    rw [List.mem_singleton] at hkey
    exact habsent (hkey ▸ heq ▸ hother)

/-- Where every test is listed once, the entries are the outcomes by name. -/
theorem mem_entries_iff {report : Report} (h : report.names.Nodup) (name : String)
    (outcome : TestOutcome) :
    (name, outcome) ∈ report.entries ↔ report.get? name = some outcome :=
  Fields.mem_iff_get?_eq h

end Report

namespace HostEvent

/-- The report behind an event. -/
def note (report : Report) : HostEvent → Report
  | .call (.record name outcome) _ => report.record name outcome
  | .renewed => Report.empty
  | _ => report

/-- The outcome that an event records for a test. -/
def outcome? (name : String) : HostEvent → Option TestOutcome
  | .call (.record other outcome) _ => if other = name then some outcome else none
  | _ => none

/-- The outcomes that events record for a test, in order. -/
def outcomes (name : String) (events : List HostEvent) : List TestOutcome :=
  events.filterMap (outcome? name)

theorem get?_note {event : HostEvent} (hrenewed : event ≠ .renewed) (report : Report)
    (name : String) :
    (event.note report).get? name = (event.outcome? name).or (report.get? name) := by
  cases event with
  | call request reply =>
    cases request with
    | record other outcome =>
      change (report.record other outcome).get? name = (if other = name then some outcome
        else none).or (report.get? name)
      by_cases hname : other = name
      · subst hname
        rw [Report.get?_record_self, if_pos rfl, Option.some_or]
      · rw [Report.get?_record_of_ne report outcome (Ne.symm hname), if_neg hname, Option.none_or]
    | _ => rfl
  | drained => rfl
  | renewed => exact absurd rfl hrenewed

/-- **The report holds the last outcome of every test.** -/
theorem get?_foldl_note {events : List HostEvent} (hrenewed : .renewed ∉ events) (report : Report)
    (name : String) :
    (events.foldl note report).get? name =
      (outcomes name events).getLast?.or (report.get? name) := by
  induction events generalizing report with
  | nil => rfl
  | cons event rest ih =>
    rw [List.mem_cons, not_or] at hrenewed
    rw [List.foldl_cons, ih hrenewed.2, get?_note (Ne.symm hrenewed.1), outcomes, outcomes,
      List.filterMap_cons]
    -- an outcome of the first event only counts if no later one follows
    cases event.outcome? name with
    | none => rfl
    | some outcome =>
      rw [List.getLast?_cons, Option.some_or, Option.some_or]
      cases (List.filterMap (outcome? name) rest).getLast? <;> rfl

theorem nodup_foldl_note (events : List HostEvent) {report : Report} (h : report.names.Nodup) :
    (events.foldl note report).names.Nodup := by
  induction events generalizing report with
  | nil => exact h
  | cons event rest ih =>
    apply ih
    unfold note
    split
    · exact Report.nodup_record h _ _
    · exact List.nodup_nil
    · exact h

end HostEvent

namespace Host

theorem change_report (h : Host) (scope : Scope) (f : Accessor → Except StoreError Accessor) :
    (h.change scope f).report = h.report := by
  unfold change
  split
  · cases scope <;> rfl
  · rfl

/-- **A course does to the report what its events do.** -/
theorem Course.report {h t : Host} {events : List HostEvent} (course : Course h events t) :
    t.report = events.foldl HostEvent.note h.report := by
  induction course with
  | nil h => rfl
  | @call h t events request _ ih =>
    have heffect : (h.effect request).report =
        (HostEvent.call request (h.answer request)).note h.report := by
      cases request <;> first | exact change_report h _ _ | rfl
    rw [List.foldl_cons, ih, heffect]
  | drained _ ih => exact ih
  | renewed _ ih => exact ih

end Host

/-- In a dialogue no request starts. -/
theorem Activity.renewed_not_mem_dialogue {α : Type} (activity : Activity α) (h : Host) :
    HostEvent.renewed ∉ activity.dialogue h := by
  induction activity generalizing h with
  | done a => exact List.not_mem_nil
  | call request next ih =>
    rw [dialogue, List.mem_cons, not_or]
    exact ⟨nofun, ih _ _⟩

namespace Engine

variable {C : Type} (language : Language C)

/-- Only a reset starts a request. -/
theorem renewed_not_mem_events (engine : Engine C) {call : CrewCall} (h : call ≠ .reset) :
    HostEvent.renewed ∉ engine.events language call := by
  have hconversation {α : Type} (activity : C → Activity (Except Fault α × C)) :
      HostEvent.renewed ∉ engine.conversation activity := by
    rw [conversation, List.mem_append, not_or]
    exact ⟨Activity.renewed_not_mem_dialogue _ _, by simp⟩
  cases call with
  | define name value => simp [events]
  | resolve name =>
    rw [events]
    split
    · exact hconversation _
    · simp
  | preHandle handler request => exact hconversation _
  | handle handler response => exact hconversation _
  | reset => exact absurd rfl h
  | _ => exact List.not_mem_nil

theorem renewed_not_mem_history (engine : Engine C) {calls : List CrewCall}
    (h : ∀ call ∈ calls, call ≠ .reset) : HostEvent.renewed ∉ engine.history language calls := by
  induction calls generalizing engine with
  | nil => exact List.not_mem_nil
  | cons call rest ih =>
    rw [history, List.mem_append, not_or]
    constructor
    · exact renewed_not_mem_events language engine (h call List.mem_cons_self)
    · exact ih _ fun other hmem => h other (List.mem_cons_of_mem _ hmem)

/-- **The report of a request holds the last outcome of every test that its scripts recorded.** -/
theorem get?_report_afterAll {engine : Engine C} {calls : List CrewCall}
    (hreset : ∀ call ∈ calls, call ≠ .reset) (hempty : engine.report = Report.empty)
    (name : String) :
    (engine.afterAll language calls).report.get? name =
      (HostEvent.outcomes name (engine.history language calls)).getLast? := by
  rw [report, (course_history language engine calls).report,
    HostEvent.get?_foldl_note (renewed_not_mem_history language engine hreset)]
  rw [report] at hempty
  rw [hempty]
  exact Option.or_none

theorem nodup_report_afterAll {engine : Engine C} (calls : List CrewCall)
    (hempty : engine.report = Report.empty) :
    (engine.afterAll language calls).report.names.Nodup := by
  rw [report, (course_history language engine calls).report]
  apply HostEvent.nodup_foldl_note
  rw [report] at hempty
  rw [hempty]
  exact List.nodup_nil

end Engine

end RequestRunner
