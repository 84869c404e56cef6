import Mathlib.Data.List.Forall2
import Mathlib.Logic.Basic
import RequestRunner.Proofs.Text.Order
import RequestRunner.Run.Outcome

/-!
# The failed tests of reports

A report has a failure if the last outcome of some test is one (`Report.HasFailure`); its failed
tests are exactly these entries, in the order of the names (`Report.map_failed`,
`Report.ordered_all`). `RunItem.HasFailures` says what has to be told of them under the name of an
item, without a word on how it is found. Main statements: the failures of results are those of their
reports (`Run.exists_failures`, `Run.failures_eq_zip`), and there are none exactly if no report has
one (`Run.failures_eq_nil_iff`).
-/

set_option autoImplicit false

namespace RequestRunner

namespace Report

/-- Some test of the report failed. -/
def HasFailure (report : Report) : Prop :=
  ∃ name reason, (name, TestOutcome.failure reason) ∈ report.entries

/-- The failed tests are those entries of the listing that are failures. -/
theorem map_failed (report : Report) :
    report.failed.map (fun failure => (failure.1, TestOutcome.failure failure.2)) =
      report.all.filter fun entry => entry.2 != .success := by
  rw [failed]
  -- along the listing, whatever order it is in
  induction report.all with
  | nil => rfl
  | cons entry rest ih =>
    obtain ⟨name, outcome⟩ := entry
    cases outcome with
    | success => exact ih
    | failure reason =>
      rw [List.filterMap_cons, List.filter_cons]
      exact congrArg (List.cons (name, TestOutcome.failure reason)) ih

/-- No entry of the listing belongs in front of an earlier one. -/
theorem ordered_all (report : Report) :
    report.all.Pairwise fun entry next => Text.precedes next.1 entry.1 = false := by
  have hsorted : report.all.Pairwise fun entry next =>
      (!Text.precedes next.1 entry.1) = true := by
    apply List.pairwise_mergeSort
    · intro a b c hab hbc
      rw [Bool.not_eq_true'] at *
      exact Text.not_precedes_trans hab hbc
    · intro a b
      rw [Bool.or_eq_true, Bool.not_eq_true', Bool.not_eq_true']
      exact Text.not_precedes_or a.1 b.1
  exact hsorted.imp fun hbehind => by rwa [Bool.not_eq_true'] at hbehind

theorem failed_eq_nil_iff (report : Report) : report.failed = [] ↔ ¬ report.HasFailure := by
  rw [failed, List.filterMap_eq_nil_iff, HasFailure]
  constructor
  · rintro h ⟨name, reason, hmem⟩
    have hlisted := h (name, .failure reason) (report.all_perm.mem_iff.2 hmem)
    cases hlisted
  · rintro h ⟨name, outcome⟩ hmem
    cases outcome with
    | success => rfl
    | failure reason => exact absurd ⟨name, reason, report.all_perm.mem_iff.1 hmem⟩ h

theorem failed_ne_nil_iff (report : Report) : report.failed ≠ [] ↔ report.HasFailure :=
  report.failed_eq_nil_iff.not_left

end Report

/-- What there is to tell of the failed tests of an item: each of them once with its reason, in the
order of their names, and under the name of the item. -/
structure RunItem.HasFailures (item : RunItem) (report : Report) (failures : List TestFailure) :
    Prop where
  named : ∀ failure ∈ failures, failure.request = item.name
  told : (failures.map fun failure => (failure.test, TestOutcome.failure failure.reason)).Perm
    (report.entries.filter fun entry => entry.2 != .success)
  ordered : failures.Pairwise fun failure next => Text.precedes next.test failure.test = false

/-- **The failed tests of a report are what there is to tell.** -/
theorem RunItem.hasFailures (item : RunItem) (report : Report) :
    item.HasFailures report
      (report.failed.map fun (test, reason) => ⟨item.name, test, reason⟩) where
  named := by
    intro failure hmem
    obtain ⟨_, -, rfl⟩ := List.mem_map.1 hmem
    rfl
  told := by
    have hperm := report.all_perm.filter fun entry => entry.2 != .success
    rw [← report.map_failed] at hperm
    rw [List.map_map]
    exact hperm
  ordered := by
    have hordered := report.ordered_all.filter fun entry => entry.2 != .success
    rw [← report.map_failed, List.pairwise_map] at hordered
    exact List.pairwise_map.2 hordered

/-- The failed tests of a result, under the name of its request. -/
def RequestResult.failures (result : RequestResult) : List TestFailure :=
  result.report.failed.map fun (test, reason) =>
    ⟨result.file ++ " / " ++ result.request, test, reason⟩

namespace Run

/-- The failed tests of all results, in order. -/
def failures (results : List RequestResult) : List TestFailure :=
  results.flatMap RequestResult.failures

/-- **There are failures exactly if some report has a failed test.** -/
theorem failures_eq_nil_iff (results : List RequestResult) :
    failures results = [] ↔ ∀ result ∈ results, result.report.failed = [] := by
  simp [failures, RequestResult.failures, List.flatMap_eq_nil_iff]

theorem failures_ne_nil_iff (results : List RequestResult) :
    failures results ≠ [] ↔ ∃ result ∈ results, result.report.HasFailure := by
  rw [Ne, failures_eq_nil_iff]
  simp only [not_forall, exists_prop]
  exact exists_congr fun result => and_congr_right fun _ => result.report.failed_ne_nil_iff

section Places

variable {items : List RunItem} {results : List RequestResult}
  (h : results.map (fun result => (result.file, result.request)) =
    items.map fun item => (item.file, item.sectionName))

include h

/-- Every failure stands under the name of its item. -/
theorem failures_eq_zip :
    failures results = (items.zip results).flatMap fun (item, result) =>
      result.report.failed.map fun (test, reason) => ⟨item.name, test, reason⟩ := by
  induction results generalizing items with
  | nil => rw [List.zip_nil_right]; rfl
  | cons result rest ih =>
    cases items with
    | nil => cases h
    | cons item more =>
      rw [List.map_cons, List.map_cons, List.cons_eq_cons, Prod.mk.injEq] at h
      obtain ⟨⟨hfile, hrequest⟩, hrest⟩ := h
      rw [List.zip_cons_cons, List.flatMap_cons, ← ih hrest, failures, List.flatMap_cons,
        RequestResult.failures, hfile, hrequest]
      rfl

/-- **The failures of results tell, item by item, what there is to tell of the reports.** -/
theorem exists_failures :
    ∃ groups, List.Forall₂ (fun (item, result) group =>
        RunItem.HasFailures item (RequestResult.report result) group) (items.zip results) groups ∧
      failures results = groups.flatten := by
  refine ⟨(items.zip results).map fun (item, result) =>
    result.report.failed.map fun (test, reason) => ⟨item.name, test, reason⟩, ?_, ?_⟩
  · rw [List.forall₂_map_right_iff, List.forall₂_same]
    exact fun place _ => place.1.hasFailures place.2.report
  · rw [failures_eq_zip h, List.flatMap_def]

end Places

end Run

end RequestRunner
