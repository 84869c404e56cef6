import Mathlib.Order.Bounds.Basic
import RequestRunner.Output.Printer
import RequestRunner.Proofs.Report.Listing
import RequestRunner.Proofs.Text.Trim

/-!
# Aligned tables

A column begins behind the columns in front of it and two spaces after each (`Table.offset`), and it
is as wide as its widest cell (`Table.isWidth_of_widths`). A line that is filled up to the width of the
table has every cell where its column begins, and spaces everywhere else (`Table.IsLaidOut`); what
is cut off its end is only that filling, as long as the last text of its row ends with a character
that is no blank (`Table.isLaidOut_line`). A text that consists of such lines is a table of its rows
(`Table.IsTable`). Main statement: at the end of a run a table printer writes the rows of all
results in such lines, one row for every test and one for every result without tests
(`Printer.tests_writes_table`); the rows of any results are read off their reports
(`RequestResult.hasRows_tableRows`).
-/

set_option autoImplicit false

namespace RequestRunner

namespace Table

open Text

/-! ## Widths -/

/-- The number is the width of a column: the greatest width of a cell in it. -/
def IsWidth (rows : List Row) (column w : Nat) : Prop :=
  IsGreatest {n | ∃ row ∈ rows, ∃ cell, row[column]? = some cell ∧ width cell = n} w

/-- Every row has a cell for each column. -/
def Fills (columns : Nat) (rows : List Row) : Prop := ∀ row ∈ rows, row.length = columns

theorem widths_concat (header : Row) (rows : List Row) (row : Row) :
    widths header (rows ++ [row]) =
      List.zipWith max (widths header rows) (row.map width) := by
  rw [widths, List.foldl_append]
  rfl

theorem length_widths {header : Row} {rows : List Row} (h : Fills header.length rows) :
    (widths header rows).length = header.length := by
  induction rows using List.reverseRecOn with
  | nil => exact List.length_map _
  | append_singleton rows row ih =>
    have hrow := h row List.mem_concat_self
    have hrows := ih fun other hmem => h other (List.mem_append_left _ hmem)
    rw [widths_concat, List.length_zipWith, List.length_map, hrows, hrow, Nat.min_self]

/-- **Every column is as wide as its widest cell.** -/
theorem isWidth_of_widths {header : Row} {rows : List Row} (h : Fills header.length rows)
    {column w : Nat} (hw : (widths header rows)[column]? = some w) :
    IsWidth (header :: rows) column w := by
  induction rows using List.reverseRecOn generalizing w with
  | nil =>
    rw [widths, List.foldl_nil, List.getElem?_map, Option.map_eq_some_iff] at hw
    obtain ⟨cell, hcell, rfl⟩ := hw
    refine ⟨⟨header, List.mem_cons_self, cell, hcell, rfl⟩, ?_⟩
    rintro n ⟨row, hmem, other, hother, rfl⟩
    rw [List.mem_singleton.1 hmem, hcell] at hother
    cases hother
    exact le_refl _
  | append_singleton rows row ih =>
    rw [widths_concat, List.getElem?_zipWith_eq_some] at hw
    obtain ⟨old, new, hold, hnew, rfl⟩ := hw
    rw [List.getElem?_map, Option.map_eq_some_iff] at hnew
    obtain ⟨cell, hcell, rfl⟩ := hnew
    obtain ⟨⟨widest, hwidest, text, htext, rfl⟩, hupper⟩ :=
      ih (fun other hmem => h other (List.mem_append_left _ hmem)) hold
    constructor
    · -- the wider of the two cells is the widest one
      rcases le_total (width text) (width cell) with hle | hle
      · exact ⟨row, by simp, cell, hcell, (max_eq_right hle).symm⟩
      · refine ⟨widest, ?_, text, htext, (max_eq_left hle).symm⟩
        rw [← List.cons_append]
        exact List.mem_append_left _ hwidest
    · rintro n ⟨other, hmem, found, hfound, rfl⟩
      rw [← List.cons_append, List.mem_append, List.mem_singleton] at hmem
      rcases hmem with hmem | rfl
      · exact le_max_of_le_left (hupper ⟨other, hmem, found, hfound, rfl⟩)
      · rw [hcell] at hfound
        cases hfound
        exact le_max_right _ _

/-! ## Lines -/

/-- Where a column begins: behind the columns in front of it and two spaces after each of them. -/
def offset (ws : List Nat) (column : Nat) : Nat := (ws.take column).sum + 2 * column

/-- The width of a table: that of its columns and of the spaces between them. -/
def fullWidth (ws : List Nat) : Nat := ws.sum + 2 * (ws.length - 1)

/-- The position belongs to no cell of the row. -/
def IsGap (ws : List Nat) (row : Row) (i : Nat) : Prop :=
  ∀ column cell, row[column]? = some cell →
    i < offset ws column ∨ offset ws column + width cell ≤ i

/-- The units are those of a row over the whole width of a table: every cell stands where its column
begins, and there are spaces everywhere else. -/
structure Shows (ws : List Nat) (row : Row) (us : List Nat) : Prop where
  length : us.length = fullWidth ws
  cell : ∀ column cell, row[column]? = some cell →
    (us.drop (offset ws column)).take (width cell) = codeUnits cell.toList
  space : ∀ i < fullWidth ws, IsGap ws row i → us[i]? = some 0x20

/-- The line shows a row once it is filled up with spaces, and no such space ends it. -/
structure IsLaidOut (ws : List Nat) (row : Row) (l : List Char) : Prop where
  shows : Shows ws row (codeUnits (padEnd (fullWidth ws) l))
  stop : ∀ c, l.getLast? = some c → isBlank c = false

theorem offset_cons (w : Nat) (ws : List Nat) (column : Nat) :
    offset (w :: ws) (column + 1) = w + 2 + offset ws column := by
  simp only [offset, List.take_succ_cons, List.sum_cons]
  omega

theorem fullWidth_cons_cons (w v : Nat) (ws : List Nat) :
    fullWidth (w :: v :: ws) = w + 2 + fullWidth (v :: ws) := by
  simp only [fullWidth, List.sum_cons, List.length_cons]
  omega

theorem codeUnits_append (s t : List Char) :
    codeUnits (s ++ t) = codeUnits s ++ codeUnits t := List.flatMap_append

theorem codeUnits_padEnd (w : Nat) (s : List Char) :
    codeUnits (padEnd w s) = codeUnits s ++ List.replicate (w - units s) 0x20 := by
  have hspaces : ∀ n, codeUnits (List.replicate n ' ') = List.replicate n 0x20 := by
    intro n
    induction n with
    | zero => rfl
    | succ n ih => exact congrArg (0x20 :: ·) ih
  rw [padEnd, codeUnits_append, hspaces]

theorem take_codeUnits_padEnd (w : Nat) (cell : String) (us : List Nat) :
    (codeUnits (padEnd w cell.toList) ++ us).take (width cell) = codeUnits cell.toList := by
  rw [codeUnits_padEnd, List.append_assoc]
  exact List.take_left' (length_codeUnits _)

section Shows

variable {w : Nat} {cell : String} (hcell : width cell ≤ w)

include hcell

theorem length_codeUnits_padEnd : (codeUnits (padEnd w cell.toList)).length = w := by
  rw [length_codeUnits, units_padEnd]
  exact max_eq_left hcell

theorem getElem?_codeUnits_padEnd {i : Nat} (hi : i < w) (hgap : width cell ≤ i) :
    (codeUnits (padEnd w cell.toList))[i]? = some 0x20 := by
  have hlength : (codeUnits cell.toList).length = width cell := length_codeUnits _
  rw [codeUnits_padEnd, List.getElem?_append_right (by omega), List.getElem?_replicate, hlength]
  refine if_pos ?_
  change i - width cell < w - width cell
  omega

theorem shows_singleton : Shows [w] [cell] (codeUnits (padEnd w cell.toList)) := by
  refine ⟨length_codeUnits_padEnd hcell, fun column text htext => ?_, fun i hi hgap => ?_⟩
  · obtain ⟨rfl, rfl⟩ : column = 0 ∧ cell = text := by
      cases column with
      | zero => exact ⟨rfl, Option.some.inj htext⟩
      | succ column => cases htext
    have htake := take_codeUnits_padEnd w cell []
    rw [List.append_nil] at htake
    exact htake
  · have hbehind := hgap 0 cell rfl
    exact getElem?_codeUnits_padEnd hcell hi (by simpa [offset] using hbehind)

/-- A row is shown behind its first cell and two spaces. -/
theorem Shows.cons {v : Nat} {ws us : List Nat} {row : Row} (h : Shows (v :: ws) row us) :
    Shows (w :: v :: ws) (cell :: row)
      (codeUnits (padEnd w cell.toList) ++ ([0x20, 0x20] ++ us)) := by
  have hlength := length_codeUnits_padEnd hcell
  have hfront : (codeUnits (padEnd w cell.toList) ++ [0x20, 0x20]).length = w + 2 := by
    rw [List.length_append, hlength]
    rfl
  refine ⟨?_, fun column text htext => ?_, fun i hi hgap => ?_⟩
  · rw [← List.append_assoc, List.length_append, hfront, h.length, fullWidth_cons_cons]
  · cases column with
    | zero =>
      obtain rfl : cell = text := Option.some.inj htext
      exact take_codeUnits_padEnd w cell _
    | succ column =>
      rw [offset_cons, ← List.append_assoc, ← hfront, List.drop_length_add_append]
      exact h.cell column text htext
  · have hbehind := hgap 0 cell rfl
    rcases Nat.lt_or_ge i w with hin | hout
    · rw [List.getElem?_append_left (by omega)]
      exact getElem?_codeUnits_padEnd hcell hin (by simpa [offset] using hbehind)
    rcases Nat.lt_or_ge i (w + 2) with hbetween | hrest
    · rw [← List.append_assoc, List.getElem?_append_left (by omega),
        List.getElem?_append_right (by omega), hlength]
      obtain hzero | hone : i - w = 0 ∨ i - w = 1 := by omega
      · rw [hzero]; rfl
      · rw [hone]; rfl
    · rw [fullWidth_cons_cons] at hi
      rw [← List.append_assoc, List.getElem?_append_right (by omega), hfront]
      refine h.space _ (by omega) fun column text htext => ?_
      have hlater := hgap (column + 1) text htext
      rw [offset_cons] at hlater
      omega

end Shows

/-- The cells are no wider than their columns. -/
abbrev Fits (ws : List Nat) (row : Row) : Prop := List.Forall₂ (fun w cell => width cell ≤ w) ws row

/-- The row over the whole width of the table. -/
def filled (ws : List Nat) (row : Row) : List Char :=
  ((cells ws row).intersperse [' ', ' ']).flatten

theorem filled_singleton (w : Nat) (cell : String) :
    filled [w] [cell] = padEnd w cell.toList := by
  simp [filled, cells]

theorem filled_cons_cons (w v : Nat) (ws : List Nat) (cell next : String) (row : Row) :
    filled (w :: v :: ws) (cell :: next :: row) =
      padEnd w cell.toList ++ ([' ', ' '] ++ filled (v :: ws) (next :: row)) := by
  simp [filled, cells]

/-- **Every cell stands where its column begins**, and there are spaces everywhere else. -/
theorem shows_filled {ws : List Nat} {row : Row} (h : Fits ws row) :
    Shows ws row (codeUnits (filled ws row)) := by
  induction h with
  | nil => exact ⟨rfl, nofun, nofun⟩
  | cons hcell hrest ih =>
    cases hrest with
    | nil =>
      rw [filled_singleton]
      exact shows_singleton hcell
    | cons hnext hmore =>
      rw [filled_cons_cons, codeUnits_append, codeUnits_append]
      exact ih.cons hcell

/-! ## The end of a line -/

/-- The last text of the row that is not empty ends with a character that is no blank. -/
inductive EndsInked : Row → Prop where
  | here {text : String} {rest : Row} {s : List Char} {c : Char} (htext : text.toList = s ++ [c])
      (hc : isBlank c = false) (hrest : ∀ cell ∈ rest, cell = "") : EndsInked (text :: rest)
  | later {cell : String} {rest : Row} (hrest : EndsInked rest) : EndsInked (cell :: rest)

/-- Empty cells are filled with spaces. -/
theorem filled_empty {ws : List Nat} {row : Row} (h : Fits ws row)
    (hempty : ∀ cell ∈ row, cell = "") : ∃ n, filled ws row = List.replicate n ' ' := by
  induction h with
  | nil => exact ⟨0, rfl⟩
  | @cons w cell ws row hcell hrest ih =>
    obtain ⟨n, hn⟩ := ih fun other hmem => hempty other (List.mem_cons_of_mem _ hmem)
    obtain rfl : cell = "" := hempty cell List.mem_cons_self
    cases hrest with
    | nil => exact ⟨w, by simp [filled_singleton, padEnd, units]⟩
    | cons hnext hmore =>
      refine ⟨w + (2 + n), ?_⟩
      rw [filled_cons_cons, hn, List.replicate_add, List.replicate_add]
      simp [padEnd, units]

/-- Behind the last text of a row there are only spaces. -/
theorem exists_filled {ws : List Nat} {row : Row} (h : Fits ws row) (hrow : EndsInked row) :
    ∃ s c n, filled ws row = (s ++ [c]) ++ List.replicate n ' ' ∧ isBlank c = false := by
  induction h with
  | nil => cases hrow
  | @cons w cell ws row hcell hrest ih =>
    cases hrow with
    | @here _ _ s c htext hc hempty =>
      cases hrest with
      | nil => exact ⟨s, c, _, by rw [filled_singleton, padEnd, htext], hc⟩
      | @cons v next ws row hnext hmore =>
        obtain ⟨n, hn⟩ := filled_empty (hmore.cons hnext) hempty
        refine ⟨s, c, (w - units cell.toList) + (2 + n), ?_, hc⟩
        rw [filled_cons_cons, hn, padEnd, htext, List.replicate_add, List.replicate_add]
        simp
    | later hlater =>
      obtain ⟨s, c, n, hfilled, hc⟩ := ih hlater
      cases hrest with
      | nil => cases hlater
      | @cons v next ws row hnext hmore =>
        refine ⟨padEnd w cell.toList ++ ([' ', ' '] ++ s), c, n, ?_, hc⟩
        rw [filled_cons_cons, hfilled]
        simp only [List.append_assoc]

/-- **Only the filling is cut off a line.** -/
theorem isLaidOut_line {ws : List Nat} {row : Row} (h : Fits ws row) (hrow : EndsInked row) :
    IsLaidOut ws row (line ws row) := by
  have hshows := shows_filled h
  obtain ⟨s, c, n, hfilled, hc⟩ := exists_filled h hrow
  have hspaces : allBlank (List.replicate n ' ') = true := by
    rw [allBlank, List.all_replicate]
    simp [show isBlank ' ' = true by decide]
  have hline : line ws row = s ++ [c] := by
    change trimEnd (filled ws row) = _
    rw [hfilled, trimEnd_append_of_allBlank _ hspaces, trimEnd_append_singleton s hc]
  -- filled up again, the line is what it was cut from
  have hwhole : padEnd (fullWidth ws) (line ws row) = filled ws row := by
    have hlength := hshows.length
    rw [length_codeUnits, hfilled, units_append, units_replicate_space] at hlength
    rw [hline, padEnd, hfilled, ← hlength, Nat.add_sub_cancel_left]
  refine ⟨by rw [hwhole]; exact hshows, fun d hd => ?_⟩
  rw [hline, List.getLast?_concat, Option.some.injEq] at hd
  rw [← hd]
  exact hc

/-! ## Whole tables -/

/-- The dashes of a column. -/
theorem width_dashes (w : Nat) : width (String.ofList (List.replicate w '-')) = w := by
  rw [width, String.toList_ofList]
  induction w with
  | zero => rfl
  | succ w ih =>
    rw [List.replicate_succ, units, ih, show charUnits '-' = 1 from by decide, Nat.add_comm]

theorem fits_dashes (ws : List Nat) : Fits ws (dashes ws) := by
  rw [Fits, dashes, List.forall₂_map_right_iff, List.forall₂_same]
  exact fun w _ => (width_dashes w).le

/-- The row of dashes ends with a dash if the last column is not empty. -/
theorem endsInked_dashes {ws : List Nat} {w : Nat} (hlast : ws.getLast? = some w) (hw : 0 < w) :
    EndsInked (dashes ws) := by
  induction ws with
  | nil => cases hlast
  | cons v ws ih =>
    cases ws with
    | nil =>
      obtain rfl : v = w := Option.some.inj hlast
      obtain ⟨n, rfl⟩ := Nat.exists_eq_succ_of_ne_zero hw.ne'
      have hdash : isBlank '-' = false := by decide
      exact .here (by rw [String.toList_ofList, List.replicate_succ']) hdash nofun
    | cons u ws => exact .later (ih hlast)

/-- The text is a table of rows under a header: every column is as wide as its widest cell, and each
row stands on a line of its own, aligned to the columns, with a row of dashes under the header. -/
def IsTable (header : Row) (rows : List Row) (text : String) : Prop :=
  ∃ (ws : List Nat) (lines : List (List Char)), ws.length = header.length ∧
    (∀ column w, ws[column]? = some w → IsWidth (header :: rows) column w) ∧
    List.Forall₂ (IsLaidOut ws) (header :: dashes ws :: rows) lines ∧
    text = String.ofList (lines.flatMap fun line => line ++ ['\n'])

section Tables

variable {header : Row} {rows : List Row} (h : Fills header.length rows)

include h

theorem fits_widths {row : Row} (hrow : row ∈ header :: rows) :
    Fits (widths header rows) row := by
  have hlength : row.length = header.length := by
    rcases List.mem_cons.1 hrow with rfl | hmem
    · rfl
    · exact h row hmem
  refine List.forall₂_iff_get.2 ⟨(length_widths h).trans hlength.symm, fun i hw hi => ?_⟩
  have hwidest := isWidth_of_widths h (List.getElem?_eq_getElem hw)
  exact hwidest.2 ⟨row, hrow, row[i], List.getElem?_eq_getElem hi, rfl⟩

/-- **A table consists of aligned lines**, if its rows end with texts. -/
theorem isLaidOut_lines (hink : ∀ row ∈ header :: dashes (widths header rows) :: rows,
    EndsInked row) :
    List.Forall₂ (IsLaidOut (widths header rows))
      (header :: dashes (widths header rows) :: rows) (lines header rows) := by
  have hlines : lines header rows =
      (header :: dashes (widths header rows) :: rows).map (line (widths header rows)) := rfl
  rw [hlines, List.forall₂_map_right_iff, List.forall₂_same]
  intro row hrow
  refine isLaidOut_line ?_ (hink row hrow)
  rcases List.mem_cons.1 hrow with rfl | hmem
  · exact fits_widths h List.mem_cons_self
  rcases List.mem_cons.1 hmem with rfl | hmem
  · exact fits_dashes _
  · exact fits_widths h (List.mem_cons_of_mem _ hmem)

end Tables

example : lines ["a", "b"] [["ccc", "d"]] =
    ["a    b".toList, "---  -".toList, "ccc  d".toList] := by decide

end Table

/-! ## The table of a run -/

/-- The word for an outcome. -/
def TestOutcome.word : TestOutcome → String
  | .success => "PASSED"
  | .failure _ => "FAILED"

theorem TestOutcome.exists_word (outcome : TestOutcome) :
    ∃ s, outcome.word.toList = s ++ ['D'] := by
  cases outcome with
  | success => exact ⟨"PASSE".toList, show "PASSED".toList = _ by decide⟩
  | failure reason => exact ⟨"FAILE".toList, show "FAILED".toList = _ by decide⟩

namespace RequestResult

/-- The rows that a table has for a result: one that says that there are no tests, or one for every
test of its report, in the order of the names. -/
inductive HasRows (result : RequestResult) : List Table.Row → Prop where
  | untested (hnone : result.report.entries = []) :
      HasRows result [[result.file, result.request, "NO TESTS FOUND", ""]]
  | tested (hsome : result.report.entries ≠ []) (listed : List (String × TestOutcome))
      (hordered : listed.Pairwise fun entry next => Text.precedes next.1 entry.1 = false)
      (hlisted : listed.Perm result.report.entries) :
      HasRows result (listed.map fun (name, outcome) =>
        [result.file, result.request, name, outcome.word])

theorem tableRows_eq {result : RequestResult} (h : ¬ result.report.isEmpty = true) :
    Printer.tableRows result = result.report.all.map fun (name, outcome) =>
      [result.file, result.request, name, outcome.word] := by
  rw [Printer.tableRows, if_neg h]
  refine List.map_congr_left fun entry _ => ?_
  obtain ⟨name, outcome⟩ := entry
  cases outcome <;> rfl

/-- **A table printer makes a row of every test**, or one of a result without tests. -/
theorem hasRows_tableRows (result : RequestResult) : result.HasRows (Printer.tableRows result) := by
  by_cases h : result.report.isEmpty = true
  · rw [Printer.tableRows, if_pos h]
    exact .untested (List.isEmpty_iff.1 h)
  · rw [tableRows_eq h]
    exact .tested (mt List.isEmpty_iff.2 h) _ result.report.ordered_all result.report.all_perm

/-- A row of a result has four cells, the last of which ends with a text. -/
theorem HasRows.inked {result : RequestResult} {rows : List Table.Row} (h : result.HasRows rows)
    {row : Table.Row} (hrow : row ∈ rows) : row.length = 4 ∧ Table.EndsInked row := by
  have hd : Text.isBlank 'D' = false := by decide
  cases h with
  | untested =>
    obtain rfl := List.mem_singleton.1 hrow
    have htext : "NO TESTS FOUND".toList = "NO TESTS FOUN".toList ++ ['D'] := by decide
    exact ⟨rfl, .later (.later (.here htext hd fun cell hcell => List.mem_singleton.1 hcell))⟩
  | tested _ listed =>
    obtain ⟨⟨name, outcome⟩, -, rfl⟩ := List.mem_map.1 hrow
    obtain ⟨s, htext⟩ := outcome.exists_word
    exact ⟨rfl, .later (.later (.later (.here htext hd nofun)))⟩

end RequestResult

/-- A request with the tests that were recorded for it. -/
structure RecordedResult where
  /-- The file of the request. -/
  file : String
  /-- The name of its section. -/
  request : String
  /-- The recorded tests, in the order of their recording. -/
  records : List (String × TestOutcome)

namespace RecordedResult

/-- The result of the request. -/
def result (recorded : RecordedResult) : RequestResult :=
  ⟨recorded.file, recorded.request, Report.ofRecords recorded.records⟩

/-- The rows that a table has for a request: one that says that there are no tests, or one for every
recorded name, in the strict order of the names, with its last outcome. -/
inductive HasRows (recorded : RecordedResult) : List Table.Row → Prop where
  | untested (hnone : recorded.records = []) :
      HasRows recorded [[recorded.file, recorded.request, "NO TESTS FOUND", ""]]
  | tested (hsome : recorded.records ≠ []) (listed : List (String × TestOutcome))
      (hordered : listed.Pairwise fun entry next =>
        Text.codeUnits entry.1.toList < Text.codeUnits next.1.toList)
      (hlisted : ∀ name outcome, (name, outcome) ∈ listed ↔
        Report.lastOutcome? name recorded.records = some outcome) :
      HasRows recorded (listed.map fun (name, outcome) =>
        [recorded.file, recorded.request, name, outcome.word])

/-- A table printer makes these rows of a result. -/
theorem hasRows_tableRows (recorded : RecordedResult) :
    recorded.HasRows (Printer.tableRows recorded.result) := by
  have hnodup := Report.nodup_ofRecords recorded.records
  have hempty : recorded.result.report.isEmpty = true ↔ recorded.records = [] :=
    Report.isEmpty_ofRecords_iff recorded.records
  by_cases h : recorded.result.report.isEmpty = true
  · rw [Printer.tableRows, if_pos h]
    exact .untested (hempty.1 h)
  · rw [RequestResult.tableRows_eq h]
    refine .tested (mt hempty.2 h) _ ?_ fun name outcome => ?_
    · exact (Report.pairwise_all hnodup).imp fun hbefore => Text.precedes_iff.1 hbefore
    · rw [← Report.get?_ofRecords]
      exact Report.mem_all_iff hnodup name outcome

end RecordedResult

namespace Printer

theorem endsInked_tableHeader : Table.EndsInked tableHeader := by
  have htext : "Result".toList = "Resul".toList ++ ['t'] := by decide
  exact .later (.later (.later (.here htext (by decide) nofun)))

/-- **The rows of results are written as a table.** -/
theorem isTable_render (results : List RequestResult) :
    Table.IsTable tableHeader (results.flatMap tableRows)
      (Table.render tableHeader (results.flatMap tableRows)) := by
  generalize hrows : results.flatMap tableRows = rows
  have hinked : ∀ row ∈ rows, row.length = 4 ∧ Table.EndsInked row := by
    intro row hrow
    rw [← hrows] at hrow
    obtain ⟨result, -, hrow⟩ := List.mem_flatMap.1 hrow
    exact result.hasRows_tableRows.inked hrow
  have hfills : Table.Fills tableHeader.length rows := fun row hrow => (hinked row hrow).1
  have hlength : (Table.widths tableHeader rows).length = 4 := Table.length_widths hfills
  refine ⟨Table.widths tableHeader rows, Table.lines tableHeader rows, hlength,
    fun column w => Table.isWidth_of_widths hfills, ?_, rfl⟩
  refine Table.isLaidOut_lines hfills fun row hrow => ?_
  rcases List.mem_cons.1 hrow with rfl | hrow
  · exact endsInked_tableHeader
  rcases List.mem_cons.1 hrow with rfl | hrow
  · -- the last column is not empty, since its title is not
    have hthree : 3 < (Table.widths tableHeader rows).length := by
      rw [hlength]
      exact Nat.lt_succ_self 3
    have hlast := List.getElem?_eq_getElem hthree
    have hwide := (Table.isWidth_of_widths hfills hlast).2
      ⟨tableHeader, List.mem_cons_self, "Result", rfl, rfl⟩
    have htitle : 0 < Text.width "Result" := by decide
    refine Table.endsInked_dashes (?_ : _ = some _) (htitle.trans_le hwide)
    rw [List.getLast?_eq_getElem?, hlength]
    exact hlast
  · exact (hinked row hrow).2

/-- **The table of a run is complete and aligned.** At the end a table printer writes the header, a
line of dashes and, result by result, a row for every test and a row for every result without tests.
Every column is as wide as its widest cell, and in every line, filled up with spaces, each cell
stands where its column begins, with spaces everywhere else. No line ends with such a space. -/
theorem tests_writes_table (failed : Bool) (recorded : List RecordedResult) :
    ∃ (groups : List (List Table.Row)) (ws : List Nat) (lines : List (List Char)),
      List.Forall₂ RecordedResult.HasRows recorded groups ∧
      ws.length = 4 ∧
      (∀ column w, ws[column]? = some w →
        Table.IsWidth (tableHeader :: groups.flatten) column w) ∧
      List.Forall₂ (Table.IsLaidOut ws)
        (tableHeader :: Table.dashes ws :: groups.flatten) lines ∧
      ((Printer.mk .table failed).tests (recorded.map (·.result))).2 =
        [⟨.out, String.ofList (lines.flatMap fun line => line ++ ['\n'])⟩,
          ⟨.out, tableSummary (recorded.map (·.result))⟩] := by
  have hgroups : List.Forall₂ RecordedResult.HasRows recorded
      (recorded.map fun recorded => tableRows recorded.result) := by
    rw [List.forall₂_map_right_iff, List.forall₂_same]
    exact fun recorded _ => recorded.hasRows_tableRows
  have hrows : (recorded.map (·.result)).flatMap tableRows =
      (recorded.map fun recorded => tableRows recorded.result).flatten := by
    rw [List.flatMap_map, List.flatMap_def]
  obtain ⟨ws, lines, hlength, hwidths, hlaid, htext⟩ := isTable_render (recorded.map (·.result))
  rw [hrows] at hwidths hlaid
  refine ⟨_, ws, lines, hgroups, hlength, hwidths, hlaid, ?_⟩
  rw [tests, htext]

end Printer

end RequestRunner
