import RequestRunner.Json.Printer
import RequestRunner.Proofs.Engine.Enumeration
import RequestRunner.Proofs.Engine.Records
import RequestRunner.Proofs.Text.Order

/-!
# The listings of a report

A report after some recordings (`Report.ofRecords`) holds the last outcome of every name
(`Report.get?_ofRecords`). It lists every name once, in the strict order of the names by their
16-bit units (`Report.pairwise_all`).

As JSON the report is an object, and an object has an order of its own: names that are array indices
come first and ascend, and only the others keep the order of the listing (`Report.pairwise_inJson`).
The two listings are the same exactly if every index among the names already stands in front, behind
smaller ones (`Report.listings_of_records`).
-/

set_option autoImplicit false

namespace RequestRunner

/-! ## Entries of an object -/

theorem Json.compactFields_eq_map (fields : List (String × Json)) :
    compactFields fields = fields.map fun entry => quote entry.1 ++ ":" ++ entry.2.compact := by
  induction fields with
  | nil => rfl
  | cons entry rest ih => rw [compactFields, ih, List.map_cons]

namespace Report

/-- The report of tests recorded one after the other. -/
def ofRecords (records : List (String × TestOutcome)) : Report :=
  records.foldl (fun report entry => report.record entry.1 entry.2) empty

/-- The last outcome that is recorded for a name. -/
def lastOutcome? (name : String) (records : List (String × TestOutcome)) : Option TestOutcome :=
  (records.filter fun entry => entry.1 == name).getLast?.map Prod.snd

/-- The names of the recorded tests. -/
def recorded (records : List (String × TestOutcome)) : List String := records.map Prod.fst

variable (records : List (String × TestOutcome))

/-! ## Recording -/

theorem ofRecords_concat (name : String) (outcome : TestOutcome) :
    ofRecords (records ++ [(name, outcome)]) = (ofRecords records).record name outcome := by
  rw [ofRecords, List.foldl_append]
  rfl

theorem lastOutcome?_concat (name other : String) (outcome : TestOutcome) :
    lastOutcome? name (records ++ [(other, outcome)]) =
      if other = name then some outcome else lastOutcome? name records := by
  rw [lastOutcome?, List.filter_append]
  by_cases hname : other = name <;> simp [hname, lastOutcome?]

/-- **The report holds the last outcome of every name.** -/
theorem get?_ofRecords (name : String) :
    (ofRecords records).get? name = lastOutcome? name records := by
  induction records using List.reverseRecOn with
  | nil => rfl
  | append_singleton records entry ih =>
    obtain ⟨other, outcome⟩ := entry
    rw [ofRecords_concat, lastOutcome?_concat]
    -- what is recorded last counts for its name and changes nothing for the others
    split
    · next hname =>
      subst hname
      exact get?_record_self _ _ _
    · next hname => rw [get?_record_of_ne _ _ (Ne.symm hname), ih]

theorem nodup_ofRecords : (ofRecords records).names.Nodup := by
  induction records using List.reverseRecOn with
  | nil => exact List.nodup_nil
  | append_singleton records entry ih =>
    rw [ofRecords_concat]
    exact nodup_record ih _ _

theorem lastOutcome?_eq_none_iff (name : String) :
    lastOutcome? name records = none ↔ name ∉ recorded records := by
  rw [lastOutcome?, Option.map_eq_none_iff, List.getLast?_eq_none_iff, List.filter_eq_nil_iff]
  constructor
  · intro hnone hmem
    obtain ⟨entry, hentry, rfl⟩ := List.mem_map.1 hmem
    exact hnone entry hentry (beq_self_eq_true entry.1)
  · intro habsent entry hentry hname
    exact habsent (beq_iff_eq.1 hname ▸ List.mem_map_of_mem hentry)

/-- The names of a report are those that were recorded. -/
theorem mem_names_ofRecords (name : String) :
    name ∈ (ofRecords records).names ↔ name ∈ recorded records := by
  have hnone : (ofRecords records).get? name = none ↔ name ∉ recorded records := by
    rw [get?_ofRecords, lastOutcome?_eq_none_iff]
  rw [get?, Fields.get?_eq_none_iff] at hnone
  exact not_iff_not.1 hnone

theorem isEmpty_ofRecords_iff : (ofRecords records).isEmpty = true ↔ records = [] := by
  rw [isEmpty, List.isEmpty_iff]
  constructor
  · intro hempty
    cases records with
    | nil => rfl
    | cons entry rest =>
      have hname := (mem_names_ofRecords (entry :: rest) entry.1).2 List.mem_cons_self
      rw [names, hempty] at hname
      exact absurd hname List.not_mem_nil
  · rintro rfl
    rfl

/-! ## The order of the listing -/

section Listing

variable {report : Report}

theorem names_all_perm (report : Report) : (report.all.map Prod.fst).Perm report.names :=
  report.all_perm.map Prod.fst

/-- **The listing ascends strictly**, where every name stands once. -/
theorem pairwise_all (h : report.names.Nodup) :
    report.all.Pairwise fun entry next => Text.precedes entry.1 next.1 = true := by
  -- sorting alone leaves room for a name next to itself
  have hnames : report.all.Pairwise fun entry next => entry.1 ≠ next.1 :=
    List.pairwise_map.1 ((names_all_perm report).nodup_iff.2 h)
  apply (report.ordered_all.and hnames).imp
  intro entry next hboth
  exact (Text.precedes_or_of_ne hboth.2).resolve_right (Bool.eq_false_iff.1 hboth.1)

theorem mem_all_iff (h : report.names.Nodup) (name : String) (outcome : TestOutcome) :
    (name, outcome) ∈ report.all ↔ report.get? name = some outcome := by
  rw [report.all_perm.mem_iff, mem_entries_iff h]

/-! ## The order of the object -/

/-- The entries as the object lists them. -/
def inJson (report : Report) : List (String × TestOutcome) := Fields.ofEntries report.all

/-- An object whose names were set in their order lists the first name before the second one: indices
come first and ascend. -/
def EnumeratedBefore (name other : String) : Prop :=
  match Fields.index? name, Fields.index? other with
  | some i, some j => i < j
  | some _, none => True
  | none, some _ => False
  | none, none => Text.precedes name other = true

theorem nodup_names_all (h : report.names.Nodup) : (Fields.names report.all).Nodup :=
  (names_all_perm report).nodup_iff.2 h

/-- **The object lists indices first, ascending, and then the other names in their order.** -/
theorem pairwise_inJson (h : report.names.Nodup) :
    report.inJson.Pairwise fun entry next => EnumeratedBefore entry.1 next.1 := by
  have hlisted : report.inJson.Pairwise fun entry next => Fields.Precedes entry.1 next.1 :=
    List.pairwise_map.1 (Fields.listed_ofEntries report.all)
  have hplain : (Fields.plain report.inJson).Pairwise fun entry next =>
      Text.precedes entry.1 next.1 = true := by
    rw [inJson, Fields.plain_ofEntries (nodup_names_all h)]
    exact (pairwise_all h).filter _
  -- enumeration settles the pairs with an index, and the listing those without one
  apply (hlisted.and (List.pairwise_filter.1 hplain)).imp
  rintro ⟨name, outcome⟩ ⟨other, result⟩ ⟨hprecedes, hplain⟩
  unfold Fields.Precedes at hprecedes
  unfold EnumeratedBefore
  dsimp only at hprecedes hplain ⊢
  cases hname : Fields.index? name <;> cases hother : Fields.index? other <;>
    simp_all

theorem inJson_perm (h : report.names.Nodup) : report.inJson.Perm report.all :=
  Fields.ofEntries_perm (nodup_names_all h)

/-- The object has the order of the listing exactly if that is an order of enumeration. -/
theorem inJson_eq_all_iff (report : Report) :
    report.inJson = report.all ↔ Fields.Listed report.all := by
  constructor
  · intro hsame
    rw [← hsame]
    exact Fields.listed_ofEntries report.all
  · exact Fields.ofEntries_eq_self

/-- An entry as it is written in the text of the object. -/
def entryText (entry : String × TestOutcome) : String :=
  Json.quote entry.1 ++ ":" ++ (outcomeJson entry.2).compact

/-- The text of the object is that of its entries. -/
theorem compact_toJson (report : Report) :
    report.toJson.compact = Json.bracket "\x7b" "\x7d" (report.inJson.map entryText) := by
  have hobject : report.toJson = .object (Fields.mapValues outcomeJson report.inJson) := by
    rw [inJson, ← Fields.ofEntries_mapValues]
    rfl
  rw [hobject, Json.compact, Json.compactFields_eq_map, Fields.mapValues, List.map_map]
  rfl

end Listing

/-- **The listings of a report after any recordings.** Every recorded name is listed once, in the
strict order of the names, with its last outcome; the failed tests are the failures of the listing;
and the report is empty exactly if nothing was recorded. The text of the report as JSON lists the
same entries, but indices first, and so in another order unless the indices among the names already
stand in front, behind smaller ones. -/
theorem listings_of_records (records : List (String × TestOutcome)) :
    (∀ name, ((ofRecords records).all.map Prod.fst).count name =
        if name ∈ recorded records then 1 else 0) ∧
      (∀ name outcome, (name, outcome) ∈ (ofRecords records).all ↔
        lastOutcome? name records = some outcome) ∧
      ((ofRecords records).all.Pairwise fun entry next =>
        Text.codeUnits entry.1.toList < Text.codeUnits next.1.toList) ∧
      ((ofRecords records).failed.map fun failure =>
          (failure.1, TestOutcome.failure failure.2)) =
        ((ofRecords records).all.filter fun entry => entry.2 != .success) ∧
      ((ofRecords records).isEmpty = true ↔ records = []) ∧
      ∃ listing : List (String × TestOutcome),
        (ofRecords records).toJson.compact =
            Json.bracket "\x7b" "\x7d" (listing.map entryText) ∧
          listing.Perm (ofRecords records).all ∧
          (listing.Pairwise fun entry next => EnumeratedBefore entry.1 next.1) ∧
          (listing = (ofRecords records).all ↔ Fields.Listed (ofRecords records).all) := by
  have hnodup := nodup_ofRecords records
  refine ⟨?_, ?_, ?_, map_failed _, isEmpty_ofRecords_iff records, inJson _, compact_toJson _,
    inJson_perm hnodup, pairwise_inJson hnodup, inJson_eq_all_iff _⟩
  · intro name
    rw [(names_all_perm _).count_eq, hnodup.count]
    simp only [mem_names_ofRecords]
  · intro name outcome
    rw [mem_all_iff hnodup, get?_ofRecords]
  · exact (pairwise_all hnodup).imp fun h => Text.precedes_iff.1 h

/-- Ten is listed before nine, since its first digit is smaller, but not by the object. -/
example :
    let report := ofRecords [("9", .success), ("10", .success)]
    report.all = [("10", .success), ("9", .success)] ∧
      report.inJson = [("9", .success), ("10", .success)] := by
  constructor <;> cbv

end Report

end RequestRunner
