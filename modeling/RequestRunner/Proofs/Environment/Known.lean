import RequestRunner.Environment.Choice
import RequestRunner.Proofs.Engine.Enumeration
import RequestRunner.Proofs.Engine.Persistence
import RequestRunner.Proofs.Run.World

/-!
# Sessions that know a map

A document defines a map in which every name stands once and the reserved key is none of them
(`Environment.Definable`), and two such maps that are merged are such a map. A session that starts
with one knows it twice (`Session.Knows`): as what its scripts persist, which changes, and as its
environment, which does not. So a name under which no value is stored is answered from the map,
whether it was removed or not (`Session.Knows.answers_of_unset`); what a run saves under it is what
the map holds there, or nothing if it was removed (`Session.Knows.get?_kept_of_unset`).
-/

set_option autoImplicit false

namespace RequestRunner

/-! ## Variables of documents -/

namespace Fields

variable {α β : Type} {f : String × α → Option (String × β)}

theorem names_filterMap_sublist (hf : ∀ entry found, f entry = some found → found.1 = entry.1)
    (fields : Fields α) : (names (fields.filterMap f)).Sublist (names fields) := by
  induction fields with
  | nil => exact List.Sublist.refl _
  | cons entry rest ih =>
    rw [List.filterMap_cons]
    split
    · exact ih.cons _
    · next found hfound =>
      have hname := hf entry found hfound
      rw [names, List.map_cons, hname]
      exact ih.cons_cons _

/-- A selection that keeps the names finds what becomes of the value of a name. -/
theorem get?_filterMap (hf : ∀ entry found, f entry = some found → found.1 = entry.1)
    {fields : Fields α} (hnodup : (names fields).Nodup) (name : String) :
    get? name (fields.filterMap f) =
      (get? name fields).bind fun value => (f (name, value)).map Prod.snd := by
  induction fields with
  | nil => rfl
  | cons entry rest ih =>
    obtain ⟨key, value⟩ := entry
    rw [names_cons, List.nodup_cons] at hnodup
    have hrest := ih hnodup.2
    rw [List.filterMap_cons, get?]
    by_cases hkey : key = name
    · subst hkey
      rw [get?_eq_none_iff.2 hnodup.1] at hrest
      rw [if_pos rfl, Option.bind_some]
      split
      · next hnone => rw [hnone, hrest]; rfl
      · next found hfound =>
        obtain ⟨other, result⟩ := found
        obtain rfl : other = key := hf _ _ hfound
        rw [hfound, get?, if_pos rfl]
        rfl
    · rw [if_neg hkey, ← hrest]
      split
      · rfl
      · next found hfound =>
        obtain ⟨other, result⟩ := found
        obtain rfl : other = key := hf _ _ hfound
        rw [get?, if_neg hkey]

end Fields

namespace Environment

/-- The map is one that a document can define: every name stands once, and the reserved key is none
of them. -/
structure Definable (found : VariableMap) : Prop where
  nodup : (Fields.names found).Nodup
  reserved : reservedKey ∉ Fields.names found

theorem definable_nil : Definable [] := ⟨List.nodup_nil, List.not_mem_nil⟩

theorem definable_of_variablesOf {description : String} {value : Datum} {found : VariableMap}
    (h : variablesOf description value = .ok found) : Definable found := by
  refine ⟨?_, Fields.get?_eq_none_iff.1 (variablesOf_reserved h)⟩
  cases value with
  | object fields =>
    cases h
    exact Fields.nodup_names_ofEntries _
  | _ => cases h

theorem mem_names_merge {name : String} (snapshot environment : VariableMap) :
    name ∈ Fields.names (merge snapshot environment) ↔
      name ∈ Fields.names snapshot ∨ name ∈ Fields.names environment := by
  rw [merge, Fields.mem_names_ofEntries, Fields.names, List.map_append, List.mem_append]
  rfl

theorem Definable.merge {snapshot environment : VariableMap} (hsnapshot : Definable snapshot)
    (henvironment : Definable environment) : Definable (merge snapshot environment) := by
  refine ⟨Fields.nodup_names_ofEntries _, ?_⟩
  rw [mem_names_merge, not_or]
  exact ⟨hsnapshot.reserved, henvironment.reserved⟩

theorem held_eq_none {found : VariableMap} {name : String} (h : name ∉ Fields.names found) :
    Store.held found name = none := by
  rw [Store.held, Fields.get?_eq_none_iff.2 h]
  rfl

/-- Of a snapshot and an environment that are merged, the environment counts. -/
theorem held_merge {snapshot environment : VariableMap} (hsnapshot : Definable snapshot)
    (henvironment : Definable environment) (name : String) :
    Store.held (merge snapshot environment) name =
      if name ∈ Fields.names environment then Store.held environment name
      else Store.held snapshot name := by
  have hmerged : Fields.get? name (merge snapshot environment) =
      (Fields.get? name environment).or (Fields.get? name snapshot) :=
    Fields.get?_ofEntries_append hsnapshot.nodup henvironment.nodup name
  rw [Store.held, hmerged]
  split
  · next hmem =>
    cases hvalue : Fields.get? name environment with
    | none => exact absurd hmem (Fields.get?_eq_none_iff.1 hvalue)
    | some value => rw [Option.some_or, Store.held, hvalue]
  · next hmem => rw [Fields.get?_eq_none_iff.2 hmem, Option.none_or, Store.held]

/-- What a document defines under a name is the copy of its value there. -/
theorem get?_definitions {fields : Fields Datum} (hnodup : (Fields.names fields).Nodup)
    {name : String} (hname : name ≠ reservedKey) :
    Fields.get? name (definitions fields) = (Fields.get? name fields).bind Datum.json? := by
  have hkeeps : ∀ (entry : String × Datum) (found : String × Json),
      (if entry.1 = reservedKey then none
        else entry.2.json?.map fun copy => (entry.1, copy)) = some found →
      found.1 = entry.1 := by
    intro entry found hfound
    split at hfound
    · cases hfound
    · obtain ⟨copy, -, rfl⟩ := Option.map_eq_some_iff.1 hfound
      rfl
  have hsublist := Fields.names_filterMap_sublist hkeeps fields
  have hselected := Fields.get?_filterMap hkeeps hnodup name
  rw [definitions, Fields.get?_ofEntries (hnodup.sublist hsublist)]
  refine hselected.trans ?_
  congr 1
  funext value
  rw [if_neg hname, Option.map_map]
  exact Option.map_id'

end Environment

/-! ## Sessions -/

namespace Session

open Environment

variable {C W : Type} {language : Language C} {outside : Outside (StateM W)}
  {items : Except Fault (List RunItem)}

/-- A session knows a map: it is what its scripts persist at first, and its environment. -/
structure Knows (session : Session C) (known : VariableMap) : Prop where
  definable : Definable known
  persisted : session.engine.host.persisted = Store.ofMap known false
  environment : session.engine.host.environment = Store.ofMap known true

namespace Knows

variable {session : Session C} {known : VariableMap}

theorem sound (h : session.Knows known) : session.engine.host.Sound := by
  constructor
  · rw [h.persisted]
    rfl
  · rw [h.persisted]
    exact (Store.represents_keep h.definable.nodup).nodup

theorem get?_persisted (h : session.Knows known) (name : String) :
    session.engine.host.persisted.get? name = Store.held known name := by
  rw [h.persisted]
  exact (Store.represents_keep h.definable.nodup).get?_eq name

/-- The environment answers from the map wherever a run has come. -/
theorem get?_environment (h : session.Knows known) {events : List HostEvent} {u : Host}
    (course : Host.Course session.engine.host events u) (name : String) :
    u.environment.get? name = Store.held known name := by
  rw [course.environment, h.environment]
  exact (Store.represents_keep h.definable.nodup).get?_eq name

variable (language) in
/-- A name that lost its value, or still has its first one, is answered from the map. -/
theorem answers (h : session.Knows known) {events : List HostEvent} {u : Host}
    (course : Host.Course session.engine.host events u) {name : String}
    (hvalue : u.persisted.get? name = none ∨ u.persisted.get? name = Store.held known name) :
    u.answer (.read .persisted (some name)) = Store.held known name ∧
      (u.request.get? name = none → ¬ ['$'] <+: name.toList → ∀ context : C,
        (Engine.resolve language name).run.run ⟨u, context⟩ =
          (.ok (heldText known name), ⟨u, context⟩)) := by
  have henvironment := h.get?_environment course name
  have hheld := Store.represents_keep h.definable.nodup
  constructor
  · -- a script is answered by its store first, and by the environment if the store has no value
    have habsent (hnone : u.persisted.get? name = none) :
        u.answer (.read .persisted (some name)) = Store.held known name :=
      (Host.answer_read_none hnone).trans henvironment
    rcases hvalue with hnone | hfirst
    · exact habsent hnone
    · cases hknown : Store.held known name with
      | none => exact (habsent (hfirst.trans hknown)).trans hknown
      | some value =>
        exact Host.answer_read_some (hheld.isNull_eq hknown) (hfirst.trans hknown)
  · -- so is a placeholder, as no store holds a null, which the search would pass over
    intro hrequest hname context
    have hpersisted : u.persisted.get? name ≠ some .null := by
      rcases hvalue with hnone | hfirst
      · rw [hnone]
        nofun
      · rw [hfirst]
        exact hheld.ne_null name
    have hlookup : u.lookup name = Store.held known name := by
      rw [Host.lookup, hrequest, henvironment]
      show Host.firstValue [u.persisted.get? name, Store.held known name] = _
      rw [Host.firstValue_cons hpersisted, Host.firstValue_cons (hheld.ne_null name),
        Host.firstValue, Option.or_none]
      rcases hvalue with hnone | hfirst
      · rw [hnone, Option.none_or]
      · rw [hfirst, Option.or_self]
    rw [heldText, ← hlookup]
    exact Engine.resolve_of_plain language ⟨u, context⟩ hname

/-- Without a value stored under a name, its persisted value is the first one, or it was removed. -/
theorem get?_of_unset (h : session.Knows known) {events : List HostEvent} {u : Host}
    (course : Host.Course session.engine.host events u) {name : String}
    (hunset : ∀ event ∈ events, ¬ event.Stores name) :
    ((∃ event ∈ events, event.Removes name) → u.persisted.get? name = none) ∧
      ((∀ event ∈ events, ¬ event.Removes name) →
        u.persisted.get? name = Store.held known name) := by
  have hheld := Store.represents_keep h.definable.nodup
  -- a first value outlives every listing: it is a copy, and not under the reserved key
  have hvalue : ∀ value, session.engine.host.persisted.get? name = some value →
      name ≠ reservedKey ∧ value.copy = value ∧ value.isNull = false := by
    intro value hvalue
    rw [h.get?_persisted] at hvalue
    refine ⟨?_, hheld.copy_eq hvalue, hheld.isNull_eq hvalue⟩
    rintro rfl
    cases (held_eq_none h.definable.reserved).symm.trans hvalue
  have hcourse := course.get?_of_unset h.sound hunset hvalue
  rw [h.get?_persisted] at hcourse
  exact hcourse

variable (language) in
/-- **A name under which no value is stored is answered from the map**, removed or not. -/
theorem answers_of_unset (h : session.Knows known) {events : List HostEvent} {u : Host}
    (course : Host.Course session.engine.host events u) {name : String}
    (hunset : ∀ event ∈ events, ¬ event.Stores name) :
    u.answer (.read .persisted (some name)) = Store.held known name ∧
      (u.request.get? name = none → ¬ ['$'] <+: name.toList → ∀ context : C,
        (Engine.resolve language name).run.run ⟨u, context⟩ =
          (.ok (heldText known name), ⟨u, context⟩)) := by
  obtain ⟨hremoved, hstays⟩ := h.get?_of_unset course hunset
  apply h.answers language course
  by_cases hremoves : ∃ event ∈ events, event.Removes name
  · exact Or.inl (hremoved hremoves)
  · exact Or.inr (hstays fun event hmem hevent => hremoves ⟨event, hmem, hevent⟩)

/-- A name under which no script stores a value is saved with the value that it had at the start,
unless a script removes it. -/
theorem get?_kept_of_unset {s : Session C} {w : W} {t : Session C × W} {calls : List CrewCall}
    {result : Except Fault (List RequestResult)} {kept : VariableMap} {name : String}
    (hknows : s.Knows known)
    (hrun : (Run.execute (watchedCrew language outside items)).run.run ((s, w), []) =
      (result, (t, calls)))
    (hkept : .save kept ∈ calls)
    (hunset : ∀ event ∈ s.engine.history language calls, ¬ event.Stores name) :
    ((∃ event ∈ s.engine.history language calls, event.Removes name) →
        Fields.get? name kept = none) ∧
      ((∀ event ∈ s.engine.history language calls, ¬ event.Removes name) →
        Fields.get? name kept = Store.held known name) := by
  have hcourse := Engine.course_history language s.engine calls
  rw [← engine_of_run hrun] at hcourse
  obtain ⟨hremoved, hstays⟩ := hknows.get?_of_unset hcourse hunset
  have hlisted : Fields.get? name kept =
      if name = reservedKey then none else t.1.engine.host.persisted.get? name := by
    rw [(save_mem_iff hrun kept).1 hkept]
    exact Store.get?_toMap (hcourse.sound hknows.sound).nodup name
  by_cases hname : name = reservedKey
  · -- the reserved key is not known, and no listing has it
    subst hname
    rw [if_pos rfl] at hlisted
    rw [held_eq_none hknows.definable.reserved]
    exact ⟨fun _ => hlisted, fun _ => hlisted⟩
  · rw [if_neg hname] at hlisted
    rw [hlisted]
    exact ⟨hremoved, hstays⟩

end Knows

/-- The map that a run saves is one that a document can define. -/
theorem definable_kept {s : Session C} {w : W} {t : Session C × W} {calls : List CrewCall}
    {result : Except Fault (List RequestResult)} {kept : VariableMap}
    (hrun : (Run.execute (watchedCrew language outside items)).run.run ((s, w), []) =
      (result, (t, calls)))
    (hkept : .save kept ∈ calls) : Definable kept := by
  rw [(save_mem_iff hrun kept).1 hkept]
  exact ⟨Store.nodup_names_toMap _, Fields.get?_eq_none_iff.1 (Store.get?_toMap_reservedKey _)⟩

end Session

end RequestRunner
