import RequestRunner.Proofs.Engine.History
import RequestRunner.Proofs.Engine.VariableMaps

/-!
# Persisted values along a course

`HostEvent.persist` is what an event does to the persisted values, as a function of these values
alone, and a course does to them what its events do (`Course.persisted`). An event that neither
stores a value under a name nor removes it leaves its value alone. The start of the next request
does neither, but it refills the store from a listing: a copy stays, under every name but the
reserved one (`Course.get?_of_kept`), and a name that lost its value has none until a value is
stored under it again (`Course.get?_eq_none`, `Course.get?_of_removed`).
-/

set_option autoImplicit false

namespace RequestRunner

namespace HostEvent

/-- The persisted values behind an event. -/
def persist (values : List (String × Json)) : HostEvent → List (String × Json)
  | .call (.write .persisted (some name) (some value)) _ =>
    if value.isNull then values else Store.put name value values
  | .call (.clear .persisted (some name)) _ => Fields.erase name values
  | .call (.clearAll .persisted) _ => []
  | .renewed => Store.keep (Store.toMap ⟨values, false⟩)
  | _ => values

/-- A script sets or removes the persisted value of a name. -/
def Touches (name : String) : HostEvent → Prop
  | .call (.write .persisted other _) _ => other = some name
  | .call (.clear .persisted other) _ => other = some name
  | .call (.clearAll .persisted) _ => True
  | _ => False

/-- A script sets the persisted value of a name. -/
def Sets (name : String) : HostEvent → Prop
  | .call (.write .persisted other _) _ => other = some name
  | _ => False

/-- A script sets the persisted value of a name to a value that is stored. -/
def Stores (name : String) : HostEvent → Prop
  | .call (.write .persisted other (some value)) _ => other = some name ∧ value.isNull = false
  | _ => False

/-- A script removes the persisted value of a name. -/
def Removes (name : String) : HostEvent → Prop
  | .call (.clear .persisted other) _ => other = some name
  | .call (.clearAll .persisted) _ => True
  | _ => False

theorem Stores.sets {name : String} {event : HostEvent} (h : event.Stores name) :
    event.Sets name := by
  unfold Stores at h
  split at h
  · exact h.1
  · exact h.elim

theorem Sets.touches {name : String} {event : HostEvent} (h : event.Sets name) :
    event.Touches name := by
  unfold Sets at h
  split at h
  · exact h
  · exact h.elim

theorem Removes.touches {name : String} {event : HostEvent} (h : event.Removes name) :
    event.Touches name := by
  unfold Removes at h
  split at h
  · exact h
  · exact trivial
  · exact h.elim

/-- What does not touch a name neither stores anything there nor removes it. -/
theorem kept_of_untouched {name : String} {event : HostEvent} (h : ¬ event.Touches name) :
    ¬ event.Stores name ∧ ¬ event.Removes name :=
  ⟨fun hstores => h hstores.sets.touches, fun hremoves => h hremoves.touches⟩

theorem nodup_persist {values : List (String × Json)} (h : (Fields.names values).Nodup)
    (event : HostEvent) : (Fields.names (event.persist values)).Nodup := by
  unfold persist
  split
  · split
    · exact h
    · exact Store.nodup_names_put _ _ h
  · exact h.sublist ((Fields.erase_sublist _ values).map _)
  · exact List.nodup_nil
  · exact (Store.represents_keep (Store.nodup_names_toMap _)).nodup
  · exact h

/-- What a refilled store holds under a name. -/
theorem get?_persist_renewed {values : List (String × Json)} (h : (Fields.names values).Nodup)
    (name : String) :
    Fields.get? name (persist values .renewed) =
      if name = reservedKey then none
      else ((Fields.get? name values).map Json.copy).filter fun value => !value.isNull := by
  have hlisted : Fields.get? name (Store.toMap ⟨values, false⟩) =
      if name = reservedKey then none else Fields.get? name values := Store.get?_toMap h name
  have hheld := (Store.represents_keep (Store.nodup_names_toMap ⟨values, false⟩)).get?_eq name
  rw [persist, hheld, Store.held, hlisted]
  split
  · rfl
  · rfl

/-- A name keeps its value behind an event that neither stores a value there nor removes it, unless
it starts a request. -/
theorem get?_persist_of_kept {name : String} {values : List (String × Json)} {event : HostEvent}
    (h : ¬ event.Stores name ∧ ¬ event.Removes name) (hrenewed : event ≠ .renewed) :
    Fields.get? name (event.persist values) = Fields.get? name values := by
  unfold persist
  split
  · next other value reply =>
    split
    · rfl
    · next hnull =>
      have hne : name ≠ other := fun heq =>
        h.1 ⟨congrArg some heq.symm, Bool.eq_false_iff.2 hnull⟩
      exact Store.get?_put_of_ne value values hne
  · next other reply =>
    have hne : name ≠ other := fun heq => h.2 (congrArg some heq.symm)
    exact Fields.get?_erase_of_ne values hne
  · exact absurd trivial h.2
  · exact absurd rfl hrenewed
  · rfl

/-- A removed name has no value. -/
theorem get?_persist_of_removes {name : String} {event : HostEvent} (h : event.Removes name)
    (values : List (String × Json)) : Fields.get? name (event.persist values) = none := by
  unfold Removes at h
  split at h
  · subst h
    exact Fields.get?_erase_self name values
  · rfl
  · exact h.elim

/-- A name without a value gets one only from an event that stores it. -/
theorem get?_persist_none {name : String} {values : List (String × Json)} {event : HostEvent}
    (hnodup : (Fields.names values).Nodup) (h : ¬ event.Stores name)
    (hnone : Fields.get? name values = none) : Fields.get? name (event.persist values) = none := by
  by_cases hremoves : event.Removes name
  · exact get?_persist_of_removes hremoves values
  · by_cases hrenewed : event = .renewed
    · subst hrenewed
      rw [get?_persist_renewed hnodup, hnone]
      split <;> rfl
    · exact (get?_persist_of_kept ⟨h, hremoves⟩ hrenewed).trans hnone

theorem nodup_foldl_persist {values : List (String × Json)} (h : (Fields.names values).Nodup)
    (events : List HostEvent) : (Fields.names (events.foldl persist values)).Nodup := by
  induction events generalizing values with
  | nil => exact h
  | cons event rest ih => exact ih (nodup_persist h event)

theorem get?_foldl_persist_none {values : List (String × Json)} {events : List HostEvent}
    {name : String} (h : (Fields.names values).Nodup)
    (hunset : ∀ event ∈ events, ¬ event.Stores name) (hnone : Fields.get? name values = none) :
    Fields.get? name (events.foldl persist values) = none := by
  induction events generalizing values with
  | nil => exact hnone
  | cons event rest ih =>
    apply ih (nodup_persist h event)
    · exact fun other hmem => hunset other (List.mem_cons_of_mem _ hmem)
    · exact get?_persist_none h (hunset event List.mem_cons_self) hnone

theorem get?_foldl_persist {values : List (String × Json)} {events : List HostEvent}
    {name : String} {value : Json} (h : (Fields.names values).Nodup)
    (hkept : ∀ event ∈ events, ¬ event.Stores name ∧ ¬ event.Removes name)
    (hcopy : value.copy = value) (hnull : value.isNull = false)
    (hvalue : Fields.get? name values = some value) :
    (name ≠ reservedKey ∨ .renewed ∉ events →
        Fields.get? name (events.foldl persist values) = some value) ∧
      (name = reservedKey → .renewed ∈ events →
        Fields.get? name (events.foldl persist values) = none) := by
  induction events generalizing values with
  | nil => exact ⟨fun _ => hvalue, fun _ hmem => absurd hmem List.not_mem_nil⟩
  | cons event rest ih =>
    have hrest : ∀ other ∈ rest, ¬ other.Stores name ∧ ¬ other.Removes name :=
      fun other hmem => hkept other (List.mem_cons_of_mem _ hmem)
    have hnodup := nodup_persist h event
    by_cases hrenewed : event = .renewed
    · subst hrenewed
      -- the refilled store holds the copy of the value, which is the value itself
      have hrefilled := get?_persist_renewed h name
      rw [hvalue, Option.map_some, hcopy, Option.filter_some, hnull] at hrefilled
      by_cases hname : name = reservedKey
      · -- the reserved name is lost here, and nothing brings it back
        rw [if_pos hname] at hrefilled
        have hlost := get?_foldl_persist_none hnodup (fun other hmem => (hrest other hmem).1)
          hrefilled
        refine ⟨fun hstays => ?_, fun _ _ => hlost⟩
        exact absurd List.mem_cons_self (hstays.resolve_left (absurd hname))
      · rw [if_neg hname] at hrefilled
        exact ⟨fun _ => (ih hnodup hrest hrefilled).1 (Or.inl hname), fun heq => absurd heq hname⟩
    · rw [← get?_persist_of_kept (hkept event List.mem_cons_self) hrenewed] at hvalue
      have hsame : .renewed ∈ event :: rest ↔ .renewed ∈ rest := by
        rw [List.mem_cons, or_iff_right (Ne.symm hrenewed)]
      rw [hsame]
      exact ih hnodup hrest hvalue

end HostEvent

namespace Host

/-- Scripts can change the persisted values, and every name stands once among them. -/
structure Sound (h : Host) : Prop where
  writable : h.persisted.readOnly = false
  nodup : (Fields.names h.persisted.values).Nodup

/-- A change of the request's variables leaves the persisted ones alone. -/
theorem change_request_persisted (h : Host) (f : Accessor → Except StoreError Accessor) :
    (h.change .request f).persisted = h.persisted := by
  unfold change
  split <;> rfl

/-- A call does to the persisted values what its event does. -/
theorem effect_persisted {h : Host} (hopen : h.persisted.readOnly = false) (request : HostCall)
    (reply : request.Reply) :
    (h.effect request).persisted =
      ⟨(HostEvent.call request reply).persist h.persisted.values, false⟩ := by
  obtain ⟨⟨values, readOnly⟩, others⟩ := h
  obtain rfl : readOnly = false := hopen
  cases request with
  | write scope name value =>
    cases scope with
    | request => exact change_request_persisted _ _
    | persisted =>
      cases name with
      | none => rfl
      | some name =>
        cases value with
        | none => rfl
        | some value =>
          simp only [effect, change, accessor, Accessor.set, Store.set, HostEvent.persist]
          cases value.isNull <;> rfl
  | clear scope name =>
    cases scope with
    | request => exact change_request_persisted _ _
    | persisted => cases name <;> rfl
  | clearAll scope =>
    cases scope with
    | request => exact change_request_persisted _ _
    | persisted => rfl
  | _ => rfl

namespace Course

variable {h t : Host} {events : List HostEvent}

/-- **A course does to the persisted values what its events do.** -/
theorem persisted (course : Course h events t) (hopen : h.persisted.readOnly = false) :
    t.persisted = ⟨events.foldl HostEvent.persist h.persisted.values, false⟩ := by
  induction course with
  | nil h => rw [← hopen]; rfl
  | @call h t events request _ ih =>
    have heffect := effect_persisted hopen request (h.answer request)
    rw [List.foldl_cons, ih (by rw [heffect]), heffect]
  | drained _ ih => exact ih hopen
  | @renewed h t events _ ih =>
    -- the listing that refills the store is a function of its values
    have hself : h.persisted = ⟨h.persisted.values, false⟩ := by rw [← hopen]
    have hfilled : h.renewed.persisted =
        ⟨HostEvent.renewed.persist h.persisted.values, false⟩ := by
      change Store.ofMap h.persisted.toMap false = _
      rw [hself]
      rfl
    rw [List.foldl_cons, ih rfl, hfilled]

theorem sound (course : Course h events t) (hsound : Sound h) : Sound t := by
  constructor
  · rw [course.persisted hsound.writable]
  · rw [course.persisted hsound.writable]
    exact HostEvent.nodup_foldl_persist hsound.nodup events

/-- A name without a value keeps having none. -/
theorem get?_eq_none (course : Course h events t) (hsound : Sound h) {name : String}
    (hunset : ∀ event ∈ events, ¬ event.Stores name)
    (hnone : h.persisted.get? name = none) : t.persisted.get? name = none := by
  rw [course.persisted hsound.writable]
  exact HostEvent.get?_foldl_persist_none hsound.nodup hunset hnone

/-- A removed name has no value until one is stored under it. -/
theorem get?_of_removed {removing : HostEvent} (course : Course h (removing :: events) t)
    (hsound : Sound h) {name : String} (hremoves : removing.Removes name)
    (hunset : ∀ event ∈ events, ¬ event.Stores name) : t.persisted.get? name = none := by
  rw [course.persisted hsound.writable, List.foldl_cons]
  exact HostEvent.get?_foldl_persist_none (HostEvent.nodup_persist hsound.nodup removing) hunset
    (HostEvent.get?_persist_of_removes hremoves _)

/-- **A persisted copy stays under its name**; only the reserved name loses it, when the next
request starts. -/
theorem get?_of_kept (course : Course h events t) (hsound : Sound h) {name : String}
    {value : Json} (hkept : ∀ event ∈ events, ¬ event.Stores name ∧ ¬ event.Removes name)
    (hcopy : value.copy = value) (hnull : value.isNull = false)
    (hvalue : h.persisted.get? name = some value) :
    (name ≠ reservedKey ∨ .renewed ∉ events → t.persisted.get? name = some value) ∧
      (name = reservedKey → .renewed ∈ events → t.persisted.get? name = none) := by
  rw [course.persisted hsound.writable]
  exact HostEvent.get?_foldl_persist hsound.nodup hkept hcopy hnull hvalue

/-- Without a value stored under a name in between, the name has the value of the beginning, or none
if it was removed. -/
theorem get?_of_unset (course : Course h events t) (hsound : Sound h) {name : String}
    (hunset : ∀ event ∈ events, ¬ event.Stores name)
    (hvalue : ∀ value, h.persisted.get? name = some value →
      name ≠ reservedKey ∧ value.copy = value ∧ value.isNull = false) :
    ((∃ event ∈ events, event.Removes name) → t.persisted.get? name = none) ∧
      ((∀ event ∈ events, ¬ event.Removes name) →
        t.persisted.get? name = h.persisted.get? name) := by
  constructor
  · rintro ⟨removing, hmem, hremoves⟩
    obtain ⟨before, after, rfl⟩ := List.append_of_mem hmem
    obtain ⟨u, hbefore, hafter⟩ := course.exists_of_append
    exact hafter.get?_of_removed (hbefore.sound hsound) hremoves fun event hevent =>
      hunset event (List.mem_append_right _ (List.mem_cons_of_mem _ hevent))
  · intro hstays
    cases hstart : h.persisted.get? name with
    | none => exact course.get?_eq_none hsound hunset hstart
    | some value =>
      obtain ⟨hname, hcopy, hnull⟩ := hvalue value hstart
      exact (course.get?_of_kept hsound (fun event hevent =>
        ⟨hunset event hevent, hstays event hevent⟩) hcopy hnull hstart).1 (Or.inl hname)

end Course

/-- What a script reads where a value is persisted. -/
theorem answer_read_some {h : Host} {name : String} {value : Json} (hnull : value.isNull = false)
    (hvalue : h.persisted.get? name = some value) :
    h.answer (.read .persisted (some name)) = some value := by
  have hstored : (h.accessor .persisted).store.get? name = some value := hvalue
  have hne : (h.accessor .persisted).store.get? name ≠ some .null := by
    rw [hstored]
    rintro ⟨⟩
    cases hnull
  change (h.accessor .persisted).get? (some name) = _
  rw [Accessor.get?_some hne, hstored, Option.some_or]

/-- What a script reads where no value is persisted. -/
theorem answer_read_none {h : Host} {name : String} (hnone : h.persisted.get? name = none) :
    h.answer (.read .persisted (some name)) = h.environment.get? name := by
  have hstored : (h.accessor .persisted).store.get? name = none := hnone
  have hne : (h.accessor .persisted).store.get? name ≠ some .null := by
    rw [hstored]
    nofun
  change (h.accessor .persisted).get? (some name) = _
  rw [Accessor.get?_some hne, hstored, Option.none_or]
  rfl

/-- A stored value is there behind its call. -/
theorem get?_effect_write {h : Host} (hopen : h.persisted.readOnly = false) (name : String)
    {value : Json} (hnull : value.isNull = false) :
    (h.effect (.write .persisted (some name) (some value))).persisted.get? name = some value := by
  rw [effect_persisted hopen _ (), HostEvent.persist, hnull]
  exact Store.get?_put_self name value h.persisted.values

end Host

end RequestRunner
