import RequestRunner.Engine
import RequestRunner.Generator.Draw
import RequestRunner.Proofs.Engine.StoredValues

/-!
# The engine as three maps

Seen from outside, an engine is a map of request variables, a map of persisted ones and the
environment (`VariableMaps`). `VariableMaps.perform` says what a call does to the maps, without
stores, copies or a fallback, and `Engine.perform` is what it does to the engine. `Simulates` is the
relation between the two: each store represents its map, so that none ever holds null and the search
for a name stops at the right store. Every call keeps it as long as the reserved key has no
persisted value (`Simulates.perform`), and related engines answer as the maps do
(`Simulates.agrees`).

A reset refills the persisted store from a listing, which cannot carry the reserved key. So the
engine agrees with its maps after every run of calls exactly if it was not started with a value
there (`Engine.agrees_after_calls_iff`).
-/

set_option autoImplicit false

namespace RequestRunner

/-! ## Calls and maps -/

/-- A call that changes variables or starts the next request. -/
inductive VariableCall where
  /-- Sets a request variable to a text. -/
  | define (name value : String)
  /-- Sets a variable from a script. -/
  | set (scope : Scope) (name value : Datum)
  /-- Removes a variable from a script. -/
  | clear (scope : Scope) (name : Datum)
  /-- Removes every variable from a script. -/
  | clearAll (scope : Scope)
  /-- Starts the next request. -/
  | reset

/-- The name that a call is about. -/
def VariableCall.name? : VariableCall → Option String
  | define name _ => some name
  | set _ name _ => name.string?
  | clear _ name => name.string?
  | clearAll _ => none
  | reset => none

/-- The value that is stored for a loose one: its copy, if there is one that is not null. -/
def Datum.stored? (value : Datum) : Option Json :=
  value.json?.filter fun copy => !copy.isNull

/-- What an engine knows of variables. -/
structure VariableMaps where
  request : String → Option Json
  persisted : String → Option Json
  environment : String → Option Json

namespace VariableMaps

/-- The maps at the start of a run. -/
def initially (initial environment : VariableMap) : VariableMaps :=
  ⟨fun _ => none, Store.held initial, Store.held environment⟩

/-- The map of a scope. -/
def scope (maps : VariableMaps) : Scope → String → Option Json
  | .persisted => maps.persisted
  | .request => maps.request

/-- The maps with the one of a scope replaced. -/
def withScope (maps : VariableMaps) : Scope → (String → Option Json) → VariableMaps
  | .persisted, map => { maps with persisted := map }
  | .request, map => { maps with request := map }

/-- The maps after a call. -/
def perform (maps : VariableMaps) : VariableCall → VariableMaps
  | .define name value =>
    maps.withScope .request (Function.update maps.request name (some (.text value)))
  | .set scope name value =>
    match name.string?, value.stored? with
    | some name, some value =>
      maps.withScope scope (Function.update (maps.scope scope) name (some value))
    | _, _ => maps
  | .clear scope name =>
    match name.string? with
    | some name => maps.withScope scope (Function.update (maps.scope scope) name none)
    | none => maps
  | .clearAll scope => maps.withScope scope fun _ => none
  | .reset => maps.withScope .request fun _ => none

/-- The maps after calls, one after the other. -/
def performAll (maps : VariableMaps) (calls : List VariableCall) : VariableMaps :=
  calls.foldl perform maps

/-- A change of one name leaves the persisted value of another one alone. -/
theorem persisted_withScope_update {name other : String} (maps : VariableMaps) (scope : Scope)
    (value : Option Json) (h : other ≠ name) :
    (maps.withScope scope (Function.update (maps.scope scope) name value)).persisted other =
      maps.persisted other := by
  cases scope with
  | persisted => exact Function.update_of_ne h value maps.persisted
  | request => rfl

/-- A call about another name leaves the reserved key without a persisted value. -/
theorem perform_reserved {call : VariableCall} (maps : VariableMaps)
    (h : maps.persisted reservedKey = none) (hcall : call.name? ≠ some reservedKey) :
    (maps.perform call).persisted reservedKey = none := by
  cases call with
  | define name value => exact h
  | set scope name value =>
    simp only [VariableCall.name?] at hcall
    rw [perform]
    split
    · next name _ hname _ =>
      rw [hname, Ne, Option.some_inj] at hcall
      rw [persisted_withScope_update maps scope _ (Ne.symm hcall), h]
    · exact h
  | clear scope name =>
    simp only [VariableCall.name?] at hcall
    rw [perform]
    split
    · next name hname =>
      rw [hname, Ne, Option.some_inj] at hcall
      rw [persisted_withScope_update maps scope _ (Ne.symm hcall), h]
    · exact h
  | clearAll scope =>
    cases scope with
    | persisted => rfl
    | request => exact h
  | reset => exact h

/-- The first value of a name among request variables, persisted ones and the environment. -/
def first (maps : VariableMaps) (name : String) : Option Json :=
  (maps.request name).or ((maps.persisted name).or (maps.environment name))

end VariableMaps

/-- The text for a name that a map of variables is asked for: that of the copy, or the name as a
placeholder. -/
def heldText (known : VariableMap) (name : String) : String :=
  ((Store.held known name).map Json.stringify).getD (unresolved name)

/-! ## Accessors -/

/-- A value without a copy, and one whose copy is null, are not stored. -/
theorem Accessor.set_of_filter_eq_none (a : Accessor) (name : Option String)
    {value : Option Json} (h : value.filter (fun copy => !copy.isNull) = none) :
    a.set name value = .ok a := by
  cases name with
  | none => rfl
  | some name =>
    cases value with
    | none => rfl
    | some copy =>
      have hnull : copy.isNull = true := by
        simpa only [Option.filter_some, ite_eq_right_iff, reduceCtorEq, imp_false,
          Bool.not_eq_true', Bool.not_eq_false] using h
      rw [Accessor.set, if_pos hnull]

/-- Where no null is stored, the fallback answers for the names without a value. -/
theorem Accessor.get?_some {a : Accessor} {name : String}
    (h : a.store.get? name ≠ some .null) :
    a.get? (some name) = (a.store.get? name).or (a.fallback.bind fun f => f.get? name) := by
  rw [Accessor.get?]
  split
  · next hnull => exact absurd hnull h
  · next hvalue => rw [hvalue, Option.some_or]
  · next hvalue => rw [hvalue, Option.none_or]

theorem Host.firstValue_cons {value : Option Json} (h : value ≠ some .null)
    (rest : List (Option Json)) :
    Host.firstValue (value :: rest) = value.or (Host.firstValue rest) := by
  cases value with
  | none => rfl
  | some value =>
    cases value with
    | null => exact absurd rfl h
    | _ => rfl

/-! ## The engine -/

namespace Engine

variable {C : Type}

/-- The engine after a call. -/
def perform (language : Language C) (engine : Engine C) : VariableCall → Engine C
  | .define name value => ((define name value).run engine).2
  | .set scope name value =>
    { engine with host := engine.host.effect (.write scope name.string? value.json?) }
  | .clear scope name => { engine with host := engine.host.effect (.clear scope name.string?) }
  | .clearAll scope => { engine with host := engine.host.effect (.clearAll scope) }
  | .reset => engine.reset language

/-- A placeholder that does not start with a dollar sign is looked up. -/
theorem resolve_of_plain (language : Language C) (engine : Engine C) {name : String}
    (h : ¬ ['$'] <+: name.toList) :
    (resolve language name).run engine =
      (.ok (((engine.host.lookup name).map Json.stringify).getD (unresolved name)), engine) := by
  have hplain : ¬ Script.isExpression name = true := by
    rw [Script.isExpression]
    split
    · next rest hlist => exact absurd (hlist ▸ ⟨rest, rfl⟩) h
    · exact Bool.false_ne_true
  rw [resolve, if_neg hplain]
  rfl

/-- The engine answers as the maps do. -/
structure Agrees (language : Language C) (maps : VariableMaps) (engine : Engine C) : Prop where
  /-- A placeholder is the text of the first value found, and resolving it changes nothing. -/
  resolve : ∀ name, ¬ ['$'] <+: name.toList →
    (Engine.resolve language name).run engine =
      (.ok (((maps.first name).map Json.stringify).getD (unresolved name)), engine)
  /-- Scripts see a persisted variable, or else the environment. -/
  readPersisted : ∀ name : Datum, engine.host.answer (.read .persisted name.string?) =
    name.string?.bind fun name => (maps.persisted name).or (maps.environment name)
  /-- Scripts see a request variable there alone. -/
  readRequest : ∀ name : Datum, engine.host.answer (.read .request name.string?) =
    name.string?.bind maps.request
  /-- The snapshot lists the persisted variables, each once. -/
  snapshot : ∀ name, Fields.get? name engine.snapshot = maps.persisted name
  nodup : (Fields.names engine.snapshot).Nodup
  /-- A scope is empty if no name has a value. -/
  isEmpty : ∀ scope, engine.host.answer (.isEmpty scope) = true ↔
    ∀ name, maps.scope scope name = none
  /-- The environment is what scripts read of it. -/
  environment : ∀ name, engine.host.answer (.readEnvironment name) = maps.environment name

/-! ## The simulation -/

/-- The stores of a host represent the maps, and only the environment is read-only. -/
structure Simulates (maps : VariableMaps) (engine : Engine C) : Prop where
  request : Store.Represents engine.host.request.values maps.request
  persisted : Store.Represents engine.host.persisted.values maps.persisted
  environment : Store.Represents engine.host.environment.values maps.environment
  requestOpen : engine.host.request.readOnly = false
  persistedOpen : engine.host.persisted.readOnly = false

namespace Simulates

variable {maps : VariableMaps} {engine : Engine C}

/-- The store of a scope represents its map. -/
theorem accessor (h : Simulates maps engine) (scope : Scope) :
    Store.Represents (engine.host.accessor scope).store.values (maps.scope scope) ∧
      (engine.host.accessor scope).store.readOnly = false := by
  cases scope with
  | persisted => exact ⟨h.persisted, h.persistedOpen⟩
  | request => exact ⟨h.request, h.requestOpen⟩

/-- A scope's store and map are replaced together. -/
theorem withStore (h : Simulates maps engine) (scope : Scope) {values : List (String × Json)}
    {map : String → Option Json} (hvalues : Store.Represents values map) :
    Simulates (maps.withScope scope map)
      { engine with host := engine.host.withStore scope ⟨values, false⟩ } := by
  cases scope with
  | persisted => exact { h with persisted := hvalues, persistedOpen := rfl }
  | request => exact { h with request := hvalues, requestOpen := rfl }

/-- A change that gives the accessor back changes nothing. -/
theorem change_self (host : Host) (scope : Scope) (f : Accessor → Except StoreError Accessor)
    (h : f (host.accessor scope) = .ok (host.accessor scope)) : host.change scope f = host := by
  rw [Host.change, h]
  cases scope <;> rfl

/-- Storing a copy changes the map of the scope. -/
theorem write (h : Simulates maps engine) (scope : Scope) (name : String) {value : Json}
    (hnull : value.isNull = false) (hcopy : value.copy = value) :
    Simulates (maps.withScope scope (Function.update (maps.scope scope) name (some value)))
      { engine with host := engine.host.effect (.write scope (some name) (some value)) } := by
  obtain ⟨hstore, hopen⟩ := h.accessor scope
  have hset : (engine.host.accessor scope).set (some name) (some value) =
      .ok { engine.host.accessor scope with
        store := ⟨Store.put name value (engine.host.accessor scope).store.values, false⟩ } := by
    simp only [Accessor.set, Store.set, hnull, hopen, Bool.false_eq_true, if_false]
    rfl
  simp only [Host.effect, Host.change, hset]
  exact h.withStore scope (hstore.put name hnull hcopy)

/-- Removing a variable empties the map of the scope there. -/
theorem clear (h : Simulates maps engine) (scope : Scope) (name : String) :
    Simulates (maps.withScope scope (Function.update (maps.scope scope) name none))
      { engine with host := engine.host.effect (.clear scope (some name)) } := by
  obtain ⟨hstore, hopen⟩ := h.accessor scope
  have hclear : (engine.host.accessor scope).clear (some name) =
      .ok { engine.host.accessor scope with
        store := ⟨Fields.erase name (engine.host.accessor scope).store.values, false⟩ } := by
    simp only [Accessor.clear, Store.erase, hopen, Bool.false_eq_true, if_false]
    rfl
  simp only [Host.effect, Host.change, hclear]
  exact h.withStore scope (hstore.erase name)

/-- Removing every variable empties the map of the scope. -/
theorem clearAll (h : Simulates maps engine) (scope : Scope) :
    Simulates (maps.withScope scope fun _ => none)
      { engine with host := engine.host.effect (.clearAll scope) } := by
  obtain ⟨-, hopen⟩ := h.accessor scope
  have hclear : (engine.host.accessor scope).clearAll =
      .ok { engine.host.accessor scope with store := ⟨[], false⟩ } := by
    simp only [Accessor.clearAll, Store.clear, hopen, Bool.false_eq_true, if_false]
    rfl
  simp only [Host.effect, Host.change, hclear]
  exact h.withStore scope Store.represents_nil

/-- **Every call does to the engine what it does to the maps**, while the reserved key has no
persisted value. -/
theorem perform (language : Language C) (h : Simulates maps engine)
    (hreserved : maps.persisted reservedKey = none) (call : VariableCall) :
    Simulates (maps.perform call) (engine.perform language call) := by
  cases call with
  | define name value => exact h.write .request name rfl rfl
  | set scope name value =>
    simp only [VariableMaps.perform, Engine.perform]
    cases name.string? with
    | none =>
      have hsame : engine.host.effect (.write scope none value.json?) = engine.host :=
        change_self _ _ _ rfl
      rw [hsame]
      exact h
    | some name =>
      cases hstored : value.stored? with
      | none =>
        have hsame : engine.host.effect (.write scope (some name) value.json?) = engine.host :=
          change_self _ _ (fun a => a.set (some name) value.json?)
            (Accessor.set_of_filter_eq_none _ _ hstored)
        rw [hsame]
        exact h
      | some copy =>
        obtain ⟨hcopy, hnull⟩ := Option.filter_eq_some_iff.1 hstored
        rw [Bool.not_eq_true'] at hnull
        rw [hcopy]
        exact h.write scope name hnull (value.copy_of_json? copy hcopy)
  | clear scope name =>
    simp only [VariableMaps.perform, Engine.perform]
    cases name.string? with
    | none =>
      have hsame : engine.host.effect (.clear scope none) = engine.host :=
        change_self _ _ _ rfl
      rw [hsame]
      exact h
    | some name => exact h.clear scope name
  | clearAll scope => exact h.clearAll scope
  | reset =>
    -- the persisted store is filled again from its own listing
    exact { h with
      request := Store.represents_nil
      requestOpen := rfl
      persisted := h.persisted.keep_toMap hreserved
      persistedOpen := rfl }

/-- The search through the stores is the search through the maps. -/
theorem lookup (h : Simulates maps engine) (name : String) :
    engine.host.lookup name = maps.first name := by
  have hrequest : engine.host.request.get? name = maps.request name := h.request.get?_eq name
  have hpersisted : engine.host.persisted.get? name = maps.persisted name :=
    h.persisted.get?_eq name
  have henvironment : engine.host.environment.get? name = maps.environment name :=
    h.environment.get?_eq name
  rw [Host.lookup, hrequest, hpersisted, henvironment,
    Host.firstValue_cons (h.request.ne_null name), Host.firstValue_cons (h.persisted.ne_null name),
    Host.firstValue_cons (h.environment.ne_null name), Host.firstValue, Option.or_none]
  rfl

/-- **Related engines answer as the maps do**, if the reserved key has no persisted value. -/
theorem agrees (language : Language C) (h : Simulates maps engine)
    (hreserved : maps.persisted reservedKey = none) : Agrees language maps engine := by
  constructor
  case resolve =>
    intro name hname
    rw [resolve_of_plain language engine hname, h.lookup name]
  case readPersisted =>
    intro name
    cases name.string? with
    | none => rfl
    | some name =>
      have hstore : (engine.host.accessor .persisted).store.get? name = maps.persisted name :=
        h.persisted.get?_eq name
      show (engine.host.accessor .persisted).get? (some name) = _
      rw [Accessor.get?_some (hstore ▸ h.persisted.ne_null name), hstore]
      exact congrArg (maps.persisted name).or (h.environment.get?_eq name)
  case readRequest =>
    intro name
    cases name.string? with
    | none => rfl
    | some name =>
      have hstore : (engine.host.accessor .request).store.get? name = maps.request name :=
        h.request.get?_eq name
      show (engine.host.accessor .request).get? (some name) = _
      rw [Accessor.get?_some (hstore ▸ h.request.ne_null name), hstore]
      exact Option.or_none
  case snapshot =>
    intro name
    rw [snapshot, h.persisted.get?_toMap]
    split
    · next hname => rw [hname, hreserved]
    · rfl
  case nodup => exact Store.nodup_names_toMap _
  case isEmpty =>
    intro scope
    rw [← (h.accessor scope).1.eq_nil_iff, ← List.length_eq_zero_iff]
    exact beq_iff_eq
  case environment => exact h.environment.get?_eq

end Simulates

/-! ## Runs of calls -/

/-- The engine after calls, one after the other. -/
def performAll (language : Language C) (engine : Engine C) (calls : List VariableCall) :
    Engine C :=
  calls.foldl (perform language) engine

theorem perform_environment (language : Language C) (engine : Engine C) (call : VariableCall) :
    (engine.perform language call).host.environment = engine.host.environment := by
  cases call with
  | reset => rfl
  | _ => exact Host.effect_environment _ _

/-- No run of calls changes the environment. -/
theorem performAll_environment (language : Language C) (engine : Engine C)
    (calls : List VariableCall) :
    (engine.performAll language calls).host.environment = engine.host.environment := by
  induction calls generalizing engine with
  | nil => rfl
  | cons call rest ih => exact (ih _).trans (perform_environment language engine call)

/-- The relation holds after every run of calls that leave the reserved key alone. -/
theorem Simulates.performAll {maps : VariableMaps} {engine : Engine C} (language : Language C)
    (h : Simulates maps engine) (hreserved : maps.persisted reservedKey = none)
    {calls : List VariableCall} (hcalls : ∀ call ∈ calls, call.name? ≠ some reservedKey) :
    Simulates (maps.performAll calls) (engine.performAll language calls) ∧
      (maps.performAll calls).persisted reservedKey = none := by
  induction calls generalizing maps engine with
  | nil => exact ⟨h, hreserved⟩
  | cons call rest ih =>
    rw [List.forall_mem_cons] at hcalls
    exact ih (h.perform language hreserved call) (maps.perform_reserved hreserved hcalls.1)
      hcalls.2

/-- A new engine stands for the maps it is made of. -/
theorem simulates_new {language : Language C} {initial environment : VariableMap} {now : Int}
    {entropy : Entropy} {engine : Engine C} (hinitial : (Fields.names initial).Nodup)
    (henvironment : (Fields.names environment).Nodup)
    (h : Engine.new language initial environment now entropy = .ok engine) :
    Simulates (VariableMaps.initially initial environment) engine := by
  unfold Engine.new at h
  split at h
  · cases h
  · cases h
    exact ⟨Store.represents_nil, Store.represents_keep hinitial,
      Store.represents_keep henvironment, rfl, rfl⟩

/-- **An engine agrees with three maps after every run of calls exactly if it was started without a
persisted value under the reserved key**: whatever is set, removed, emptied or reset, as long as no
call is about that key, every lookup, snapshot and question is answered by the maps, and the
environment stays as it is. A persisted value under the reserved key is in no snapshot, and a reset
loses it. -/
theorem agrees_after_calls_iff {language : Language C} {initial environment : VariableMap}
    {now : Int} {entropy : Entropy} {engine : Engine C}
    (hinitial : (Fields.names initial).Nodup) (henvironment : (Fields.names environment).Nodup)
    (h : Engine.new language initial environment now entropy = .ok engine) :
    (∀ calls : List VariableCall, (∀ call ∈ calls, call.name? ≠ some reservedKey) →
      Agrees language ((VariableMaps.initially initial environment).performAll calls)
          (engine.performAll language calls) ∧
        (engine.performAll language calls).host.environment = engine.host.environment) ↔
      Store.held initial reservedKey = none := by
  have hnew := simulates_new hinitial henvironment h
  constructor
  · intro hagrees
    -- no listing has the reserved key, not even the one of the new engine
    have hsnapshot := (hagrees [] (fun _ hmem => absurd hmem List.not_mem_nil)).1.snapshot
    have hlost : Fields.get? reservedKey engine.snapshot = none := by
      rw [snapshot, hnew.persisted.get?_toMap, if_pos rfl]
    exact (hsnapshot reservedKey).symm.trans hlost
  · intro hreserved calls hcalls
    obtain ⟨hsimulates, hstill⟩ := hnew.performAll language hreserved hcalls
    exact ⟨hsimulates.agrees language hstill, performAll_environment language engine calls⟩

/-- A run that sets a token, starts the next request and removes the token again. -/
def tokenCalls : List VariableCall :=
  [.set .persisted (.text "token") (.array [.text "t", .function]), .define "id" "7", .reset,
    .clear .persisted (.text "token")]

/-- An engine with a persisted user and an environment with a host. -/
def userEngine : Engine Script.Machine :=
  ⟨⟨Store.ofMap [("user", .text "u")] false, Store.empty, Store.ofMap [("host", .text "h")] true,
    Report.empty, [], 0, .seeded 1⟩, Script.Machine.fresh⟩

/-- An engine with a persisted value under the reserved key. -/
def reservedEngine : Engine Script.Machine :=
  ⟨⟨Store.ofMap [(reservedKey, .bool true)] false, Store.empty,
    Store.ofMap [("host", .text "h")] true, Report.empty, [], 0, .seeded 1⟩, Script.Machine.fresh⟩

/-- The first engine agrees with its maps after the run; the second one does not stay with its maps
after every run. -/
theorem agrees_after_calls_iff_user_reserved :
    Agrees (javaScript Script.defaultLimit)
        ((VariableMaps.initially [("user", .text "u")] [("host", .text "h")]).performAll tokenCalls)
        (userEngine.performAll (javaScript Script.defaultLimit) tokenCalls) ∧
      ¬ ∀ calls : List VariableCall, (∀ call ∈ calls, call.name? ≠ some reservedKey) →
        Agrees (javaScript Script.defaultLimit)
            ((VariableMaps.initially [(reservedKey, .bool true)]
              [("host", .text "h")]).performAll calls)
            (reservedEngine.performAll (javaScript Script.defaultLimit) calls) ∧
          (reservedEngine.performAll (javaScript Script.defaultLimit) calls).host.environment =
            reservedEngine.host.environment := by
  have huser : Engine.new (javaScript Script.defaultLimit) [("user", .text "u")]
      [("host", .text "h")] 0 (.seeded 1) = .ok userEngine := rfl
  have hreserved : Engine.new (javaScript Script.defaultLimit) [(reservedKey, .bool true)]
      [("host", .text "h")] 0 (.seeded 1) = .ok reservedEngine := rfl
  constructor
  · have hagrees := (agrees_after_calls_iff (by decide) (by decide) huser).2 rfl
    exact (hagrees tokenCalls (by decide)).1
  · intro hagrees
    have hnone := (agrees_after_calls_iff (by decide) (by decide) hreserved).1 hagrees
    cases hnone

end Engine

end RequestRunner
