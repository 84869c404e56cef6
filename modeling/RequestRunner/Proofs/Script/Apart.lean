import RequestRunner.Script.Language

/-!
# Scripts apart from the request

A script has a hold on the variables of the current request only through objects that are made for
the handler of that request: the view on these variables, and the functions that fill the templates
of the request. A machine without such objects is detached (`Machine.Detached`), and an evaluation
is confined (`Interp.Confined`) if on a detached machine it makes no call that sees or changes these
variables, and leaves the machine detached, whatever the host answers.

What an activity does that makes no such call depends in no way on the request variables, which it
leaves as they are (`Activity.StaysApart.run_eq`). This module has the steps of evaluation and the
conversions of values; each of them is confined if the calls of functions are.
-/

set_option autoImplicit false

namespace RequestRunner

/-! ## Calls apart from the request -/

/-- The call neither sees nor changes the variables of the current request. -/
def HostCall.isApart : HostCall → Bool
  | read scope _ => scope != .request
  | write scope _ _ => scope != .request
  | clear scope _ => scope != .request
  | clearAll scope => scope != .request
  | isEmpty scope => scope != .request
  | list scope => scope != .request
  | lookup _ => false
  | _ => true

/-- The request variables do not matter to the answer. -/
theorem Host.answer_apart (host : Host) (store : Store) {call : HostCall}
    (h : call.isApart = true) : (host.withStore .request store).answer call = host.answer call := by
  cases call with
  | read scope name => cases scope <;> first | rfl | cases h
  | isEmpty scope => cases scope <;> first | rfl | cases h
  | list scope => cases scope <;> first | rfl | cases h
  | lookup name => cases h
  | _ => rfl

theorem Host.change_persisted (host : Host) (store : Store)
    (f : Accessor → Except StoreError Accessor) :
    (host.withStore .request store).change .persisted f =
      (host.change .persisted f).withStore .request store := by
  have haccessor : (host.withStore .request store).accessor .persisted =
      host.accessor .persisted := rfl
  rw [change, change, haccessor]
  cases f (host.accessor .persisted) <;> rfl

theorem Host.request_change_persisted (host : Host) (f : Accessor → Except StoreError Accessor) :
    (host.change .persisted f).request = host.request := by
  rw [change]
  cases f (host.accessor .persisted) <;> rfl

/-- The request variables do not matter to what the call does. -/
theorem Host.effect_apart (host : Host) (store : Store) {call : HostCall}
    (h : call.isApart = true) :
    (host.withStore .request store).effect call = (host.effect call).withStore .request store := by
  cases call with
  | write scope name value =>
    cases scope with
    | persisted => exact host.change_persisted store fun a => a.set name value
    | request => cases h
  | clear scope name =>
    cases scope with
    | persisted => exact host.change_persisted store fun a => a.clear name
    | request => cases h
  | clearAll scope =>
    cases scope with
    | persisted => exact host.change_persisted store fun a => a.clearAll
    | request => cases h
  | _ => rfl

/-- The call leaves the request variables as they are. -/
theorem Host.request_effect_apart (host : Host) {call : HostCall} (h : call.isApart = true) :
    (host.effect call).request = host.request := by
  cases call with
  | write scope name value =>
    cases scope with
    | persisted => exact host.request_change_persisted _
    | request => cases h
  | clear scope name =>
    cases scope with
    | persisted => exact host.request_change_persisted _
    | request => cases h
  | clearAll scope =>
    cases scope with
    | persisted => exact host.request_change_persisted _
    | request => cases h
  | _ => rfl

namespace Activity

variable {α β : Type}

/-- The activity makes only calls apart from the request, and ends with a result that has a
property, whatever the host answers. -/
def StaysApart (Q : α → Prop) : Activity α → Prop
  | done a => Q a
  | call request next => request.isApart = true ∧ ∀ reply, (next reply).StaysApart Q

theorem StaysApart.bind {Q : α → Prop} {R : β → Prop} {x : Activity α} {f : α → Activity β}
    (hx : x.StaysApart Q) (hf : ∀ a, Q a → (f a).StaysApart R) : (x.bind f).StaysApart R := by
  induction x with
  | done a => exact hf a hx
  | call request next ih => exact ⟨hx.1, fun reply => ih reply (hx.2 reply)⟩

/-- **The request variables do not matter to such an activity, and it leaves them as they are.** -/
theorem StaysApart.run_eq {Q : α → Prop} {x : Activity α} (h : x.StaysApart Q) (host : Host)
    (store : Store) :
    x.run (host.withStore .request store) =
        ((x.run host).1, (x.run host).2.withStore .request store) ∧
      (x.run host).2.request = host.request ∧ Q (x.run host).1 := by
  induction x generalizing host with
  | done a => exact ⟨rfl, rfl, h⟩
  | call request next ih =>
    obtain ⟨hcall, hnext⟩ := h
    obtain ⟨hrun, hrequest, hresult⟩ := ih _ (hnext (host.answer request)) (host.effect request)
    rw [run, run, host.answer_apart store hcall, host.effect_apart store hcall]
    exact ⟨hrun, hrequest.trans (host.request_effect_apart hcall), hresult⟩

end Activity

namespace Script

/-! ## Detached machines -/

/-- The function does not see the variables of the request. -/
def Native.isDetached : Native → Bool
  | filled _ _ => false
  | allHeaders _ => false
  | findHeader _ => false
  | _ => true

/-- An object of this kind gives no hold on the variables of the request. -/
def ObjectKind.isDetached : ObjectKind → Bool
  | scope .request => false
  | function (.native n) => n.isDetached
  | _ => true

namespace Machine

/-- No object gives a hold on the variables of the request. -/
def Detached (m : Machine) : Prop := ∀ o ∈ m.objects, o.kind.isDetached = true

/-- A machine in which no script has run is detached. -/
theorem detached_fresh : fresh.Detached := by
  have h : fresh.objects.all (fun o => o.kind.isDetached) = true := by decide +kernel
  rw [Array.all_eq_true_iff_forall_mem] at h
  exact h

theorem Detached.push {m : Machine} (h : m.Detached) {o : Object} (ho : o.kind.isDetached = true) :
    Detached { m with objects := m.objects.push o } := by
  intro other hmem
  rcases Array.mem_push.1 hmem with hmem | rfl
  · exact h other hmem
  · exact ho

theorem Detached.modifyObject {m : Machine} (h : m.Detached) (ref : Nat) {f : Object → Object}
    (hf : ∀ o, o.kind.isDetached = true → (f o).kind.isDetached = true) :
    (m.modifyObject ref f).Detached := by
  intro other hmem
  obtain ⟨i, hi, rfl⟩ := Array.mem_iff_getElem.1 hmem
  have hsize : i < m.objects.size := by simpa [Machine.modifyObject] using hi
  have hold := h m.objects[i] (Array.getElem_mem hsize)
  simp only [Machine.modifyObject, Array.getElem_modify]
  split
  · exact hf _ hold
  · exact hold

theorem Detached.putSlot {m : Machine} (h : m.Detached) (ref : Nat) (name : String) (slot : Slot) :
    (m.putSlot ref name slot).Detached :=
  h.modifyObject ref fun _ ho => ho

end Machine

namespace Interp

variable {α β : Type}

/-- On a detached machine the evaluation makes only calls apart from the request, and it leaves the
machine detached. -/
def Confined (x : Interp α) : Prop :=
  ∀ m : Machine, m.Detached → (x m).StaysApart fun (_, m') => m'.Detached

/-- Calls of functions are confined. -/
def ConfinedCaller (call : Caller) : Prop :=
  ∀ f self arguments, Confined (call f self arguments)

/-! ## How evaluations are put together -/

theorem confined_pure (a : α) : Confined (pure a : Interp α) := fun _ h => h

theorem Confined.bind {x : Interp α} {f : α → Interp β} (hx : Confined x)
    (hf : ∀ a, Confined (f a)) : Confined (x >>= f) := by
  intro m hm
  apply (hx m hm).bind
  rintro ⟨result, m'⟩ hm'
  cases result with
  | ok a => exact hf a m' hm'
  | error signal => exact hm'

theorem confined_get : Confined (get : Interp Machine) := fun _ h => h

theorem confined_modify {f : Machine → Machine} (hf : ∀ m, m.Detached → (f m).Detached) :
    Confined (modify f : Interp Unit) := fun m h => hf m h

theorem confined_ask {call : HostCall} (h : call.isApart = true) : Confined (ask call) :=
  fun _ hm => ⟨h, fun _ => hm⟩

theorem confined_leave (s : Signal) : Confined (leave s : Interp α) := fun _ h => h

theorem confined_raise (v : Value) : Confined (raise v : Interp α) := confined_leave _

theorem Confined.recover {x : Interp α} {handle : Value → Interp α} (hx : Confined x)
    (hhandle : ∀ v, Confined (handle v)) : Confined (recover x handle) := by
  intro m hm
  apply (hx m hm).bind
  rintro ⟨result, m'⟩ hm'
  cases result with
  | ok a => exact hm'
  | error signal =>
    cases signal with
    | raised v => exact hhandle v m' hm'
    | expired => exact hm'

theorem Confined.tryCatch {x : Interp α} {handle : Signal → Interp α} (hx : Confined x)
    (hhandle : ∀ s, Confined (handle s)) : Confined (tryCatch x handle) := by
  intro m hm
  apply (hx m hm).bind
  rintro ⟨result, m'⟩ hm'
  cases result with
  | ok a => exact hm'
  | error signal => exact hhandle signal m' hm'

/-! ## Objects -/

theorem confined_add {o : Object} (h : o.kind.isDetached = true) : Confined (add o) :=
  fun _ hm => hm.push h

theorem confined_addPlain (slots : Fields Slot) : Confined (addPlain slots) := confined_add rfl

theorem confined_addArray (items : List Value) : Confined (addArray items) := confined_add rfl

theorem confined_addNative {n : Native} (h : n.isDetached = true) : Confined (addNative n) :=
  confined_add h

theorem confined_fail (name message : String) : Confined (fail name message : Interp α) := by
  apply Confined.bind (confined_add rfl)
  exact fun e => confined_raise e

theorem confined_raiseFault (f : Fault) : Confined (raiseFault f : Interp α) := by
  apply Confined.bind (confined_add rfl)
  exact fun e => confined_raise e

/-- The object of a number, or one that holds nothing. -/
def objectAt (m : Machine) (ref : Nat) : Object :=
  m.objects[ref]?.getD ⟨.plain, [], none, false⟩

theorem isDetached_objectAt {m : Machine} (h : m.Detached) (ref : Nat) :
    (objectAt m ref).kind.isDetached = true := by
  rw [objectAt]
  cases hobject : m.objects[ref]? with
  | none => rfl
  | some o => exact h o (Array.mem_of_getElem? hobject)

theorem object_apply (ref : Nat) (m : Machine) :
    object ref m = .done (.ok (objectAt m ref), m) := by
  have hget : ∀ f : Machine → Interp Object, (get >>= f) m = f m m := fun _ => rfl
  rw [object, hget, objectAt]
  cases m.objects[ref]? <;> rfl

/-- Whatever is found on a detached machine gives no hold on the request. -/
theorem confined_object_bind (ref : Nat) {f : Object → Interp β}
    (hf : ∀ o, o.kind.isDetached = true → Confined (f o)) : Confined (object ref >>= f) := by
  intro m hm
  have hbind : (object ref >>= f) m = f (objectAt m ref) m := by
    change (object ref m).bind _ = _
    rw [object_apply]
    rfl
  rw [hbind]
  exact hf _ (isDetached_objectAt hm ref) m hm

theorem confined_object (ref : Nat) : Confined (object ref) := by
  intro m hm
  rw [object_apply]
  exact hm

/-! ## Members -/

theorem confined_readSlot (slot : Slot) : Confined (readSlot slot) := by
  cases slot with
  | value v listed => exact confined_pure v
  | fixed v => exact confined_pure v
  | generated call =>
    apply Confined.bind (confined_ask rfl)
    intro reply
    rcases reply with e | value
    · exact confined_raiseFault _
    · cases value <;> exact confined_pure _
  | numbers make =>
    apply Confined.bind (confined_addNative rfl)
    exact fun fresh => confined_add rfl

theorem confined_ownMember? (o : Object) (name : String) : Confined (ownMember? o name) := by
  rw [ownMember?]
  split
  · exact (confined_readSlot _).bind fun v => confined_pure _
  · split
    · split <;> exact confined_pure _
    · exact confined_pure _

theorem confined_findMember (n ref : Nat) (name : String) : Confined (findMember n ref name) := by
  induction n generalizing ref with
  | zero => exact confined_pure _
  | succ n ih =>
    apply confined_object_bind
    intro o _
    apply Confined.bind (confined_ownMember? o name)
    intro found
    cases found with
    | some v => exact confined_pure v
    | none =>
      cases o.prototype with
      | some parent => exact ih parent
      | none => exact confined_pure _

theorem confined_member (v : Value) (name : String) : Confined (member v name) := by
  cases v with
  | undefined => exact confined_fail _ _
  | null => exact confined_fail _ _
  | text s =>
    rw [member]
    split <;> exact confined_pure _
  | object ref => exact confined_findMember 10 ref name
  | _ => exact confined_pure _

theorem confined_findOwner (n ref : Nat) (name : String) : Confined (findOwner n ref name) := by
  induction n generalizing ref with
  | zero => exact confined_pure _
  | succ n ih =>
    apply confined_object_bind
    intro o _
    split
    · exact confined_pure _
    · cases o.prototype with
      | some parent => exact ih parent
      | none => exact confined_pure _

theorem confined_hasMember (v : Value) (name : String) : Confined (hasMember v name) := by
  cases v with
  | object ref => exact confined_findOwner 10 ref name
  | _ => exact confined_pure _

theorem isDetached_setOwn (name : String) (v : Value) {o : Object}
    (h : o.kind.isDetached = true) : (setOwn name v o).kind.isDetached = true := by
  unfold setOwn
  split
  · exact h
  · exact h
  · dsimp only
    split
    · split
      · split
        · rfl
        · exact h
      · split
        · rfl
        · exact h
    · exact h

theorem confined_setMember (target : Value) (name : String) (v : Value) :
    Confined (setMember target name v) := by
  cases target with
  | undefined => exact confined_fail _ _
  | null => exact confined_fail _ _
  | object ref =>
    apply confined_object_bind
    intro o _
    split
    · exact confined_pure ()
    · exact confined_modify fun m hm => hm.modifyObject ref fun o ho => isDetached_setOwn name v ho
  | _ => exact confined_pure ()

theorem confined_isFunction (v : Value) : Confined (isFunction v) := by
  cases v with
  | object ref =>
    apply confined_object_bind
    intro o _
    split <;> exact confined_pure _
  | _ => exact confined_pure _

theorem confined_shape (v : Value) : Confined (shape v) := by
  cases v with
  | object ref => exact (confined_isFunction _).bind fun b => confined_pure _
  | _ => exact confined_pure _

theorem confined_kindOf (v : Value) : Confined (kindOf v) := by
  cases v with
  | object ref => exact (confined_isFunction _).bind fun b => confined_pure _
  | _ => exact confined_pure _

/-! ## JSON -/

mutual

theorem confined_place (j : Json) : Confined (place j) := by
  cases j with
  | array items => exact (confined_placeItems items).bind fun vs => confined_addArray vs
  | object fields => exact (confined_placeFields fields).bind fun slots => confined_addPlain slots
  | _ => exact confined_pure _

theorem confined_placeItems (items : List Json) : Confined (placeItems items) := by
  cases items with
  | nil => exact confined_pure _
  | cons item rest =>
    apply Confined.bind (confined_place item)
    exact fun v => (confined_placeItems rest).bind fun vs => confined_pure _

theorem confined_placeFields (fields : List (String × Json)) : Confined (placeFields fields) := by
  cases fields with
  | nil => exact confined_pure _
  | cons field rest =>
    apply Confined.bind (confined_place field.2)
    exact fun v => (confined_placeFields rest).bind fun vs => confined_pure _

end

theorem confined_placeOptional (j : Option Json) : Confined (placeOptional j) := by
  cases j with
  | none => exact confined_pure _
  | some j => exact confined_place j

/-! ## Conversions -/

section Conversions

variable {call : Caller} (hcall : ConfinedCaller call)

include hcall

theorem confined_convertBy? (v : Value) (name : String) : Confined (convertBy? call v name) := by
  apply Confined.bind (confined_member v name)
  intro f
  apply Confined.bind (confined_isFunction f)
  intro b
  split
  · apply Confined.bind (hcall f v [])
    intro result
    cases result <;> exact confined_pure _
  · exact confined_pure _

theorem confined_plainBy (first second : String) (v : Value) :
    Confined (plainBy call first second v) := by
  cases v with
  | object ref =>
    apply Confined.bind (confined_convertBy? hcall _ first)
    intro result
    cases result with
    | some result => exact confined_pure _
    | none =>
      apply Confined.bind (confined_convertBy? hcall _ second)
      intro result
      cases result with
      | some result => exact confined_pure _
      | none => exact confined_fail _ _
  | _ => exact confined_pure _

theorem confined_plain (v : Value) : Confined (plain call v) := confined_plainBy hcall _ _ v

theorem confined_toText (v : Value) : Confined (toText call v) :=
  (confined_plainBy hcall _ _ v).bind fun _ => confined_pure _

theorem confined_toNumber (v : Value) : Confined (toNumber call v) :=
  (confined_plain hcall v).bind fun _ => confined_pure _

theorem confined_replacement (v : Value) (step : Step) : Confined (replacement call v step) := by
  cases v with
  | object ref =>
    apply Confined.bind (confined_member _ _)
    intro f
    apply Confined.bind (confined_isFunction f)
    intro b
    split
    · exact hcall _ _ _
    · exact confined_pure _
  | _ => exact confined_pure _

omit hcall in
theorem confined_refuseCircle (path : Path) (step : Step) (ref : Nat) :
    Confined (refuseCircle path step ref) := by
  rw [refuseCircle]
  split
  · exact confined_pure ()
  · exact confined_fail _ _

omit hcall in
/-- A view that is not on the request shows nothing of the request. -/
theorem confined_variablesJson {scope : Scope} (h : scope ≠ .request) :
    Confined (variablesJson scope) := by
  cases scope with
  | request => exact absurd rfl h
  | persisted =>
    apply Confined.bind (confined_ask rfl)
    intro store
    apply Confined.bind (confined_ask rfl)
    exact fun fallback => confined_pure _

omit hcall in
theorem confined_copyItems {copy : Step → Value → Interp (Option Json)}
    (hcopy : ∀ step v, Confined (copy step v)) (i : Nat) (vs : List Value) :
    Confined (copyItems copy i vs) := by
  induction vs generalizing i with
  | nil => exact confined_pure _
  | cons v rest ih =>
    apply Confined.bind (hcopy _ v)
    exact fun first => (ih (i + 1)).bind fun more => confined_pure _

omit hcall in
theorem confined_copySlots {copy : Step → Value → Interp (Option Json)}
    (hcopy : ∀ step v, Confined (copy step v)) (slots : Fields Slot) :
    Confined (copySlots copy slots) := by
  induction slots with
  | nil => exact confined_pure _
  | cons slot rest ih =>
    apply Confined.bind (confined_readSlot slot.2)
    intro v
    apply Confined.bind (hcopy _ v)
    intro first
    apply Confined.bind ih
    intro more
    cases first <;> exact confined_pure _

theorem confined_copyFrom (n : Nat) (path : Path) (step : Step) (v : Value) :
    Confined (copyFrom call n path step v) := by
  induction n generalizing path step v with
  | zero => exact confined_fail _ _
  | succ n ih =>
    apply Confined.bind (confined_replacement hcall v step)
    intro value
    cases value with
    | object ref =>
      apply confined_object_bind
      intro o ho
      obtain ⟨kind, slots, prototype, frozen⟩ := o
      cases kind with
      | function code => exact confined_pure _
      | scope which =>
        -- the view on the request is not on a detached machine
        have hwhich : which ≠ .request := by
          rintro rfl
          cases ho
        exact (confined_variablesJson hwhich).bind fun j => confined_pure _
      | array items =>
        apply Confined.bind (confined_refuseCircle path step ref)
        intro _
        exact (confined_copyItems (ih _) 0 _).bind fun copies => confined_pure _
      | _ =>
        apply Confined.bind (confined_refuseCircle path step ref)
        intro _
        exact (confined_copySlots (ih _) _).bind fun copies => confined_pure _
    | _ => exact confined_pure _

theorem confined_copy (v : Value) : Confined (copy call v) := confined_copyFrom hcall 500 [] _ v

theorem confined_substituted (v : Value) : Confined (substituted call v) := by
  cases v with
  | object ref =>
    apply Confined.bind (confined_isFunction _)
    intro b
    split
    · exact confined_toText hcall _
    · exact (confined_copy hcall _).bind fun j => confined_pure _
  | _ => exact confined_pure _

omit hcall in
theorem confined_message? (v : Value) : Confined (Client.message? (evaluator call) v) := by
  apply Confined.bind (confined_hasMember v _)
  intro b
  split
  · apply Confined.bind (confined_member v _)
    intro found
    apply Confined.bind (confined_shape found)
    intro kind
    cases kind with
    | text s => exact (confined_member v _).bind fun message => confined_pure _
    | _ => exact confined_pure _
  · exact confined_pure _

theorem confined_describe (v : Value) : Confined (describe call v) := by
  apply Confined.bind (confined_shape v)
  intro kind
  cases kind with
  | object =>
    apply Confined.bind (confined_message? v)
    intro message
    cases message with
    | some s => exact confined_pure s
    | none => exact confined_toText hcall v
  | _ => exact confined_toText hcall v

theorem confined_faultOf (v : Value) : Confined (faultOf call v) := by
  cases v with
  | object ref =>
    apply confined_object_bind
    intro o _
    cases o.kind with
    | fault f => exact confined_pure f
    | function code => exact (confined_toText hcall _).bind fun text => confined_pure _
    | _ =>
      apply Confined.bind (confined_member _ _)
      intro name
      exact (confined_describe hcall _).bind fun text => confined_pure _
  | null => exact confined_pure _
  | _ => exact (confined_kindOf _).bind fun kind => confined_pure _

omit hcall in
theorem confined_isThenable (v : Value) : Confined (Client.isThenable (evaluator call) v) := by
  apply Confined.bind (confined_shape v)
  intro kind
  cases kind with
  | object =>
    apply Confined.bind (confined_hasMember v _)
    intro b
    split
    · apply Confined.bind (confined_member v _)
      exact fun next => (confined_shape next).bind fun kind => confined_pure _
    · exact confined_pure _
  | _ => exact confined_pure _

theorem confined_awaitFailure (v : Value) : Confined (Client.awaitFailure (evaluator call) v) := by
  apply Confined.bind (confined_member v "then")
  intro next
  apply Confined.bind (confined_addNative rfl)
  exact fun listener => (hcall next v _).bind fun _ => confined_pure ()

theorem confined_attempt (callback : Value) :
    Confined (Client.attempt (evaluator call) callback) := by
  apply Confined.bind (hcall callback _ [])
  intro returned
  apply Confined.bind (confined_isThenable returned)
  intro b
  split
  · exact (confined_awaitFailure hcall returned).bind fun _ => confined_pure _
  · exact confined_pure _

end Conversions

end Interp

end Script

end RequestRunner
