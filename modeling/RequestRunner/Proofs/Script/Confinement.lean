import RequestRunner.Proofs.Script.Apart

/-!
# Placeholder scripts are confined

Every part of the evaluation of scripts is confined, one lemma for each of its functions: names,
expressions and statements by recursion on the tree, the functions of the host apart from those that
are made for the handler of a request, and the calls of functions by induction on their depth. So a
script that is evaluated on a detached machine, such as that of a placeholder, neither sees nor
changes the variables of the request. This is the main statement (`evaluateTask_staysApart`).
-/

set_option autoImplicit false

namespace RequestRunner.Script

namespace Interp

/-! ## Names -/

theorem confined_frame (ref : Nat) : Confined (frame ref) := by
  apply Confined.bind confined_get
  intro m
  split <;> exact confined_pure _

theorem confined_addFrame (f : Frame) : Confined (addFrame f) := fun _ hm => hm

theorem confined_locate (name : String) (n : Nat) (at_ : Option Nat) :
    Confined (locate name n at_) := by
  induction n generalizing at_ with
  | zero => exact confined_pure _
  | succ n ih =>
    cases at_ with
    | none =>
      apply Confined.bind confined_get
      intro m
      split <;> exact confined_pure _
    | some ref =>
      apply Confined.bind (confined_frame ref)
      intro f
      split
      · exact confined_pure _
      · exact ih f.parent

theorem confined_find (name : String) (at_ : Option Nat) : Confined (find name at_) :=
  confined_get.bind fun _ => confined_locate name _ at_

theorem confined_readBinding (name : String) (b : Binding) : Confined (readBinding name b) := by
  rw [readBinding]
  cases b.cell with
  | set v => exact confined_pure v
  | unset => exact confined_fail _ _
  | lost => exact confined_fail _ _

theorem confined_globalMember? (name : String) : Confined (globalMember? name) :=
  (confined_object _).bind fun o => confined_ownMember? o name

theorem confined_readName (name : String) (at_ : Option Nat) : Confined (readName name at_) := by
  apply Confined.bind (confined_find name at_)
  intro place
  cases place with
  | local_ ref b => exact confined_readBinding name b
  | outside b => exact confined_readBinding name b
  | global =>
    apply Confined.bind (confined_globalMember? name)
    intro found
    cases found with
    | some v => exact confined_pure v
    | none => exact confined_fail _ _

theorem confined_bindName (at_ : Option Nat) (name : String) (b : Binding) :
    Confined (bindName at_ name b) := by
  apply confined_modify
  intro m hm
  cases at_ <;> exact hm

theorem confined_assignBinding (at_ : Option Nat) (name : String) (b : Binding) (v : Value) :
    Confined (assignBinding at_ name b v) := by
  rw [assignBinding]
  split
  · split
    · exact confined_bindName at_ name _
    · exact confined_fail _ _
  · exact (confined_readBinding name b).bind fun _ => confined_pure ()

theorem confined_assignName (name : String) (at_ : Option Nat) (v : Value) :
    Confined (assignName name at_ v) := by
  apply Confined.bind (confined_find name at_)
  intro place
  cases place with
  | local_ ref b => exact confined_assignBinding _ name b v
  | outside b => exact confined_assignBinding _ name b v
  | global => exact confined_setMember _ name v

theorem confined_selfOf (n : Nat) (at_ : Option Nat) : Confined (selfOf n at_) := by
  induction n generalizing at_ with
  | zero => exact confined_pure _
  | succ n ih =>
    cases at_ with
    | none => exact confined_pure _
    | some ref =>
      apply Confined.bind (confined_frame ref)
      intro f
      split
      · exact confined_pure _
      · exact ih f.parent

/-! ## Expressions -/

section Calls

variable {call : Caller} (hcall : ConfinedCaller call)

include hcall

theorem confined_operate (op : Operator) (a b : Value) : Confined (operate call op a b) := by
  have hplain : ∀ f : Value → Value → Interp Value, (∀ x y, Confined (f x y)) →
      Confined (plain call a >>= fun x => plain call b >>= f x) := fun f hf =>
    (confined_plain hcall a).bind fun x => (confined_plain hcall b).bind fun y => hf x y
  have hnumber : ∀ f : Float → Float → Float,
      Confined (toNumber call a >>= fun x => toNumber call b >>= fun y =>
        (pure (.number (f x y)) : Interp Value)) := fun f =>
    (confined_toNumber hcall a).bind fun x =>
      (confined_toNumber hcall b).bind fun y => confined_pure _
  cases op with
  | equal => exact confined_pure _
  | unequal => exact confined_pure _
  | add =>
    apply hplain
    intro x y
    split <;> exact confined_pure _
  | less =>
    apply hplain
    intro x y
    split <;> exact confined_pure _
  | greater =>
    apply hplain
    intro x y
    split <;> exact confined_pure _
  | subtract => exact hnumber _
  | multiply => exact hnumber _
  | divide => exact hnumber _
  | remainder => exact hnumber _

omit hcall in
theorem confined_closure (f : Function) (at_ : Option Nat) : Confined (closure f at_) :=
  confined_add rfl

/-- A value is called if it is a function, and is at fault otherwise. -/
theorem confined_callOr (f self : Value) (arguments : List Value) (message : String) :
    Confined (do
      if ← isFunction f then call f self arguments else fail "TypeError" message) := by
  apply Confined.bind (confined_isFunction f)
  intro b
  split
  · exact hcall f self arguments
  · exact confined_fail _ _

variable {at_ : Option Nat}

theorem confined_construct {callee : Expr} {arguments : List Expr}
    (hcallee : Confined (expression call at_ callee))
    (harguments : Confined (expressions call at_ arguments)) :
    Confined (expression call at_ (.construct callee arguments)) := by
  apply hcallee.bind
  intro f
  apply harguments.bind
  intro vs
  cases f with
  | object ref =>
    apply confined_object_bind
    intro o _
    split
    · exact hcall _ _ vs
    · exact confined_fail _ _
  | _ => exact confined_fail _ _

omit hcall in
theorem confined_choose (op : Choice) {a b : Expr} (hfirst : Confined (expression call at_ a))
    (hsecond : Confined (expression call at_ b)) :
    Confined (expression call at_ (.choose op a b)) := by
  cases op with
  | both =>
    apply hfirst.bind
    intro x
    split
    · exact hsecond
    · exact confined_pure x
  | either =>
    apply hfirst.bind
    intro x
    split
    · exact confined_pure x
    · exact hsecond
  | otherwise =>
    apply hfirst.bind
    intro x
    cases x with
    | undefined => exact hsecond
    | null => exact hsecond
    | _ => exact confined_pure _

theorem confined_unary (op : UnaryOperator) {e : Expr}
    (hvalue : Confined (expression call at_ e)) :
    Confined (expression call at_ (.unary op e)) := by
  have hkind : ∀ v, Confined (do pure (Value.text (← kindOf v))) := fun v =>
    (confined_kindOf v).bind fun kind => confined_pure _
  cases op with
  | kindOf =>
    -- the kind of a name that is not declared is asked for without reading it
    cases e with
    | name x =>
      apply Confined.bind (confined_find x at_)
      intro place
      cases place with
      | global =>
        apply Confined.bind (confined_globalMember? x)
        intro found
        cases found with
        | some v => exact hkind v
        | none => exact confined_pure _
      | _ => exact (confined_readName x at_).bind hkind
    | _ => exact hvalue.bind hkind
  | negate =>
    apply hvalue.bind
    exact fun v => (confined_toNumber hcall v).bind fun x => confined_pure _
  | not => exact hvalue.bind fun v => confined_pure _

end Calls

mutual

theorem confined_expression {call : Caller} (hcall : ConfinedCaller call) (at_ : Option Nat)
    (e : Expr) : Confined (expression call at_ e) := by
  cases e with
  | null => exact confined_pure _
  | bool b => exact confined_pure _
  | number x => exact confined_pure _
  | text s => exact confined_pure _
  | name x => exact confined_readName x at_
  | self => exact confined_get.bind fun m => confined_selfOf _ at_
  | array items => exact (confined_expressions hcall at_ items).bind fun vs => confined_addArray vs
  | object fields =>
    exact (confined_objectFields hcall at_ fields []).bind fun slots => confined_addPlain slots
  | function name f =>
    cases name with
    | none => exact confined_closure f at_
    | some name =>
      apply Confined.bind (confined_addFrame _)
      intro inner
      apply Confined.bind (confined_closure f (some inner))
      intro v
      exact (confined_bindName _ name _).bind fun _ => confined_pure v
  | call callee arguments =>
    have harguments := confined_expressions hcall at_ arguments
    have hplain : Confined (do
        let f ← expression call at_ callee
        let vs ← expressions call at_ arguments
        if ← isFunction f then call f .undefined vs
        else fail "TypeError" (written callee ++ " is not a function")) := by
      apply Confined.bind (confined_expression hcall at_ callee)
      exact fun f => harguments.bind fun vs => confined_callOr hcall f .undefined vs _
    cases callee with
    | member e name =>
      apply Confined.bind (confined_expression hcall at_ e)
      intro self
      apply Confined.bind (confined_member self name)
      exact fun f => harguments.bind fun vs => confined_callOr hcall f self vs _
    | index e key =>
      apply Confined.bind (confined_expression hcall at_ e)
      intro self
      apply Confined.bind (confined_expression hcall at_ key)
      intro k
      apply Confined.bind (confined_toText hcall k)
      intro name
      apply Confined.bind (confined_member self name)
      exact fun f => harguments.bind fun vs => confined_callOr hcall f self vs _
    | _ => exact hplain
  | construct callee arguments =>
    have hcallee := confined_expression hcall at_ callee
    exact confined_construct hcall hcallee (confined_expressions hcall at_ arguments)
  | member e name =>
    exact (confined_expression hcall at_ e).bind fun v => confined_member v name
  | index e key =>
    apply Confined.bind (confined_expression hcall at_ e)
    intro v
    apply Confined.bind (confined_expression hcall at_ key)
    intro k
    exact (confined_toText hcall k).bind fun name => confined_member v name
  | assign target value =>
    have hvalue := confined_expression hcall at_ value
    cases target with
    | name x =>
      apply hvalue.bind
      exact fun v => (confined_assignName x at_ v).bind fun _ => confined_pure v
    | member e name =>
      apply Confined.bind (confined_expression hcall at_ e)
      intro target
      apply hvalue.bind
      exact fun v => (confined_setMember target name v).bind fun _ => confined_pure v
    | index e key =>
      apply Confined.bind (confined_expression hcall at_ e)
      intro target
      apply Confined.bind (confined_expression hcall at_ key)
      intro k
      apply hvalue.bind
      intro v
      apply Confined.bind (confined_toText hcall k)
      exact fun name => (confined_setMember target name v).bind fun _ => confined_pure v
    | _ => exact hvalue
  | binary op a b =>
    apply Confined.bind (confined_expression hcall at_ a)
    exact fun x => (confined_expression hcall at_ b).bind fun y => confined_operate hcall op x y
  | choose op a b =>
    have hfirst := confined_expression hcall at_ a
    exact confined_choose op hfirst (confined_expression hcall at_ b)
  | unary op e => exact confined_unary hcall op (confined_expression hcall at_ e)
  | conditional c yes no =>
    apply Confined.bind (confined_expression hcall at_ c)
    intro v
    split
    · exact confined_expression hcall at_ yes
    · exact confined_expression hcall at_ no

theorem confined_expressions {call : Caller} (hcall : ConfinedCaller call) (at_ : Option Nat)
    (es : List Expr) : Confined (expressions call at_ es) := by
  cases es with
  | nil => exact confined_pure _
  | cons e rest =>
    apply Confined.bind (confined_expression hcall at_ e)
    exact fun v => (confined_expressions hcall at_ rest).bind fun vs => confined_pure _

theorem confined_objectFields {call : Caller} (hcall : ConfinedCaller call) (at_ : Option Nat)
    (fields : List (String × Expr)) (done : Fields Slot) :
    Confined (objectFields call at_ fields done) := by
  cases fields with
  | nil => exact confined_pure _
  | cons field rest =>
    apply Confined.bind (confined_expression hcall at_ field.2)
    exact fun v => confined_objectFields hcall at_ rest _

end

/-! ## Statements -/

theorem confined_repeatWhile {condition : Interp Bool} {body : Interp Completion}
    (hcondition : Confined condition) (hbody : Confined body) (n : Nat) (last : Option Value) :
    Confined (repeatWhile condition body n last) := by
  induction n generalizing last with
  | zero => exact confined_leave _
  | succ n ih =>
    apply hcondition.bind
    intro b
    split
    · apply hbody.bind
      intro completion
      cases completion with
      | returned v => exact confined_pure _
      | normal v => exact ih _
    · exact confined_pure _

theorem confined_enterBlock (at_ : Option Nat) (body : List Statement) :
    Confined (enterBlock at_ body) := by
  rw [enterBlock]
  split
  · exact confined_pure _
  · exact (confined_addFrame _).bind fun ref => confined_pure _

theorem confined_declare {call : Caller} (hcall : ConfinedCaller call) (at_ : Option Nat)
    (kind : DeclarationKind) (name : String) (value : Option Expr) :
    Confined (statement call at_ (.declare kind name value)) := by
  have hbind : ∀ (b : Binding), Confined (do
      bindName at_ name b
      pure (Completion.normal none)) := fun b =>
    (confined_bindName at_ name b).bind fun _ => confined_pure _
  cases kind with
  | var =>
    cases value with
    | none => exact confined_pure _
    | some e =>
      apply Confined.bind (confined_expression hcall at_ e)
      exact fun v => (confined_assignName name at_ v).bind fun _ => confined_pure _
  | let_ =>
    cases value with
    | none => exact hbind _
    | some e => exact (confined_expression hcall at_ e).bind fun v => hbind _
  | const =>
    cases value with
    | none => exact hbind _
    | some e => exact (confined_expression hcall at_ e).bind fun v => hbind _

mutual

theorem confined_statement {call : Caller} (hcall : ConfinedCaller call) (at_ : Option Nat)
    (s : Statement) : Confined (statement call at_ s) := by
  cases s with
  | expression e => exact (confined_expression hcall at_ e).bind fun v => confined_pure _
  | declare kind name value => exact confined_declare hcall at_ kind name value
  | block body =>
    apply Confined.bind (confined_enterBlock at_ body)
    exact fun inner => confined_statements hcall inner body none
  | ifElse c yes no =>
    have hyes := confined_statement hcall at_ yes
    cases no with
    | none =>
      apply Confined.bind (confined_expression hcall at_ c)
      intro v
      split
      · exact hyes.bind fun result => confined_pure _
      · exact confined_pure _
    | some no =>
      apply Confined.bind (confined_expression hcall at_ c)
      intro v
      split
      · exact hyes.bind fun result => confined_pure _
      · exact (confined_statement hcall at_ no).bind fun result => confined_pure _
  | while_ c body =>
    apply Confined.bind _ fun result => confined_pure _
    apply confined_repeatWhile
    · exact (confined_expression hcall at_ c).bind fun v => confined_pure _
    · exact confined_statement hcall at_ body
  | throw e => exact (confined_expression hcall at_ e).bind fun v => confined_raise v
  | return_ value =>
    cases value with
    | none => exact confined_pure _
    | some e => exact (confined_expression hcall at_ e).bind fun v => confined_pure _
  | nothing => exact confined_pure _

theorem confined_statements {call : Caller} (hcall : ConfinedCaller call) (at_ : Option Nat)
    (body : List Statement) (last : Option Value) :
    Confined (statements call at_ body last) := by
  cases body with
  | nil => exact confined_pure _
  | cons s rest =>
    apply Confined.bind (confined_statement hcall at_ s)
    intro completion
    cases completion with
    | returned v => exact confined_pure _
    | normal v => exact confined_statements hcall at_ rest _

end

/-! ## Scripts -/

/-- Slots of the global object say nothing about what it is. -/
theorem detached_declared {m : Machine} (h : m.Detached) (names : List String) (slot : Slot) :
    (names.foldl (fun m x => m.putSlot Machine.globalObject x slot) m).Detached := by
  induction names generalizing m with
  | nil => exact h
  | cons name rest ih => exact ih (h.putSlot _ name slot)

theorem confined_declareNames (program : Program) : Confined (declareNames program) := by
  apply Confined.bind confined_get
  intro m
  dsimp only
  split
  · exact confined_fail _ _
  · exact confined_modify fun m hm => detached_declared hm _ _

theorem confined_runProgram {call : Caller} (hcall : ConfinedCaller call) (source : String) :
    Confined (runProgram call source) := by
  rw [runProgram]
  split
  · exact confined_fail _ _
  · next program _ =>
    -- the names that are lost at the end are none of the objects
    intro m hm
    refine ((?hwhole : Confined _) m hm).bind fun _ hm' => hm'
    apply Confined.bind (confined_declareNames program)
    intro _
    apply Confined.bind (confined_statements hcall none program none)
    intro completion
    cases completion <;> exact confined_pure _

/-! ## Functions of the host -/

/-- On a detached machine nothing is the view on the request. -/
theorem staysApart_scopeOf (self : Value) (operation : String) {m : Machine} (hm : m.Detached) :
    (scopeOf self operation m).StaysApart fun (result, m') =>
      m'.Detached ∧ result.toOption ≠ some .request := by
  cases self with
  | object ref =>
    -- only an object that is a view answers with its scope, and here none is that of the request
    change ((object ref m).bind _).StaysApart _
    rw [object_apply]
    have ho := isDetached_objectAt hm ref
    generalize objectAt m ref = o at ho ⊢
    obtain ⟨kind, slots, prototype, frozen⟩ := o
    cases kind with
    | scope which =>
      refine ⟨hm, ?_⟩
      rintro ⟨⟩
      cases ho
    | _ => exact ⟨hm.push rfl, nofun⟩
  | _ => exact ⟨hm.push rfl, nofun⟩

theorem confined_scopeOf_bind {β : Type} (self : Value) (operation : String)
    {f : Scope → Interp β} (hf : Confined (f .persisted)) :
    Confined (scopeOf self operation >>= f) := by
  intro m hm
  apply (staysApart_scopeOf self operation hm).bind
  rintro ⟨result, m'⟩ ⟨hm', hresult⟩
  cases result with
  | error signal => exact hm'
  | ok scope =>
    cases scope with
    | persisted => exact hf m' hm'
    | request => exact absurd rfl hresult

theorem confined_recorder_bind {β : Type} (self : Value)
    {f : (String → TestOutcome → Interp Unit) → Interp β}
    (hf : ∀ record, (∀ name outcome, Confined (record name outcome)) → Confined (f record)) :
    Confined (recorder self >>= f) := by
  have hrefused : ∀ message, Confined (f fun _ _ => fail "TypeError" message) :=
    fun message => hf _ fun _ _ => confined_fail _ _
  cases self with
  | object ref =>
    intro m hm
    change (((object ref m).bind _).bind _).StaysApart _
    rw [object_apply]
    generalize objectAt m ref = o
    obtain ⟨kind, slots, prototype, frozen⟩ := o
    cases kind with
    | client => exact hf _ (fun _ _ => confined_ask rfl) m hm
    | _ => exact hrefused _ m hm
  | _ => exact hrefused _

theorem confined_itemsOf (v : Value) : Confined (itemsOf v) := by
  cases v with
  | object ref =>
    apply confined_object_bind
    intro o _
    split <;> exact confined_pure _
  | _ => exact confined_pure _

theorem confined_namesOf (v : Value) : Confined (namesOf v) := by
  cases v with
  | object ref => exact (confined_object ref).bind fun o => confined_pure _
  | undefined => exact confined_fail _ _
  | null => exact confined_fail _ _
  | _ => exact confined_pure _

theorem confined_functionText (v : Value) : Confined (functionText v) := by
  cases v with
  | object ref =>
    apply confined_object_bind
    intro o _
    split <;> exact confined_pure _
  | _ => exact confined_pure _

theorem confined_generate (call : Generator) : Confined (generate call) := confined_readSlot _

theorem confined_joinOnce (v : Value) {join : Interp Value} (hjoin : Confined join) :
    Confined (joinOnce v join) := by
  cases v with
  | object ref =>
    apply Confined.bind confined_get
    intro m
    dsimp only
    split
    · exact confined_pure _
    · -- the list of what is being joined is no object, so changing it keeps the machine detached
      have hset : ∀ joining : List Nat, Confined (modify fun machine : Machine =>
          { machine with joining := joining }) := fun joining => confined_modify fun m hm => hm
      apply (hset _).bind
      intro _
      apply Confined.bind
      · exact hjoin.tryCatch fun signal => (hset _).bind fun _ => confined_leave signal
      · exact fun result => (hset _).bind fun _ => confined_pure result
  | _ => exact hjoin

section Natives

variable {call : Caller} (hcall : ConfinedCaller call)

include hcall

theorem confined_mapItems (f whole : Value) (i : Nat) (vs : List Value) :
    Confined (mapItems call f whole i vs) := by
  induction vs generalizing i with
  | nil => exact confined_pure _
  | cons v rest ih =>
    apply Confined.bind (hcall f _ _)
    exact fun first => (ih (i + 1)).bind fun more => confined_pure _

theorem confined_itemTexts (vs : List Value) : Confined (itemTexts call vs) := by
  induction vs with
  | nil => exact confined_pure _
  | cons v rest ih =>
    have hmore : ∀ first, Confined (do
        let more ← itemTexts call rest
        pure (first :: more)) := fun first => ih.bind fun more => confined_pure _
    cases v with
    | undefined => exact hmore _
    | null => exact hmore _
    | _ => exact (confined_toText hcall _).bind hmore

theorem confined_logTexts (vs : List Value) : Confined (logTexts call vs) := by
  induction vs with
  | nil => exact confined_pure _
  | cons v rest ih =>
    apply Confined.bind (confined_substituted hcall v)
    exact fun first => ih.bind fun more => confined_pure _

theorem confined_test (self name callback : Value) : Confined (do
    let record ← recorder self
    Client.test (evaluator call) record (fun e => raiseFault (.client e)) name callback
    pure Value.undefined) := by
  apply confined_recorder_bind
  intro record hrecord
  apply Confined.bind _ fun _ => confined_pure _
  apply Confined.bind (confined_shape name)
  intro kind
  cases kind with
  | text name =>
    apply Confined.bind (confined_shape callback)
    intro kind
    cases kind with
    | function =>
      apply Confined.recover
      · exact (confined_attempt hcall callback).bind fun outcome => hrecord name outcome
      · exact fun raised =>
          (confined_describe hcall raised).bind fun description => hrecord name _
    | _ => exact confined_raiseFault _
  | _ => exact confined_raiseFault _

omit hcall in
theorem confined_assert (condition : Option Bool) {message : Interp (Option String)}
    (hmessage : Confined message) :
    Confined (Client.assert (fun e => raiseFault (.client e)) condition message) := by
  cases condition with
  | none => exact confined_raiseFault _
  | some b =>
    cases b with
    | true => exact confined_pure ()
    | false => exact hmessage.bind fun text => confined_raiseFault _

/-- The functions of the host are confined that are not made for the handler of a request. -/
theorem confined_native {n : Native} (hn : n.isDetached = true) (self : Value)
    (arguments : List Value) : Confined (native call n self arguments) := by
  have htext : ∀ v, Confined (do pure (Value.text (← toText call v))) := fun v =>
    (confined_toText hcall v).bind fun text => confined_pure _
  cases n with
  | toText =>
    cases arguments with
    | nil => exact confined_pure _
    | cons v rest => exact htext v
  | stringify =>
    apply Confined.bind (confined_copy hcall _)
    intro j
    cases j <;> exact confined_pure _
  | parse =>
    apply Confined.bind (confined_toText hcall _)
    intro text
    split
    · exact confined_place _
    · exact confined_fail _ _
  | isArray =>
    rw [native]
    split
    · apply confined_object_bind
      intro o _
      split <;> exact confined_pure _
    · exact confined_pure _
  | keys => exact (confined_namesOf _).bind fun names => confined_addArray _
  | makeError prototype =>
    have hmade : ∀ slots : Fields Slot, Confined (add ⟨.error, slots, some prototype, false⟩) :=
      fun slots => confined_add rfl
    rw [native]
    dsimp only
    split
    · exact hmade _
    · exact (confined_toText hcall _).bind fun text => hmade _
  | objectText =>
    cases self <;> exact confined_pure _
  | itself => exact confined_pure self
  | hasOwn =>
    apply Confined.bind (confined_toText hcall _)
    intro name
    cases self with
    | object ref =>
      apply confined_object_bind
      intro o _
      exact (confined_ownMember? o name).bind fun found => confined_pure _
    | _ => exact confined_pure _
  | map =>
    apply Confined.bind (confined_isFunction _)
    intro b
    split
    · apply Confined.bind (confined_itemsOf self)
      intro items
      exact (confined_mapItems hcall _ self 0 items).bind fun results => confined_addArray results
    · exact (confined_toText hcall _).bind fun text => confined_fail _ _
  | join =>
    have hjoined : ∀ separator, Confined (joinOnce self do
        let items ← itemsOf self
        let texts ← itemTexts call items
        pure (.text (String.intercalate separator texts))) := by
      intro separator
      apply confined_joinOnce
      apply Confined.bind (confined_itemsOf self)
      exact fun items => (confined_itemTexts hcall items).bind fun texts => confined_pure _
    rw [native]
    dsimp only
    split
    · exact hjoined _
    · exact (confined_toText hcall _).bind fun separator => hjoined separator
  | push =>
    cases self with
    | object ref =>
      apply confined_object_bind
      intro o _
      split
      · apply Confined.bind _ fun _ => confined_pure _
        exact confined_modify fun m hm => hm.modifyObject ref fun _ _ => rfl
      · exact confined_pure _
    | _ => exact confined_pure _
  | functionText => exact (confined_functionText self).bind fun text => confined_pure _
  | errorText =>
    apply Confined.bind (confined_member self _)
    intro name
    apply Confined.bind (confined_member self _)
    intro message
    apply Confined.bind (confined_toText hcall name)
    exact fun name => (confined_toText hcall message).bind fun message => confined_pure _
  | promiseThen => exact confined_pure self
  | lateFailure => exact (confined_describe hcall _).bind fun _ => confined_pure _
  | test => exact confined_test hcall self _ _
  | assert =>
    apply Confined.bind _ fun _ => confined_pure _
    apply confined_assert
    split
    · exact confined_pure _
    · exact confined_pure _
    · exact (confined_toText hcall _).bind fun text => confined_pure _
  | log =>
    apply Confined.bind (confined_logTexts hcall arguments)
    exact fun texts => (confined_ask rfl).bind fun _ => confined_pure _
  | readVariable =>
    rw [native]
    split
    · exact confined_pure _
    · apply confined_scopeOf_bind
      exact (confined_ask rfl).bind fun reply => confined_placeOptional reply
  | writeVariable =>
    rw [native]
    split
    · exact confined_pure _
    · apply Confined.bind (confined_copy hcall _)
      intro j
      split
      · exact confined_pure _
      · exact confined_pure _
      · apply confined_scopeOf_bind
        exact (confined_ask rfl).bind fun _ => confined_pure _
  | clearVariable =>
    rw [native]
    split
    · exact confined_pure _
    · apply confined_scopeOf_bind
      exact (confined_ask rfl).bind fun _ => confined_pure _
  | clearVariables =>
    apply confined_scopeOf_bind
    exact (confined_ask rfl).bind fun _ => confined_pure _
  | noVariables =>
    apply confined_scopeOf_bind
    exact (confined_ask rfl).bind fun reply => confined_pure _
  | readEnvironment =>
    rw [native]
    split
    · exact confined_pure _
    · apply Confined.bind (confined_ask rfl)
      intro reply
      split
      · exact confined_place _
      · exact confined_pure _
  | raw template => exact confined_pure _
  -- these are made for the handler of a request
  | filled template isTarget => cases hn
  | allHeaders headers => cases hn
  | findHeader headers => cases hn
  | drawText make => exact confined_generate _
  | drawNumber make => exact confined_generate _
  | freshNumber make => exact (confined_generate _).bind fun v => confined_pure _

end Natives

/-! ## Calls -/

theorem confined_runBody {call : Caller} (hcall : ConfinedCaller call) (body : List Statement)
    (at_ : Nat) : Confined (runBody call body at_) := by
  apply Confined.bind (confined_statements hcall (some at_) body none)
  intro completion
  cases completion <;> exact confined_pure _

theorem confined_promised {body : Interp Value} (hbody : Confined body) :
    Confined (promised body) := by
  apply Confined.bind
  · exact hbody.recover fun _ => confined_pure _
  · exact fun _ => confined_add rfl

/-- Functions are confined that are called at most so many calls deep. -/
theorem confined_invoke (n : Nat) : ConfinedCaller (invoke n) := by
  induction n with
  | zero => exact fun f self arguments => confined_fail _ _
  | succ n ih =>
    intro f self arguments
    cases f with
    | object ref =>
      apply confined_object_bind
      intro o ho
      obtain ⟨kind, slots, prototype, frozen⟩ := o
      cases kind with
      | function code =>
        cases code with
        | native code => exact confined_native ih ho self arguments
        | closure written around =>
          obtain ⟨parameters, body, isArrow, isAsync, source⟩ := written
          apply Confined.bind (confined_addFrame _)
          intro frame
          have hbody := confined_runBody ih body frame
          split
          · exact confined_promised hbody
          · exact hbody
      | _ => exact confined_fail _ _
    | _ => exact confined_fail _ _

theorem confined_caller : ConfinedCaller caller := confined_invoke callDepth

/-- Scripts are confined. -/
theorem confined_script (source : String) : Confined (runProgram caller source) :=
  confined_runProgram confined_caller source

end Interp

open Interp

theorem confined_signalFault (limit : Float) (s : Signal) : Confined (signalFault limit s) := by
  cases s with
  | expired => exact confined_pure _
  | raised v => exact confined_faultOf confined_caller v

/-- What is settled outside of scripts stays apart from the request, too. -/
theorem settle_staysApart {α : Type} (limit : Float) {x : Interp α} (hx : Confined x) {m : Machine}
    (hm : m.Detached) : (settle limit x m).StaysApart fun (_, m') => m'.Detached := by
  apply (hx m hm).bind
  rintro ⟨result, m'⟩ hm'
  cases result with
  | ok a => exact hm'
  | error signal =>
    apply (confined_signalFault limit signal m' hm').bind
    rintro ⟨fault, m''⟩ hm''
    cases fault with
    | ok f => exact hm''
    | error _ => exact hm''

/-- **The script of a placeholder neither sees nor changes the variables of the request**, on a
machine on which nothing gives a hold on them, and it leaves such a machine behind. -/
theorem evaluateTask_staysApart (limit : Float) (source : String) (selection : Selection)
    {m : Machine} (hm : m.Detached) :
    (evaluateTask limit source selection m).StaysApart fun (_, m') => m'.Detached := by
  apply (settle_staysApart limit (confined_script source) hm).bind
  rintro ⟨result, m'⟩ hm'
  cases result with
  | error f => exact hm'
  | ok v =>
    apply settle_staysApart limit _ hm'
    apply Confined.bind (confined_kindOf v)
    exact fun kind => (confined_substituted confined_caller v).bind fun text => confined_pure _

end RequestRunner.Script
