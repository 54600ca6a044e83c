import StackEscape.Proofs.Chains
import StackEscape.Proofs.MixingReports

/-!
# Assignments to properties

What a property is assigned goes to its setter, which is looked up by its name; the getter has no
part in that. So it does not matter that a getter returns a reference: an assignment through a
reference that a call returns is judged by how far the referenced storage escapes, an assignment to
a property by whether the operands of its setter may be passed together. The setter's receiver
escapes at least as far as what the getter hands out of it, so that a setter which may write to a
stack-only receiver is given nothing that would be too narrow for the storage.

## Main definitions

* `StackEscape.PropertyWrite` — an assignment to a property.
* `StackEscape.PropertyWrite.operands`, `reached` — what its setter is called with, and where.
* `StackEscape.PropertyWrite.Stores` — the setter could store the value in its receiver.

## Main results

* `StackEscape.Walk.valueEscape_assign_iff` — assignments that call no setter.
* `StackEscape.PropertyWrite.Stores.mixes` — what is too narrow for the receiver is not passed to
  it.
* `StackEscape.PropertyWrite.value_read_le` — what a getter returns stays within its receiver.
* `StackEscape.PropertyWrite.errors_propertyWrite` — what an assignment to a property reports.
-/

set_option autoImplicit false

namespace StackEscape

/-! ## Errors of calls -/

namespace Walk

variable {env : Surroundings} {r : MemberRef} {s : WalkState}

/-- A call of what means nothing reports that. -/
theorem errors_invokeRef_of_none (h : s.contract? env r = none) (receiver : Option Operand)
    (args : List Operand) (ty : TypeRef) (span : Span) :
    ((invokeRef env r receiver args ty span).after s).errors =
      s.errors ++ [⟨.unresolvedMember r.display, span⟩] := by
  have hx : s.target? env r = none := Option.map_eq_none_iff.1 h
  have hanswer := answer_resolve env r span s
  rw [h, Option.map_eq_none_iff] at hanswer
  unfold invokeRef
  rw [after_bind, hanswer, after_resolve_of_none hx]
  rfl

/-- A call of a reference is a call with its contract. -/
theorem after_invokeRef {c : Contract} (h : s.contract? env r = some c) (receiver : Option Operand)
    (args : List Operand) (ty : TypeRef) (span : Span) :
    (invokeRef env r receiver args ty span).after s =
      (invoke env c receiver args ty span).after ((resolve env r span).after s) := by
  have hresolve := answer_resolve env r span s
  rw [h] at hresolve
  obtain ⟨callee, hcallee, rfl⟩ := Option.map_eq_some_iff.1 hresolve
  unfold invokeRef
  rw [after_bind, hcallee]
  rfl

/-- A call of a reference gives up without a report if annotations of the callee are ill placed. -/
theorem errors_invokeRef_of_invalid {c : Contract} (h : s.contract? env r = some c)
    (hc : c.valid = false) (receiver : Option Operand) (args : List Operand) (ty : TypeRef)
    (span : Span) : ((invokeRef env r receiver args ty span).after s).errors = s.errors := by
  rw [after_invokeRef h, ← (resolve_silent h span).2]
  unfold invoke
  rw [hc]
  rfl

/-- **Calls of references.** If no operand was given up, it is reported that a member is unknown if
and only if the reference means nothing, and that a value is too narrow only if some operands must
not be passed together. Each operand that could be stored where it is too narrow is reported at its
place. -/
theorem errors_invokeRef (env : Surroundings) (r : MemberRef) {receiver : Option Operand}
    {args : List Operand} (hvalid : ∀ op ∈ receiver.toList ++ args, op.pair.isInvalid = false)
    (ty : TypeRef) (span : Span) (s : WalkState) : ∃ added,
      ((invokeRef env r receiver args ty span).after s).errors = s.errors ++ added ∧
      ((∃ e ∈ added, ∃ name, e.kind = .unresolvedMember name) ↔ s.contract? env r = none) ∧
      ((∃ e ∈ added, ∃ name, e.kind = .valueEscape name) →
        ∃ c, s.contract? env r = some c ∧ c.valid = true ∧ ∃ i j, c.Mixes receiver args i j) ∧
      ∀ c i j, s.contract? env r = some c → c.valid = true → c.Mixes receiver args i j →
        ∃ op name, (receiver.toList ++ args)[i]? = some op ∧
          ⟨.valueEscape name, op.span⟩ ∈ added := by
  cases hfound : s.contract? env r with
  | none => exact ⟨_, errors_invokeRef_of_none hfound receiver args ty span, by simp⟩
  | some c =>
    cases hc : c.valid with
    | false =>
      have hgivenUp := errors_invokeRef_of_invalid hfound hc receiver args ty span
      exact ⟨[], by rw [hgivenUp, List.append_nil], by simp, by simp, by grind⟩
    | true =>
      obtain ⟨later, hafter, hlater⟩ := errors_invoke env hc hvalid ty span
        ((resolve env r span).after s)
      rw [(resolve_silent hfound span).2, List.append_assoc, ← after_invokeRef hfound] at hafter
      refine ⟨_, hafter, ⟨?_, nofun⟩, ?_, ?_⟩
      · rintro ⟨e, he, name, hkind⟩
        rcases List.mem_append.1 he with he | he
        · rcases Contract.report_of_mem_mixingErrors he with ⟨j, sink, -, rfl⟩ |
            ⟨i, op, j, sink, -, -, -, rfl⟩ <;> cases hkind
        · obtain ⟨x, ty, hlate⟩ := hlater e he
          cases hkind.symm.trans hlate
      · rintro ⟨e, he, name, hkind⟩
        rcases List.mem_append.1 he with he | he
        · exact ⟨c, rfl, hc, Contract.exists_mixes_of_valueEscape he hkind⟩
        · obtain ⟨x, ty, hlate⟩ := hlater e he
          cases hkind.symm.trans hlate
      · intro c' i j hc' _ hmixes
        obtain rfl := Option.some.inj hc'
        obtain ⟨op, name, hop, hreported⟩ := hmixes.exists_valueEscape hvalid
          ((resolve env r span).after s).facts span
        exact ⟨op, name, hop, List.mem_append_left _ hreported⟩

/-- **Assignments that call no setter.** A value is reported as too narrow if and only if the target
is stack-only and demands more than it has. -/
theorem valueEscape_assign_iff (env : Surroundings) (id : NodeId) {target value : Expr}
    (span : Span) (s : WalkState)
    (hplain : ∀ receiver getter args, target.kind ≠ .property receiver getter args)
    (ht : ((checkExpr env target).answer s).isInvalid = false)
    (hv : ((checkExpr env value).answer ((checkExpr env target).after s)).isInvalid = false) :
    let t := (checkExpr env target).answer s
    let v := (checkExpr env value).answer ((checkExpr env target).after s)
    let u := (checkExpr env value).after ((checkExpr env target).after s)
    ∃ added, ((checkStmt env ⟨id, .assign target value false, span⟩).after s).errors =
        u.errors ++ added ∧
      ((∃ e ∈ added, ∃ name, e.kind = .valueEscape name) ↔
        (u.types env).stackOnly target.ty = true ∧ v.value < t.value) := by
  intro t v u
  rw [checkStmt_assign env id value span fun r g a h => absurd h (hplain r g a), after_bind,
    after_bind, after_checkAssignment]
  refine ⟨_, rfl, ?_⟩
  change (∃ e ∈ (assignmentError (u.types env) u.facts target value false t v).toList.map
    (⟨·, value.span⟩), ∃ name, EscapeError.kind e = .valueEscape name) ↔ _
  have hallowed : (!v.value.allowed t.value) = true ↔ v.value < t.value := by
    rw [Level.allowed, Bool.not_eq_true', decide_eq_false_iff_not]
    exact Nat.not_le
  rw [← hallowed, ← Bool.and_eq_true]
  unfold assignmentError
  rw [ht, hv]
  split
  next h => cases h
  next =>
    split
    next h => cases h
    next =>
      split
      next h => simp [h]
      next h => simp [h]

end Walk

/-! ## Assignments to properties -/

/-- An assignment by value to a property or to an element of an indexer. -/
structure PropertyWrite where
  /-- The identifier of the statement. -/
  id : NodeId
  /-- The identifier of the target. -/
  targetId : NodeId
  /-- What the property belongs to, if there is something. -/
  receiver : Option Expr
  /-- The getter of the property. -/
  getter : MemberRef
  /-- The arguments of an indexer. -/
  args : List Arg
  /-- The type of the property. -/
  ty : TypeRef
  /-- Where the target stands. -/
  targetSpan : Span
  /-- What is assigned. -/
  value : Expr
  /-- Where the statement stands. -/
  span : Span

namespace PropertyWrite

/-- The target, as it would be read. -/
def target (w : PropertyWrite) : Expr :=
  ⟨w.targetId, .property w.receiver w.getter w.args, w.ty, w.targetSpan⟩

/-- The statement. -/
def stmt (w : PropertyWrite) : Stmt := ⟨w.id, .assign w.target w.value false, w.span⟩

/-- The setter of the property. -/
def setter (w : PropertyWrite) : MemberRef :=
  ⟨w.getter.owner, "set_" ++ propertyName w.getter.name⟩

section Operands

variable (w : PropertyWrite) (env : Surroundings) (s : WalkState)

/-- What the receiver yields. -/
def receiverOperand : Option Operand := (Walk.checkReceiver env w.receiver).answer s

/-- What the arguments yield. -/
def argOperands : List Operand :=
  (Walk.checkArgs env w.args).answer ((Walk.checkReceiver env w.receiver).after s)

/-- The state in which the getter would be called. -/
def accessed : WalkState :=
  (Walk.checkArgs env w.args).after ((Walk.checkReceiver env w.receiver).after s)

/-- What the assigned value yields. -/
def valueOperand : Operand :=
  (Walk.operandOf env w.value .none (Walk.checkExpr env w.value)).answer (w.accessed env s)

/-- The state in which the setter is called. -/
def reached : WalkState :=
  (Walk.operandOf env w.value .none (Walk.checkExpr env w.value)).after (w.accessed env s)

/-- What the setter is called with, besides the receiver. -/
def operands : List Operand := w.argOperands env s ++ [w.valueOperand env s]

end Operands

/-- The getter is called with a contract that returns a reference, and nothing of the assignment was
given up. -/
structure ThroughReference (w : PropertyWrite) (env : Surroundings) (s : WalkState) (g : Contract) :
    Prop where
  /-- The getter is called with the contract. -/
  found : (w.accessed env s).contract? env w.getter = some g
  /-- Its annotations are well placed. -/
  valid : g.valid = true
  /-- It returns a reference. -/
  byRef : g.returnsByRef = true
  /-- No operand was given up. -/
  operands : ∀ op ∈ (w.receiverOperand env s).toList ++ w.operands env s, op.pair.isInvalid = false

/-- The setter could store the value in its receiver. -/
structure Stores (w : PropertyWrite) (env : Surroundings) (s : WalkState) (c : Contract)
    (op : Operand) : Prop where
  /-- The setter is called with the contract. -/
  found : (w.reached env s).contract? env w.setter = some c
  /-- Its annotations are well placed. -/
  valid : c.valid = true
  /-- The setter may write to its receiver. -/
  writable : c.isReadonly = false
  /-- The parameter for the value is not `scoped`. -/
  unscoped : ∀ q ∈ c.params[(w.argOperands env s).length]?, q.isScoped = false
  /-- There is a receiver. -/
  receiver : w.receiverOperand env s = some op
  /-- It is stack-only. -/
  stackOnly : op.stackOnly = true
  /-- So is the value. -/
  value_stackOnly : (w.valueOperand env s).stackOnly = true
  /-- The value is not a variable declared in place. -/
  value_fresh : (w.valueOperand env s).fresh = false

variable {w : PropertyWrite} {env : Surroundings} {s : WalkState} {c : Contract} {op : Operand}

/-- The assignment is a call of the setter. -/
theorem after_stmt (w : PropertyWrite) (env : Surroundings) (s : WalkState) :
    (Walk.checkStmt env w.stmt).after s = (Walk.invokeRef env w.setter (w.receiverOperand env s)
      (w.operands env s) .void w.span).after (w.reached env s) := by
  unfold stmt target
  rw [Walk.checkStmt]
  rfl

/-- The value is passed by value, and reported where it stands. -/
theorem valueOperand_mode_span (w : PropertyWrite) (env : Surroundings) (s : WalkState) :
    (w.valueOperand env s).mode = .none ∧ (w.valueOperand env s).span = w.value.span := by
  obtain ⟨_, _, _, _, _, _, _, ⟨_, kind, _, _⟩, _⟩ := w
  cases kind <;> exact ⟨rfl, rfl⟩

/-- What is too narrow for the receiver must not be passed together with it. -/
theorem Stores.mixes (h : w.Stores env s c op)
    (hlt : (w.valueOperand env s).pair.value < op.pair.value) :
    c.Mixes (w.receiverOperand env s) (w.operands env s) ((w.argOperands env s).length + 1) 0 := by
  have hsource : (c.mixingArg (w.valueOperand env s) (w.argOperands env s).length).sourceLevel =
      some (w.valueOperand env s).pair.value := by
    have hmode := (w.valueOperand_mode_span env s).1
    have hunscoped := h.unscoped
    unfold MixingArg.sourceLevel Contract.mixingArg
    simp only [hmode, h.value_fresh, h.value_stackOnly]
    cases hq : c.params[(w.argOperands env s).length]? with
    | none => rfl
    | some q => simp [hunscoped q hq]
  have hsink : (c.mixingReceiver op).sinkLevel = some op.pair.value := by
    simp [MixingArg.sinkLevel, Contract.mixingReceiver, h.stackOnly, h.writable]
  refine ⟨(Nat.succ_ne_zero _).symm, _, _, _, _, ?_, ?_, hsource, hsink, hlt⟩
  · rw [h.receiver]
    simp [Contract.mixingArgs, operands]
  · rw [h.receiver]
    simp [Contract.mixingArgs]

/-- Outside of expression trees, a read of the property is a call of the getter. -/
theorem answer_target (htree : s.ctx.inExpressionTree = false) :
    (Walk.checkExpr env w.target).answer s = (Walk.readProperty env w.getter
      (w.receiverOperand env s) (w.argOperands env s) w.ty w.targetSpan).answer
        (w.accessed env s) := by
  unfold target
  rw [Walk.answer_checkExpr htree, Walk.checkForm]
  rfl

/-- What a getter returns stays within the value of a stack-only receiver. -/
theorem value_read_le (htree : s.ctx.inExpressionTree = false)
    (hreceiver : w.receiverOperand env s = some op) (hstack : op.stackOnly = true)
    (hfresh : op.fresh = false) (hcall : (w.accessed env s).CallsInstance env w.getter c)
    (hty : ((w.accessed env s).types env).stackOnly w.ty = true)
    (hop : op.pair.isInvalid = false)
    (hargs : ∀ a ∈ w.argOperands env s, a.pair.isInvalid = false) :
    ((Walk.checkExpr env w.target).answer s).value ≤ op.pair.value := by
  have hresult := (hcall.outcome op hop hstack hargs).2 hfresh
  rw [answer_target htree, hreceiver, Walk.answer_readProperty_of_contract? hcall.found, hty]
  split
  · exact Level.currentMethod_le _
  · exact hresult

/-- **Assignments to properties.** Let an assignment to a property have operands that were not given
up. Whatever the getter returns, it is reported that a member is unknown if and only if the setter
means nothing, and that a value is too narrow if and only if some operands of the setter must not be
passed together. If the setter could store the value in its receiver, the value is refused where it
is narrower than what a read of the property yields. -/
theorem errors_propertyWrite (w : PropertyWrite) (env : Surroundings) (s : WalkState)
    (hvalid : ∀ op ∈ (w.receiverOperand env s).toList ++ w.operands env s,
      op.pair.isInvalid = false) :
    ∃ added, ((Walk.checkStmt env w.stmt).after s).errors =
        (w.reached env s).errors ++ added ∧
      ((∃ e ∈ added, ∃ name, e.kind = .unresolvedMember name) ↔
        (w.reached env s).contract? env w.setter = none) ∧
      ((∃ e ∈ added, ∃ name, e.kind = .valueEscape name) ↔
        ∃ c, (w.reached env s).contract? env w.setter = some c ∧ c.valid = true ∧
          ∃ i j, c.Mixes (w.receiverOperand env s) (w.operands env s) i j) ∧
      ∀ c op g, w.Stores env s c op → op.fresh = false → s.ctx.inExpressionTree = false →
        (w.accessed env s).CallsInstance env w.getter g →
        ((w.accessed env s).types env).stackOnly w.ty = true →
        (w.valueOperand env s).pair.value < ((Walk.checkExpr env w.target).answer s).value →
        ∃ name, ⟨.valueEscape name, w.value.span⟩ ∈ added := by
  rw [after_stmt]
  obtain ⟨added, hafter, hunknown, hnarrow, hreported⟩ :=
    Walk.errors_invokeRef env w.setter hvalid .void w.span (w.reached env s)
  refine ⟨added, hafter, hunknown, ⟨hnarrow, ?_⟩, ?_⟩
  · rintro ⟨c, hfound, hc, i, j, hmixes⟩
    obtain ⟨op, name, -, he⟩ := hreported c i j hfound hc hmixes
    exact ⟨_, he, name, rfl⟩
  · intro c op g hstores hfresh htree hcall hty hlt
    have hop : op.pair.isInvalid = false :=
      hvalid op (List.mem_append_left _ (by simp [hstores.receiver]))
    have hargs : ∀ a ∈ w.argOperands env s, a.pair.isInvalid = false := fun a ha =>
      hvalid a (List.mem_append_right _ (List.mem_append_left _ ha))
    have hread := value_read_le htree hstores.receiver hstores.stackOnly hfresh hcall hty hop hargs
    obtain ⟨v, name, hv, he⟩ := hreported c _ _ hstores.found hstores.valid
      (hstores.mixes (Nat.lt_of_lt_of_le hlt hread))
    obtain rfl : w.valueOperand env s = v := by
      simpa [hstores.receiver, operands] using hv
    exact ⟨name, (w.valueOperand_mode_span env s).2 ▸ he⟩

end PropertyWrite

/-! ## Slots that are put in drawers -/

namespace Drawers

open Slots

/-- The type of drawers. -/
def drawerTy : TypeRef := .named "Drawer" []

/-- Returns a reference to what is in a drawer. -/
def getContent : FnDecl :=
  ⟨3, "get_Content", .getter, default, [], [], .byRef slotTy, [], none, none, none, .zero⟩

/-- Replaces what is in a drawer, or cannot do so. -/
def setContent (isReadonly : Bool) : FnDecl :=
  ⟨4, "set_Content", .setter, { (default : Modifiers) with isReadonly }, [],
    [slotParam "value" .none false], .nothing, [], none, none, none, .zero⟩

/-- A slot is put in a drawer. -/
def put : PropertyWrite :=
  ⟨8, 9, some ⟨10, .var "drawer", drawerTy, .zero⟩, ⟨drawerTy, "get_Content"⟩, [], slotTy, .zero,
    slotVar 11 "slot", .zero⟩

/-- Puts a slot of its caller in a drawer, or one that is confined. -/
def fill (isScoped : Bool) : FnDecl :=
  fn 7 "Fill" [⟨"drawer", drawerTy, .none, false, [], .zero⟩, slotParam "slot" .none isScoped]
    .nothing [put.stmt]

/-- The drawers. There may be a setter, and it may be readonly. -/
def drawer (setter : Option Bool) : TypeDecl :=
  ⟨2, "Drawer", .refStruct, false, false, [], [], [], [],
    getContent :: (setter.map setContent).toList, .zero⟩

/-- The class of the function. -/
def decl (isScoped : Bool) : TypeDecl :=
  ⟨6, "Chest", .classType, false, false, [], [], [], [], [fill isScoped], .zero⟩

/-- A program with slots and drawers. -/
def program (setter : Option Bool) (isScoped : Bool) : Program :=
  ⟨[⟨1, "Slot", .refStruct, false, false, [], [], [], [], [], .zero⟩, drawer setter, decl isScoped]⟩

/-- The surroundings of the assignment. -/
def env (setter : Option Bool) (isScoped : Bool) : Surroundings :=
  ⟨program setter isScoped, ⟨decl isScoped, fill isScoped⟩, true⟩

/-- The state before it. -/
def start (setter : Option Bool) (isScoped : Bool) : WalkState :=
  (program setter isScoped).bodyEntry true {} (env setter isScoped).member [put.stmt]

/-- The contract of a member of a drawer. -/
def contract (setter : Option Bool) (isScoped : Bool) (f : FnDecl) : Contract :=
  Contract.ofMember .empty (program setter isScoped) ⟨drawer setter, f⟩

theorem target?_drawer (setter : Option Bool) (isScoped : Bool) (s : WalkState) (name : String) :
    s.target? (env setter isScoped) ⟨drawerTy, name⟩ =
      ((program setter isScoped).member? ⟨drawerTy, name⟩).map .member :=
  rfl

theorem member?_getContent (setter : Option Bool) (isScoped : Bool) :
    (program setter isScoped).member? ⟨drawerTy, "get_Content"⟩ =
      some ⟨drawer setter, getContent⟩ := by
  rcases setter with _ | _ | _ <;> cases isScoped <;> cbv

theorem member?_setContent (isReadonly isScoped : Bool) :
    (program (some isReadonly) isScoped).member? ⟨drawerTy, "set_Content"⟩ =
      some ⟨drawer (some isReadonly), setContent isReadonly⟩ := by
  cases isReadonly <;> cases isScoped <;> cbv

/-- The getter returns a reference, and nothing is given up. -/
theorem throughReference (setter : Option Bool) (isScoped : Bool) :
    put.ThroughReference (env setter isScoped) (start setter isScoped)
      (contract setter isScoped getContent) where
  found := by
    rw [WalkState.contract?, put, target?_drawer, member?_getContent]
    rfl
  valid := by rcases setter with _ | _ | _ <;> cases isScoped <;> decide +kernel
  byRef := rfl
  operands op hop := by
    have hinvalid := List.mem_map_of_mem (f := fun op : Operand => op.pair.isInvalid) hop
    have hnone : ((put.receiverOperand (env setter isScoped) (start setter isScoped)).toList ++
        put.operands (env setter isScoped) (start setter isScoped)).map
          (fun op => op.pair.isInvalid) = [false, false] := by
      rcases setter with _ | _ | _ <;> cases isScoped <;> decide +kernel
    rw [hnone] at hinvalid
    simpa using hinvalid

/-- What is read escapes as far as the drawer. -/
theorem value_target (setter : Option Bool) (isScoped : Bool) :
    ((Walk.checkExpr (env setter isScoped) put.target).answer (start setter isScoped)).value =
      .callingMethod := by
  rw [PropertyWrite.answer_target rfl,
    Walk.answer_readProperty_of_contract? (throughReference setter isScoped).found]
  rcases setter with _ | _ | _ <;> cases isScoped <;> decide +kernel

/-- The setter that may write to the drawer could store the slot there. -/
theorem stores_put : put.Stores (env (some false) true) (start (some false) true)
    (contract (some false) true (setContent false))
    (.ofExpr ⟨10, .var "drawer", drawerTy, .zero⟩ ⟨.callingMethod, .currentMethod, false⟩ true .none
      false) where
  found := by
    rw [WalkState.contract?, PropertyWrite.setter, put, target?_drawer]
    change (((program (some false) true).member? ⟨drawerTy, "set_Content"⟩).map Target.member).map
      _ = _
    rw [member?_setContent]
    rfl
  valid := by decide +kernel
  writable := rfl
  unscoped := by decide +kernel
  receiver := rfl
  stackOnly := rfl
  value_stackOnly := by decide +kernel
  value_fresh := rfl

/-- Although the getter returns a reference, a slot that lives as long as the drawer is refused if
there is no setter, and a slot that is confined is accepted if there is a setter that may not write
to the drawer. -/
theorem setter_called :
    (let env := env none false
      let s := start none false
      put.ThroughReference env s (contract none false getContent) ∧
        ((Walk.checkExpr env put.target).answer s).value = .callingMethod ∧
        (put.valueOperand env s).pair.value = .callingMethod ∧
        ((program none false).analyze {}).escapeErrors =
          [⟨.unresolvedMember "Drawer.set_Content", .zero⟩]) ∧
    (let env := env (some true) true
      let s := start (some true) true
      put.ThroughReference env s (contract (some true) true getContent) ∧
        ((put.accessed env s).types env).stackOnly put.ty = true ∧
        ((Walk.checkExpr env put.target).answer s).value = .callingMethod ∧
        (put.valueOperand env s).pair.value = .currentMethod ∧
        ((program (some true) true).analyze {}).isOk = true) :=
  ⟨⟨throughReference none false, value_target none false, by decide +kernel, by cbv⟩,
    throughReference (some true) true, by decide +kernel, value_target (some true) true,
    by decide +kernel, by cbv⟩

/-- Where the setter may write to the drawer, the confined slot is refused. Without a setter, that
is reported instead. -/
theorem errors_propertyWrite_put :
    (∃ added, ((Walk.checkStmt (env (some false) true) put.stmt).after
        (start (some false) true)).errors =
          (put.reached (env (some false) true) (start (some false) true)).errors ++ added ∧
        ∃ name, ⟨.valueEscape name, .zero⟩ ∈ added) ∧
      ∃ added, ((Walk.checkStmt (env none true) put.stmt).after (start none true)).errors =
          (put.reached (env none true) (start none true)).errors ++ added ∧
        (∃ e ∈ added, ∃ name, e.kind = .unresolvedMember name) ∧
        ¬ ∃ e ∈ added, ∃ name, e.kind = .valueEscape name := by
  constructor
  · have hread := throughReference (some false) true
    have hcalls : (put.accessed (env (some false) true) (start (some false) true)).CallsInstance
        (env (some false) true) put.getter (contract (some false) true getContent) := by
      refine ⟨hread.found, ⟨⟨drawer (some false), getContent⟩, .empty, ?_, rfl, rfl⟩, hread.valid⟩
      rw [put, target?_drawer, member?_getContent, Option.map_some]
    obtain ⟨added, hafter, -, -, hrefused⟩ := put.errors_propertyWrite (env (some false) true)
      (start (some false) true) hread.operands
    refine ⟨added, hafter, hrefused _ _ _ stores_put rfl rfl hcalls (by decide +kernel) ?_⟩
    rw [value_target]
    decide +kernel
  · obtain ⟨added, hafter, hunknown, hnarrow, -⟩ := put.errors_propertyWrite (env none true)
      (start none true) (throughReference none true).operands
    have hnone : (put.reached (env none true) (start none true)).contract? (env none true)
        put.setter = none := by
      rw [WalkState.contract?, PropertyWrite.setter, put, target?_drawer]
      cbv
    refine ⟨added, hafter, hunknown.2 hnone, fun h => ?_⟩
    obtain ⟨c, hc, -⟩ := hnarrow.1 h
    rw [hnone] at hc
    cases hc

end Drawers

end StackEscape
