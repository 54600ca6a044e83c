import Mathlib
import StackEscape.Proofs.Receivers

/-!
# Chains of accesses

A field is read, of that a property, on that a method is called, and so on. A getter that returns by
value and may not hand out its receiver's storage is called on a copy of its receiver, and a copy
lives in the method. No later access of the chain gets around that: every access on a stack-only
receiver stays within the value of it.

## Main definitions

* `StackEscape.Access`, `Link`, `StackEscape.Expr.chain` — chains of accesses.
* `StackEscape.Expr.links` — the links of a chain, each with what it is applied to.
* `StackEscape.WalkState.CallsInstance` — a reference is called with the contract of an instance
  member.
* `StackEscape.Link.Sound`, `Link.Copies` — links through which stack-only values are passed, and
  those that copy their receiver.

## Main results

* `StackEscape.Link.Sound.step` — one link stays within the value of its receiver.
* `StackEscape.Walk.value_chain_le` — so does a chain.
* `StackEscape.Walk.chain_confined` — a chain with a copy in it is confined to the method; a chain
  of copies notes each of them and reports nothing.
-/

set_option autoImplicit false

namespace StackEscape

/-! ## Chains -/

/-- An access to a member of a value. -/
inductive Access where
  /-- A field is read. -/
  | field (owner : TypeRef) (name : String)
  /-- A property or indexer is read. -/
  | property (getter : MemberRef) (args : List Arg)
  /-- A method is called. -/
  | call (method : MemberRef) (typeArgs : List TypeRef) (args : List Arg)

namespace Access

/-- The expression that makes the access to a receiver. -/
def kind (receiver : Expr) : Access → ExprKind
  | .field owner name => .field (some receiver) owner name
  | .property getter args => .property (some receiver) getter args
  | .call method typeArgs args => .call (some receiver) method typeArgs args

/-- The member that is called. -/
def callee? : Access → Option MemberRef
  | .field _ _ => none
  | .property r _ | .call r _ _ => some r

/-- The arguments of the access. -/
def args : Access → List Arg
  | .field _ _ => []
  | .property _ args | .call _ _ args => args

end Access

/-- A link of a chain: an access, as it stands in a body. -/
structure Link where
  /-- The identifier of the expression. -/
  id : NodeId
  /-- What is accessed. -/
  access : Access
  /-- The type of the result. -/
  ty : TypeRef
  /-- Where it stands. -/
  span : Span

/-- The link, applied to a receiver. -/
def Link.on (l : Link) (receiver : Expr) : Expr := ⟨l.id, l.access.kind receiver, l.ty, l.span⟩

/-- Some links, applied to an expression one after the other. -/
def Expr.chain (e : Expr) (links : List Link) : Expr := links.foldl (fun e l => l.on e) e

/-- The links of a chain, each with what it is applied to. -/
def Expr.links (e : Expr) : List Link → List (Expr × Link)
  | [] => []
  | l :: rest => (e, l) :: Expr.links (l.on e) rest

/-- A reference is called with the contract of an instance member whose annotations are well
placed. -/
structure WalkState.CallsInstance (s : WalkState) (env : Surroundings) (r : MemberRef)
    (c : Contract) : Prop where
  /-- It is called with the contract. -/
  found : s.contract? env r = some c
  /-- That is the contract of an instance member, and the reference means this member. -/
  ofMember : ∃ m caps, s.target? env r = some (.member m) ∧ m.decl.modifiers.isStatic = false ∧
    c = Contract.ofMember caps env.program m
  /-- Its annotations are well placed. -/
  valid : c.valid = true

/-- An instance member may return what its receiver holds. -/
theorem WalkState.CallsInstance.receiver_mem {s : WalkState} {env : Surroundings} {r : MemberRef}
    {c : Contract} (h : s.CallsInstance env r c) :
    (⟨.receiver, .value⟩ : ReturnSource) ∈ c.returnSources := by
  obtain ⟨m, caps, _, hstatic, rfl⟩ := h.ofMember
  exact Contract.receiver_mem_returnSources caps env.program hstatic

namespace Link

variable (env : Surroundings) (s : WalkState) (receiver : Expr) (l : Link)

/-- What the arguments of the link yield, in a walk over its receiver and then over them. -/
def operands : List Operand :=
  (Walk.checkArgs env l.access.args).answer ((Walk.checkExpr env receiver).after s)

/-- The state in which the access is made. -/
def reached : WalkState :=
  (Walk.checkArgs env l.access.args).after ((Walk.checkExpr env receiver).after s)

/-- The link is an access to an instance member with a stack-only result, and no argument was given
up. -/
structure Sound : Prop where
  /-- Its result may be stack-only. -/
  stackOnly : ((l.reached env s receiver).types env).stackOnly l.ty = true
  /-- No argument was given up. -/
  operands : ∀ op ∈ l.operands env s receiver, op.pair.isInvalid = false
  /-- What it calls is an instance member. -/
  calls : ∀ r ∈ l.access.callee?, ∃ c, (l.reached env s receiver).CallsInstance env r c

/-- The link reads through a getter that returns by value and carries no `UnscopedRef`. -/
def Copies : Prop :=
  ∃ getter args c, l.access = .property getter args ∧
    (l.reached env s receiver).contract? env getter = some c ∧ c.returnsByRef = false ∧
    c.isUnscoped = false

end Link

/-! ## What a call does to its surroundings -/

namespace Contract

variable {c : Contract} {op : Operand} {args : List Operand}

/-- A call of which no operand was given up yields what its contract says. -/
theorem outcome_of_valid (hc : c.valid = true) (hop : op.pair.isInvalid = false)
    (hargs : ∀ a ∈ args, a.pair.isInvalid = false) (stackOnly : Bool) :
    c.outcome (some op) args stackOnly =
      ⟨c.resultPair stackOnly (c.derivedLevel (some op) args), c.derivedLevel (some op) args⟩ := by
  have hany : ((Option.toList (some op) ++ args).any fun a => a.pair.isInvalid) = false := by
    refine List.any_eq_false.2 fun a ha => ?_
    rcases List.mem_cons.1 ha with rfl | ha
    · simp [hop]
    · simp [hargs a ha]
  simp only [outcome, hc, hany, Bool.not_false, Bool.and_self, if_true]

/-- What it yields was not given up. -/
theorem isInvalid_resultPair (c : Contract) (stackOnly : Bool) (derived : Level) :
    (c.resultPair stackOnly derived).isInvalid = false := by
  unfold resultPair
  split
  · rfl
  · cases stackOnly <;> rfl

/-- A receiver alone cannot be stored anywhere. -/
theorem mixingErrors_receiver (facts : Facts) (c : Contract) (op : Operand) (span : Span) :
    mixingErrors facts c (some op) [] span = [] := by
  have hnone : Mixing.violations (c.mixingArgs (some op) []) = [] := by
    refine List.eq_nil_iff_forall_not_mem.2 fun ⟨i, j⟩ hv => ?_
    obtain ⟨l, r, hsource, hsink, hne, _⟩ := Mixing.mem_violations_iff.1 hv
    obtain ⟨a, hi, _⟩ := Mixing.mem_sources_iff.1 hsource
    obtain ⟨b, hj, _⟩ := Mixing.mem_sinks_iff.1 hsink
    have hlength : (c.mixingArgs (some op) []).length = 1 := rfl
    have hi := (List.getElem?_eq_some_iff.1 hi).1
    have hj := (List.getElem?_eq_some_iff.1 hj).1
    omega
  rw [mixingErrors, hnone]
  rfl

end Contract

namespace Walk

variable {env : Surroundings} {s : WalkState} {c : Contract} {r : MemberRef}

/-- A call changes neither the meaning of types nor the copies that are noted. -/
theorem invoke_keeps (env : Surroundings) (c : Contract) (receiver : Option Operand)
    (args : List Operand) (ty : TypeRef) (span : Span) (s : WalkState) :
    ((invoke env c receiver args ty span).after s).types env = s.types env ∧
      ((invoke env c receiver args ty span).after s).facts = s.facts := by
  obtain ⟨errors, hafter, _⟩ := run_invoke env c receiver args ty span s
  rw [hafter]
  exact ⟨rfl, rfl⟩

/-- A call on a receiver without arguments reports nothing. -/
theorem errors_invoke_nil (env : Surroundings) (c : Contract) (op : Operand) (ty : TypeRef)
    (span : Span) (s : WalkState) :
    ((invoke env c (some op) [] ty span).after s).errors = s.errors := by
  unfold invoke
  cases hv : c.valid with
  | false => rfl
  | true =>
    cases hop : op.pair.isInvalid with
    | true => simp [hop]; rfl
    | false =>
      have herrors := c.mixingErrors_receiver s.facts op span
      simp only [Bool.not_true, Bool.false_eq_true, if_false, Option.toList_some, List.append_nil,
        List.any_cons, List.any_nil, hop, Bool.or_self]
      change s.errors ++ mixingErrors s.facts c (some op) [] span = s.errors
      rw [herrors, List.append_nil]

/-- Looking up a reference that means something changes neither facts nor errors. -/
theorem resolve_silent (h : s.contract? env r = some c) (span : Span) :
    ((resolve env r span).after s).facts = s.facts ∧
      ((resolve env r span).after s).errors = s.errors := by
  obtain ⟨x, hx, _⟩ := Option.map_eq_some_iff.1 h
  rw [after_resolve_of_target hx]
  exact ⟨rfl, rfl⟩

/-- A copy is noted where one is needed, and nothing else changes. -/
theorem after_copied (c : Contract) (receiver : Option Operand) (ty : TypeRef) (span : Span)
    (pair : ScopePair) (s : WalkState) : (copied env c receiver ty span pair).after s =
      if !pair.isInvalid && needsCopy c receiver ((s.types env).stackOnly ty) then
        { s with facts := s.facts.noteCopy span }
      else s := by
  unfold copied stackOnly
  rw [after_bind]
  change (if (!pair.isInvalid && needsCopy c receiver ((s.types env).stackOnly ty)) = true then _
    else _ : Walk ScopePair).after _ = _
  split <;> rfl

/-- A read through a getter is a call, and then its receiver may have been copied. -/
theorem run_readProperty (h : s.contract? env r = some c) (receiver : Option Operand)
    (args : List Operand) (ty : TypeRef) (span : Span) :
    let t := (resolve env r span).after s
    let called := invoke env c receiver args ty span
    let result := copied env c receiver ty span (called.answer t).result
    (readProperty env r receiver args ty span).answer s = result.answer (called.after t) ∧
      (readProperty env r receiver args ty span).after s = result.after (called.after t) := by
  have hresolve := answer_resolve env r span s
  rw [h] at hresolve
  obtain ⟨callee, hcallee, rfl⟩ := Option.map_eq_some_iff.1 hresolve
  unfold readProperty
  rw [answer_bind, after_bind, hcallee]
  exact ⟨rfl, rfl⟩

/-- What it yields. -/
theorem answer_readProperty_of_contract? (h : s.contract? env r = some c)
    (receiver : Option Operand) (args : List Operand) (ty : TypeRef) (span : Span) :
    let stackOnly := (s.types env).stackOnly ty
    let pair := (c.outcome receiver args stackOnly).result
    (readProperty env r receiver args ty span).answer s =
      if !pair.isInvalid && needsCopy c receiver stackOnly then pair.withValue .currentMethod
      else pair := by
  have hresolve := (resolve_keeps env r span s).1
  have hinvoke := (invoke_keeps env c receiver args ty span ((resolve env r span).after s)).1
  rw [(run_readProperty h receiver args ty span).1, answer_copied, answer_invoke, hinvoke, hresolve]

/-- Reads through getters leave the meaning of types alone. -/
theorem types_readProperty (h : s.contract? env r = some c) (receiver : Option Operand)
    (args : List Operand) (ty : TypeRef) (span : Span) :
    ((readProperty env r receiver args ty span).after s).types env = s.types env := by
  have hcalled := (invoke_keeps env c receiver args ty span ((resolve env r span).after s)).1
  rw [(run_readProperty h receiver args ty span).2, after_copied,
    ← (resolve_keeps env r span s).1, ← hcalled]
  split <;> rfl

/-- So do other calls. -/
theorem types_callOver (typeArgs : List TypeRef) (receiver : Option Operand) (args : List Operand)
    (ty : TypeRef) (span : Span) (s : WalkState) :
    ((callOver env r typeArgs receiver args ty span).after s).types env = s.types env := by
  rw [← (resolve_keeps env r span s).1]
  unfold callOver
  rw [after_bind]
  cases (resolve env r span).answer s with
  | none => rfl
  | some callee =>
    exact (invoke_keeps env callee.contract receiver args ty span
      ((checkTypeArgs env callee typeArgs span).after ((resolve env r span).after s))).1

/-- What an expression yields as a receiver, outside of expression trees. -/
theorem run_checkReceiver (env : Surroundings) (htree : s.ctx.inExpressionTree = false) (e : Expr) :
    (checkReceiver env (some e)).answer s = some (.ofExpr e ((checkExpr env e).answer s)
        ((((checkExpr env e).after s).types env).stackOnly e.ty) .none e.isOutVar) ∧
      (checkReceiver env (some e)).after s = (checkExpr env e).after s := by
  obtain ⟨id, kind, ty, span⟩ := e
  rw [checkReceiver]
  cases kind with
  | outVar name =>
    have hrun : (checkExpr env ⟨id, .outVar name, ty, span⟩).run s =
        (.confined, { s with facts := s.facts.record id .confined }) := by
      rw [checkExpr, checkForm]
      change (if (s.ctx.inExpressionTree && _) = true then _ else _ : Walk _).run s = _
      rw [htree, Bool.false_and]
      rfl
    have hanswer : (checkExpr env ⟨id, .outVar name, ty, span⟩).answer s = _ :=
      congrArg Prod.fst hrun
    have hafter : (checkExpr env ⟨id, .outVar name, ty, span⟩).after s = _ :=
      congrArg Prod.snd hrun
    rw [hanswer, hafter]
    exact ⟨rfl, rfl⟩
  | _ => exact ⟨rfl, rfl⟩

end Walk

/-- A stack-only field of something stack-only has the value of that. -/
theorem TypeEnv.fieldPair_of_stackOnly {types : TypeEnv} {pair : ScopePair}
    {receiverTy ty : TypeRef}
    (hvalid : pair.isInvalid = false) (hreceiver : types.stackOnly receiverTy = true)
    (hty : types.stackOnly ty = true) (owner : TypeRef) (name : String) :
    let read := types.fieldPair (some (pair, receiverTy)) owner name ty
    read.isInvalid = false ∧ read.value = pair.value := by
  have hheap : types.isHeapType receiverTy = false := by
    have hcap : (types.capability receiverTy).isStackOnly = true := hreceiver
    simp [isHeapType, hcap]
  simp [fieldPair, hvalid, hheap, hty]

/-- A stack-only result of an instance member stays within the value of its receiver, and it is not
given up unless an operand is. -/
theorem WalkState.CallsInstance.outcome {s : WalkState} {env : Surroundings} {r : MemberRef}
    {c : Contract} (hc : s.CallsInstance env r c) (op : Operand) {args : List Operand}
    (hop : op.pair.isInvalid = false) (hstack : op.stackOnly = true)
    (hargs : ∀ a ∈ args, a.pair.isInvalid = false) :
    let result := (c.outcome (some op) args true).result
    result.isInvalid = false ∧ (op.fresh = false → result.value ≤ op.pair.value) := by
  intro result
  have hinvalid : result.isInvalid = false := by
    simp only [result, Contract.outcome_of_valid hc.valid hop hargs]
    exact c.isInvalid_resultPair ..
  refine ⟨hinvalid, fun hfresh => ?_⟩
  rcases Contract.outcome_staysWithin hc.receiver_mem hfresh hstack args with h | h
  · exact absurd h (by simp [← hinvalid, result])
  · exact h

/-! ## One link -/

namespace Link

variable {env : Surroundings} {s : WalkState} {receiver : Expr} {l : Link}

/-- The receiver of the link as an operand of its call. -/
def operand (env : Surroundings) (s : WalkState) (receiver : Expr) : Operand :=
  .ofExpr receiver ((Walk.checkExpr env receiver).answer s)
    ((((Walk.checkExpr env receiver).after s).types env).stackOnly receiver.ty) .none
    receiver.isOutVar

/-- The access of the link, once its receiver and its arguments are known. -/
def perform (env : Surroundings) (s : WalkState) (receiver : Expr) (l : Link) : Walk ScopePair :=
  match l.access with
  | .field owner name => do
    return ((← get).types env).fieldPair
      (some ((Walk.checkExpr env receiver).answer s, receiver.ty)) owner name l.ty
  | .property getter _ => Walk.readProperty env getter (some (operand env s receiver))
      (l.operands env s receiver) l.ty l.span
  | .call method typeArgs _ => Walk.callOver env method typeArgs (some (operand env s receiver))
      (l.operands env s receiver) l.ty l.span

/-- Without arguments, the access is made right after its receiver. -/
theorem reached_eq (hargs : l.access.args = []) :
    l.reached env s receiver = (Walk.checkExpr env receiver).after s := by
  rw [reached, hargs, Walk.checkArgs]
  rfl

theorem operands_eq (hargs : l.access.args = []) : l.operands env s receiver = [] := by
  rw [operands, hargs, Walk.checkArgs]
  rfl

/-- The form of a link is walked over by its receiver, its arguments and then the access. -/
theorem run_kind (env : Surroundings) (receiver : Expr) (l : Link)
    (htree : s.ctx.inExpressionTree = false) :
    (Walk.checkForm env l.id l.ty l.span (l.access.kind receiver)).run s =
      (l.perform env s receiver).run (l.reached env s receiver) := by
  obtain ⟨hanswer, hafter⟩ := Walk.run_checkReceiver env htree receiver
  obtain ⟨id, access, ty, span⟩ := l
  cases access with
  | field owner name =>
    change (Walk.checkForm env id ty span (.field (some receiver) owner name)).run s = _
    rw [Walk.checkForm, Walk.checkOptional]
    unfold reached
    rw [Access.args, Walk.checkArgs]
    rfl
  | property getter args =>
    change (Walk.checkForm env id ty span (.property (some receiver) getter args)).run s = _
    rw [Walk.checkForm]
    change (Walk.readProperty env getter ((Walk.checkReceiver env (some receiver)).answer s)
      ((Walk.checkArgs env args).answer ((Walk.checkReceiver env (some receiver)).after s)) ty
        span).run ((Walk.checkArgs env args).after
          ((Walk.checkReceiver env (some receiver)).after s)) = _
    rw [hanswer, hafter]
    rfl
  | call method typeArgs args =>
    change (Walk.checkForm env id ty span (.call (some receiver) method typeArgs args)).run s = _
    rw [Walk.checkForm]
    change (Walk.callOver env method typeArgs ((Walk.checkReceiver env (some receiver)).answer s)
      ((Walk.checkArgs env args).answer ((Walk.checkReceiver env (some receiver)).after s)) ty
        span).run ((Walk.checkArgs env args).after
          ((Walk.checkReceiver env (some receiver)).after s)) = _
    rw [hanswer, hafter]
    rfl

/-- A link yields what its access yields, and that is recorded. -/
theorem run_on (env : Surroundings) (receiver : Expr) (l : Link)
    (htree : s.ctx.inExpressionTree = false) :
    let pair := (l.perform env s receiver).answer (l.reached env s receiver)
    let t := (l.perform env s receiver).after (l.reached env s receiver)
    (Walk.checkExpr env (l.on receiver)).answer s = pair ∧
      (Walk.checkExpr env (l.on receiver)).after s =
        { t with facts := t.facts.record l.id pair } := by
  have hrun : (Walk.checkExpr env (l.on receiver)).run s =
      let x := (Walk.checkForm env l.id l.ty l.span (l.access.kind receiver)).run s
      (x.1, { x.2 with facts := x.2.facts.record l.id x.1 }) := by
    unfold Link.on
    rw [Walk.checkExpr]
    change (if (s.ctx.inExpressionTree && _) = true then _ else _ : Walk _).run s = _
    rw [htree, Bool.false_and]
    rfl
  rw [l.run_kind env receiver htree] at hrun
  have hfst := congrArg Prod.fst hrun
  have hsnd := congrArg Prod.snd hrun
  exact ⟨hfst, hsnd⟩

/-- A link leaves the meaning of types as it is after its arguments. -/
theorem Sound.types_eq (h : l.Sound env s receiver) (htree : s.ctx.inExpressionTree = false) :
    ((Walk.checkExpr env (l.on receiver)).after s).types env =
      (l.reached env s receiver).types env := by
  rw [(run_on env receiver l htree).2]
  change ((l.perform env s receiver).after (l.reached env s receiver)).types env = _
  have hcalls := h.calls
  unfold perform
  cases haccess : l.access with
  | field owner name => rfl
  | property getter args =>
    obtain ⟨c, hc⟩ := hcalls getter (by rw [haccess]; rfl)
    exact Walk.types_readProperty hc.found ..
  | call method typeArgs args => exact Walk.types_callOver ..

/-- Only a read through a getter copies its receiver. -/
theorem not_copies (h : ∀ getter args, l.access ≠ .property getter args) :
    ¬l.Copies env s receiver := by
  rintro ⟨getter, args, _, haccess, _⟩
  exact h getter args haccess

/-- A stack-only receiver is copied for a getter that returns a stack-only value and carries no
`UnscopedRef`. -/
theorem needsCopy_operand {c : Contract} (hbyRef : c.returnsByRef = false)
    (hunscoped : c.isUnscoped = false)
    (hstack : (((Walk.checkExpr env receiver).after s).types env).stackOnly receiver.ty = true) :
    Walk.needsCopy c (some (operand env s receiver)) true = true := by
  have hop : (operand env s receiver).stackOnly = true := hstack
  simp [Walk.needsCopy, hbyRef, hunscoped, hop]

/-- A field has the value of its receiver. -/
theorem Sound.answer_field (h : l.Sound env s receiver)
    (hvalid : ((Walk.checkExpr env receiver).answer s).isInvalid = false)
    (hstack : (((Walk.checkExpr env receiver).after s).types env).stackOnly receiver.ty = true)
    {owner : TypeRef} {name : String} (haccess : l.access = .field owner name) :
    let pair := (l.perform env s receiver).answer (l.reached env s receiver)
    pair.isInvalid = false ∧ pair.value = ((Walk.checkExpr env receiver).answer s).value := by
  intro pair
  have hreached : l.reached env s receiver = (Walk.checkExpr env receiver).after s :=
    reached_eq (by rw [haccess, Access.args])
  have hpair : pair = (((Walk.checkExpr env receiver).after s).types env).fieldPair
      (some ((Walk.checkExpr env receiver).answer s, receiver.ty)) owner name l.ty := by
    simp only [pair, Link.perform, haccess, hreached]
    rfl
  have hty := h.stackOnly
  rw [hreached] at hty
  rw [hpair]
  exact TypeEnv.fieldPair_of_stackOnly hvalid hstack hty owner name

/-- A read through a getter yields what the getter returns, confined to the method if the receiver
was copied. -/
theorem Sound.answer_property (h : l.Sound env s receiver)
    (hvalid : ((Walk.checkExpr env receiver).answer s).isInvalid = false)
    (hstack : (((Walk.checkExpr env receiver).after s).types env).stackOnly receiver.ty = true)
    {getter : MemberRef} {args : List Arg} (haccess : l.access = .property getter args)
    {c : Contract} (hc : (l.reached env s receiver).CallsInstance env getter c) :
    let op := operand env s receiver
    let result := (c.outcome (some op) (l.operands env s receiver) true).result
    (l.perform env s receiver).answer (l.reached env s receiver) =
      if Walk.needsCopy c (some op) true then result.withValue .currentMethod else result := by
  intro op result
  have hread := Walk.answer_readProperty_of_contract? hc.found (some op)
    (l.operands env s receiver) l.ty l.span
  have hinvalid : result.isInvalid = false := (hc.outcome op hvalid hstack h.operands).1
  rw [h.stackOnly] at hread
  simp only [Link.perform, haccess]
  refine hread.trans ?_
  simp only [result] at hinvalid ⊢
  rw [hinvalid, Bool.not_false, Bool.true_and]

/-- A call yields what the method returns. -/
theorem Sound.answer_call (h : l.Sound env s receiver) {method : MemberRef}
    {typeArgs : List TypeRef} {args : List Arg} (haccess : l.access = .call method typeArgs args)
    {c : Contract} (hc : (l.reached env s receiver).CallsInstance env method c) :
    (l.perform env s receiver).answer (l.reached env s receiver) =
      (c.outcome (some (operand env s receiver)) (l.operands env s receiver) true).result := by
  simp only [Link.perform, haccess]
  rw [Walk.answer_callOver, Walk.callPair, hc.found, h.stackOnly]
  rfl

/-- What a sound access yields on a stack-only receiver: it stays within the value of the receiver,
and if the receiver was copied, it is confined to the method. -/
theorem Sound.perform (h : l.Sound env s receiver)
    (hvalid : ((Walk.checkExpr env receiver).answer s).isInvalid = false)
    (hstack : (((Walk.checkExpr env receiver).after s).types env).stackOnly receiver.ty = true) :
    let pair := (l.perform env s receiver).answer (l.reached env s receiver)
    pair.isInvalid = false ∧
      (receiver.isOutVar = false →
        pair.value ≤ ((Walk.checkExpr env receiver).answer s).value) ∧
      (l.Copies env s receiver → pair.value = .currentMethod) := by
  intro pair
  cases haccess : l.access with
  | field owner name =>
    obtain ⟨hinvalid, hvalue⟩ := h.answer_field hvalid hstack haccess
    exact ⟨hinvalid, fun _ => hvalue ▸ Level.le_refl _,
      fun hcopies => absurd hcopies (not_copies (by simp [haccess]))⟩
  | property getter args =>
    obtain ⟨c, hc⟩ := h.calls getter (by rw [haccess]; rfl)
    obtain ⟨hinvalid, hvalue⟩ := hc.outcome (operand env s receiver) hvalid hstack h.operands
    have hpair := h.answer_property hvalid hstack haccess hc
    refine ⟨?_, fun hout => ?_, ?_⟩
    · simp only [pair, hpair]
      split
      · exact hinvalid
      · exact hinvalid
    · simp only [pair, hpair]
      split
      · exact Level.currentMethod_le _
      · exact hvalue hout
    · rintro ⟨getter', args', c', hproperty, hfound, hbyRef, hunscoped⟩
      rw [haccess] at hproperty
      cases hproperty
      obtain rfl : c = c' := Option.some.inj (hc.found.symm.trans hfound)
      simp only [pair, hpair, needsCopy_operand hbyRef hunscoped hstack]
      rfl
  | call method typeArgs args =>
    obtain ⟨c, hc⟩ := h.calls method (by rw [haccess]; rfl)
    obtain ⟨hinvalid, hvalue⟩ := hc.outcome (operand env s receiver) hvalid hstack h.operands
    have hpair : pair = _ := h.answer_call haccess hc
    rw [hpair]
    exact ⟨hinvalid, hvalue, fun hcopies => absurd hcopies (not_copies (by simp [haccess]))⟩

/-- A sound link on a stack-only receiver: what it yields stays within the value of the receiver,
and is confined to the method if the receiver was copied. -/
theorem Sound.step (h : l.Sound env s receiver) (htree : s.ctx.inExpressionTree = false)
    (hvalid : ((Walk.checkExpr env receiver).answer s).isInvalid = false)
    (hstack : (((Walk.checkExpr env receiver).after s).types env).stackOnly receiver.ty = true) :
    let pair := (Walk.checkExpr env (l.on receiver)).answer s
    pair.isInvalid = false ∧
      (((Walk.checkExpr env (l.on receiver)).after s).types env).stackOnly (l.on receiver).ty =
        true ∧
      (receiver.isOutVar = false →
        pair.value ≤ ((Walk.checkExpr env receiver).answer s).value) ∧
      (l.Copies env s receiver → pair.value = .currentMethod) := by
  obtain ⟨hinvalid, hvalue⟩ := h.perform hvalid hstack
  rw [(run_on env receiver l htree).1, h.types_eq htree]
  exact ⟨hinvalid, h.stackOnly, hvalue⟩

/-- A link without arguments that copies its receiver notes the copy and reports nothing. -/
theorem Copies.noted (h : l.Copies env s receiver) (hsound : l.Sound env s receiver)
    (hargs : l.access.args = []) (htree : s.ctx.inExpressionTree = false)
    (hvalid : ((Walk.checkExpr env receiver).answer s).isInvalid = false)
    (hstack : (((Walk.checkExpr env receiver).after s).types env).stackOnly receiver.ty = true) :
    let t := (Walk.checkExpr env receiver).after s
    let u := (Walk.checkExpr env (l.on receiver)).after s
    u.errors = t.errors ∧ u.facts.defensiveCopies = t.facts.defensiveCopies ++ [l.span] := by
  obtain ⟨getter, args, c, haccess, hcontract, hbyRef, hunscoped⟩ := h
  obtain ⟨c', hc⟩ := hsound.calls getter (by rw [haccess]; rfl)
  obtain rfl : c = c' := Option.some.inj (hcontract.symm.trans hc.found)
  have hreached : l.reached env s receiver = (Walk.checkExpr env receiver).after s :=
    reached_eq hargs
  have hoperands : l.operands env s receiver = [] := operands_eq hargs
  have hfound := hc.found
  have hty := hsound.stackOnly
  rw [hreached] at hfound hty
  intro t u
  let op := operand env s receiver
  let called := Walk.invoke env c (some op) [] l.ty l.span
  let v := (Walk.resolve env getter l.span).after t
  obtain ⟨hfacts, herrors⟩ := Walk.resolve_silent hfound l.span
  obtain ⟨htypes, hcalled⟩ := Walk.invoke_keeps env c (some op) [] l.ty l.span v
  have hvtypes : v.types env = t.types env := (Walk.resolve_keeps env getter l.span t).1
  have hquiet := Walk.errors_invoke_nil env c op l.ty l.span v
  -- The result of the call is not given up, so the copy is made.
  have hneeds : (!(called.answer v).result.isInvalid && Walk.needsCopy c (some op)
      (((called.after v).types env).stackOnly l.ty)) = true := by
    have hinvalid := (hc.outcome op hvalid hstack (List.forall_mem_nil _)).1
    rw [Walk.answer_invoke, htypes, hvtypes, hty, hinvalid, Bool.not_false, Bool.true_and]
    exact needsCopy_operand hbyRef hunscoped hstack
  have hu : u = { (Walk.readProperty env getter (some op) [] l.ty l.span).after t with
      facts := ((Walk.readProperty env getter (some op) [] l.ty l.span).after t).facts.record l.id
        ((Walk.readProperty env getter (some op) [] l.ty l.span).answer t) } := by
    have hrun := (l.run_on env receiver htree).2
    simp only [Link.perform, haccess, hreached, hoperands] at hrun
    exact hrun
  rw [hu, (Walk.run_readProperty hfound (some op) [] l.ty l.span).2, Walk.after_copied,
    if_pos hneeds]
  constructor
  · exact hquiet.trans herrors
  · change (called.after v).facts.defensiveCopies ++ [l.span] = _
    rw [hcalled, hfacts]

end Link

/-! ## Whole chains -/

namespace Walk

variable {env : Surroundings} {s : WalkState}

/-- A sound chain stays within the value of what it begins with, and if a link of it copies its
receiver, it is confined to the method. -/
theorem value_chain_le (htree : s.ctx.inExpressionTree = false) (links : List Link) :
    ∀ {e : Expr}, ((checkExpr env e).answer s).isInvalid = false →
      (((checkExpr env e).after s).types env).stackOnly e.ty = true →
      (∀ x ∈ e.links links, x.2.Sound env s x.1) →
      let pair := (checkExpr env (e.chain links)).answer s
      pair.isInvalid = false ∧
        (e.isOutVar = false → pair.value ≤ ((checkExpr env e).answer s).value) ∧
        ((∃ x ∈ e.links links, x.2.Copies env s x.1) → pair.value = .currentMethod) := by
  induction links with
  | nil => exact fun hvalid _ _ => ⟨hvalid, fun _ => Level.le_refl _, by simp [Expr.links]⟩
  | cons l rest ih =>
    intro e hvalid hstack hsound
    obtain ⟨hl, hrest⟩ := List.forall_mem_cons.1 hsound
    obtain ⟨hvalid', hstack', hle, hcopy⟩ := hl.step htree hvalid hstack
    obtain ⟨hall, hchain, hlater⟩ := ih hvalid' hstack' hrest
    have hout : (l.on e).isOutVar = false := by
      obtain ⟨id, access, ty, span⟩ := l
      cases access <;> rfl
    refine ⟨hall, fun he => Level.le_trans (hchain hout) (hle he), ?_⟩
    rintro ⟨x, hx, hcopies⟩
    rcases List.mem_cons.1 hx with rfl | hx
    · have hzero := hchain hout
      rw [hcopy hcopies] at hzero
      exact Level.le_antisymm hzero (Level.currentMethod_le _)
    · exact hlater ⟨x, hx, hcopies⟩

/-- A sound chain of copies notes each of them and reports nothing. -/
theorem noted_chain (htree : s.ctx.inExpressionTree = false) (links : List Link) :
    ∀ {e : Expr}, ((checkExpr env e).answer s).isInvalid = false →
      (((checkExpr env e).after s).types env).stackOnly e.ty = true →
      (∀ x ∈ e.links links, x.2.Sound env s x.1 ∧ x.2.Copies env s x.1 ∧ x.2.access.args = []) →
      let t := (checkExpr env e).after s
      let u := (checkExpr env (e.chain links)).after s
      u.errors = t.errors ∧
        u.facts.defensiveCopies = t.facts.defensiveCopies ++ links.map Link.span := by
  induction links with
  | nil => exact fun _ _ _ => ⟨rfl, (List.append_nil _).symm⟩
  | cons l rest ih =>
    intro e hvalid hstack hlinks
    obtain ⟨⟨hsound, hcopies, hargs⟩, hrest⟩ := List.forall_mem_cons.1 hlinks
    obtain ⟨hvalid', hstack', _⟩ := hsound.step htree hvalid hstack
    obtain ⟨herrors, hnoted⟩ := hcopies.noted hsound hargs htree hvalid hstack
    obtain ⟨herrors', hnoted'⟩ := ih hvalid' hstack' hrest
    refine ⟨herrors'.trans herrors, hnoted'.trans ?_⟩
    rw [hnoted, List.append_assoc]
    rfl

/-- **Copies are not undone.** Outside of expression trees, take an expression that was not given up
and a chain of accesses to it, all of instance members and with stack-only receivers and results.
If one of them reads through a getter that returns by value and carries no `UnscopedRef`, the whole
chain is confined to the method, whatever the pair of the expression. If all of them are such reads
without arguments, the chain adds one note of a copy for each, and no error.

**Proof sketch.** Induction along the chain. The copy confines the result of its link; the value of
a receiver is a source of every instance member, so that no later link gets farther. -/
theorem chain_confined (htree : s.ctx.inExpressionTree = false) {e : Expr} {links : List Link}
    (hvalid : ((checkExpr env e).answer s).isInvalid = false)
    (hstack : (((checkExpr env e).after s).types env).stackOnly e.ty = true)
    (hsound : ∀ x ∈ e.links links, x.2.Sound env s x.1) :
    ((∃ x ∈ e.links links, x.2.Copies env s x.1) →
      ((checkExpr env (e.chain links)).answer s).isInvalid = false ∧
        ((checkExpr env (e.chain links)).answer s).value = .currentMethod) ∧
    ((∀ x ∈ e.links links, x.2.Copies env s x.1 ∧ x.2.access.args = []) →
      ((checkExpr env (e.chain links)).after s).errors = ((checkExpr env e).after s).errors ∧
        ((checkExpr env (e.chain links)).after s).facts.defensiveCopies =
          ((checkExpr env e).after s).facts.defensiveCopies ++ links.map Link.span) := by
  obtain ⟨hinvalid, _, hconfined⟩ := value_chain_le htree links hvalid hstack hsound
  exact ⟨fun hcopy => ⟨hinvalid, hconfined hcopy⟩, fun hall =>
    noted_chain htree links hvalid hstack fun x hx => ⟨hsound x hx, hall x hx⟩⟩

end Walk

/-! ## Scrolls -/

namespace Scrolls

open Slots

/-- The type of scrolls. -/
def scrollTy : TypeRef := .named "Scroll" []

/-- A parameter for a scroll. -/
def scrollParam (name : String) : Param := ⟨name, scrollTy, .none, false, [], .zero⟩

/-- The rest of a scroll. -/
def getRest : FnDecl :=
  ⟨3, "get_Rest", .getter, default, [], [], .byValue scrollTy, [], none, none, none, .zero⟩

/-- A scroll with another one at its end. -/
def join : FnDecl :=
  ⟨4, "Join", .method, default, [], [scrollParam "other"], .byValue scrollTy, [], none, none, none,
    .zero⟩

/-- Scrolls can be read on and joined. -/
def scroll : TypeDecl :=
  ⟨2, "Scroll", .refStruct, false, false, [], [], [],
    [⟨"margin", scrollTy, false, false, false, false, .zero⟩], [getRest, join], .zero⟩

/-- A function that is given two scrolls. -/
def read : FnDecl := fn 5 "Read" [scrollParam "scroll", scrollParam "other"] (.byValue scrollTy) []

/-- The class of the function. -/
def decl : TypeDecl := ⟨6, "Reader", .classType, false, false, [], [], [], [], [read], .zero⟩

/-- A program with the function and scrolls. -/
def program : Program := ⟨[decl, scroll]⟩

/-- The surroundings of the body of the function. -/
def env : Surroundings := ⟨program, ⟨decl, read⟩, true⟩

/-- The state in which the body is entered. -/
def start : WalkState := program.bodyEntry true {} env.member []

/-- A scroll that the function is given. -/
def given (id : NodeId) (name : String) : Expr := ⟨id, .var name, scrollTy, .zero⟩

/-- The rest is read. -/
def rest (id : NodeId) : Link := ⟨id, .property ⟨scrollTy, "get_Rest"⟩ [], scrollTy, .zero⟩

/-- The margin is read. -/
def margin : Link := ⟨8, .field scrollTy "margin", scrollTy, .zero⟩

/-- The other scroll is joined. -/
def joined : Link :=
  ⟨9, .call ⟨scrollTy, "Join"⟩ [] [⟨.none, given 10 "other"⟩], scrollTy, .zero⟩

theorem member?_scroll :
    program.member? ⟨scrollTy, "get_Rest"⟩ = some ⟨scroll, getRest⟩ ∧
      program.member? ⟨scrollTy, "Join"⟩ = some ⟨scroll, join⟩ := by
  refine ⟨?_, ?_⟩ <;> cbv

theorem target?_scroll (s : WalkState) (name : String) :
    s.target? env ⟨scrollTy, name⟩ = (program.member? ⟨scrollTy, name⟩).map .member :=
  rfl

/-- The contract of a member of a scroll. -/
def contract (decl : FnDecl) : Contract := Contract.ofMember .empty program ⟨scroll, decl⟩

/-- Where the rest of a scroll is called with its contract, it is a sound link. -/
theorem sound_rest (id : NodeId) {e : Expr}
    (hty : (((rest id).reached env start e).types env).stackOnly scrollTy = true)
    (hfound : ((rest id).reached env start e).contract? env ⟨scrollTy, "get_Rest"⟩ =
      some (contract getRest)) :
    (rest id).Sound env start e where
  stackOnly := hty
  operands op hop := by
    rw [Link.operands, rest, Access.args, Walk.checkArgs] at hop
    cases hop
  calls r hr := by
    obtain rfl := Option.some.inj hr
    refine ⟨contract getRest, hfound, ⟨⟨scroll, getRest⟩, .empty, ?_, rfl, rfl⟩, by decide +kernel⟩
    rw [target?_scroll, member?_scroll.1, Option.map_some]

/-- The rest is read, of that the margin, and that is joined with the other scroll. All of that
stays in the method. And a read of the rest of the rest notes two copies. -/
theorem chain_confined_scroll :
    let e := given 7 "scroll"
    ((Walk.checkExpr env (e.chain [rest 11, margin, joined])).answer start).value = .currentMethod ∧
      ((Walk.checkExpr env e).answer start).value = .callingMethod ∧
      ((Walk.checkExpr env (e.chain [rest 11, rest 12])).after start).facts.defensiveCopies =
        [.zero, .zero] := by
  intro e
  have hvalid : ((Walk.checkExpr env e).answer start).isInvalid = false := by decide +kernel
  have hstack : (((Walk.checkExpr env e).after start).types env).stackOnly e.ty = true := by
    decide +kernel
  have hfirst : ((rest 11).reached env start e).contract? env ⟨scrollTy, "get_Rest"⟩ =
      some (contract getRest) := by cbv
  have hsecond : ((rest 12).reached env start ((rest 11).on e)).contract? env
      ⟨scrollTy, "get_Rest"⟩ = some (contract getRest) := by cbv
  have hthird : (joined.reached env start (margin.on ((rest 11).on e))).contract? env
      ⟨scrollTy, "Join"⟩ = some (contract join) := by cbv
  have hrest : (rest 11).Sound env start e := sound_rest 11 (by decide +kernel) hfirst
  have hagain : (rest 12).Sound env start ((rest 11).on e) :=
    sound_rest 12 (by decide +kernel) hsecond
  have hmargin : margin.Sound env start ((rest 11).on e) := by
    refine ⟨by decide +kernel, fun op hop => ?_, fun r hr => by cases hr⟩
    rw [Link.operands, margin, Access.args, Walk.checkArgs] at hop
    cases hop
  have hother : (joined.operands env start (margin.on ((rest 11).on e))).map
      (fun op => op.pair.isInvalid) = [false] := by cbv
  have hjoined : joined.Sound env start (margin.on ((rest 11).on e)) := by
    refine ⟨by decide +kernel, fun op hop => ?_, fun r hr => ?_⟩
    · have hinvalid := List.mem_map_of_mem (f := fun op : Operand => op.pair.isInvalid) hop
      rw [hother] at hinvalid
      exact List.mem_singleton.1 hinvalid
    · obtain rfl := Option.some.inj hr
      refine ⟨contract join, hthird, ⟨⟨scroll, join⟩, .empty, ?_, rfl, rfl⟩, by decide +kernel⟩
      rw [target?_scroll, member?_scroll.2, Option.map_some]
  have hcopies : (rest 11).Copies env start e := ⟨_, _, contract getRest, rfl, hfirst, rfl, rfl⟩
  have hcopied : (rest 12).Copies env start ((rest 11).on e) :=
    ⟨_, _, contract getRest, rfl, hsecond, rfl, rfl⟩
  refine ⟨?_, by decide +kernel, ?_⟩
  · refine ((Walk.chain_confined rfl hvalid hstack ?_).1 ?_).2
    · simp [Expr.links, hrest, hmargin, hjoined]
    · exact ⟨(e, rest 11), List.mem_cons_self .., hcopies⟩
  · refine ((Walk.chain_confined rfl hvalid hstack ?_).2 ?_).2
    · simp [Expr.links, hrest, hagain]
    · exact List.forall_mem_cons.2 ⟨⟨hcopies, rfl⟩,
        List.forall_mem_cons.2 ⟨⟨hcopied, rfl⟩, by simp [Expr.links]⟩⟩

end Scrolls

end StackEscape
