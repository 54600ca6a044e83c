import StackEscape.Proofs.Heeding

/-!
# The rules of a walk that heeds types

The parts of a walk that look at a type by themselves: the check of a written type, the declaration of a
variable, a call with the variables that its arguments declare, the parameters of a nested function.

## Main definitions

* `StackEscape.WalkState.atLocalFunction` — the state in which a local function's parameters are bound.
* `StackEscape.WalkState.paramErrors` — what is wrong with a parameter.
* `StackEscape.Walk.Heeds.AreOperands` — the operands of some arguments.

## Main results

* `StackEscape.Walk.run_bindParams` — what binding parameters reports.
* `StackEscape.Walk.Heeds.checkShape`, `declareBinding`, `invoke` — the steps that look at a type.
* `StackEscape.Walk.Heeds.inScope`, `lambdaOver`, `localFunctionOver` — walks in scopes of their own.
-/

set_option autoImplicit false

namespace StackEscape

open TypedPart (outVars ofParams)

/-! ## Expression trees -/

namespace Context

/-- A new scope belongs to an expression tree if those around it do, or if one begins with it. -/
theorem inExpressionTree_pushScope (c : Context) (kind : ScopeKind) :
    (c.pushScope kind).inExpressionTree = (decide (kind = .lambda true) || c.inExpressionTree) :=
  rfl

/-- Local functions begin no expression tree. -/
@[simp] theorem inExpressionTree_declareFunctions (c : Context) (decls : List FnDecl) :
    (c.declareFunctions decls).inExpressionTree = c.inExpressionTree := by
  rw [declareFunctions_eq]
  rcases c with ⟨_ | ⟨top, rest⟩, frames⟩ <;> rfl

end Context

/-! ## Parameters -/

/-- The state in which the parameters of a local function are bound. -/
def WalkState.atLocalFunction (s : WalkState) (env : Surroundings) (decl : FnDecl) : WalkState :=
  let t := (Walk.enterLocalFunction env decl).after s
  { t with generics := t.localScope env decl }

/-- What is wrong with a parameter that is bound by a contract in the state. -/
def WalkState.paramErrors (s : WalkState) (env : Surroundings) (checkShapes : Bool) (q : Param)
    (contract : ParamContract) : List EscapeError :=
  let shape := if checkShapes then (s.types env).typeErrors q.span q.ty else []
  if shape.isEmpty then
    if contract.stackOnly && s.ctx.inExpressionTree then [⟨.expressionTree q.ty.display, q.span⟩]
    else if contract.stackOnly && s.forbidsLocals then
      [⟨.asyncOrIteratorLocal q.name q.ty.display, q.span⟩]
    else []
  else shape.map fun e => ⟨.shape e.kind, e.span⟩

/-- It depends on what types mean, on expression trees and on whether the function may be suspended. -/
theorem WalkState.paramErrors_congr {env : Surroundings} {s t : WalkState}
    (htypes : s.types env = t.types env)
    (htree : s.ctx.inExpressionTree = t.ctx.inExpressionTree)
    (hforbids : s.forbidsLocals = t.forbidsLocals) (checkShapes : Bool) (q : Param)
    (contract : ParamContract) :
    s.paramErrors env checkShapes q contract = t.paramErrors env checkShapes q contract := by
  simp only [paramErrors, htypes, htree, hforbids]

/-- What is done before the body of a local function is looked at. -/
theorem Covers.enterLocalFunction {I : Inspection} {a : Point} {pre : Prop} {d : FnDecl}
    (hd : d ∈ I.env.member.localFunctions) :
    Covers I a pre [] (fun _ => True) (Walk.enterLocalFunction I.env d) :=
  (reportAll _).nil_bind fun _ => (fileTypeParams hd).nil_bind fun _ =>
    (reportAll _).nil_bind fun _ => (localContract hd).weaken fun _ _ _ => trivial

namespace Walk

variable {env : Surroundings} {checkShapes : Bool}

/-- Binding a parameter of a type that is not looked at. -/
theorem run_bindParam_of_shape (q : Param) (contract : ParamContract) (s : WalkState) :
    ∃ info, (bindParam env false q contract).after s =
      { s with
        ctx := s.ctx.declare info
        errors := s.errors ++ s.paramErrors env false q contract } := by
  simp only [bindParam, WalkState.paramErrors, Bool.false_eq_true, if_false, pure_bind,
    Bool.not_true, List.isEmpty_nil, if_true]
  rw [after_bind, after_get, answer_get]
  split
  · exact ⟨_, rfl⟩
  · split
    · exact ⟨_, rfl⟩
    · exact ⟨_, by rw [List.append_nil]; rfl⟩

/-- Binding a parameter declares it and reports what is wrong with it. -/
theorem run_bindParam (q : Param) (contract : ParamContract) (s : WalkState) :
    ∃ info, (bindParam env checkShapes q contract).after s =
      { s with
        ctx := s.ctx.declare info
        errors := s.errors ++ s.paramErrors env checkShapes q contract } := by
  cases checkShapes with
  | false => exact run_bindParam_of_shape q contract s
  | true =>
    cases hshape : ((s.types env).typeErrors q.span q.ty).isEmpty with
    | false =>
      have hanswer : (checkShape env q.ty q.span).answer s = false := hshape
      simp only [bindParam, WalkState.paramErrors, if_true, after_bind, hanswer, hshape,
        Bool.false_eq_true, if_false]
      exact ⟨_, rfl⟩
    | true =>
      -- A well-formed type is as good as one that is not looked at.
      obtain ⟨hanswer, hafter⟩ := run_checkShape (List.isEmpty_iff.1 hshape)
      have hrun : (bindParam env true q contract).after s =
          (bindParam env false q contract).after s := by
        simp only [bindParam, if_true, after_bind, hanswer, hafter]
        rfl
      have herrors : s.paramErrors env true q contract = s.paramErrors env false q contract := by
        simp only [WalkState.paramErrors, if_true, hshape, Bool.false_eq_true, if_false,
          List.isEmpty_nil]
      rw [hrun, herrors]
      exact run_bindParam_of_shape q contract s

/-- Binding parameters declares them and reports what is wrong with them. -/
theorem run_bindParams (params : List Param) (contracts : List ParamContract) (s : WalkState) :
    ∃ infos, (bindParams env checkShapes params contracts).after s =
      { s with
        ctx := s.ctx.declareAll infos
        errors := s.errors ++ (params.zip contracts).flatMap fun x =>
          s.paramErrors env checkShapes x.1 x.2 } := by
  unfold bindParams
  induction params.zip contracts generalizing s with
  | nil => exact ⟨[], by simp⟩
  | cons x rest ih =>
    obtain ⟨info, hfirst⟩ := run_bindParam x.1 x.2 s
    -- A declared variable changes nothing that parameters are checked for.
    let t : WalkState :=
      { s with
        ctx := s.ctx.declareAll [info]
        errors := s.errors ++ s.paramErrors env checkShapes x.1 x.2 }
    have htypes : t.types env = s.types env := rfl
    have hforbids : t.forbidsLocals = s.forbidsLocals := by
      simp only [t, WalkState.forbidsLocals, Context.function, Context.frames_declareAll]
    have hsame (y : Param × ParamContract) :
        t.paramErrors env checkShapes y.1 y.2 = s.paramErrors env checkShapes y.1 y.2 :=
      WalkState.paramErrors_congr htypes (Context.inExpressionTree_declareAll _ _) hforbids _ _ _
    obtain ⟨infos, hrest⟩ := ih t
    refine ⟨info :: infos, ?_⟩
    change (rest.forM fun x => bindParam env checkShapes x.1 x.2).after
      ((bindParam env checkShapes x.1 x.2).after s) = _
    have ht : (bindParam env checkShapes x.1 x.2).after s = t := hfirst
    rw [ht, hrest]
    simp only [hsame, t, Context.declareAll_declareAll, List.flatMap_cons, List.append_assoc,
      List.singleton_append]

/-! ## Variables -/

/-- A stack-only variable of a function that may be suspended is reported. -/
theorem errors_declareBinding {s : WalkState} {ty : TypeRef} {pair : ScopePair}
    (hso : (s.types env).stackOnly ty = true) (hforbids : s.forbidsLocals = true)
    (hv : pair.isInvalid = false) (name : String) (isRef : Bool) (span : Span) :
    ((declareBinding env name ty pair isRef span).after s).errors ≠ [] := by
  have hanswer : (stackOnly env ty).answer s = true := hso
  have hafter : (stackOnly env ty).after s = s := rfl
  simp only [declareBinding, rejectedInAsync, after_bind, after_get, answer_get, hanswer, hafter, hv,
    hforbids, bind_pure_comp, bind_assoc, bind_map_left, pure_bind, Bool.not_false, Bool.and_true,
    Bool.false_eq_true, if_true, if_false]
  exact List.append_ne_nil_of_right_ne_nil _ (List.cons_ne_nil _ _)

/-- So is one with an initial value. -/
theorem errors_declareLocal {s : WalkState} {decl : LocalDecl}
    (hso : (s.types env).stackOnly decl.ty = true) (hforbids : s.forbidsLocals = true)
    (wellFormed : Bool) (init : Option ScopePair) :
    ((declareLocal env decl wellFormed true init).after s).errors ≠ [] := by
  have hanswer : (stackOnly env decl.ty).answer s = true := hso
  have hafter : (stackOnly env decl.ty).after s = s := rfl
  simp only [declareLocal, rejectedInAsync, after_bind, after_get, answer_get, hanswer, hafter,
    hforbids, bind_pure_comp, bind_assoc, bind_map_left, pure_bind, Bool.true_and, if_true]
  exact List.append_ne_nil_of_right_ne_nil _ (List.cons_ne_nil _ _)

/-- And so is a stack-only resource. -/
theorem errors_enterRegion {s : WalkState} {op : Operand} (hso : op.stackOnly = true)
    (hforbids : s.forbidsLocals = true) (isAwait : Bool) (ty : TypeRef) :
    ((enterRegion isAwait op ty).after s).errors ≠ [] := by
  have hanswer : (refusesStackOnly isAwait).answer s = true := by
    change (isAwait || s.forbidsLocals) = true
    rw [hforbids, Bool.or_true]
  have hafter : (refusesStackOnly isAwait).after s = s := rfl
  simp only [enterRegion, after_bind, hanswer, hafter, hso, Bool.true_and, if_true]
  exact List.append_ne_nil_of_right_ne_nil _ (List.cons_ne_nil _ _)

namespace Heeds

variable {I : Inspection} {α : Type} {a : Point} {c : Setting} {pre : Prop} {ws : List Site}
  {xs ys : List TypedPart} {Q : α → Prop}

/-! ## Types -/

theorem stackOnly (ty : TypeRef) :
    Heeds I a c pre [] [] (fun b => I.strict → b = (c.types I.env I.caps).stackOnly ty)
      (Walk.stackOnly I.env ty) :=
  step (Q := fun _ => True) (fun _ => (Covers.stackOnly ty).weaken fun _ _ _ => trivial) (by simp)
    fun _ _ s hs _ _ => ⟨fun hst => by rw [← hs.types_eq hst]; rfl, by simp⟩

/-- A written type is looked at. -/
theorem checkShape (ty : TypeRef) (span : Span) :
    Heeds I a c pre [] [⟨c, .written, ty⟩] (fun b => b = true) (Walk.checkShape I.env ty span) := by
  refine step (fun _ => Covers.checkShape ty span) (fun _ r s caps hs hq hcaps x hx => ?_)
    fun _ _ _ _ _ hq => ⟨hq, fun _ x hx => ?_⟩
  · obtain rfl := List.mem_singleton.1 hx
    cases r with
    | trees => trivial
    | anything =>
      have hnone : (s.types I.env).typeErrors span ty = [] := List.map_eq_nil_iff.1 (hq.errors_eq rfl)
      exact (hs.wellShaped_iff hcaps ty).1 ((TypeEnv.typeErrors_eq_nil_iff ty).1 hnone)
  · obtain rfl := List.mem_singleton.1 hx
    exact TypedPart.settled_of_role rfl

/-! ## Variables -/

theorem declareBinding (name : String) (ty : TypeRef) {pair : ScopePair} (isRef : Bool)
    (span : Span) (hv : pre → pair.isInvalid = false) :
    Heeds I a c pre [] [⟨c, .binding, ty⟩] (fun _ => True)
      (Walk.declareBinding I.env name ty pair isRef span) :=
  rejects (fun _ => Covers.declareBinding name ty isRef span hv) fun _ hpre _ _ hso hforbids =>
    errors_declareBinding hso hforbids (hv hpre) name isRef span

theorem bindPattern (name : String) (ty : TypeRef) {input : ScopePair} (span : Span)
    (hv : pre → input.isInvalid = false) :
    Heeds I a c pre [] [⟨c, .written, ty⟩, ⟨c, .binding, ty⟩] (fun _ => True)
      (Walk.bindPattern I.env name ty input span) := by
  refine (checkShape ty span).bind fun w => (stackOnly ty).nil_bind fun b => ?_
  refine declareBinding _ _ _ _ fun ⟨⟨hpre, hw⟩, _⟩ => ?_
  simp only [hv hpre, hw, Bool.not_true, Bool.or_self, Bool.false_eq_true, if_false]
  split
  · exact hv hpre
  · rfl

/-- A local variable is refused in a function that may be suspended. -/
theorem declareLocal (decl : LocalDecl) {wellFormed : Bool} {init : Option ScopePair}
    (hw : pre → wellFormed = true)
    (hinit : pre → ∀ pair, init = some pair → pair.isInvalid = false) :
    Heeds I a c pre [] [⟨c, .binding, decl.ty⟩] (fun _ => True)
      (Walk.declareLocal I.env decl wellFormed true init) :=
  rejects (fun _ => Covers.declareLocal decl true hw hinit) fun _ _ _ _ hso hforbids =>
    errors_declareLocal hso hforbids wellFormed init

/-- So is a resource, whether it is declared or not. -/
theorem enterRegion (isAwait : Bool) {op : Operand} (ty : TypeRef)
    (hop : pre → I.strict → op.stackOnly = (c.types I.env I.caps).stackOnly ty) :
    Heeds I a c pre [] [⟨c, .binding, ty⟩] (fun refused => refused = false)
      (Walk.enterRegion isAwait op ty) := by
  refine rejects (fun _ => Covers.enterRegion isAwait op ty) fun hst hpre s hs hso hforbids => ?_
  rw [hs.types_eq hst, ← hop hpre hst] at hso
  exact errors_enterRegion hso hforbids isAwait ty

/-! ## Calls -/

/-- The operands of some arguments: their expressions, and whether these declare variables in place. -/
def AreOperands (args : List Arg) (ops : List Operand) : Prop :=
  List.Forall₂ (fun x op => op.expr = some x.expr ∧ op.fresh = x.expr.isOutVar) args ops

/-- Only bindings are declared in place. -/
theorem role_of_mem_outVars {c : Setting} {args : List Arg} :
    ∀ x ∈ outVars c args, x.role = .binding := by
  intro x hx
  obtain ⟨y, _, rfl⟩ := List.mem_map.1 hx
  rfl

theorem bindOutVar (derived : Level) {isInvalid : Bool} {x : Arg} {op : Operand}
    (hop : op.expr = some x.expr ∧ op.fresh = x.expr.isOutVar) (hv : pre → isInvalid = false) :
    Heeds I a c pre [] (outVars c [x]) (fun _ => True)
      (Walk.bindOutVar I.env derived isInvalid op) := by
  obtain ⟨mode, ⟨id, kind, ty, span⟩⟩ := x
  obtain ⟨expr, label, pair, so, opMode, fresh, opSpan⟩ := op
  obtain ⟨rfl, rfl⟩ := hop
  cases kind with
  | outVar name =>
    refine declareBinding name ty false span fun hpre => ?_
    rw [hv hpre]
    split
    · next h => exact absurd h (by decide)
    · split <;> rfl
  | _ => exact .pure fun _ => trivial

/-- The variables of a call are refused in a function that may be suspended, unless the call was given
up. -/
theorem bindOutVars (derived : Level) {isInvalid : Bool} {args : List Arg} {ops : List Operand}
    (hops : AreOperands args ops) (hv : pre → isInvalid = false) :
    Heeds I a c pre [] (outVars c args) (fun _ => True)
      (Walk.bindOutVars I.env derived isInvalid ops) := by
  induction hops with
  | nil => exact .pure fun _ => trivial
  | @cons x op args ops hop _ ih =>
    have happend : outVars c (x :: args) = outVars c [x] ++ outVars c args := by
      rw [outVars, outVars, outVars, ← List.map_append, ← List.filter_append, List.singleton_append]
    rw [happend]
    exact (bindOutVar derived hop hv).bind fun _ => ih.given And.left

/-- A call with the variables of its arguments. -/
theorem invoke {contract : Contract} {receiver : Option Operand} {args : List Arg}
    {ops : List Operand} (resultTy : TypeRef) (span : Span) (hops : pre → AreOperands args ops)
    (hv : pre → contract.valid = true ∧
      ∀ op ∈ receiver.toList ++ ops, op.pair.isInvalid = false) :
    Heeds I a c pre [] (outVars c args) (fun o => o.result.isInvalid = false)
      (Walk.invoke I.env contract receiver ops resultTy span) := by
  by_cases hpre : pre
  swap
  · exact vacuous hpre (fun _ => Covers.invoke resultTy span False.elim) role_of_mem_outVars
  obtain ⟨hvalid, hpairs⟩ := hv hpre
  refine ite (fun hc => absurd hvalid (by simpa using hc)) fun _ => ite (fun hany => ?_) fun _ => ?_
  · obtain ⟨op, hop, hinv⟩ := List.any_eq_true.1 hany
    exact absurd hinv (by rw [hpairs op hop]; decide)
  · refine look (fun _ s t h => by rw [h.facts]) fun s _ => ?_
    refine (silent fun _ => Covers.reportAll _).nil_bind fun _ => (stackOnly resultTy).nil_bind
      fun b => (bindOutVars _ (hops hpre) fun _ => rfl).bind_nil fun _ => .pure fun _ => ?_
    exact contract.resultPair_isInvalid _ _

/-- A reference means something, or there is an error. -/
theorem resolving {r : MemberRef} {span : Span} {k : Option Callee → Walk α}
    (hk : ∀ callee : Callee, I.env.Owner callee.key →
      Heeds I a c (pre ∧ callee.contract.valid = true) ws xs Q (k (some callee)))
    (hnone : Heeds I a c False ws xs Q (k none)) :
    Heeds I a c pre ws xs Q (Walk.resolve I.env r span >>= k) := by
  unfold Walk.resolve
  rw [bind_assoc]
  refine look (fun _ s t h => by rw [h.target?_eq]) fun s hs => ?_
  cases ht : s.target? I.env r with
  | none =>
    rw [bind_assoc]
    exact (silent fun _ => Covers.report _ _).nil_bind fun _ => hnone.given And.right
  | some t =>
    cases t with
    | localFunction d =>
      have hd := Covers.mem_localFunctions_of_target? hs ht
      rw [bind_assoc]
      have hfound : Heeds I a c (pre ∧ I.Sound ∧ I.At a c s) [] [] (fun k => k.valid = true)
          (Walk.localContract I.env d) := silent fun facts =>
        (Covers.localContract (I := { I with facts }) hd).weaken fun _ _ h => h.1
      refine hfound.nil_bind fun contract => ?_
      exact (hk ⟨contract, d, I.env.localKey d⟩ (Surroundings.owner_localKey hd)).given
        fun h => ⟨h.1.1, h.2⟩
    | member m =>
      have hm := Covers.mem_members_of_target? ht
      rw [bind_assoc]
      have hfound : Heeds I a c (pre ∧ I.Sound ∧ I.At a c s) [] [] (fun k => k.valid = true)
          (Walk.memberContract I.env m) := silent fun facts =>
        (Covers.memberContract (I := { I with facts }) hm).weaken fun _ _ h => h.1
      refine hfound.nil_bind fun contract => ?_
      exact (hk ⟨contract, m.decl, m.key⟩ (Surroundings.owner_key hm)).given
        fun h => ⟨h.1.1, h.2⟩

/-- What is given up with an error declares nothing. -/
theorem nothing {y : α} (hxs : ∀ x ∈ xs, x.role = .binding) :
    Heeds I a c False [] xs Q (Pure.pure y : Walk α) :=
  vacuous id (fun _ => Covers.pure (Q := fun _ => True) False.elim) hxs

/-- A call of what a reference means. -/
theorem invokeRef {r : MemberRef} {receiver : Option Operand} {args : List Arg}
    {ops : List Operand} (resultTy : TypeRef) (span : Span) (hops : pre → AreOperands args ops)
    (hv : pre → ∀ op ∈ receiver.toList ++ ops, op.pair.isInvalid = false) :
    Heeds I a c pre [] (outVars c args) (fun pair => pair.isInvalid = false)
      (Walk.invokeRef I.env r receiver ops resultTy span) :=
  resolving (fun _ _ => (invoke resultTy span (fun h => hops h.1) fun h => ⟨h.2, hv h.1⟩).bind_nil
    fun _ => .pure And.right) (nothing role_of_mem_outVars)

/-- A read through a getter. -/
theorem readProperty {getter : MemberRef} {receiver : Option Operand} {args : List Arg}
    {ops : List Operand} (resultTy : TypeRef) (span : Span) (hops : pre → AreOperands args ops)
    (hv : pre → ∀ op ∈ receiver.toList ++ ops, op.pair.isInvalid = false) :
    Heeds I a c pre [] (outVars c args) (fun pair => pair.isInvalid = false)
      (Walk.readProperty I.env getter receiver ops resultTy span) := by
  refine resolving (fun _ _ => ?_) (nothing role_of_mem_outVars)
  refine (invoke resultTy span (fun h => hops h.1) fun h => ⟨h.2, hv h.1⟩).bind_nil fun o => ?_
  refine (stackOnly resultTy).nil_bind fun b => ite (fun _ => ?_) fun _ => .pure fun h => h.1.2
  exact (silent fun _ => Covers.noteCopy span).bind_nil fun _ => .pure fun h => h.1.1.2

/-- A call of a method. -/
theorem callMethod (method : MemberRef) (typeArgs : List TypeRef) {receiver : Option Operand}
    {args : List Arg} {ops : List Operand} (ty : TypeRef) (span : Span)
    (hops : pre → AreOperands args ops)
    (hv : pre → ∀ op ∈ receiver.toList ++ ops, op.pair.isInvalid = false) :
    Heeds I a c pre [] (outVars c args) (fun pair => pair.isInvalid = false)
      (Walk.callMethod I.env method typeArgs receiver ops ty span) := by
  refine resolving (fun callee ho => ?_) (nothing role_of_mem_outVars)
  refine (silent fun facts =>
    Covers.checkTypeArgs (I := { I with facts }) ho typeArgs span).nil_bind fun _ => ?_
  exact (invoke ty span (fun h => hops h.1.1) fun h => ⟨h.1.2, hv h.1.1⟩).bind_nil
    fun _ => .pure And.right

/-- A new object. -/
theorem construct (ctor : Option MemberRef) {args : List Arg} {ops : List Operand} (ty : TypeRef)
    (span : Span) {wellFormed : Bool} (hw : pre → wellFormed = true)
    (hops : pre → AreOperands args ops) (hv : pre → ∀ op ∈ ops, op.pair.isInvalid = false) :
    Heeds I a c pre [] (if ctor.isSome then outVars c args else [])
      (fun pair => pair.isInvalid = false)
      (Walk.construct I.env ctor ops ty span wellFormed) := by
  refine ite (fun h => ?_) fun _ => ?_
  · have hno : ¬ pre := fun hpre => absurd (hw hpre) (by simpa using h)
    refine vacuous hno (fun _ => Covers.pure (Q := fun _ => True) False.elim) fun x hx => ?_
    split at hx
    · exact role_of_mem_outVars x hx
    · exact absurd hx List.not_mem_nil
  · cases ctor with
    | none => exact .pure fun _ => rfl
    | some ctor => exact invokeRef ty span hops hv

/-- A late-bound operation has no stack-only operand. -/
theorem invokeLate (receiver : Expr) (args : List Arg) :
    Heeds I a c pre [] (outVars c args) (fun pair => pair.isInvalid = false)
      (Walk.invokeLate I.env (receiver :: args.map Arg.expr)) := by
  refine step (fun _ => Covers.invokeLate _) (fun _ r s caps _ _ _ x hx => ?_)
    fun _ _ s hs he hq => ⟨hq, fun hst x hx _ _ => ?_⟩
  · obtain ⟨y, _, rfl⟩ := List.mem_map.1 hx
    exact TypedPart.heeded_binding I r caps c y.expr.ty
  · obtain ⟨y, hy, rfl⟩ := List.mem_map.1 hx
    have hnone : (s.types I.env).dynamicErrors (receiver :: args.map Arg.expr) = [] :=
      (List.append_eq_nil_iff.1 he).2
    have hmem : y.expr ∈ receiver :: args.map Arg.expr :=
      List.mem_cons_of_mem _ (List.mem_map_of_mem (List.mem_filter.1 hy).1)
    rw [← hs.types_eq hst]
    simpa using List.filter_eq_nil_iff.1 (List.map_eq_nil_iff.1 hnone) y.expr hmem

/-! ## Expressions -/

/-- Nothing is given up by recording a pair that was not. -/
theorem intact_record {s : WalkState} (h : s.Intact) (id : NodeId) {pair : ScopePair}
    (hv : pair.isInvalid = false) : WalkState.Intact { s with facts := s.facts.record id pair } := by
  refine ⟨h.locals, fun id' other hid => ?_⟩
  rcases Facts.of_pair?_record hid with ⟨_, rfl⟩ | hid
  · exact hv
  · exact h.facts id' other hid

/-- The value of an expression is refused in an expression tree. -/
theorem expr (id : NodeId) (kind : ExprKind) (ty : TypeRef) (span : Span)
    (hproper : ⟨a, .expr ⟨id, kind, ty, span⟩⟩ :: ws ⊆ I.env.member.sites →
      (Walk.checkExpr I.env ⟨id, kind, ty, span⟩).Proper I.env)
    (hk : Heeds I a c pre ws xs (fun pair => pair.isInvalid = false)
      (Walk.checkForm I.env id ty span kind)) :
    Heeds I a c pre (⟨a, .expr ⟨id, kind, ty, span⟩⟩ :: ws) (⟨c, .value, ty⟩ :: xs)
      (fun pair => pair.isInvalid = false) (Walk.checkExpr I.env ⟨id, kind, ty, span⟩) where
  proper := hproper
  heeds hsub hI r s caps hs hq hcaps := by
    cases hrefused : s.refusesValue I.env ty with
    | true =>
      rw [(run_checkExpr_refused hrefused id kind span).2] at hq
      have hcounts := hq.counts rfl _ (List.mem_singleton_self _)
      cases r <;> exact absurd hcounts (by simp [Regard.counts])
    | false =>
      rw [(run_checkExpr_form hrefused id kind span).2] at hq hcaps
      have hprogress := (hk.proper (List.cons_subset.1 hsub).2).progress s hs.placed
      refine List.forall_mem_cons.2 ⟨?_, hk.heeds (List.cons_subset.1 hsub).2 hI r s caps hs hq hcaps⟩
      cases r with
      | anything => trivial
      | trees =>
        have hso : (s.types I.env).stackOnly ty = false := by
          simpa [WalkState.refusesValue, hs.inTree rfl] using hrefused
        rwa [hs.stackOnly_eq (hprogress.before.within.trans hcaps)] at hso
  run hsub hI hpre s hs he := by
    cases hrefused : s.refusesValue I.env ty with
    | true =>
      rw [(run_checkExpr_refused hrefused id kind span).2] at he
      exact absurd he (List.append_ne_nil_of_right_ne_nil _ (List.cons_ne_nil _ _))
    | false =>
      obtain ⟨hanswer, hafter⟩ := run_checkExpr_form hrefused id kind span
      rw [hafter] at he ⊢
      obtain ⟨hv, hi, hx⟩ := hk.run (List.cons_subset.1 hsub).2 hI hpre s hs he
      rw [hanswer]
      exact ⟨hv, intact_record hi id hv, fun hst =>
        List.forall_mem_cons.2 ⟨TypedPart.settled_of_role rfl, hx hst⟩⟩

/-- An operand is that of its expression. -/
theorem operandOf (e : Expr) (mode : RefKind) {check : Walk ScopePair}
    (h : Heeds I a c pre ws xs (fun pair => pair.isInvalid = false) check) :
    Heeds I a c pre ws (if e.isOutVar then [] else xs)
      (fun op => op.pair.isInvalid = false ∧ op.expr = some e ∧ op.fresh = e.isOutVar)
      (Walk.operandOf I.env e mode check) := by
  have main {ws : List Site} {xs : List TypedPart} {m : Walk ScopePair}
      (hm : Heeds I a c pre ws xs (fun pair => pair.isInvalid = false) m) :
      Heeds I a c pre ws xs
        (fun op => op.pair.isInvalid = false ∧ op.expr = some e ∧ op.fresh = e.isOutVar)
        (m >>= fun pair => Walk.stackOnly I.env e.ty >>= fun stackOnly =>
          Pure.pure (Operand.ofExpr e pair stackOnly mode e.isOutVar)) :=
    hm.bind_nil fun _ => (stackOnly e.ty).bind_nil fun _ => .pure fun h => ⟨h.1.2, rfl, rfl⟩
  rcases e with ⟨id, kind, ty, span⟩
  cases kind with
  | outVar name =>
    have hrecord : Heeds I a c pre [] [] (fun pair : ScopePair => pair.isInvalid = false)
        (Walk.record id .confined >>= fun _ => Pure.pure .confined) :=
      ⟨fun _ => (Walk.Proper.record id _).bind fun _ => .pure _, by simp,
        fun _ _ _ s hs _ => ⟨rfl, intact_record hs.intact id rfl, by simp⟩⟩
    exact (main hrecord).among (List.nil_subset _)
  | _ => exact main h

/-- A pattern test of a value that is not stack-only is accepted. -/
theorem answer_settleTest {env : Surroundings} {s : WalkState} {subject : TypeRef}
    (h : (s.types env).stackOnly subject = false) (id : NodeId) (span : Span) (pattern : Pattern) :
    (settleTest env id span subject pattern).answer s = true := by
  have hplain : (s.types env).testVerdict subject pattern = .plain := by
    have hcap : ((s.types env).capability subject).isStackOnly = false := h
    unfold TypeEnv.testVerdict TypeEnv.nullTestVerdict
    simp only [hcap, Bool.not_false, if_true, ite_self]
    cases TypeEnv.comparedConstant pattern <;> rfl
  change (settle id span ((s.types env).testVerdict subject pattern)).answer s = true
  rw [hplain]
  rfl

/-- One that is not accepted is reported. -/
theorem errors_settleTest {env : Surroundings} {s : WalkState} {id : NodeId} {span : Span}
    {subject : TypeRef} {pattern : Pattern}
    (h : (settleTest env id span subject pattern).answer s = false) :
    ∃ kind, ((settleTest env id span subject pattern).after s).errors = s.errors ++ [⟨kind, span⟩] := by
  change (settle id span ((s.types env).testVerdict subject pattern)).answer s = false at h
  change ∃ kind, ((settle id span ((s.types env).testVerdict subject pattern)).after s).errors = _
  cases hverdict : (s.types env).testVerdict subject pattern with
  | plain => rw [hverdict] at h; exact absurd h (by change true ≠ false; decide)
  | lowered test => rw [hverdict] at h; exact absurd h (by change true ≠ false; decide)
  | refused error => exact ⟨error, rfl⟩

/-- What follows a test that succeeds is done as if there were no test. -/
theorem run_tested {m : Walk ScopePair} {test : Walk Bool} {w : ScopePair → Walk α} {y : α}
    {s : WalkState} (hok : test.answer (m.after s) = true) :
    let tested := m >>= fun pair => test >>= fun ok => if ok = true then w pair else Pure.pure y
    let plain := m >>= fun pair => test >>= fun _ => w pair
    tested.answer s = plain.answer s ∧ tested.after s = plain.after s := by
  simp only [answer_bind, after_bind, hok, if_true, and_self]

/-- What follows a test that fails is not done. -/
theorem after_tested {m : Walk ScopePair} {test : Walk Bool} {w : ScopePair → Walk α} {y : α}
    {s : WalkState} (hno : test.answer (m.after s) = false) :
    (m >>= fun pair => test >>= fun ok => if ok = true then w pair else Pure.pure y).after s =
      test.after (m.after s) := by
  simp only [after_bind, hno, Bool.false_eq_true, if_false, after_pure]

/-- A pattern test is never refused where nothing is reported that is looked for: in an expression tree
its operand is not stack-only, and elsewhere a refusal is an error. -/
theorem answer_test {id : NodeId} {span : Span} {subject : TypeRef} {pattern : Pattern}
    {m : Walk ScopePair} {r : Regard} {s : WalkState}
    (hm : Heeds I a c pre ws xs (fun pair => pair.isInvalid = false) m)
    (hvalue : ⟨c, .value, subject⟩ ∈ xs) (hsub : ws ⊆ I.env.member.sites) (hI : I.Orderly)
    (hs : I.Sees r c.scope s)
    (hq : s.Quiet r ((settleTest I.env id span subject pattern).after (m.after s))) :
    (settleTest I.env id span subject pattern).answer (m.after s) = true := by
  by_contra hno
  obtain ⟨kind, hkind⟩ := errors_settleTest (Bool.not_eq_true _ ▸ hno)
  have hp := (hm.proper hsub).progress s hs.placed
  obtain ⟨hq, hq'⟩ := hq.split hp.errors ⟨_, hkind⟩
  cases r with
  | anything => exact absurd (hq'.errors_eq hkind) (List.cons_ne_nil _ _)
  | trees =>
    have hso : (c.types I.env (m.after s).tables.caps).stackOnly subject = false :=
      hm.heeds hsub hI .trees s _ hs hq (.refl _) _ hvalue
    rw [← (hs.later hI hp).types_eq] at hso
    exact hno (answer_settleTest hso id span pattern)

/-- What follows a pattern test is done. -/
theorem test (id : NodeId) (span : Span) (subject : TypeRef) (pattern : Pattern)
    {m : Walk ScopePair} {w : ScopePair → Walk α} {y : α} {ws' : List Site}
    (hm : Heeds I a c pre ws xs (fun pair => pair.isInvalid = false) m)
    (hvalue : ⟨c, .value, subject⟩ ∈ xs)
    (hw : ∀ pair, Heeds I a c (pre ∧ pair.isInvalid = false) ws' ys Q (w pair)) :
    Heeds I a c pre (ws ++ ws') (xs ++ ys) Q
      (m >>= fun pair => settleTest I.env id span subject pattern >>= fun ok =>
        if ok = true then w pair else Pure.pure y) := by
  let test : Walk Bool := settleTest I.env id span subject pattern
  have htest (pre : Prop) (facts : Facts) :
      Covers { I with facts } a pre [] (fun ok => ok = true) test :=
    Covers.settleTest id span subject pattern
  -- The walk as if there were no test.
  have hplain : Heeds I a c pre (ws ++ ws') (xs ++ ys) Q
      (m >>= fun pair => test >>= fun _ => w pair) :=
    hm.bind fun pair => (silent (htest _)).nil_bind fun _ => (hw pair).given And.left
  refine ⟨fun hsub => ?_, fun hsub hI r s caps hs hq hcaps => ?_, fun hsub hI hpre s hs he => ?_⟩
  · obtain ⟨hws, hws'⟩ := List.append_subset.1 hsub
    refine (hm.proper hws).bind fun pair => ((htest True I.facts).proper
      (List.nil_subset _)).bind fun ok => ?_
    split
    · exact (hw pair).proper hws'
    · exact .pure y
  · have hok : test.answer (m.after s) = true := by
      by_contra hno
      rw [after_tested (by simpa using hno)] at hq
      exact hno (answer_test hm hvalue (List.append_subset.1 hsub).1 hI hs hq)
    rw [(run_tested hok).2] at hq hcaps
    exact hplain.heeds hsub hI r s caps hs hq hcaps
  · cases hok : test.answer (m.after s) with
    | true =>
      rw [(run_tested hok).2] at he ⊢
      rw [(run_tested hok).1]
      exact hplain.run hsub hI hpre s hs he
    | false =>
      obtain ⟨kind, hkind⟩ := errors_settleTest hok
      rw [after_tested hok, hkind] at he
      exact absurd he (List.append_ne_nil_of_right_ne_nil _ (List.cons_ne_nil _ _))

/-! ## Scopes of their own -/

/-- A block, or some other scope that no function begins with. -/
theorem inScope {kind : ScopeKind} (hkind : kind.isFunction = false) {stmts : List Stmt}
    (hd : ws ⊆ I.env.member.sites → ∀ d ∈ directFunctions stmts, d ∈ I.env.member.localFunctions)
    {body : Walk Unit} (hb : Heeds I (a.block stmts) c pre ws xs (fun _ => True) body) :
    Heeds I a c pre ws xs (fun _ => True)
      (Walk.inScope kind (Walk.declareFunctions stmts >>= fun _ => body)) where
  proper hsub := .inScope hkind (hd hsub) (hb.proper hsub)
  heeds hsub hI r s caps hs hq hcaps := by
    rw [Walk.after_inScope] at hq hcaps
    have htree : r = .trees →
        ((s.ctx.pushScope kind).declareFunctions (directFunctions stmts)).inExpressionTree = true := by
      intro hr
      rw [Context.inExpressionTree_declareFunctions, Context.inExpressionTree_pushScope,
        hs.inTree hr, Bool.or_true]
    have hinside : I.Sees r c.scope (s.inBlock kind stmts) := hs.withContext
      ((hs.placed.pushScope kind s.ctx.frames).declareFunctions (hd hsub)) htree
    exact hb.heeds hsub hI r (s.inBlock kind stmts) caps hinside hq hcaps
  run hsub hI hpre s hs he := by
    rw [Walk.after_inScope] at he ⊢
    have hinside : I.At (a.block stmts) c (s.inBlock kind stmts) := by
      refine ⟨(hs.point.pushScope).withFunctions (hd hsub),
        (hs.intact.pushScope kind s.ctx.frames).withFunctions stmts, hs.generics, ?_⟩
      rw [← hs.suspends]
      simp only [WalkState.forbidsLocals, WalkState.inBlock, Context.function,
        Context.frames_declareFunctions]
      rfl
    obtain ⟨_, hi, hx⟩ := hb.run hsub hI hpre _ hinside he
    exact ⟨trivial, hi.leave, hx⟩

/-- A scope without local functions is at the same point. -/
theorem scope {kind : ScopeKind} (hkind : kind.isFunction = false) {body : Walk Unit}
    (hb : Heeds I a c pre ws xs (fun _ => True) body) :
    Heeds I a c pre ws xs (fun _ => True) (Walk.inScope kind body) := by
  have hblock : Heeds I (a.block []) c pre ws xs (fun _ => True) body :=
    ⟨hb.proper, hb.heeds, fun hsub hI hpre s hs => hb.run hsub hI hpre s
      ⟨⟨hs.point.placed, hs.point.enclosed, hs.point.functions, hs.point.function,
        hs.point.receivers, hs.point.valid, hs.point.tables⟩, hs.intact, hs.generics, hs.suspends⟩⟩
  exact inScope hkind (fun _ _ hd => absurd hd List.not_mem_nil) hblock

/-- A block, given the walk over its statements. -/
theorem block {stmts : List Stmt} {body : Walk Unit}
    (hb : Heeds I (a.block stmts) c pre (Site.ofStmts (a.block stmts) stmts) xs (fun _ => True)
      body) :
    Heeds I a c pre (Site.ofStmts (a.block stmts) stmts) xs (fun _ => True)
      (Walk.block stmts body) :=
  inScope rfl Covers.mem_localFunctions_of_direct hb

/-! ## Nested functions -/

/-- A parameter of which nothing is reported that is looked for. -/
theorem heeded_param {r : Regard} {caps : Capabilities} {s : WalkState} {q : Param}
    {byContract : Bool} (hs : I.Sees r c.scope s) (hcaps : s.tables.caps.Within caps)
    (hq : (byContract = true → I.strict) → ∀ e ∈ s.paramErrors I.env true q
      (.ofParam q ((s.types I.env).stackOnly q.ty)), r.counts e.kind = false) :
    (⟨c, .param byContract, q.ty⟩ : TypedPart).Heeded I r caps := by
  have hshaped := hs.wellShaped_iff hcaps q.ty
  cases r with
  | anything =>
    intro hkey
    suffices hnone : (s.types I.env).typeErrors q.span q.ty = [] from
      hshaped.1 ((TypeEnv.typeErrors_eq_nil_iff q.ty).1 hnone)
    by_contra hne
    obtain ⟨e, he⟩ := List.exists_mem_of_ne_nil _ hne
    have hreported : (⟨.shape e.kind, e.span⟩ : EscapeError) ∈ s.paramErrors I.env true q
        (.ofParam q ((s.types I.env).stackOnly q.ty)) := by
      have hempty : ((s.types I.env).typeErrors q.span q.ty).isEmpty = false := by simpa using hne
      simp only [WalkState.paramErrors, if_true, hempty, Bool.false_eq_true, if_false]
      exact List.mem_map_of_mem he
    exact absurd (hq hkey _ hreported) (by simp [Regard.counts])
  | trees =>
    intro hkey hwell
    have hnone : (s.types I.env).typeErrors q.span q.ty = [] :=
      (TypeEnv.typeErrors_eq_nil_iff q.ty).2 (hshaped.2 hwell)
    change (c.types I.env caps).stackOnly q.ty = false
    rw [← hs.stackOnly_eq hcaps]
    by_contra hso
    rw [Bool.not_eq_false] at hso
    have hreported : (⟨.expressionTree q.ty.display, q.span⟩ : EscapeError) ∈
        s.paramErrors I.env true q (.ofParam q ((s.types I.env).stackOnly q.ty)) := by
      simp [WalkState.paramErrors, hnone, ParamContract.ofParam, hso, hs.inTree rfl]
    exact absurd (hq hkey _ hreported) (by simp [Regard.counts])

/-- A parameter of which nothing is reported. -/
theorem settled_param {s : WalkState} {q : Param} {byContract checkShapes : Bool}
    (hst : I.strict) (hs : I.At a c s)
    (hnone : s.paramErrors I.env checkShapes q
      (.ofParam q ((s.types I.env).stackOnly q.ty)) = []) :
    (⟨c, .param byContract, q.ty⟩ : TypedPart).Settled I := by
  intro _ hsuspends
  change (c.types I.env I.caps).stackOnly q.ty = false
  rw [← hs.types_eq hst]
  by_contra hso
  rw [Bool.not_eq_false] at hso
  have hforbids : s.forbidsLocals = true := hs.suspends.trans hsuspends
  unfold WalkState.paramErrors at hnone
  generalize (if checkShapes = true then (s.types I.env).typeErrors q.span q.ty else []) = shape
    at hnone
  cases shape with
  | nil => cases htree : s.ctx.inExpressionTree <;>
      simp [ParamContract.ofParam, hso, hforbids, htree] at hnone
  | cons e rest => simp at hnone

section Functions

variable {kind : ScopeKind} {frame : FunctionFrame} {params : List Param}
  {contracts : List ParamContract} {stmts : List Stmt} {body : Walk Unit} {s : WalkState}
  {byContract checkShapes byRef : Bool} {retTy : TypeRef}

/-- Binding the parameters of a function is progress. -/
theorem progress_bindParams (hs : s.Placed I.env) (params : List Param)
    (contracts : List ParamContract) :
    s.Progress I.env ((Walk.bindParams I.env true params contracts).after s) :=
  ((Traces.bindParams true params contracts).proper (List.nil_subset _)).progress s hs

/-- And so is the function. -/
theorem progress_inFunction (params : List Param) (frame : FunctionFrame)
    (contracts : List ParamContract) (hkind : kind.isFunction = true) (hb : body.Proper I.env)
    (hd : ∀ d ∈ directFunctions stmts, d ∈ I.env.member.localFunctions) (hs : s.Placed I.env) :
    s.Progress I.env ((Walk.inFunction kind frame (Walk.bindParams I.env true params contracts >>=
      fun _ => Walk.declareFunctions stmts >>= fun _ => body)).after s) :=
  (Walk.Proper.inFunction hkind frame hd
    ((Traces.bindParams true params contracts).proper (List.nil_subset _)) hb).progress s hs

/-- What is wrong with parameters that are bound by their own contracts. -/
theorem errors_bindParams (env : Surroundings) (checkShapes : Bool)
    {promise : Param → ParamContract}
    (hown : contracts = params.map promise) :
    ((Walk.bindParams env checkShapes params contracts).after s).errors =
      s.errors ++ params.flatMap fun q => s.paramErrors env checkShapes q (promise q) := by
  obtain ⟨infos, hafter⟩ := run_bindParams params contracts s
  have hzip : params.zip (params.map promise) = params.map fun q => (q, promise q) := by
    simpa using List.zip_map' (f := id) (g := promise) (l := params)
  rw [hafter, hown, hzip, List.flatMap_map]

/-- The parameters and the statements of a nested function are heeded. -/
theorem heeded_inFunction {b : Point} (hb : Heeds I b c True ws ys (fun _ => True) body)
    (hsub : ws ⊆ I.env.member.sites)
    (hd : ∀ d ∈ directFunctions stmts, d ∈ I.env.member.localFunctions) (hI : I.Orderly)
    {r r' : Regard} {caps : Capabilities} (hs : I.Sees r' c.scope s)
    (htree : r = .trees → kind = .lambda true ∨ s.ctx.inExpressionTree = true)
    (hown : (byContract = true → I.strict) → contracts = params.map fun q =>
      ParamContract.ofParam q ((s.types I.env).stackOnly q.ty))
    (hq : s.Quiet r ((Walk.inFunction kind frame (Walk.bindParams I.env true params contracts >>=
      fun _ => Walk.declareFunctions stmts >>= fun _ => body)).after s))
    (hcaps : ((Walk.inFunction kind frame (Walk.bindParams I.env true params contracts >>=
      fun _ => Walk.declareFunctions stmts >>= fun _ => body)).after s).tables.caps.Within caps) :
    ∀ x ∈ ofParams c byContract params ++ ys, x.Heeded I r caps := by
  rw [Walk.after_inFunction] at hq hcaps
  let entered : WalkState := s.inFunction kind frame
  let bound : WalkState := (Walk.bindParams I.env true params contracts).after entered
  have hentered : I.Sees r c.scope entered := by
    refine hs.withContext (hs.placed.pushScope kind (frame :: s.ctx.frames)) fun hr => ?_
    change (decide (kind = .lambda true) || s.ctx.inExpressionTree) = true
    rcases htree hr with h | h <;> simp [h]
  have hparams : entered.Progress I.env bound :=
    progress_bindParams hentered.placed params contracts
  have hbound : I.Sees r c.scope bound := hentered.later hI hparams
  have hinside : I.Sees r c.scope (bound.withFunctions stmts) :=
    hbound.withContext (hbound.placed.declareFunctions hd) fun hr => by
      rw [Context.inExpressionTree_declareFunctions]
      exact hbound.inTree hr
  have hbody := (hb.proper hsub).progress _ hinside.placed
  have hall : entered.Quiet r (body.after (bound.withFunctions stmts)) := hq
  obtain ⟨hq₁, hq₂⟩ := hall.split hparams.errors hbody.errors
  refine List.forall_mem_append.2 ⟨fun x hx => ?_, hb.heeds hsub hI r _ caps hinside hq₂ hcaps⟩
  obtain ⟨q, hmem, rfl⟩ := List.mem_map.1 hx
  have hwithin : entered.tables.caps.Within caps :=
    hparams.before.within.trans (hbody.before.within.trans hcaps)
  exact heeded_param hentered hwithin fun hkey e he =>
    hq₁.counts (errors_bindParams I.env true (hown hkey)) e (List.mem_flatMap.2 ⟨q, hmem, he⟩)

/-- In a nested function without errors nothing is given up, and no stack-only variable stands in it if
it may be suspended. -/
theorem settled_inFunction (byRef : Bool) (retTy : TypeRef)
    (hb : Heeds I ((⟨a.functions, byRef, retTy⟩ : Point).block stmts) c True ws ys (fun _ => True)
      body) (hsub : ws ⊆ I.env.member.sites)
    (hd : ∀ d ∈ directFunctions stmts, d ∈ I.env.member.localFunctions) (hI : I.Sound)
    (hs : I.Matches a s) (hi : s.Intact) (hgenerics : s.generics = c.scope)
    (hsuspends : frame.forbidsStackOnlyLocals = c.suspends) (href : frame.returnsByRef = byRef)
    (hstack : I.strict → frame.returnsStackOnly = I.types.stackOnly retTy)
    (hthis : ∀ pair, frame.thisPair = some pair → pair.isInvalid = false)
    (hown : I.strict → contracts = params.map fun q =>
      ParamContract.ofParam q ((s.types I.env).stackOnly q.ty))
    (he : ((Walk.inFunction kind frame (Walk.bindParams I.env true params contracts >>=
      fun _ => Walk.declareFunctions stmts >>= fun _ => body)).after s).errors = []) :
    ((Walk.inFunction kind frame (Walk.bindParams I.env true params contracts >>=
      fun _ => Walk.declareFunctions stmts >>= fun _ => body)).after s).Intact ∧
      (I.strict → ∀ x ∈ ofParams c byContract params ++ ys, x.Settled I) := by
  rw [Walk.after_inFunction] at he ⊢
  let entered : WalkState := s.inFunction kind frame
  let bound : WalkState := (Walk.bindParams I.env true params contracts).after entered
  have hentered : I.At ⟨a.functions, byRef, retTy⟩ c entered :=
    ⟨hs.inFunction kind href hstack hthis, hi.pushScope kind (frame :: s.ctx.frames), hgenerics,
      hsuspends⟩
  have hparams : entered.Progress I.env bound :=
    progress_bindParams hentered.point.placed params contracts
  have hplaced : (bound.withFunctions stmts).Placed I.env :=
    (hparams.placed hentered.point.placed).declareFunctions hd
  have hnone : bound.errors = [] := ((hb.proper hsub).progress _ hplaced).errors_eq_nil he
  obtain ⟨_, hbound, _⟩ := (silent (I := I) (c := c) (a := ⟨a.functions, byRef, retTy⟩)
    fun _ => Covers.bindParams true params contracts).run (List.nil_subset _) hI trivial entered
      hentered hnone
  have hlater := hentered.later hI hparams hbound
  have hinside : I.At ((⟨a.functions, byRef, retTy⟩ : Point).block stmts) c
      (bound.withFunctions stmts) := by
    refine ⟨hlater.point.withFunctions hd, hbound.withFunctions stmts, hlater.generics, ?_⟩
    rw [← hlater.suspends]
    simp only [WalkState.forbidsLocals, WalkState.withFunctions, Context.function,
      Context.frames_declareFunctions]
  obtain ⟨_, hfinal, hx⟩ := hb.run hsub hI trivial _ hinside he
  refine ⟨hfinal.leave, fun hst => List.forall_mem_append.2 ⟨fun x hmem => ?_, hx hst⟩⟩
  obtain ⟨q, hq, rfl⟩ := List.mem_map.1 hmem
  have herrors : bound.errors = _ := errors_bindParams I.env true (hown hst)
  rw [hnone] at herrors
  exact settled_param hst hentered
    (List.flatMap_eq_nil_iff.1 (List.append_eq_nil_iff.1 herrors.symm).2 q hq)

end Functions

/-- The parameters and the statements of a lambda are heeded, in an expression tree also if it begins
with the lambda itself. -/
theorem heeded_lambdaOver {b : Point} (fn : Lambda) {body : Walk Unit} {s : WalkState}
    {r r' : Regard} {caps : Capabilities}
    (hb : Heeds I b (c.lambda fn.isAsync) True ws ys (fun _ => True) body)
    (hsub : ws ⊆ I.env.member.sites)
    (hd : ∀ d ∈ directFunctions fn.body, d ∈ I.env.member.localFunctions) (hI : I.Orderly)
    (hs : I.Sees r' c.scope s)
    (htree : r = .trees → fn.isExpressionTree = true ∨ s.ctx.inExpressionTree = true)
    (hq : s.Quiet r ((Walk.lambdaOver I.env fn body).after s))
    (hcaps : ((Walk.lambdaOver I.env fn body).after s).tables.caps.Within caps) :
    ∀ x ∈ ofParams (c.lambda fn.isAsync) false fn.params ++ ys, x.Heeded I r caps :=
  heeded_inFunction hb hsub hd hI hs (fun hr => (htree hr).imp_left fun h => by rw [h])
    (fun _ => rfl) hq hcaps

/-- A lambda, given the walk over its statements. -/
theorem lambdaOver (fn : Lambda) {body : Walk Unit}
    (hproper : Site.ofStmts (a.lambda fn.retTy fn.body) fn.body ⊆ I.env.member.sites →
      (Walk.lambdaOver I.env fn body).Proper I.env)
    (hb : Heeds I (a.lambda fn.retTy fn.body) (c.lambda fn.isAsync) True
      (Site.ofStmts (a.lambda fn.retTy fn.body) fn.body) ys (fun _ => True) body) :
    Heeds I a c pre (Site.ofStmts (a.lambda fn.retTy fn.body) fn.body)
      (ofParams (c.lambda fn.isAsync) false fn.params ++ ys) (fun _ => True)
      (Walk.lambdaOver I.env fn body) where
  proper := hproper
  heeds hsub hI r s caps hs := heeded_lambdaOver fn hb hsub
    (Covers.mem_localFunctions_of_direct hsub) hI hs fun hr => .inr (hs.inTree hr)
  run hsub hI _ s hs he := by
    have hthis (pair : ScopePair) (hp : (Walk.lambdaFrame s I.env fn).thisPair = some pair) :
        pair.isInvalid = false := Covers.nestedThis_isInvalid hs.point hp
    exact ⟨trivial, settled_inFunction false fn.retTy hb hsub
      (Covers.mem_localFunctions_of_direct hsub) hI hs.point hs.intact hs.generics (Bool.or_false _)
      rfl (fun hst => congrFun (hs.point.stackOnly_eq hI hst) fn.retTy) hthis (fun _ => rfl) he⟩

section LocalFunctions

variable {decl : FnDecl} {s : WalkState}

/-- Entering a local function is progress. -/
theorem progress_enterLocalFunction (hd : decl ∈ I.env.member.localFunctions)
    (hs : s.Placed I.env) :
    s.Progress I.env ((Walk.enterLocalFunction I.env decl).after s) :=
  ((Traces.enterLocalFunction hd).proper (List.nil_subset _)).progress s hs

/-- If no two declarations share a key, a local function is entered with its own contract. -/
theorem answer_enterLocalFunction (hI : I.Orderly) (hst : I.strict)
    (hd : decl ∈ I.env.member.localFunctions) (hs : s.Placed I.env)
    (hexact : s.tables.Exact I.env.program I.caps) :
    (Walk.enterLocalFunction I.env decl).answer s =
      I.env.member.localContract I.caps I.env.program decl := by
  let filed : WalkState :=
    { s with tables := { s.tables with
      caps := s.tables.caps.fillOwn I.env.program (I.env.localKey decl) decl.typeParams s.generics } }
  have hfiled : filed.tables.Exact I.env.program I.caps :=
    hexact.step (hI.keys hst) hI.mem (hI.plain hst) (.typeParams hs.generics hd s.tables)
  have hbuilt : filed.localContract I.env decl =
      I.env.member.localContract I.caps I.env.program decl := by
    rw [WalkState.localContract, hfiled.caps_eq]
    exact hs.generics.build_eq (hI.plain hst) I.caps hd
  exact (hfiled.obtainLocal (hI.keys hst) hI.mem hd hbuilt).1

/-- Its parameters are bound by what their types mean there. -/
theorem params_enterLocalFunction (hI : I.Orderly) (hst : I.strict)
    (hd : decl ∈ I.env.member.localFunctions) (hs : s.Placed I.env)
    (hexact : s.tables.Exact I.env.program I.caps) :
    ((Walk.enterLocalFunction I.env decl).answer s).params = decl.params.map fun q =>
      ParamContract.ofParam q (((s.atLocalFunction I.env decl).types I.env).stackOnly q.ty) := by
  have hp := progress_enterLocalFunction hd hs
  have hcaps : (s.atLocalFunction I.env decl).tables.caps = I.caps :=
    (hexact.steps (hI.keys hst) hI.mem (hI.plain hst) hp.tables).caps_eq
  have hbuilt := (hp.placed hs).generics.build_eq (hI.plain hst) I.caps hd
  rw [answer_enterLocalFunction hI hst hd hs hexact, ← hbuilt]
  simp only [WalkState.types, hcaps]
  rfl

/-- It is seen with the type parameters of the local function. -/
theorem sees_atLocalFunction (hI : I.Orderly) (hd : decl ∈ I.env.member.localFunctions)
    {r : Regard} (hs : I.Sees r c.scope s) :
    I.Sees r (c.localFunction I.env.member decl).scope (s.atLocalFunction I.env decl) := by
  have hlater := hs.later hI (progress_enterLocalFunction hd hs.placed)
  refine ⟨hlater.placed.localScope hd, ?_, ?_, hlater.entered, hlater.exact, hlater.inTree⟩
  · change GenericScope.push _ _ _ = _
    rw [hlater.generics]
    rfl
  · exact hlater.filed.push fun q hq => Capabilities.isSome_fillOwn s.tables.caps I.env.program
      (I.env.localKey decl) decl.typeParams s.generics hq

/-- It is one at the point of the local function. -/
theorem matches_atLocalFunction (hI : I.Sound) (hd : decl ∈ I.env.member.localFunctions)
    (hs : I.At a c s) (he : (s.atLocalFunction I.env decl).errors = []) :
    I.Matches a (s.atLocalFunction I.env decl) ∧ (s.atLocalFunction I.env decl).Intact := by
  have hp := progress_enterLocalFunction hd hs.point.placed
  have hm := hs.point.later hI hp
  obtain ⟨_, hi, _⟩ := (silent (I := I) (a := a) (c := c)
    fun facts => Covers.enterLocalFunction (I := { I with facts }) hd).run (List.nil_subset _) hI
      trivial s hs he
  exact ⟨⟨hm.placed.localScope hd, hm.enclosed, hm.functions, hm.function, hm.receivers, hm.valid,
    hm.tables⟩, hi.locals, hi.facts⟩

/-- What is reported in it is reported after its beginning. -/
theorem errors_localFunctionOver {body : Walk Unit} (hb : body.Proper I.env)
    (hd : decl ∈ I.env.member.localFunctions)
    (hdirect : ∀ d ∈ directFunctions (decl.body.getD []), d ∈ I.env.member.localFunctions)
    (hs : s.Placed I.env) : ∃ es, ((Walk.localFunctionOver I.env decl body).after s).errors =
      (s.atLocalFunction I.env decl).errors ++ es := by
  have hplaced : (s.atLocalFunction I.env decl).Placed I.env :=
    ((progress_enterLocalFunction hd hs).placed hs).localScope hd
  let contract : Contract := (Walk.enterLocalFunction I.env decl).answer s
  let frame : FunctionFrame :=
    Walk.localFrame ((Walk.enterLocalFunction I.env decl).after s) decl contract
  have hkind : ScopeKind.localFunction.isFunction = true := rfl
  exact (progress_inFunction decl.params frame contract.params hkind hb hdirect hplaced).errors

/-- A local function, given the walk over its statements. -/
theorem localFunctionOver {body : Walk Unit}
    (hd : ws ⊆ I.env.member.sites → decl ∈ I.env.member.localFunctions)
    (hdirect : ws ⊆ I.env.member.sites →
      ∀ d ∈ directFunctions (decl.body.getD []), d ∈ I.env.member.localFunctions)
    (hproper : ws ⊆ I.env.member.sites → (Walk.localFunctionOver I.env decl body).Proper I.env)
    (hb : Heeds I (a.localFunction decl) (c.localFunction I.env.member decl) True ws ys
      (fun _ => True) body) :
    Heeds I a c pre ws (ofParams (c.localFunction I.env.member decl) true decl.params ++ ys)
      (fun _ => True) (Walk.localFunctionOver I.env decl body) where
  proper := hproper
  heeds hsub hI r s caps hs hq hcaps := by
    have hp := progress_enterLocalFunction (hd hsub) hs.placed
    have hsees := sees_atLocalFunction hI (hd hsub) hs
    obtain ⟨_, hquiet⟩ := hq.split hp.errors
      (errors_localFunctionOver (hb.proper hsub) (hd hsub) (hdirect hsub) hs.placed)
    exact heeded_inFunction hb hsub (hdirect hsub) hI hsees (fun hr => .inr (hsees.inTree hr))
      (fun hkey => params_enterLocalFunction hI (hkey rfl) (hd hsub) hs.placed (hs.exact (hkey rfl)))
      hquiet hcaps
  run hsub hI _ s hs he := by
    have hp := progress_enterLocalFunction (hd hsub) hs.point.placed
    have hnone : (s.atLocalFunction I.env decl).errors = [] := by
      obtain ⟨_, hes⟩ :=
        errors_localFunctionOver (hb.proper hsub) (hd hsub) (hdirect hsub) hs.point.placed
      exact (List.append_eq_nil_iff.1 (hes.symm.trans he)).1
    obtain ⟨hm, hi⟩ := matches_atLocalFunction hI (hd hsub) hs hnone
    have hscope : (s.atLocalFunction I.env decl).generics =
        (c.localFunction I.env.member decl).scope :=
      congrArg (GenericScope.push · _ _) (hp.generics.trans hs.generics)
    have hown (hst : I.strict) := answer_enterLocalFunction hI.orderly hst (hd hsub) hs.point.placed
      (hs.point.tables hst)
    have hthis (pair : ScopePair) (hpair : (Walk.localFrame
        ((Walk.enterLocalFunction I.env decl).after s) decl
        ((Walk.enterLocalFunction I.env decl).answer s)).thisPair = some pair) :
          pair.isInvalid = false :=
      Covers.nestedThis_isInvalid (hs.point.later hI hp) hpair
    obtain ⟨hi', hx⟩ := settled_inFunction (c := c.localFunction I.env.member decl)
      decl.ret.isByRef decl.ret.ty hb hsub (hdirect hsub) hI hm hi hscope rfl rfl
      (fun hst => congrArg Contract.returnsStackOnly (hown hst)) hthis
      (fun hst => params_enterLocalFunction hI.orderly hst (hd hsub) hs.point.placed
        (hs.point.tables hst)) he
    exact ⟨trivial, ⟨hi'.locals, hi'.facts⟩, hx⟩

end LocalFunctions

/-! ## Regions and iterations -/

/-- A local variable that was just declared is the resource of its region. -/
theorem thenResource (decl : LocalDecl) {m : Walk Unit}
    (hm : Heeds I a c pre ws xs (fun _ => True) m)
    (hf : ws ⊆ I.env.member.sites → ∀ s : WalkState, s.Placed I.env → s.ctx.scopes ≠ [] →
      ∃ found, (m.after s).ctx.lookup decl.name = some found) :
    Heeds I a c pre ws xs
      (fun op => op.pair.isInvalid = false ∧
        (I.strict → op.stackOnly = (c.types I.env I.caps).stackOnly decl.ty))
      (m >>= fun _ => Walk.declaredResource I.env decl) := by
  have h : Heeds I a c pre ws xs (fun _ => True)
      (m >>= fun _ => Walk.declaredResource I.env decl) :=
    hm.bind_nil fun _ => silent fun facts => Covers.declaredResource (I := { I with facts }) decl
  refine ⟨h.proper, h.heeds, fun hsub hI hpre s hs he => ?_⟩
  obtain ⟨_, hi, hx⟩ := h.run hsub hI hpre s hs he
  obtain ⟨found, hfound⟩ := hf hsub s hs.point.placed hs.point.enclosed
  have hpair : ((m >>= fun _ => Walk.declaredResource I.env decl).answer s).pair =
      found.info.pair := by
    unfold Walk.declaredResource
    simp only [Walk.answer_bind, Walk.answer_get, Walk.after_get, hfound]
    rfl
  refine ⟨⟨?_, fun hst => ?_⟩, hi, hx⟩
  · rw [hpair]
    exact Covers.lookup_isInvalid (s := m.after s) hi hfound
  · have hlater := hs.later hI ((hm.proper hsub).progress s hs.point.placed) hi
    rw [← hlater.types_eq hst]
    rfl

/-- A region, given the walk over its statements. -/
theorem usingOver (region : UsingStmt) {op : Operand} (ty : TypeRef) (span : Span)
    {body : Walk Unit} (hv : pre → op.pair.isInvalid = false)
    (hop : pre → I.strict → op.stackOnly = (c.types I.env I.caps).stackOnly ty)
    (hb : Heeds I (a.block region.body) c True (Site.ofStmts (a.block region.body) region.body) ys
      (fun _ => True) body) :
    Heeds I a c pre (Site.ofStmts (a.block region.body) region.body) (⟨c, .binding, ty⟩ :: ys)
      (fun _ => True) (Walk.usingOver I.env region op ty span body) := by
  rw [Walk.usingOver_eq]
  refine (enterRegion region.isAwait ty hop).bind fun refused => ?_
  exact (block (hb.given fun _ => trivial)).bind_nil fun _ => silent fun facts =>
    Covers.leaveRegion (I := { I with facts }) region span refused fun h => hv h.1.1

/-- The variable of an iteration, or the pattern that takes the element apart. -/
theorem bindIteration (loop : ForeachStmt) {matchElement : ScopePair → Walk Unit}
    {element : ScopePair} {zs : List TypedPart} (hv : pre → element.isInvalid = false)
    (hm : Heeds I a c pre (Site.ofPattern a loop.enumerator.elementTy loop.binding) zs
      (fun _ => True) (matchElement element)) :
    Heeds I a c pre
      (match loop.binding with
        | .declaration .. => []
        | _ => Site.ofPattern a loop.enumerator.elementTy loop.binding)
      (match loop.binding with
        | .declaration _ ty _ => [⟨c, .binding, ty⟩]
        | _ => zs) (fun _ => True) (Walk.bindIteration I.env loop matchElement element) := by
  unfold Walk.bindIteration
  rcases hb : loop.binding
  case declaration name ty span => exact declareBinding name ty loop.byRef span hv
  all_goals rw [hb] at hm; exact hm

/-- An iteration, given the walks over its pattern and over its statements. -/
theorem foreachOver (loop : ForeachStmt) {collection : ScopePair} (span : Span)
    {matchElement : ScopePair → Walk Unit} {body : Walk Unit} {zs : List TypedPart}
    (hv : pre → collection.isInvalid = false)
    (hm : ∀ (pre' : Prop) (element : ScopePair), (pre' → element.isInvalid = false) →
      Heeds I a c pre' (Site.ofPattern a loop.enumerator.elementTy loop.binding) zs
        (fun _ => True) (matchElement element))
    (hb : Heeds I (a.block loop.body) c True (Site.ofStmts (a.block loop.body) loop.body) ys
      (fun _ => True) body) :
    Heeds I a c pre
      ((match loop.binding with
        | .declaration .. => []
        | _ => Site.ofPattern a loop.enumerator.elementTy loop.binding) ++
        Site.ofStmts (a.block loop.body) loop.body)
      ((match loop.binding with
        | .declaration _ ty _ => [⟨c, .binding, ty⟩]
        | _ => zs) ++ ys) (fun _ => True)
      (Walk.foreachOver I.env loop collection span matchElement body) := by
  rw [Walk.foreachOver_eq]
  refine (stackOnly _).nil_bind fun so => (silent fun facts =>
    Covers.refusesStackOnly (I := { I with facts }) loop.isAwait).nil_bind fun refused =>
      scope rfl ((silent fun facts => Covers.enterLoop (I := { I with facts }) loop span so refused
        fun h => hv h.1.1).nil_bind fun x => ?_)
  refine (bindIteration loop (fun h => h.2.1) (hm _ _ fun h => h.2.1)).bind fun _ => ?_
  exact (block (hb.given fun _ => trivial)).bind_nil fun _ => silent fun facts =>
    Covers.leaveLoop (I := { I with facts }) loop span fun h => h.1.1.2.2

/-- A pattern with more parts than component types is no part of a regular program. -/
theorem of_irregular {m : Walk Unit} {x : Site} (hx : ¬ x.IsRegular)
    (hm : x :: ws ⊆ I.env.member.sites → m.Proper I.env) :
    Heeds I a c pre (x :: ws) xs (fun _ => True) m where
  proper := hm
  heeds hsub hI := absurd (hI.regular x (List.cons_subset.1 hsub).1) hx
  run hsub hI := absurd (hI.regular x (List.cons_subset.1 hsub).1) hx

end Heeds

end Walk

end StackEscape
