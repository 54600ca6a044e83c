import StackEscape.Proofs.HeedingRules

/-!
# Every walk heeds its part of the tree

The walk over an expression, a pattern or a statement heeds all typed parts there: an induction over the
tree, with one case for each form. So in a program without errors, the parts of all bodies are heeded.

## Main definitions

* `StackEscape.Program.typesIn` — what types mean in a member when the run is over.
* `StackEscape.Program.bodyInspection` — the body of a member, measured against the declarations.

## Main results

* `StackEscape.Walk.Heeds.checkExpr`, `checkPattern`, `checkStmts` — the walk heeds its parts.
* `StackEscape.Program.walked_of_isOk` — in a run without errors, no walk over a body finds one.
* `StackEscape.Program.heeded_of_isOk` — all parts of bodies are heeded in it, at any depth.

## Implementation notes

That the walks are proper is known from the induction that says what they cover.
-/

set_option autoImplicit false

namespace StackEscape

namespace Walk.Heeds

open TypedPart (outVars)

variable {I : Inspection} {a : Point} {c : Setting}

/-! ## Operands -/

/-- Operands are those of the arguments, and none of them was given up. -/
def IsArgs (args : List Arg) (ops : List Operand) : Prop :=
  (∀ op ∈ ops, op.pair.isInvalid = false) ∧ AreOperands args ops

/-- No operand of a call was given up. -/
theorem operands_isInvalid {args : List Arg} {receiver : Option Operand} {ops : List Operand}
    (hr : ∀ op ∈ receiver.toList, op.pair.isInvalid = false) (ha : IsArgs args ops) :
    ∀ op ∈ receiver.toList ++ ops, op.pair.isInvalid = false :=
  fun op hop => (List.mem_append.1 hop).elim (hr op) (ha.1 op)

/-- The operands of a setter are those of the target and the new value. -/
theorem isArgs_append {args : List Arg} {ops : List Operand} {value : Expr} {op : Operand}
    (ha : IsArgs args ops)
    (hop : op.pair.isInvalid = false ∧ op.expr = some value ∧ op.fresh = value.isOutVar) :
    IsArgs (args ++ [⟨.none, value⟩]) (ops ++ [op]) := by
  refine ⟨List.forall_mem_append.2 ⟨ha.1, ?_⟩, List.rel_append ha.2 (.cons hop.2 .nil)⟩
  exact fun o ho => List.mem_singleton.1 ho ▸ hop.1

/-! ## The walk -/

mutual

theorem checkExpr {a : Point} {c : Setting} {pre : Prop} : (e : Expr) →
    Heeds I a c pre (Site.ofExpr a e) (TypedPart.ofExpr I.env.member c e)
      (fun pair => pair.isInvalid = false) (Walk.checkExpr I.env e)
  | ⟨id, kind, ty, span⟩ => by
    have hcovers : Covers I a pre (Site.ofExpr a ⟨id, kind, ty, span⟩) _
        (Walk.checkExpr I.env ⟨id, kind, ty, span⟩) := Covers.checkExpr ⟨id, kind, ty, span⟩
    rw [Site.ofExpr, TypedPart.ofExpr]
    exact expr id kind ty span hcovers.proper (checkForm id ty span kind)

theorem checkForm {a : Point} {c : Setting} {pre : Prop} (id : NodeId) (ty : TypeRef)
    (span : Span) : (kind : ExprKind) →
    Heeds I a c pre (Site.ofKind a kind) (TypedPart.ofKind I.env.member c kind)
      (fun pair => pair.isInvalid = false) (Walk.checkForm I.env id ty span kind)
  | .literal _ => by
    rw [Site.ofKind, TypedPart.ofKind, Walk.checkForm]
    exact .pure fun _ => rfl
  | .var name => by
    rw [Site.ofKind, TypedPart.ofKind, Walk.checkForm]
    exact silent fun facts => Covers.readVariable (I := { I with facts }) name span
  | .thisRef => by
    rw [Site.ofKind, TypedPart.ofKind, Walk.checkForm]
    exact silent fun facts => Covers.readThis (I := { I with facts }) span
  | .field receiver owner name => by
    rw [Site.ofKind, TypedPart.ofKind, Walk.checkForm_field]
    exact (checkOptional receiver).bind_nil fun r => silent fun facts =>
      Covers.readField (I := { I with facts }) owner name ty And.right
  | .property receiver getter args => by
    rw [Site.ofKind, TypedPart.ofKind, Walk.checkForm]
    exact (checkReceiver receiver).bind fun r => (checkArgs args).bind_step fun ops =>
      readProperty ty span (fun h => h.2.2) fun h => operands_isInvalid h.1.2 h.2
  | .call receiver method typeArgs args => by
    rw [Site.ofKind, TypedPart.ofKind, Walk.checkForm_call]
    exact (checkReceiver receiver).bind fun r => (checkArgs args).bind_step fun ops =>
      callMethod method typeArgs ty span (fun h => h.2.2) fun h => operands_isInvalid h.1.2 h.2
  | .create ctor args => by
    rw [Site.ofKind, TypedPart.ofKind, Walk.checkForm_create]
    have hshape : Heeds I a c pre [] [] (fun b => b = true) (Walk.checkShape I.env ty span) :=
      silent fun facts => Covers.checkShape (I := { I with facts }) ty span
    exact hshape.nil_bind fun w => (checkArgs args).bind_step fun ops =>
      construct ctor ty span (fun h => h.1.2) (fun h => h.2.2) fun h => h.2.1
  | .stackAlloc _ len => by
    rw [Site.ofKind, TypedPart.ofKind, Walk.checkForm]
    refine (checkExpr len).discard.bind_nil fun _ => (stackOnly ty).bind_nil fun b => .pure fun _ => ?_
    split <;> rfl
  | .conditional cond thenExpr elseExpr byRef => by
    rw [Site.ofKind, TypedPart.ofKind, Walk.checkForm]
    refine (checkExpr cond).discard.bind fun _ => (checkExpr thenExpr).bind fun x =>
      (checkExpr elseExpr).bind_nil fun y => (stackOnly ty).bind_nil fun b => .pure fun h => ?_
    obtain ⟨⟨⟨_, hx⟩, hy⟩, _⟩ := h
    simp [ScopePair.narrower, hx, hy]
  | .convert operand explicit => by
    rw [Site.ofKind, TypedPart.ofKind, Walk.checkForm_convert]
    exact (checkExpr operand).bind_nil fun inner => silent fun facts =>
      Covers.convertTo (I := { I with facts }) operand.ty ty span And.right
  | .binary op left right => by
    rw [Site.ofKind, TypedPart.ofKind, Walk.checkForm_binary]
    exact (checkExpr left).bind fun l => (checkExpr right).bind_nil fun r => silent fun facts =>
      Covers.compare (I := { I with facts }) id span op left right fun h => ⟨h.1.2, h.2⟩
  | .test operand pattern => by
    rw [Site.ofKind, TypedPart.ofKind, Walk.checkForm_test]
    exact test id span operand.ty pattern (checkExpr operand)
      (TypedPart.value_mem_ofExpr I.env.member c operand) fun input =>
        (checkPattern operand.ty span And.right pattern).bind_nil fun _ => .pure fun _ => rfl
  | .lambda fn => by
    rw [Site.ofKind, TypedPart.ofKind, Walk.checkForm]
    exact (checkLambda fn).bind_nil fun _ => .pure fun _ => rfl
  | .arrayNew _ elems => by
    rw [Site.ofKind, TypedPart.ofKind, Walk.checkForm]
    have hshape : Heeds I a c pre [] [] (fun b => b = true) (Walk.checkShape I.env ty span) :=
      silent fun facts => Covers.checkShape (I := { I with facts }) ty span
    refine hshape.nil_bind fun w => (checkAll elems).bind_nil fun _ => .pure fun h => ?_
    rw [h.1.2]
    rfl
  | .anonymous members => by
    rw [Site.ofKind, TypedPart.ofKind, Walk.checkForm]
    refine (checkMembers members).bind_nil fun ok => .pure fun h => ?_
    rw [h.2]
    rfl
  | .await operand => by
    rw [Site.ofKind, TypedPart.ofKind, Walk.checkForm]
    exact (checkExpr operand).discard.bind_nil fun _ => .pure fun _ => rfl
  | .dynamicInvoke receiver name args => by
    rw [Site.ofKind, TypedPart.ofKind, Walk.checkForm_dynamicInvoke]
    exact (checkExpr receiver).discard.bind fun _ => (checkValues args).bind_step fun _ =>
      invokeLate receiver args
  | .outVar _ => by
    rw [Site.ofKind, TypedPart.ofKind, Walk.checkForm]
    exact .pure fun _ => rfl

theorem checkOptional {a : Point} {c : Setting} {pre : Prop} : (receiver : Option Expr) →
    Heeds I a c pre (Site.ofOptional a receiver) (TypedPart.ofOptional I.env.member c receiver)
      (fun r => ∀ x, r = some x → x.1.isInvalid = false) (Walk.checkOptional I.env receiver)
  | none => by
    rw [Site.ofOptional, TypedPart.ofOptional, Walk.checkOptional]
    exact .pure fun _ => by simp
  | some e => by
    rw [Site.ofOptional, TypedPart.ofOptional, Walk.checkOptional]
    refine (checkExpr e).bind_nil fun pair => .pure fun h x hx => ?_
    obtain rfl := Option.some.inj hx
    exact h.2

theorem checkReceiver {a : Point} {c : Setting} {pre : Prop} : (receiver : Option Expr) →
    Heeds I a c pre (Site.ofOptional a receiver) (TypedPart.ofReceiver I.env.member c receiver)
      (fun op => ∀ o ∈ op.toList, o.pair.isInvalid = false) (Walk.checkReceiver I.env receiver)
  | none => by
    rw [Site.ofOptional, TypedPart.ofReceiver, Walk.checkReceiver]
    exact .pure fun _ => by simp
  | some e => by
    rw [Site.ofOptional, TypedPart.ofReceiver, Walk.checkReceiver]
    exact (operandOf e .none (checkExpr e)).bind_nil fun op => .pure fun h => by simpa using h.2.1

theorem checkArgs {a : Point} {c : Setting} {pre : Prop} : (args : List Arg) →
    Heeds I a c pre (Site.ofArgs a args) (TypedPart.ofArgs I.env.member c args) (IsArgs args)
      (Walk.checkArgs I.env args)
  | [] => by
    rw [Site.ofArgs, TypedPart.ofArgs, Walk.checkArgs]
    exact .pure fun _ => ⟨by simp, .nil⟩
  | ⟨mode, e⟩ :: rest => by
    rw [Site.ofArgs, TypedPart.ofArgs, Walk.checkArgs]
    exact (operandOf e mode (checkExpr e)).bind fun op => (checkArgs rest).bind_nil fun ops =>
      .pure fun h => ⟨List.forall_mem_cons.2 ⟨h.1.2.1, h.2.1⟩, .cons h.1.2.2 h.2.2⟩

theorem checkValues {a : Point} {c : Setting} {pre : Prop} : (args : List Arg) →
    Heeds I a c pre (Site.ofArgs a args) (TypedPart.ofValues I.env.member c args) (fun _ => True)
      (Walk.checkValues I.env args)
  | [] => by
    rw [Site.ofArgs, TypedPart.ofValues, Walk.checkValues]
    exact .pure fun _ => trivial
  | ⟨_, e⟩ :: rest => by
    rw [Site.ofArgs, TypedPart.ofValues, Walk.checkValues]
    exact (checkExpr e).discard.bind fun _ => checkValues rest

theorem checkAll {a : Point} {c : Setting} {pre : Prop} : (elems : List Expr) →
    Heeds I a c pre (Site.ofExprs a elems) (TypedPart.ofExprs I.env.member c elems) (fun _ => True)
      (Walk.checkAll I.env elems)
  | [] => by
    rw [Site.ofExprs, TypedPart.ofExprs, Walk.checkAll]
    exact .pure fun _ => trivial
  | e :: rest => by
    rw [Site.ofExprs, TypedPart.ofExprs, Walk.checkAll]
    exact (checkExpr e).discard.bind fun _ => checkAll rest

theorem checkMembers {a : Point} {c : Setting} {pre : Prop} : (members : List NamedExpr) →
    Heeds I a c pre (Site.ofMembers a members) (TypedPart.ofMembers I.env.member c members)
      (fun ok => ok = true) (Walk.checkMembers I.env members)
  | [] => by
    rw [Site.ofMembers, TypedPart.ofMembers, Walk.checkMembers]
    exact .pure fun _ => rfl
  | ⟨name, e⟩ :: rest => by
    rw [Site.ofMembers, TypedPart.ofMembers, Walk.checkMembers_cons]
    refine (checkExpr e).bind fun pair => (silent fun facts =>
      Covers.checkNamed (I := { I with facts }) name e pair).nil_bind fun ok =>
        (checkMembers rest).bind_nil fun restOk => .pure fun h => ?_
    rw [h.1.2, h.2]
    rfl

theorem checkLambda {a : Point} {c : Setting} {pre : Prop} : (fn : Lambda) →
    Heeds I a c pre (Site.ofLambda a fn) (TypedPart.ofLambda I.env.member c fn) (fun _ => True)
      (Walk.checkLambda I.env fn)
  | ⟨params, retTy, body, isExpressionTree, isStatic, isAsync⟩ => by
    have hcovers : Covers I a False
        (Site.ofLambda a ⟨params, retTy, body, isExpressionTree, isStatic, isAsync⟩) _
        (Walk.checkLambda I.env ⟨params, retTy, body, isExpressionTree, isStatic, isAsync⟩) :=
      Covers.checkLambda _
    rw [Site.ofLambda, Walk.checkLambda] at hcovers
    rw [Site.ofLambda, TypedPart.ofLambda, Walk.checkLambda]
    exact (lambdaOver ⟨params, retTy, body, isExpressionTree, isStatic, isAsync⟩ hcovers.proper
      (checkStmts body)).result _ _

theorem checkPattern {a : Point} {c : Setting} {pre : Prop} (inputTy : TypeRef) (span : Span)
    {input : ScopePair} (hv : pre → input.isInvalid = false) : (p : Pattern) →
    Heeds I a c pre (Site.ofPattern a inputTy p) (TypedPart.ofPattern I.env.member c p)
      (fun _ => True) (Walk.checkPattern I.env input inputTy span p)
  | .discard => by
    rw [TypedPart.ofPattern, Walk.checkPattern]
    exact (pure fun _ => trivial).among (List.nil_subset _)
  | .typeTest _ => by
    rw [TypedPart.ofPattern, Walk.checkPattern]
    exact (pure fun _ => trivial).among (List.nil_subset _)
  | .declaration name ty span => by
    rw [TypedPart.ofPattern, Walk.checkPattern]
    exact (bindPattern name ty span hv).among (List.nil_subset _)
  | .constant e => by
    rw [Site.ofPattern, TypedPart.ofPattern, Walk.checkPattern]
    exact (checkExpr e).discard.among (List.subset_cons_self _ _)
  | .property ty subpatterns => by
    rw [Site.ofPattern, TypedPart.ofPattern, Walk.checkPattern]
    exact (checkSubPatterns (ty.getD inputTy) hv subpatterns).among (List.subset_cons_self _ _)
  | .positional deconstruct subpatterns componentTys => by
    have hcovers : Covers I a pre
        (Site.ofPattern a inputTy (.positional deconstruct subpatterns componentTys)) _
        (Walk.checkPattern I.env input inputTy span
          (.positional deconstruct subpatterns componentTys)) :=
      Covers.checkPattern inputTy span hv _
    rw [Site.ofPattern] at hcovers ⊢
    by_cases hlen : subpatterns.length ≤ componentTys.length
    · rw [TypedPart.ofPattern, Walk.checkPattern]
      exact ((silent fun facts => Covers.deconstructInput (I := { I with facts }) deconstruct
        componentTys inputTy span hv).nil_bind fun outcome => checkComponents span And.right
          subpatterns componentTys hlen).among (List.subset_cons_self _ _)
    · exact of_irregular hlen hcovers.proper
  | .negated inner => by
    rw [Site.ofPattern, TypedPart.ofPattern, Walk.checkPattern]
    exact (checkPattern inputTy span hv inner).among (List.subset_cons_self _ _)

theorem checkSubPatterns {a : Point} {c : Setting} {pre : Prop} (receiverTy : TypeRef)
    {input : ScopePair} (hv : pre → input.isInvalid = false) : (subs : List SubPattern) →
    Heeds I a c pre (Site.ofSubPatterns a subs) (TypedPart.ofSubPatterns I.env.member c subs)
      (fun _ => True) (Walk.checkSubPatterns I.env input receiverTy subs)
  | [] => by
    rw [Site.ofSubPatterns, TypedPart.ofSubPatterns, Walk.checkSubPatterns]
    exact .pure fun _ => trivial
  | ⟨access, ty, p, span⟩ :: rest => by
    rw [Site.ofSubPatterns, TypedPart.ofSubPatterns, Walk.checkSubPatterns]
    exact (silent fun facts => Covers.accessMember (I := { I with facts }) access receiverTy ty span
      hv).nil_bind fun extracted => (checkPattern ty span And.right p).bind fun _ =>
        checkSubPatterns receiverTy (fun h => hv h.1.1) rest

theorem checkComponents {a : Point} {c : Setting} {pre : Prop} (span : Span)
    {outcome : Option Outcome}
    (ho : pre → ∃ out, outcome = some out ∧ out.result.isInvalid = false) :
    (subs : List Pattern) → (tys : List TypeRef) → subs.length ≤ tys.length →
    Heeds I a c pre (Site.ofComponents a tys subs) (TypedPart.ofPatterns I.env.member c subs)
      (fun _ => True) (Walk.checkComponents I.env outcome span subs tys)
  | [], tys, _ => by
    rw [Site.ofComponents, TypedPart.ofPatterns, Walk.checkComponents.eq_def]
    exact .pure fun _ => trivial
  | p :: rest, [], h => absurd h (by simp)
  | p :: rest, ty :: tys, h => by
    rw [Site.ofComponents, TypedPart.ofPatterns, Walk.checkComponents]
    exact (stackOnly ty).nil_bind fun so =>
      (checkPattern ty span (fun h => Covers.componentPair_isInvalid _ (ho h.1)) p).bind fun _ =>
        checkComponents span (fun h => ho h.1.1) rest tys (Nat.le_of_succ_le_succ h)

theorem checkLocal {a : Point} {c : Setting} {pre : Prop} : (decl : LocalDecl) →
    Heeds I a c pre (Site.ofLocal a decl)
      (TypedPart.ofLocal I.env.member c decl ++ [⟨c, .binding, decl.ty⟩]) (fun _ => True)
      (Walk.checkLocal I.env true decl)
  | ⟨name, ty, refKind, isScoped, init, span⟩ => by
    rw [Site.ofLocal, TypedPart.ofLocal, Walk.checkLocal]
    exact (checkShape ty span).bind fun w => (checkInit init).bind_step fun pair =>
      declareLocal ⟨name, ty, refKind, isScoped, init, span⟩ (fun h => h.1.2) fun h => h.2

theorem checkResource {a : Point} {c : Setting} {pre : Prop} (reportAsync : Bool) :
    (decl : LocalDecl) →
    Heeds I a c pre (Site.ofLocal a decl) (TypedPart.ofLocal I.env.member c decl) (fun _ => True)
      (Walk.checkLocal I.env reportAsync decl)
  | ⟨name, ty, refKind, isScoped, init, span⟩ => by
    rw [Site.ofLocal, TypedPart.ofLocal, Walk.checkLocal]
    exact (checkShape ty span).bind fun w => (checkInit init).bind_nil fun pair =>
      silent fun facts => Covers.declareLocal (I := { I with facts })
        ⟨name, ty, refKind, isScoped, init, span⟩ reportAsync (fun h => h.1.2) fun h => h.2

theorem checkInit {a : Point} {c : Setting} {pre : Prop} : (init : Option Expr) →
    Heeds I a c pre (Site.ofOptional a init) (TypedPart.ofOptional I.env.member c init)
      (fun r => ∀ pair, r = some pair → pair.isInvalid = false) (Walk.checkInit I.env init)
  | none => by
    rw [Site.ofOptional, TypedPart.ofOptional, Walk.checkInit]
    exact .pure fun _ => by simp
  | some e => by
    rw [Site.ofOptional, TypedPart.ofOptional, Walk.checkInit]
    refine (checkExpr e).bind_nil fun pair => .pure fun h p hp => ?_
    obtain rfl := Option.some.inj hp
    exact h.2

theorem checkStmts {a : Point} {c : Setting} {pre : Prop} : (stmts : List Stmt) →
    Heeds I a c pre (Site.ofStmts a stmts) (TypedPart.ofStmts I.env.member c stmts)
      (fun _ => True) (Walk.checkStmts I.env stmts)
  | [] => by
    rw [Site.ofStmts, TypedPart.ofStmts, Walk.checkStmts]
    exact .pure fun _ => trivial
  | s :: rest => by
    rw [Site.ofStmts, TypedPart.ofStmts, Walk.checkStmts]
    exact (checkStmt s).bind fun _ => checkStmts rest

theorem checkStmt {a : Point} {c : Setting} {pre : Prop} : (s : Stmt) →
    Heeds I a c pre (Site.ofStmt a s) (TypedPart.ofStmt I.env.member c s) (fun _ => True)
      (Walk.checkStmt I.env s)
  | ⟨_, .expr e, _⟩ => by
    rw [Site.ofStmt, TypedPart.ofStmt, Walk.checkStmt]
    exact (checkExpr e).discard.among (List.subset_cons_self _ _)
  | ⟨_, .yieldReturn e, _⟩ => by
    rw [Site.ofStmt, TypedPart.ofStmt, Walk.checkStmt]
    exact (checkExpr e).discard.among (List.subset_cons_self _ _)
  | ⟨_, .declare decl, _⟩ => by
    rw [Site.ofStmt, TypedPart.ofStmt, Walk.checkStmt]
    exact (checkLocal decl).among (List.subset_cons_self _ _)
  | ⟨id, .assign ⟨tid, kind, ty, tspan⟩ value byRef, span⟩ => by
    have main : Heeds I a c pre (Site.ofExpr a ⟨tid, kind, ty, tspan⟩ ++ Site.ofExpr a value)
        (TypedPart.ofExpr I.env.member c ⟨tid, kind, ty, tspan⟩ ++
          TypedPart.ofExpr I.env.member c value) (fun _ => True)
        (Walk.checkExpr I.env ⟨tid, kind, ty, tspan⟩ >>= fun t =>
          Walk.checkExpr I.env value >>= fun v =>
            Walk.checkAssignment I.env ⟨tid, kind, ty, tspan⟩ value byRef t v) :=
      (checkExpr ⟨tid, kind, ty, tspan⟩).bind fun t => (checkExpr value).bind_nil fun v =>
        silent fun facts => (Covers.checkAssignment (I := { I with facts }) _ value byRef
          fun h => ⟨h.1.2, h.2⟩).weaken fun _ _ _ => trivial
    cases kind
    case property receiver getter args =>
      cases byRef with
      | true => exact main.among (List.subset_cons_self _ _)
      | false =>
        rw [Site.ofStmt, TypedPart.ofStmt, Walk.checkStmt]
        exact ((checkReceiver receiver).bind fun r => (checkArgs args).bind fun ops =>
          (operandOf value .none (checkExpr value)).bind_step fun op =>
            (invokeRef .void span (fun h => (isArgs_append h.1.2 h.2).2) fun h =>
              operands_isInvalid h.1.1.2 (isArgs_append h.1.2 h.2)).discard).among
                (List.subset_cons_self _ _)
    all_goals exact main.among (List.subset_cons_self _ _)
  | ⟨_, .ret none, _⟩ => by
    rw [TypedPart.ofStmt, Walk.checkStmt]
    exact (pure fun _ => trivial).among (List.nil_subset _)
  | ⟨_, .ret (some value), _⟩ => by
    rw [Site.ofStmt, TypedPart.ofStmt, Walk.checkStmt]
    exact ((checkExpr value).bind_nil fun pair => silent fun facts =>
      (Covers.checkReturned (I := { I with facts }) value And.right).weaken
        fun _ _ _ => trivial).among (List.subset_cons_self _ _)
  | ⟨_, .block body, _⟩ => by
    rw [Site.ofStmt, TypedPart.ofStmt, Walk.checkStmt]
    exact (block (checkStmts body)).among (List.subset_cons_self _ _)
  | ⟨_, .ifElse cond thenBranch elseBranch, _⟩ => by
    rw [Site.ofStmt, TypedPart.ofStmt, Walk.checkStmt]
    exact ((checkExpr cond).discard.bind fun _ => (block (checkStmts thenBranch)).bind fun _ =>
      checkElse elseBranch).among (List.subset_cons_self _ _)
  | ⟨_, .whileLoop cond body, _⟩ => by
    rw [Site.ofStmt, TypedPart.ofStmt, Walk.checkStmt]
    exact ((checkExpr cond).discard.bind fun _ => block (checkStmts body)).among
      (List.subset_cons_self _ _)
  | ⟨_, .foreach loop, span⟩ => by
    rw [Site.ofStmt, TypedPart.ofStmt, Walk.checkStmt]
    exact (checkForeach span loop).among (List.subset_cons_self _ _)
  | ⟨_, .using region, span⟩ => by
    rw [Site.ofStmt, TypedPart.ofStmt, Walk.checkStmt]
    exact (checkUsing span region).among (List.subset_cons_self _ _)
  | ⟨id, .localFunction decl, span⟩ => by
    rw [Site.ofStmt, TypedPart.ofStmt, Walk.checkStmt]
    exact checkLocalFunction id span decl

theorem checkElse {a : Point} {c : Setting} {pre : Prop} : (branch : Option (List Stmt)) →
    Heeds I a c pre (Site.ofElse a branch) (TypedPart.ofElse I.env.member c branch) (fun _ => True)
      (Walk.checkElse I.env branch)
  | none => by
    rw [Site.ofElse, TypedPart.ofElse, Walk.checkElse]
    exact .pure fun _ => trivial
  | some body => by
    rw [Site.ofElse, TypedPart.ofElse, Walk.checkElse]
    exact block (checkStmts body)

theorem checkForeach {a : Point} {c : Setting} {pre : Prop} (span : Span) : (loop : ForeachStmt) →
    Heeds I a c pre (Site.ofForeach a loop) (TypedPart.ofForeach I.env.member c loop)
      (fun _ => True) (Walk.checkForeach I.env span loop)
  | ⟨binding, byRef, collection, enumerator, isAwait, body⟩ => by
    have hc : Heeds I a c pre (Site.ofExpr a collection)
        (TypedPart.ofExpr I.env.member c collection) (fun pair => pair.isInvalid = false)
        (Walk.checkExpr I.env collection) := checkExpr collection
    have hm (pre' : Prop) (element : ScopePair) (hv : pre' → element.isInvalid = false) :
        Heeds I a c pre' (Site.ofPattern a enumerator.elementTy binding)
          (TypedPart.ofPattern I.env.member c binding) (fun _ => True)
          (Walk.checkPattern I.env element enumerator.elementTy span binding) :=
      checkPattern enumerator.elementTy span hv binding
    have hb : Heeds I (a.block body) c True (Site.ofStmts (a.block body) body)
        (TypedPart.ofStmts I.env.member c body) (fun _ => True) (Walk.checkStmts I.env body) :=
      checkStmts body
    rw [Walk.checkForeach]
    -- The parts of the pattern depend on its form.
    cases binding <;> simp only [Site.ofForeach, TypedPart.ofForeach] <;>
      exact hc.bind fun pair => foreachOver ⟨_, byRef, collection, enumerator, isAwait, body⟩ span
        And.right hm hb

theorem checkUsing {a : Point} {c : Setting} {pre : Prop} (span : Span) : (region : UsingStmt) →
    Heeds I a c pre (Site.ofUsing a region) (TypedPart.ofUsing I.env.member c region)
      (fun _ => True) (Walk.checkUsing I.env span region)
  | ⟨.expr e, dispose, isAwait, body⟩ => by
    rw [Site.ofUsing, TypedPart.ofUsing, Walk.checkUsing]
    exact scope rfl ((checkExpr e).bind fun pair => (stackOnly e.ty).nil_bind fun so =>
      usingOver ⟨.expr e, dispose, isAwait, body⟩ e.ty span (fun h => h.1.2) (fun h => h.2)
        (checkStmts body))
  | ⟨.declare ⟨name, ty, refKind, isScoped, init, dspan⟩, dispose, isAwait, body⟩ => by
    rw [Site.ofUsing, TypedPart.ofUsing, Walk.checkUsing]
    refine scope rfl ((stackOnly ty).nil_bind fun so => ?_)
    rw [← bind_assoc]
    have hinit : Covers I a True (Site.ofOptional a init) _ (Walk.checkInit I.env init) :=
      Covers.checkInit init
    refine (thenResource ⟨name, ty, refKind, isScoped, init, dspan⟩ (checkResource (!so)
      ⟨name, ty, refKind, isScoped, init, dspan⟩) fun hsub s hs h => ?_).bind fun op => ?_
    · rw [Site.ofLocal] at hsub
      exact Covers.exists_lookup_checkLocal _ _ _ _ _ _ (hinit.proper hsub) hs h
    · exact usingOver
        ⟨.declare ⟨name, ty, refKind, isScoped, init, dspan⟩, dispose, isAwait, body⟩ ty span
        (fun h => h.2.1) (fun h => h.2.2) (checkStmts body)

theorem checkLocalFunction {a : Point} {c : Setting} {pre : Prop} (id : NodeId) (span : Span) :
    (decl : FnDecl) →
    Heeds I a c pre (⟨a, .stmt ⟨id, .localFunction decl, span⟩⟩ :: Site.ofLocalFunction a decl)
      (TypedPart.ofLocalFunction I.env.member c decl) (fun _ => True)
      (Walk.checkLocalFunction I.env decl)
  | ⟨fid, name, kind, modifiers, typeParams, params, ret, attrs, explicitImpl, overrides, body,
      fspan⟩ => by
    let decl : FnDecl := ⟨fid, name, kind, modifiers, typeParams, params, ret, attrs, explicitImpl,
      overrides, body, fspan⟩
    have hcovers : Covers I a False
        (⟨a, .stmt ⟨id, .localFunction decl, span⟩⟩ :: Site.ofLocalFunction a decl) _
        (Walk.checkLocalFunction I.env decl) := Covers.checkLocalFunction id span decl
    have hdirect (hsub : Site.ofLocalFunction a decl ⊆ I.env.member.sites) :
        ∀ d ∈ directFunctions (decl.body.getD []), d ∈ I.env.member.localFunctions := by
      rw [Site.ofLocalFunction] at hsub
      cases body with
      | none => exact fun d hd => absurd hd List.not_mem_nil
      | some stmts =>
        rw [Site.ofBody] at hsub
        exact Covers.mem_localFunctions_of_direct hsub
    rw [Site.ofLocalFunction, Walk.checkLocalFunction] at hcovers
    rw [Site.ofLocalFunction, TypedPart.ofLocalFunction, Walk.checkLocalFunction]
    refine (localFunctionOver (fun hsub => ?_)
      (fun hsub => hdirect (List.cons_subset.1 hsub).2) hcovers.proper
      ((checkBody body).among (List.subset_cons_self _ _))).result _ _
    exact List.mem_filterMap.2 ⟨_, hsub (List.mem_cons_self ..), rfl⟩

theorem checkBody {a : Point} {c : Setting} {pre : Prop} : (body : Option (List Stmt)) →
    Heeds I a c pre (Site.ofBody a body) (TypedPart.ofBody I.env.member c body) (fun _ => True)
      (Walk.checkBody I.env body)
  | none => by
    rw [Site.ofBody, TypedPart.ofBody, Walk.checkBody]
    exact .pure fun _ => trivial
  | some body => by
    rw [Site.ofBody, TypedPart.ofBody, Walk.checkBody]
    exact checkStmts body

end

end Walk.Heeds

/-! ## Programs -/

namespace Program

variable {p : Program} {m : Member} {body : List Stmt} {before : List Member} {strict : Prop}

/-- One of some members is walked after others, and what its walk reports and files is kept. -/
theorem walked_checkMembers {runtime : Bool} {T : Tables} {ms : List Member} (hm : m ∈ ms)
    (hbody : m.decl.body = some body) : ∃ before ⊆ ms,
      let s := p.walkMember runtime (p.checkMembers runtime T before).2 m body
      s.errors ⊆ (p.checkMembers runtime T ms).1.errors ∧
        s.tables.caps.Within (p.checkMembers runtime T ms).2.caps := by
  induction ms generalizing T with
  | nil => exact absurd hm List.not_mem_nil
  | cons n ms ih =>
    obtain ⟨herrors, _, htables⟩ := checkMembers_cons (p := p) T n ms
    rw [herrors, htables]
    rcases List.mem_cons.1 hm with rfl | hm
    · refine ⟨[], List.nil_subset _, ?_⟩
      rw [checkMember_of_some hbody]
      exact ⟨List.subset_append_left _ _, (passes_checkMembers p runtime _ ms).1⟩
    · obtain ⟨before, hbefore, hrest⟩ := ih (T := (p.checkMember runtime T n).2) hm
      refine ⟨n :: before, List.cons_subset_cons _ hbefore, ?_⟩
      rw [(checkMembers_cons (p := p) T n before).2.2]
      exact ⟨fun e he => List.mem_append_right _ (hrest.1 he), hrest.2⟩

/-- If a run finds no error, the walk over a body finds none, and what it files is filed at the end. -/
theorem walked_of_isOk (hok : (p.analyze {}).isOk = true) (hm : m ∈ p.members)
    (hbody : m.decl.body = some body) : ∃ before ⊆ p.members,
      let s := p.walkMember true (p.checkMembers true (p.declaredTables true) before).2 m body
      s.errors = [] ∧ s.tables.caps.Within (p.analyze {}).tables.caps := by
  have hmem : m ∈ p.bodies := List.mem_filter.2 ⟨hm, by rw [hbody]; rfl⟩
  obtain ⟨before, hbefore, herrors, hcaps⟩ := walked_checkMembers
    (T := p.declaredTables true) hmem hbody
  rw [analyze_default] at hok ⊢
  simp only [Analysis.isOk, Bool.and_eq_true, List.isEmpty_iff, List.append_eq_nil_iff] at hok
  have hnone : (p.checkMembers true (p.declaredTables true) p.bodies).1.errors = [] := hok.2.2
  rw [hnone] at herrors
  exact ⟨before, fun x hx => List.mem_of_mem_filter (hbefore hx), List.subset_nil.1 herrors, hcaps⟩

/-- What types mean in a member when the run is over. -/
def typesIn (p : Program) (m : Member) (c : Setting) : TypeEnv :=
  c.types ⟨p, m, true⟩ (p.analyze {}).tables.caps

/-- The body of a member, measured against the declarations. -/
def bodyInspection (p : Program) (m : Member) (strict : Prop) : Inspection :=
  ⟨⟨p, m, true⟩, (p.declaredTables true).caps, .empty, strict⟩

theorem orderly_bodyInspection (hreg : p.RegularPatterns) (hkeys : strict → p.DistinctKeys)
    (hplain : strict → p.PlainLocalFunctions) (hm : m ∈ p.members) :
    (p.bodyInspection m strict).Orderly :=
  ⟨hm, hreg m hm, fun hst => hplain hst m hm, hkeys⟩

/-- Where the walk over the statements of a member starts, all type parameters are filed. -/
theorem sees_bodyEntry (hparts : p.AlignedParts) (hkeys : strict → p.DistinctKeys)
    (hplain : strict → p.PlainLocalFunctions) (hm : m ∈ p.members) (hbefore : before ⊆ p.members)
    (hbody : m.decl.body = some body) :
    (p.bodyInspection m strict).Sees .anything m.innerScope
      (p.bodyEntry true (p.checkMembers true (p.declaredTables true) before).2 m body) := by
  have hbind := progress_bindMember p true
    (p.checkMembers true (p.declaredTables true) before).2 m
  have hfiled : (p.checkDeclarations true .empty).1.Within
      (p.bodyEntry true (p.checkMembers true (p.declaredTables true) before).2 m body).tables.caps :=
    (passes_checkMembers p true (p.declaredTables true) before).1.trans hbind.before.within
  refine ⟨placed_bodyEntry p true _ hbody, hbind.generics,
    (filed_innerScope hparts true hm).within hfiled,
    (entered_checkDeclarations hparts true).within hfiled, fun hst => ?_, fun h => nomatch h⟩
  exact (exact_checkMembers (hkeys hst) (hplain hst) true (.empty p _) hbefore).steps (hkeys hst) hm
    (hplain hst m hm) ((Relation.ReflTransGen.single (.member hm _)).trans hbind.tables)

/-- The walk over the statements of a member heeds the parts of its body. -/
theorem heeds_body {I : Inspection} (hbody : I.env.member.decl.body = some body) :
    Walk.Heeds I (.ofMember I.env.member body) I.env.member.setting True I.env.member.sites
      (TypedPart.ofStmts I.env.member I.env.member.setting body) (fun _ => True)
      (Walk.checkStmts I.env body) := by
  rw [sites_eq_of_body hbody]
  exact Walk.Heeds.checkStmts body

/-- If a run finds no error, all parts of bodies are heeded, at any depth. -/
theorem heeded_of_isOk (hparts : p.AlignedParts) (hreg : p.RegularPatterns)
    (hkeys : strict → p.DistinctKeys) (hplain : strict → p.PlainLocalFunctions)
    (hok : (p.analyze {}).isOk = true) (hm : m ∈ p.members) :
    ∀ x ∈ TypedPart.ofBody m m.setting m.decl.body,
      x.Heeded (p.bodyInspection m strict) .anything (p.analyze {}).tables.caps := by
  cases hbody : m.decl.body with
  | none => exact fun x hx => absurd hx List.not_mem_nil
  | some body =>
    obtain ⟨before, hbefore, herrors, hcaps⟩ := walked_of_isOk hok hm hbody
    rw [walkMember_eq] at herrors hcaps
    have hnone := (progress_body p true (p.checkMembers true (p.declaredTables true) before).2
      hbody).errors_eq_nil (by rw [walkMember_eq]; exact herrors)
    rw [TypedPart.ofBody]
    exact (heeds_body (I := p.bodyInspection m strict) hbody).heeds
      (List.Subset.refl _) (orderly_bodyInspection hreg hkeys hplain hm) .anything _ _
      (sees_bodyEntry hparts hkeys hplain hm hbefore hbody)
      ⟨[], by rw [hnone]; exact herrors, by simp⟩ hcaps

end Program

end StackEscape
