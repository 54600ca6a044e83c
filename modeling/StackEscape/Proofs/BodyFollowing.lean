import StackEscape.Proofs.FollowingRules

/-!
# Two runs over a body

The walk over a body with other `scoped` modifiers follows the walk over the body: an induction over
the tree, with one case for each form.

## Main results

* `StackEscape.Walk.Follows.checkExpr`, `checkPattern`, `checkStmts` — the walks over a part of the
  tree and over the changed part.
-/

set_option autoImplicit false

namespace StackEscape

namespace Walk.Follows

variable {tight : Bool} {env env' : Surroundings}

mutual

theorem checkExpr (he : env.Follows tight env') {σ : Rescoping} (hσ : σ.Fits tight) :
    (e : Expr) → Follows tight (ScopePair.Follows tight) (Walk.checkExpr env e)
      (Walk.checkExpr env' (σ.expr e))
  | ⟨id, kind, ty, span⟩ => by
    rw [Rescoping.expr, Walk.checkExpr, Walk.checkExpr]
    refine look fun s t hst => ?_
    rw [hst.ctx.inExpressionTree, hst.stackOnly he]
    refine ite Iff.rfl (fun _ => ?_) fun _ => ?_
    · exact (report _ _).bind_eq fun _ => (record id (.refl tight _)).bind_eq fun _ =>
        pure (.refl tight _)
    · exact (checkForm he hσ id ty span kind).bind fun a b hab =>
        (record id hab).bind_eq fun _ => pure hab

theorem checkForm (he : env.Follows tight env') {σ : Rescoping} (hσ : σ.Fits tight) (id : NodeId)
    (ty : TypeRef) (span : Span) : (kind : ExprKind) →
    Follows tight (ScopePair.Follows tight) (Walk.checkForm env id ty span kind)
      (Walk.checkForm env' id ty span (σ.exprKind kind))
  | .literal _ => by
    rw [Rescoping.exprKind, Walk.checkForm, Walk.checkForm]
    exact pure (.refl tight _)
  | .var name => by
    rw [Rescoping.exprKind, Walk.checkForm, Walk.checkForm]
    exact readVariable he name span
  | .thisRef => by
    rw [Rescoping.exprKind, Walk.checkForm, Walk.checkForm]
    exact readThis he span
  | .field receiver owner name => by
    rw [Rescoping.exprKind, Walk.checkForm, Walk.checkForm]
    refine (checkOptional he hσ receiver).bind fun r r' hr => look fun s t hst => ?_
    rw [hst.fieldPair he]
    exact pure ((s.types env).fieldPair_follows hr owner name ty)
  | .property receiver getter args => by
    rw [Rescoping.exprKind, Walk.checkForm, Walk.checkForm]
    exact (checkReceiver he (hσ.part 0) receiver).bind fun r r' hr =>
      (checkArgs he (hσ.part 1) args).bind fun ops ops' hops => readProperty he getter hr hops ty span
  | .call receiver method typeArgs args => by
    rw [Rescoping.exprKind, Walk.checkForm, Walk.checkForm]
    refine (checkReceiver he (hσ.part 0) receiver).bind fun r r' hr =>
      (checkArgs he (hσ.part 1) args).bind fun ops ops' hops =>
        (resolve he method span).bind fun callee callee' hcallee => ?_
    cases hcallee with
    | none => exact pure (.refl tight _)
    | some h =>
      exact (checkTypeArgs he h typeArgs span).bind_eq fun _ =>
        (invoke he h.contract hr hops ty span).bind fun o o' ho => pure ho.result
  | .create ctor args => by
    rw [Rescoping.exprKind, Walk.checkForm, Walk.checkForm]
    refine (checkShape he ty span).bind_eq fun wellFormed =>
      (checkArgs he hσ args).bind fun ops ops' hops =>
        ite Iff.rfl (fun _ => pure (.refl tight _)) fun _ => ?_
    cases ctor with
    | none => exact pure (.refl tight _)
    | some ctor => exact invokeRef he ctor .none hops ty span
  | .stackAlloc _ len => by
    rw [Rescoping.exprKind, Walk.checkForm, Walk.checkForm]
    exact (checkExpr he hσ len).discard.bind_eq fun _ => (stackOnly he ty).bind_eq fun _ =>
      pure (.refl tight _)
  | .conditional cond thenExpr elseExpr byRef => by
    rw [Rescoping.exprKind, Walk.checkForm, Walk.checkForm]
    refine (checkExpr he (hσ.part 0) cond).discard.bind_eq fun _ =>
      (checkExpr he (hσ.part 1) thenExpr).bind fun a a' ha =>
        (checkExpr he (hσ.part 2) elseExpr).bind fun b b' hb =>
          (stackOnly he ty).bind_eq fun stackOnly => pure ?_
    have hboth := ha.narrower hb
    exact ⟨hboth.isInvalid, fun ht => Level.ite_mono _ (hboth.value ht) (Level.le_refl _),
      fun ht => Level.ite_mono _ (hboth.ref ht) (Level.le_refl _)⟩
  | .convert operand _ => by
    rw [Rescoping.exprKind, Walk.checkForm, Walk.checkForm]
    refine (checkExpr he hσ operand).bind fun a b hab => (checkShape he ty span).bind_eq
      fun wellFormed => ite Iff.rfl (fun _ => pure (.refl tight _)) fun _ => look fun s t hst => ?_
    dsimp only
    rw [TypeEnv.conversionError_congr (hst.capability he), Rescoping.expr_ty, hst.stackOnly he]
    refine (passes _ span).bind_eq fun ok => ite Iff.rfl (fun _ => pure ?_) fun _ =>
      pure (.refl tight _)
    split
    · exact hab.withRef _
    · exact .refl tight _
  | .binary op left right => by
    rw [Rescoping.exprKind, Walk.checkForm, Walk.checkForm]
    refine (checkExpr he (hσ.part 0) left).bind fun l l' hl =>
      (checkExpr he (hσ.part 1) right).bind fun r r' hr =>
        ite (by rw [hl.isInvalid, hr.isInvalid]) (fun _ => pure (.refl tight _)) fun _ =>
          look fun s t hst => ?_
    dsimp only
    rw [TypeEnv.binaryVerdict_congr (hst.capability he), TypeEnv.binaryVerdict_expr]
    exact (settle id span _).bind_eq fun _ => pure (.refl tight _)
  | .test operand pattern => by
    rw [Rescoping.exprKind, Walk.checkForm, Walk.checkForm]
    refine (checkExpr he (hσ.part 0) operand).bind fun a b hab => look fun s t hst => ?_
    dsimp only
    rw [TypeEnv.testVerdict_congr (hst.capability he), Rescoping.expr_ty,
      TypeEnv.testVerdict_pattern]
    refine (settle id span _).bind_eq fun ok => ite Iff.rfl (fun _ => ?_) fun _ =>
      pure (.refl tight _)
    exact (checkPattern he (hσ.part 1) hab operand.ty span pattern).bind_eq fun _ =>
      pure (.refl tight _)
  | .lambda fn => by
    rw [Rescoping.exprKind, Walk.checkForm, Walk.checkForm]
    exact (checkLambda he hσ fn).bind_eq fun _ => pure (.refl tight _)
  | .arrayNew _ elems => by
    rw [Rescoping.exprKind, Walk.checkForm, Walk.checkForm]
    exact (checkShape he ty span).bind_eq fun _ => (checkAll he hσ elems).bind_eq fun _ =>
      pure (.refl tight _)
  | .anonymous members => by
    rw [Rescoping.exprKind, Walk.checkForm, Walk.checkForm]
    exact (checkMembers he hσ members).bind_eq fun _ => pure (.refl tight _)
  | .await operand => by
    rw [Rescoping.exprKind, Walk.checkForm, Walk.checkForm]
    exact (checkExpr he hσ operand).discard.bind_eq fun _ => pure (.refl tight _)
  | .dynamicInvoke receiver _ args => by
    rw [Rescoping.exprKind, Walk.checkForm, Walk.checkForm]
    refine (checkExpr he (hσ.part 0) receiver).discard.bind_eq fun _ =>
      (checkValues he (hσ.part 1) args).bind_eq fun _ => look fun s t hst => ?_
    have herrors : (t.types env').dynamicErrors
        ((σ.part 0).expr receiver :: ((σ.part 1).args args).map Arg.expr) =
          (s.types env).dynamicErrors (receiver :: args.map Arg.expr) := by
      rw [TypeEnv.dynamicErrors_congr (hst.capability he), TypeEnv.dynamicErrors_cons,
        TypeEnv.dynamicErrors_expr, TypeEnv.dynamicErrors_args, ← TypeEnv.dynamicErrors_cons]
    dsimp only
    rw [herrors]
    exact (reportAll rfl).bind_eq fun _ => pure (.refl tight _)
  | .outVar _ => by
    rw [Rescoping.exprKind, Walk.checkForm, Walk.checkForm]
    exact pure (.refl tight _)

theorem checkOptional (he : env.Follows tight env') {σ : Rescoping} (hσ : σ.Fits tight) :
    (receiver : Option Expr) →
    Follows tight (Option.Rel fun x y => x.1.Follows tight y.1 ∧ y.2 = x.2)
      (Walk.checkOptional env receiver) (Walk.checkOptional env' (σ.optional receiver))
  | none => by
    rw [Rescoping.optional, Walk.checkOptional, Walk.checkOptional]
    exact pure .none
  | some e => by
    rw [Rescoping.optional, Walk.checkOptional, Walk.checkOptional, Rescoping.expr_ty]
    exact (checkExpr he hσ e).bind fun a b hab => pure (.some ⟨hab, rfl⟩)

theorem checkReceiver (he : env.Follows tight env') {σ : Rescoping} (hσ : σ.Fits tight) :
    (receiver : Option Expr) →
    Follows tight (Option.Rel (Operand.Follows tight)) (Walk.checkReceiver env receiver)
      (Walk.checkReceiver env' (σ.optional receiver))
  | none => by
    rw [Rescoping.optional, Walk.checkReceiver, Walk.checkReceiver]
    exact pure .none
  | some e => by
    rw [Rescoping.optional, Walk.checkReceiver, Walk.checkReceiver]
    exact (operandOf he σ e .none (checkExpr he hσ e)).bind fun op op' hop => pure (.some hop)

theorem checkArgs (he : env.Follows tight env') {σ : Rescoping} (hσ : σ.Fits tight) :
    (args : List Arg) →
    Follows tight (List.Forall₂ (Operand.Follows tight)) (Walk.checkArgs env args)
      (Walk.checkArgs env' (σ.args args))
  | [] => by
    rw [Rescoping.args, Walk.checkArgs, Walk.checkArgs]
    exact pure .nil
  | ⟨mode, e⟩ :: rest => by
    rw [Rescoping.args, Walk.checkArgs, Walk.checkArgs]
    exact (operandOf he _ e mode (checkExpr he (hσ.part 0) e)).bind fun op op' hop =>
      (checkArgs he (hσ.part 1) rest).bind fun ops ops' hops => pure (.cons hop hops)

theorem checkValues (he : env.Follows tight env') {σ : Rescoping} (hσ : σ.Fits tight) :
    (args : List Arg) →
    Follows tight Eq (Walk.checkValues env args) (Walk.checkValues env' (σ.args args))
  | [] => by
    rw [Rescoping.args, Walk.checkValues, Walk.checkValues]
    exact pure rfl
  | ⟨_, e⟩ :: rest => by
    rw [Rescoping.args, Walk.checkValues, Walk.checkValues]
    exact (checkExpr he (hσ.part 0) e).discard.bind_eq fun _ => checkValues he (hσ.part 1) rest

theorem checkAll (he : env.Follows tight env') {σ : Rescoping} (hσ : σ.Fits tight) :
    (elems : List Expr) →
    Follows tight Eq (Walk.checkAll env elems) (Walk.checkAll env' (σ.exprs elems))
  | [] => by
    rw [Rescoping.exprs, Walk.checkAll, Walk.checkAll]
    exact pure rfl
  | e :: rest => by
    rw [Rescoping.exprs, Walk.checkAll, Walk.checkAll]
    exact (checkExpr he (hσ.part 0) e).discard.bind_eq fun _ => checkAll he (hσ.part 1) rest

theorem checkMembers (he : env.Follows tight env') {σ : Rescoping} (hσ : σ.Fits tight) :
    (members : List NamedExpr) →
    Follows tight Eq (Walk.checkMembers env members)
      (Walk.checkMembers env' (σ.namedExprs members))
  | [] => by
    rw [Rescoping.namedExprs, Walk.checkMembers, Walk.checkMembers]
    exact pure rfl
  | ⟨name, e⟩ :: rest => by
    rw [Rescoping.namedExprs, Walk.checkMembers, Walk.checkMembers, Rescoping.expr_ty,
      Rescoping.expr_span]
    refine (checkExpr he (hσ.part 0) e).bind fun a b hab => (stackOnly he e.ty).bind_eq
      fun stackOnly => ?_
    rw [hab.isInvalid]
    exact (passes _ _).bind_eq fun ok => (checkMembers he (hσ.part 1) rest).bind_eq fun restOk =>
      pure rfl

theorem checkLambda (he : env.Follows tight env') {σ : Rescoping} (hσ : σ.Fits tight) :
    (fn : Lambda) →
    Follows tight Eq (Walk.checkLambda env fn) (Walk.checkLambda env' (σ.lambda fn))
  | ⟨params, retTy, body, isExpressionTree, isStatic, isAsync⟩ => by
    rw [Rescoping.lambda, Walk.checkLambda, Walk.checkLambda]
    have h := lambdaOver he hσ ⟨params, retTy, body, isExpressionTree, isStatic, isAsync⟩
      (checkStmts he (hσ.part 1) body)
    rwa [Rescoping.lambda] at h

theorem checkPattern (he : env.Follows tight env') {σ : Rescoping} (hσ : σ.Fits tight)
    {a b : ScopePair} (h : a.Follows tight b) (inputTy : TypeRef) (span : Span) :
    (p : Pattern) → Follows tight Eq (Walk.checkPattern env a inputTy span p)
      (Walk.checkPattern env' b inputTy span (σ.pattern p))
  | .discard => by
    rw [Rescoping.pattern, Walk.checkPattern, Walk.checkPattern]
    exact pure rfl
  | .typeTest _ => by
    rw [Rescoping.pattern, Walk.checkPattern, Walk.checkPattern]
    exact pure rfl
  | .declaration name ty span => by
    rw [Rescoping.pattern, Walk.checkPattern, Walk.checkPattern]
    exact bindPattern he name ty h span
  | .constant e => by
    rw [Rescoping.pattern, Walk.checkPattern, Walk.checkPattern]
    exact (checkExpr he hσ e).discard
  | .property ty subpatterns => by
    rw [Rescoping.pattern, Walk.checkPattern, Walk.checkPattern]
    exact checkSubPatterns he hσ h (ty.getD inputTy) subpatterns
  | .positional deconstruct subpatterns componentTys => by
    rw [Rescoping.pattern, Walk.checkPattern, Walk.checkPattern]
    exact (deconstructInput he deconstruct componentTys h inputTy span).bind fun o o' ho =>
      checkComponents he hσ ho span subpatterns componentTys
  | .negated inner => by
    rw [Rescoping.pattern, Walk.checkPattern, Walk.checkPattern]
    exact checkPattern he hσ h inputTy span inner

theorem checkSubPatterns (he : env.Follows tight env') {σ : Rescoping} (hσ : σ.Fits tight)
    {a b : ScopePair} (h : a.Follows tight b) (receiverTy : TypeRef) :
    (subs : List SubPattern) →
    Follows tight Eq (Walk.checkSubPatterns env a receiverTy subs)
      (Walk.checkSubPatterns env' b receiverTy (σ.subPatterns subs))
  | [] => by
    rw [Rescoping.subPatterns, Walk.checkSubPatterns, Walk.checkSubPatterns]
    exact pure rfl
  | ⟨access, ty, pattern, span⟩ :: rest => by
    rw [Rescoping.subPatterns, Walk.checkSubPatterns, Walk.checkSubPatterns]
    exact (accessMember he access h receiverTy ty span).bind fun x y hxy =>
      (checkPattern he (hσ.part 0) hxy ty span pattern).bind_eq fun _ =>
        checkSubPatterns he (hσ.part 1) h receiverTy rest

theorem checkComponents (he : env.Follows tight env') {σ : Rescoping} (hσ : σ.Fits tight)
    {o o' : Option Outcome} (ho : Option.Rel (Outcome.Follows tight) o o') (span : Span) :
    (subs : List Pattern) → (tys : List TypeRef) →
    Follows tight Eq (Walk.checkComponents env o span subs tys)
      (Walk.checkComponents env' o' span (σ.patterns subs) tys)
  | [], tys => by
    rw [Rescoping.patterns, Walk.checkComponents.eq_def, Walk.checkComponents.eq_def]
    exact pure rfl
  | p :: rest, [] => by
    rw [Rescoping.patterns, Walk.checkComponents.eq_def, Walk.checkComponents.eq_def]
    exact pure rfl
  | p :: rest, ty :: tys => by
    rw [Rescoping.patterns, Walk.checkComponents, Walk.checkComponents]
    exact (stackOnly he ty).bind_eq fun stackOnly =>
      (checkPattern he (hσ.part 0) (componentPair_follows ho stackOnly) ty span p).bind_eq fun _ =>
        checkComponents he (hσ.part 1) ho span rest tys

theorem checkLocal (he : env.Follows tight env') {σ : Rescoping} (hσ : σ.Fits tight)
    (reportAsync : Bool) : (decl : LocalDecl) →
    Follows tight Eq (Walk.checkLocal env reportAsync decl)
      (Walk.checkLocal env' reportAsync (σ.localDecl decl))
  | ⟨name, ty, refKind, isScoped, init, span⟩ => by
    rw [Rescoping.localDecl, Walk.checkLocal, Walk.checkLocal]
    refine (checkShape he ty span).bind_eq fun wellFormed =>
      (checkInit he (hσ.part 0) init).bind fun a b hab =>
        declareLocal he wellFormed reportAsync rfl rfl rfl rfl (fun ht hs => ?_) hab
    obtain rfl : isScoped = true := hs
    exact (hσ ht).localAt []

theorem checkInit (he : env.Follows tight env') {σ : Rescoping} (hσ : σ.Fits tight) :
    (init : Option Expr) →
    Follows tight (Option.Rel (ScopePair.Follows tight)) (Walk.checkInit env init)
      (Walk.checkInit env' (σ.optional init))
  | none => by
    rw [Rescoping.optional, Walk.checkInit, Walk.checkInit]
    exact pure .none
  | some e => by
    rw [Rescoping.optional, Walk.checkInit, Walk.checkInit]
    exact (checkExpr he hσ e).bind fun a b hab => pure (.some hab)

theorem checkStmts (he : env.Follows tight env') {σ : Rescoping} (hσ : σ.Fits tight) :
    (stmts : List Stmt) →
    Follows tight Eq (Walk.checkStmts env stmts) (Walk.checkStmts env' (σ.stmts stmts))
  | [] => by
    rw [Rescoping.stmts, Walk.checkStmts, Walk.checkStmts]
    exact pure rfl
  | s :: rest => by
    rw [Rescoping.stmts, Walk.checkStmts, Walk.checkStmts]
    exact (checkStmt he (hσ.part 0) s).bind_eq fun _ => checkStmts he (hσ.part 1) rest

theorem checkStmt (he : env.Follows tight env') {σ : Rescoping} (hσ : σ.Fits tight) :
    (s : Stmt) → Follows tight Eq (Walk.checkStmt env s) (Walk.checkStmt env' (σ.stmt s))
  | ⟨id, .expr e, span⟩ => by
    rw [Rescoping.stmt, Rescoping.stmtKind, Walk.checkStmt, Walk.checkStmt]
    exact (checkExpr he hσ e).discard
  | ⟨id, .yieldReturn e, span⟩ => by
    rw [Rescoping.stmt, Rescoping.stmtKind, Walk.checkStmt, Walk.checkStmt]
    exact (checkExpr he hσ e).discard
  | ⟨id, .declare decl, span⟩ => by
    rw [Rescoping.stmt, Rescoping.stmtKind, Walk.checkStmt, Walk.checkStmt]
    exact checkLocal he hσ true decl
  | ⟨id, .assign ⟨tid, kind, ty, tspan⟩ value byRef, span⟩ => by
    have ht := checkExpr he (hσ.part 0) ⟨tid, kind, ty, tspan⟩
    have hv := checkExpr he (hσ.part 1) value
    have hassign : Follows tight Eq
        (Walk.checkExpr env ⟨tid, kind, ty, tspan⟩ >>= fun t => Walk.checkExpr env value >>= fun v =>
          Walk.checkAssignment env ⟨tid, kind, ty, tspan⟩ value byRef t v)
        (Walk.checkExpr env' ((σ.part 0).expr ⟨tid, kind, ty, tspan⟩) >>= fun t =>
          Walk.checkExpr env' ((σ.part 1).expr value) >>= fun v => Walk.checkAssignment env'
            ((σ.part 0).expr ⟨tid, kind, ty, tspan⟩) ((σ.part 1).expr value) byRef t v) :=
      ht.bind fun _ _ _ => hv.bind fun _ _ _ => checkAssignment byRef (Rescoping.expr_span _ value)
    cases kind
    case property receiver getter args =>
      cases byRef with
      | true => exact hassign
      | false =>
        have hsetter := (checkReceiver he ((hσ.part 0).part 0) receiver).bind fun r r' hr =>
          (checkArgs he ((hσ.part 0).part 1) args).bind fun ops ops' hops =>
            (operandOf he (σ.part 1) value .none hv).bind fun v v' hv' =>
              (invokeRef he ⟨getter.owner, "set_" ++ propertyName getter.name⟩ hr
                (List.rel_append hops (.cons hv' .nil)) .void span).discard
        exact hsetter
    all_goals exact hassign
  | ⟨id, .ret none, span⟩ => by
    rw [Rescoping.stmt, Rescoping.stmtKind, Rescoping.optional, Walk.checkStmt, Walk.checkStmt]
    exact pure rfl
  | ⟨id, .ret (some value), span⟩ => by
    rw [Rescoping.stmt, Rescoping.stmtKind, Rescoping.optional, Walk.checkStmt, Walk.checkStmt]
    exact (checkExpr he hσ value).bind fun _ _ _ => checkReturned (Rescoping.expr_span σ value)
  | ⟨id, .block body, span⟩ => by
    rw [Rescoping.stmt, Rescoping.stmtKind, Walk.checkStmt, Walk.checkStmt]
    exact block (Rescoping.outline_directFunctions hσ body) (checkStmts he hσ body)
  | ⟨id, .ifElse cond thenBranch elseBranch, span⟩ => by
    rw [Rescoping.stmt, Rescoping.stmtKind, Walk.checkStmt, Walk.checkStmt]
    exact (checkExpr he (hσ.part 0) cond).discard.bind_eq fun _ =>
      (block (Rescoping.outline_directFunctions (hσ.part 1) thenBranch)
        (checkStmts he (hσ.part 1) thenBranch)).bind_eq fun _ =>
          checkElse he (hσ.part 2) elseBranch
  | ⟨id, .whileLoop cond body, span⟩ => by
    rw [Rescoping.stmt, Rescoping.stmtKind, Walk.checkStmt, Walk.checkStmt]
    exact (checkExpr he (hσ.part 0) cond).discard.bind_eq fun _ =>
      block (Rescoping.outline_directFunctions (hσ.part 1) body) (checkStmts he (hσ.part 1) body)
  | ⟨id, .foreach loop, span⟩ => by
    rw [Rescoping.stmt, Rescoping.stmtKind, Walk.checkStmt, Walk.checkStmt]
    exact checkForeach he hσ span loop
  | ⟨id, .using region, span⟩ => by
    rw [Rescoping.stmt, Rescoping.stmtKind, Walk.checkStmt, Walk.checkStmt]
    exact checkUsing he hσ span region
  | ⟨id, .localFunction decl, span⟩ => by
    rw [Rescoping.stmt, Rescoping.stmtKind, Walk.checkStmt, Walk.checkStmt]
    exact checkLocalFunction he hσ decl

theorem checkElse (he : env.Follows tight env') {σ : Rescoping} (hσ : σ.Fits tight) :
    (branch : Option (List Stmt)) →
    Follows tight Eq (Walk.checkElse env branch) (Walk.checkElse env' (σ.branch branch))
  | none => by
    rw [Rescoping.branch, Walk.checkElse, Walk.checkElse]
    exact pure rfl
  | some body => by
    rw [Rescoping.branch, Walk.checkElse, Walk.checkElse]
    exact block (Rescoping.outline_directFunctions hσ body) (checkStmts he hσ body)

theorem checkForeach (he : env.Follows tight env') {σ : Rescoping} (hσ : σ.Fits tight)
    (span : Span) : (loop : ForeachStmt) →
    Follows tight Eq (Walk.checkForeach env span loop)
      (Walk.checkForeach env' span (σ.foreachStmt loop))
  | ⟨binding, byRef, collection, enumerator, isAwait, body⟩ => by
    have hpattern (a b : ScopePair) (h : a.Follows tight b) :
        Follows tight Eq (Walk.checkPattern env a enumerator.elementTy span binding)
          (Walk.checkPattern env' b enumerator.elementTy span ((σ.part 0).pattern binding)) :=
      checkPattern he (hσ.part 0) h enumerator.elementTy span binding
    have hbody := checkStmts he (hσ.part 2) body
    rw [Rescoping.foreachStmt, Walk.checkForeach, Walk.checkForeach]
    refine (checkExpr he (hσ.part 1) collection).bind fun a b hab => ?_
    have h := foreachOver he hσ ⟨binding, byRef, collection, enumerator, isAwait, body⟩ hab span
      hpattern hbody
    rwa [Rescoping.foreachStmt] at h

theorem checkUsing (he : env.Follows tight env') {σ : Rescoping} (hσ : σ.Fits tight)
    (span : Span) : (region : UsingStmt) →
    Follows tight Eq (Walk.checkUsing env span region)
      (Walk.checkUsing env' span (σ.usingStmt region))
  | ⟨.expr e, dispose, isAwait, body⟩ => by
    have hbody := checkStmts he (hσ.part 1) body
    rw [Rescoping.usingStmt, Rescoping.usingResource, Walk.checkUsing, Walk.checkUsing,
      Rescoping.expr_ty]
    refine inScope .block ((checkExpr he (hσ.part 0) e).bind fun a b hab =>
      (stackOnly he e.ty).bind_eq fun so => ?_)
    have h := usingOver he hσ ⟨.expr e, dispose, isAwait, body⟩
      (.ofExpr hab (σ.part 0) e so .none false) e.ty span hbody
    rwa [Rescoping.usingStmt, Rescoping.usingResource] at h
  | ⟨.declare ⟨name, ty, refKind, isScoped, init, dspan⟩, dispose, isAwait, body⟩ => by
    have hbody := checkStmts he (hσ.part 1) body
    have hlocal (reportAsync : Bool) :=
      checkLocal he (hσ.part 0) reportAsync ⟨name, ty, refKind, isScoped, init, dspan⟩
    rw [Rescoping.usingStmt, Rescoping.usingResource, Walk.checkUsing, Walk.checkUsing]
    rw [Rescoping.localDecl] at hlocal ⊢
    refine inScope .block ((stackOnly he ty).bind_eq fun so => (hlocal (!so)).bind_eq fun _ =>
      (declaredResource he rfl rfl rfl).bind fun op op' hop => ?_)
    have h := usingOver he hσ
      ⟨.declare ⟨name, ty, refKind, isScoped, init, dspan⟩, dispose, isAwait, body⟩ hop ty span
      hbody
    rwa [Rescoping.usingStmt, Rescoping.usingResource, Rescoping.localDecl] at h

theorem checkLocalFunction (he : env.Follows tight env') {σ : Rescoping} (hσ : σ.Fits tight) :
    (decl : FnDecl) → Follows tight Eq (Walk.checkLocalFunction env decl)
      (Walk.checkLocalFunction env' (σ.fn decl))
  | ⟨id, name, kind, modifiers, typeParams, params, ret, attrs, explicitImpl, overrides, body,
      span⟩ => by
    have h := localFunctionOver he hσ ⟨id, name, kind, modifiers, typeParams, params, ret, attrs,
      explicitImpl, overrides, body, span⟩ (checkBody he (hσ.part 1) body)
    rw [Rescoping.fn, Walk.checkLocalFunction, Walk.checkLocalFunction]
    rwa [Rescoping.fn] at h

theorem checkBody (he : env.Follows tight env') {σ : Rescoping} (hσ : σ.Fits tight) :
    (body : Option (List Stmt)) →
    Follows tight Eq (Walk.checkBody env body) (Walk.checkBody env' (σ.branch body))
  | none => by
    rw [Rescoping.branch, Walk.checkBody, Walk.checkBody]
    exact pure rfl
  | some body => by
    rw [Rescoping.branch, Walk.checkBody, Walk.checkBody]
    exact checkStmts he hσ body

end

end Walk.Follows

end StackEscape
