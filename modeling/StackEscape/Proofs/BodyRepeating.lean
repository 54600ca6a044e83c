import StackEscape.Proofs.Accepted
import StackEscape.Proofs.Repeating

/-!
# Bodies that are walked in another program

In a program in which all names mean the same, an expression, a pattern and a statement are walked
in the same way: an induction over the tree, with one case for each form. So a member yields the
same in both programs, and what it yields of null tests is about the expressions of its body.

## Main results

* `StackEscape.Walk.Repeats.checkExpr`, `checkPattern`, `checkStmts` — the walk is the same.
* `StackEscape.Program.SameSymbols.checkMember_eq` — from the same tables a member yields the same.
* `StackEscape.Program.nullTest?_checkMember` — null tests are those of expressions of the body.
-/

set_option autoImplicit false

namespace StackEscape

namespace Walk.Repeats

variable {x : Option NodeId} {env : Surroundings} {q : Program}

/-- An expression whose form has been compared. -/
theorem exprOf (h : env.program.SameSymbols q) {id : NodeId} {kind : ExprKind} {ty : TypeRef}
    {span : Span} (hf : Repeats (some id) (Walk.checkForm env id ty span kind)
      (Walk.checkForm (env.inProgram q) id ty span kind)) :
    Repeats x (Walk.checkExpr env ⟨id, kind, ty, span⟩)
      (Walk.checkExpr (env.inProgram q) ⟨id, kind, ty, span⟩) := by
  rw [Walk.checkExpr, Walk.checkExpr]
  refine look fun s => ?_
  rw [h.types_stackOnly]
  refine ite ?_ hf.recorded
  exact (report _ span).bind fun _ => (record id _).bind fun _ => .pure _

mutual

theorem checkExpr (h : env.program.SameSymbols q) {x : Option NodeId} : (e : Expr) →
    Repeats x (Walk.checkExpr env e) (Walk.checkExpr (env.inProgram q) e)
  | ⟨id, kind, ty, span⟩ => exprOf h (checkForm h id ty span kind)

theorem checkForm (h : env.program.SameSymbols q) (id : NodeId) (ty : TypeRef) (span : Span) :
    (kind : ExprKind) → Repeats (some id) (Walk.checkForm env id ty span kind)
      (Walk.checkForm (env.inProgram q) id ty span kind)
  | .literal _ => by
    rw [Walk.checkForm, Walk.checkForm]
    exact .pure _
  | .var name => by
    rw [Walk.checkForm, Walk.checkForm]
    exact readVariable h name span
  | .thisRef => by
    rw [Walk.checkForm, Walk.checkForm]
    exact readThis span
  | .field receiver owner name => by
    rw [Walk.checkForm, Walk.checkForm]
    refine (checkOptional h receiver).bind fun _ => look fun s => ?_
    rw [h.types_fieldPair]
    exact .pure _
  | .property receiver getter args => by
    rw [Walk.checkForm, Walk.checkForm]
    exact (checkReceiver h receiver).bind fun _ => (checkArgs h args).bind fun _ =>
      readProperty h getter _ _ _ _
  | .call receiver method typeArgs args => by
    rw [Walk.checkForm, Walk.checkForm]
    refine (checkReceiver h receiver).bind fun _ => (checkArgs h args).bind fun _ =>
      (resolve h method span).bind fun callee => ?_
    cases callee with
    | none => exact .pure _
    | some callee =>
      exact (checkTypeArgs h callee typeArgs span).bind fun _ =>
        (invoke h callee.contract _ _ _ _).bind fun _ => .pure _
  | .create ctor args => by
    rw [Walk.checkForm, Walk.checkForm]
    refine (checkShape h ty span).bind fun _ => (checkArgs h args).bind fun _ => ite (.pure _) ?_
    cases ctor with
    | none => exact .pure _
    | some ctor => exact invokeRef h ctor _ _ _ _
  | .stackAlloc _ len => by
    rw [Walk.checkForm, Walk.checkForm]
    exact (checkExpr h len).discard.bind fun _ => (stackOnly h ty).bind fun _ => .pure _
  | .conditional cond thenExpr elseExpr byRef => by
    rw [Walk.checkForm, Walk.checkForm]
    exact (checkExpr h cond).discard.bind fun _ => (checkExpr h thenExpr).bind fun _ =>
      (checkExpr h elseExpr).bind fun _ => (stackOnly h ty).bind fun _ => .pure _
  | .convert operand _ => by
    rw [Walk.checkForm, Walk.checkForm]
    refine (checkExpr h operand).bind fun _ => (checkShape h ty span).bind fun _ =>
      ite (.pure _) (look fun s => ?_)
    simp only [TypeEnv.conversionError_congr (h.types_capability s), h.types_stackOnly]
    exact (passes _ span).bind fun _ => ite (.pure _) (.pure _)
  | .binary op left right => by
    rw [Walk.checkForm, Walk.checkForm]
    refine (checkExpr h left).bind fun _ => (checkExpr h right).bind fun _ =>
      ite (.pure _) (look fun s => ?_)
    simp only [TypeEnv.binaryVerdict_congr (h.types_capability s)]
    exact (settle id span _).bind fun _ => .pure _
  | .test operand pattern => by
    rw [Walk.checkForm, Walk.checkForm]
    refine (checkExpr h operand).bind fun input => look fun s => ?_
    simp only [TypeEnv.testVerdict_congr (h.types_capability s)]
    refine (settle id span _).bind fun _ => ite ?_ (.pure _)
    exact (checkPattern h input operand.ty span pattern).bind fun _ => .pure _
  | .lambda fn => by
    rw [Walk.checkForm, Walk.checkForm]
    exact (checkLambda h fn).bind fun _ => .pure _
  | .arrayNew _ elems => by
    rw [Walk.checkForm, Walk.checkForm]
    exact (checkShape h ty span).bind fun _ => (checkAll h elems).bind fun _ => .pure _
  | .anonymous members => by
    rw [Walk.checkForm, Walk.checkForm]
    exact (checkMembers h members).bind fun _ => .pure _
  | .await operand => by
    rw [Walk.checkForm, Walk.checkForm]
    exact (checkExpr h operand).discard.bind fun _ => .pure _
  | .dynamicInvoke receiver _ args => by
    rw [Walk.checkForm, Walk.checkForm]
    refine (checkExpr h receiver).discard.bind fun _ => (checkValues h args).bind fun _ =>
      look fun s => ?_
    simp only [TypeEnv.dynamicErrors_congr (h.types_capability s)]
    exact (reportAll _).bind fun _ => .pure _
  | .outVar _ => by
    rw [Walk.checkForm, Walk.checkForm]
    exact .pure _

theorem checkOptional (h : env.program.SameSymbols q) {x : Option NodeId} :
    (receiver : Option Expr) → Repeats x (Walk.checkOptional env receiver)
      (Walk.checkOptional (env.inProgram q) receiver)
  | none => by
    rw [Walk.checkOptional, Walk.checkOptional]
    exact .pure _
  | some e => by
    rw [Walk.checkOptional, Walk.checkOptional]
    exact (checkExpr h e).bind fun _ => .pure _

theorem checkReceiver (h : env.program.SameSymbols q) {x : Option NodeId} :
    (receiver : Option Expr) → Repeats x (Walk.checkReceiver env receiver)
      (Walk.checkReceiver (env.inProgram q) receiver)
  | none => by
    rw [Walk.checkReceiver, Walk.checkReceiver]
    exact .pure _
  | some e => by
    rw [Walk.checkReceiver, Walk.checkReceiver]
    exact (operandOf h e .none (checkExpr h e)).bind fun _ => .pure _

theorem checkArgs (h : env.program.SameSymbols q) {x : Option NodeId} : (args : List Arg) →
    Repeats x (Walk.checkArgs env args) (Walk.checkArgs (env.inProgram q) args)
  | [] => by
    rw [Walk.checkArgs, Walk.checkArgs]
    exact .pure _
  | ⟨mode, e⟩ :: rest => by
    rw [Walk.checkArgs, Walk.checkArgs]
    exact (operandOf h e mode (checkExpr h e)).bind fun _ =>
      (checkArgs h rest).bind fun _ => .pure _

theorem checkValues (h : env.program.SameSymbols q) {x : Option NodeId} : (args : List Arg) →
    Repeats x (Walk.checkValues env args) (Walk.checkValues (env.inProgram q) args)
  | [] => by
    rw [Walk.checkValues, Walk.checkValues]
    exact .pure ()
  | ⟨_, e⟩ :: rest => by
    rw [Walk.checkValues, Walk.checkValues]
    exact (checkExpr h e).discard.bind fun _ => checkValues h rest

theorem checkAll (h : env.program.SameSymbols q) {x : Option NodeId} : (elems : List Expr) →
    Repeats x (Walk.checkAll env elems) (Walk.checkAll (env.inProgram q) elems)
  | [] => by
    rw [Walk.checkAll, Walk.checkAll]
    exact .pure ()
  | e :: rest => by
    rw [Walk.checkAll, Walk.checkAll]
    exact (checkExpr h e).discard.bind fun _ => checkAll h rest

theorem checkMembers (h : env.program.SameSymbols q) {x : Option NodeId} :
    (members : List NamedExpr) → Repeats x (Walk.checkMembers env members)
      (Walk.checkMembers (env.inProgram q) members)
  | [] => by
    rw [Walk.checkMembers, Walk.checkMembers]
    exact .pure true
  | ⟨name, e⟩ :: rest => by
    rw [Walk.checkMembers, Walk.checkMembers]
    exact (checkExpr h e).bind fun _ => (stackOnly h e.ty).bind fun _ =>
      (passes _ e.span).bind fun _ => (checkMembers h rest).bind fun _ => .pure _

theorem checkLambda (h : env.program.SameSymbols q) {x : Option NodeId} : (fn : Lambda) →
    Repeats x (Walk.checkLambda env fn) (Walk.checkLambda (env.inProgram q) fn)
  | ⟨params, retTy, body, isExpressionTree, isStatic, isAsync⟩ => by
    rw [Walk.checkLambda, Walk.checkLambda]
    exact lambdaOver h _ (checkStmts h body)

theorem checkPattern (h : env.program.SameSymbols q) {x : Option NodeId} (input : ScopePair)
    (inputTy : TypeRef) (span : Span) : (p : Pattern) →
    Repeats x (Walk.checkPattern env input inputTy span p)
      (Walk.checkPattern (env.inProgram q) input inputTy span p)
  | .discard => by
    rw [Walk.checkPattern, Walk.checkPattern]
    exact .pure ()
  | .declaration name ty span => by
    rw [Walk.checkPattern, Walk.checkPattern]
    exact bindPattern h name ty input span
  | .typeTest _ => by
    rw [Walk.checkPattern, Walk.checkPattern]
    exact .pure ()
  | .constant e => by
    rw [Walk.checkPattern, Walk.checkPattern]
    exact (checkExpr h e).discard
  | .property ty subpatterns => by
    rw [Walk.checkPattern, Walk.checkPattern]
    exact checkSubPatterns h input (ty.getD inputTy) subpatterns
  | .positional deconstruct subpatterns componentTys => by
    rw [Walk.checkPattern, Walk.checkPattern]
    exact (deconstructInput h deconstruct componentTys input inputTy span).bind fun outcome =>
      checkComponents h outcome span subpatterns componentTys
  | .negated inner => by
    rw [Walk.checkPattern, Walk.checkPattern]
    exact checkPattern h input inputTy span inner

theorem checkSubPatterns (h : env.program.SameSymbols q) {x : Option NodeId} (input : ScopePair)
    (receiverTy : TypeRef) : (subs : List SubPattern) →
    Repeats x (Walk.checkSubPatterns env input receiverTy subs)
      (Walk.checkSubPatterns (env.inProgram q) input receiverTy subs)
  | [] => by
    rw [Walk.checkSubPatterns, Walk.checkSubPatterns]
    exact .pure ()
  | ⟨access, ty, p, span⟩ :: rest => by
    rw [Walk.checkSubPatterns, Walk.checkSubPatterns]
    exact (accessMember h access input receiverTy ty span).bind fun extracted =>
      (checkPattern h extracted ty span p).bind fun _ => checkSubPatterns h input receiverTy rest

theorem checkComponents (h : env.program.SameSymbols q) {x : Option NodeId}
    (outcome : Option Outcome) (span : Span) : (subs : List Pattern) → (tys : List TypeRef) →
    Repeats x (Walk.checkComponents env outcome span subs tys)
      (Walk.checkComponents (env.inProgram q) outcome span subs tys)
  | [], tys => by
    rw [Walk.checkComponents.eq_def, Walk.checkComponents.eq_def]
    exact .pure ()
  | p :: rest, [] => by
    rw [Walk.checkComponents.eq_def, Walk.checkComponents.eq_def]
    exact .pure ()
  | p :: rest, ty :: tys => by
    rw [Walk.checkComponents, Walk.checkComponents]
    exact (stackOnly h ty).bind fun so =>
      (checkPattern h (Walk.componentPair outcome so) ty span p).bind fun _ =>
        checkComponents h outcome span rest tys

theorem checkLocal (h : env.program.SameSymbols q) {x : Option NodeId} (reportAsync : Bool) :
    (decl : LocalDecl) → Repeats x (Walk.checkLocal env reportAsync decl)
      (Walk.checkLocal (env.inProgram q) reportAsync decl)
  | ⟨name, ty, refKind, isScoped, init, span⟩ => by
    rw [Walk.checkLocal, Walk.checkLocal]
    exact (checkShape h ty span).bind fun _ => (checkInit h init).bind fun _ =>
      declareLocal h _ _ _ _

theorem checkInit (h : env.program.SameSymbols q) {x : Option NodeId} : (init : Option Expr) →
    Repeats x (Walk.checkInit env init) (Walk.checkInit (env.inProgram q) init)
  | none => by
    rw [Walk.checkInit, Walk.checkInit]
    exact .pure none
  | some e => by
    rw [Walk.checkInit, Walk.checkInit]
    exact (checkExpr h e).bind fun _ => .pure _

theorem checkStmts (h : env.program.SameSymbols q) {x : Option NodeId} : (stmts : List Stmt) →
    Repeats x (Walk.checkStmts env stmts) (Walk.checkStmts (env.inProgram q) stmts)
  | [] => by
    rw [Walk.checkStmts, Walk.checkStmts]
    exact .pure ()
  | s :: rest => by
    rw [Walk.checkStmts, Walk.checkStmts]
    exact (checkStmt h s).bind fun _ => checkStmts h rest

theorem checkStmt (h : env.program.SameSymbols q) {x : Option NodeId} : (s : Stmt) →
    Repeats x (Walk.checkStmt env s) (Walk.checkStmt (env.inProgram q) s)
  | ⟨_, .expr e, _⟩ => by
    rw [Walk.checkStmt, Walk.checkStmt]
    exact (checkExpr h e).discard
  | ⟨_, .yieldReturn e, _⟩ => by
    rw [Walk.checkStmt, Walk.checkStmt]
    exact (checkExpr h e).discard
  | ⟨_, .declare decl, _⟩ => by
    rw [Walk.checkStmt, Walk.checkStmt]
    exact checkLocal h true decl
  | ⟨id, .assign ⟨tid, kind, ty, tspan⟩ value byRef, span⟩ => by
    have main : Repeats x (Walk.checkExpr env ⟨tid, kind, ty, tspan⟩ >>= fun t =>
          Walk.checkExpr env value >>= fun v =>
            Walk.checkAssignment env ⟨tid, kind, ty, tspan⟩ value byRef t v)
        (Walk.checkExpr (env.inProgram q) ⟨tid, kind, ty, tspan⟩ >>= fun t =>
          Walk.checkExpr (env.inProgram q) value >>= fun v =>
            Walk.checkAssignment (env.inProgram q) ⟨tid, kind, ty, tspan⟩ value byRef t v) :=
      (exprOf h (checkForm h tid ty tspan kind)).bind fun _ =>
        (checkExpr h value).bind fun _ => checkAssignment h _ value byRef _ _
    cases kind
    case property receiver getter args =>
      cases byRef with
      | true => exact main
      | false =>
        rw [Walk.checkStmt, Walk.checkStmt]
        exact (checkReceiver h receiver).bind fun _ => (checkArgs h args).bind fun _ =>
          (operandOf h value .none (checkExpr h value)).bind fun _ =>
            (invokeRef h _ _ _ _ _).discard
    all_goals exact main
  | ⟨_, .ret none, _⟩ => by
    rw [Walk.checkStmt, Walk.checkStmt]
    exact .pure ()
  | ⟨_, .ret (some value), _⟩ => by
    rw [Walk.checkStmt, Walk.checkStmt]
    exact (checkExpr h value).bind fun _ => checkReturned value _
  | ⟨_, .block body, _⟩ => by
    rw [Walk.checkStmt, Walk.checkStmt]
    exact block _ (checkStmts h body)
  | ⟨_, .ifElse cond thenBranch elseBranch, _⟩ => by
    rw [Walk.checkStmt, Walk.checkStmt]
    exact (checkExpr h cond).discard.bind fun _ =>
      (block _ (checkStmts h thenBranch)).bind fun _ => checkElse h elseBranch
  | ⟨_, .whileLoop cond body, _⟩ => by
    rw [Walk.checkStmt, Walk.checkStmt]
    exact (checkExpr h cond).discard.bind fun _ => block _ (checkStmts h body)
  | ⟨_, .foreach loop, span⟩ => by
    rw [Walk.checkStmt, Walk.checkStmt]
    exact checkForeach h span loop
  | ⟨_, .using region, span⟩ => by
    rw [Walk.checkStmt, Walk.checkStmt]
    exact checkUsing h span region
  | ⟨_, .localFunction decl, _⟩ => by
    rw [Walk.checkStmt, Walk.checkStmt]
    exact checkLocalFunction h decl

theorem checkElse (h : env.program.SameSymbols q) {x : Option NodeId} :
    (branch : Option (List Stmt)) → Repeats x (Walk.checkElse env branch)
      (Walk.checkElse (env.inProgram q) branch)
  | none => by
    rw [Walk.checkElse, Walk.checkElse]
    exact .pure ()
  | some body => by
    rw [Walk.checkElse, Walk.checkElse]
    exact block _ (checkStmts h body)

theorem checkForeach (h : env.program.SameSymbols q) {x : Option NodeId} (span : Span) :
    (loop : ForeachStmt) → Repeats x (Walk.checkForeach env span loop)
      (Walk.checkForeach (env.inProgram q) span loop)
  | ⟨binding, byRef, collection, enumerator, isAwait, body⟩ => by
    rw [Walk.checkForeach, Walk.checkForeach]
    exact (checkExpr h collection).bind fun pair => foreachOver h _ pair span
      (fun element => checkPattern h element enumerator.elementTy span binding)
      (checkStmts h body)

theorem checkUsing (h : env.program.SameSymbols q) {x : Option NodeId} (span : Span) :
    (region : UsingStmt) → Repeats x (Walk.checkUsing env span region)
      (Walk.checkUsing (env.inProgram q) span region)
  | ⟨.expr e, dispose, isAwait, body⟩ => by
    rw [Walk.checkUsing, Walk.checkUsing]
    exact inScope .block ((checkExpr h e).bind fun _ => (stackOnly h e.ty).bind fun _ =>
      usingOver h _ _ _ _ (checkStmts h body))
  | ⟨.declare ⟨name, ty, refKind, isScoped, init, dspan⟩, dispose, isAwait, body⟩ => by
    have hinit : Repeats x (Walk.checkInit env init) (Walk.checkInit (env.inProgram q) init) :=
      checkInit h init
    rw [Walk.checkUsing, Walk.checkUsing]
    refine inScope .block ((stackOnly h ty).bind fun _ => ?_)
    rw [Walk.checkLocal, Walk.checkLocal]
    refine Repeats.bind ((checkShape h ty dspan).bind fun _ => hinit.bind fun _ =>
      declareLocal h _ _ _ _) fun _ => (declaredResource h _).bind fun _ => ?_
    exact usingOver h _ _ _ _ (checkStmts h body)

theorem checkLocalFunction (h : env.program.SameSymbols q) {x : Option NodeId} :
    (decl : FnDecl) → Repeats x (Walk.checkLocalFunction env decl)
      (Walk.checkLocalFunction (env.inProgram q) decl)
  | ⟨fid, name, kind, modifiers, typeParams, params, ret, attrs, explicitImpl, overrides, body,
      fspan⟩ => by
    rw [Walk.checkLocalFunction, Walk.checkLocalFunction]
    exact localFunctionOver h _ (checkBody h body)

theorem checkBody (h : env.program.SameSymbols q) {x : Option NodeId} :
    (body : Option (List Stmt)) → Repeats x (Walk.checkBody env body)
      (Walk.checkBody (env.inProgram q) body)
  | none => by
    rw [Walk.checkBody, Walk.checkBody]
    exact .pure ()
  | some body => by
    rw [Walk.checkBody, Walk.checkBody]
    exact checkStmts h body

end

end Walk.Repeats

/-! ## Members -/

namespace Program

variable {p q : Program} {runtime : Bool} {T : Tables} {m : Member} {body : List Stmt}

/-- In a program in which all names mean the same, a member yields the same from the same tables. -/
theorem SameSymbols.checkMember_eq (h : p.SameSymbols q) (runtime : Bool) (T : Tables)
    (m : Member) : q.checkMember runtime T m = p.checkMember runtime T m := by
  cases hbody : m.decl.body with
  | none => rw [checkMember_of_none hbody, checkMember_of_none hbody]
  | some body =>
    have henv : SameSymbols (Surroundings.program ⟨p, m, runtime⟩) q := h
    have hcontracts : T.contracts.ofMember T.caps q m = T.contracts.ofMember T.caps p m := by
      rw [Contracts.ofMember, Contracts.ofMember, h.ofMember_eq]
    have hentry : q.entry T m = p.entry T m := by
      rw [entry, entry, entryContract, entryContract, hcontracts]
    have hbind : q.bindMember runtime T m = p.bindMember runtime T m := by
      rw [bindMember, bindMember, entryContract, entryContract, hcontracts]
      exact (Walk.Repeats.bindParams (x := none) henv false _ _).same
    have hstmts : Walk.checkStmts ⟨q, m, runtime⟩ body = Walk.checkStmts ⟨p, m, runtime⟩ body :=
      (Walk.Repeats.checkStmts (x := none) henv body).same
    have hwalk : q.walkMember runtime T m body = p.walkMember runtime T m body := by
      rw [walkMember_eq, walkMember_eq, bodyEntry, bodyEntry, hentry, hbind, hstmts]
    rw [checkMember_of_some hbody, checkMember_of_some hbody, hwalk]

/-- Where a member records no pair, it records no null test either. -/
theorem nullTest?_of_pair?_eq_none {id : NodeId}
    (h : (p.checkMember runtime T m).1.facts.pair? id = none) :
    (p.checkMember runtime T m).1.facts.nullTest? id = none := by
  cases hbody : m.decl.body with
  | none =>
    rw [checkMember_of_none hbody]
    rfl
  | some body =>
    rw [checkMember_of_some hbody] at h ⊢
    have hsame : SameSymbols (Surroundings.program ⟨p, m, runtime⟩) p := .refl p
    have hbind := (Walk.Repeats.bindParams (x := none) hsame false m.decl.params
      (p.entryContract T m).params).kept (p.entry T m)
    have hstmts := (Walk.Repeats.checkStmts (x := none) hsame body).kept
      (p.bodyEntry runtime T m body)
    have hkept := Facts.Kept.trans hbind hstmts
    rw [← walkMember_eq] at hkept
    rcases hkept.tests id (Option.some_ne_none id) with heq | hsome
    · exact heq
    · rw [h] at hsome
      exact absurd hsome (by decide)

/-- A member records null tests for expressions of its body only. -/
theorem nullTest?_checkMember {id : NodeId} (hid : id ∉ Site.visitedIds m.sites) :
    (p.checkMember runtime T m).1.facts.nullTest? id = none :=
  nullTest?_of_pair?_eq_none (checkMember_frame hid)

end Program

end StackEscape
