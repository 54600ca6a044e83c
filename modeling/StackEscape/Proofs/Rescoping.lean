import StackEscape.Proofs.Outline
import StackEscape.Proofs.Sites

/-!
# Changing `scoped` modifiers

Programs that differ only in which local variables and parameters are `scoped`. A change says for
every position of a tree what becomes of the modifier there, so a single declaration can be changed,
or any set of them, at every depth. Parameters with `UnscopedRef` are left alone.

## Main definitions

* `StackEscape.Rescoping` — a change of modifiers, by position.
* `StackEscape.Rescoping.expr`, `stmts`, `fn`, `program` — the changed parts of a tree.
* `StackEscape.Rescoping.Confining` — no variable loses its modifier, and no parameter changes.
* `StackEscape.Rescoping.marking` — some local variables become `scoped` as well.
* `StackEscape.Program.unscoped` — what is left of a program without these modifiers.

## Main results

* `StackEscape.Rescoping.outline_program` — the outline of a program does not change.
* `StackEscape.TypeEnv.binaryVerdict_expr`, `testVerdict_pattern` — rules that look at types alone
  see no change.

## Implementation notes

A position lists the numbers of the parts on the way to it. Where a node has several parts they have
different numbers; the first entry of a list is its part 0, and the other entries are its part 1. So
no two declarations of a tree share a position.
-/

set_option autoImplicit false

namespace StackEscape

/-- What becomes of the `scoped` modifiers in a tree: the new modifier of a variable or a parameter,
by its position and its old one. -/
structure Rescoping where
  /-- The modifiers of local variables. -/
  localAt : List Nat → Bool → Bool
  /-- The modifiers of parameters. -/
  paramAt : List Nat → Bool → Bool

namespace Rescoping

/-- The change within one part of a tree. -/
def part (σ : Rescoping) (i : Nat) : Rescoping :=
  ⟨fun w => σ.localAt (i :: w), fun w => σ.paramAt (i :: w)⟩

/-- No variable loses its modifier, and parameters keep theirs. -/
structure Confining (σ : Rescoping) : Prop where
  /-- Variables that are `scoped` stay so. -/
  localAt : ∀ w, σ.localAt w true = true
  /-- Parameters stay as they are. -/
  paramAt : ∀ w b, σ.paramAt w b = b

theorem Confining.part {σ : Rescoping} (h : σ.Confining) (i : Nat) : (σ.part i).Confining :=
  ⟨fun w => h.localAt (i :: w), fun w => h.paramAt (i :: w)⟩

/-- The change is one of those that are compared: any, or in a tight comparison a confining one. -/
def Fits (σ : Rescoping) (tight : Bool) : Prop := tight = true → σ.Confining

theorem Fits.part {σ : Rescoping} {tight : Bool} (h : σ.Fits tight) (i : Nat) :
    (σ.part i).Fits tight := fun ht => (h ht).part i

/-- The local variables at some positions become `scoped` as well, and nothing else changes. -/
def marking (positions : List Nat → Bool) : Rescoping :=
  ⟨fun w isScoped => isScoped || positions w, fun _ isScoped => isScoped⟩

/-- No local variable is `scoped`, and no parameter that could lose its modifier. -/
def erasing : Rescoping := ⟨fun _ _ => false, fun _ _ => false⟩

theorem confining_marking (positions : List Nat → Bool) : (marking positions).Confining :=
  ⟨fun _ => rfl, fun _ _ => rfl⟩

/-! ## Parameters -/

/-- A parameter with its new modifier. -/
def param (σ : Rescoping) (q : Param) : Param :=
  if q.isUnscoped then q else { q with isScoped := σ.paramAt [] q.isScoped }

/-- Parameters with their new modifiers. -/
def params (σ : Rescoping) : List Param → List Param
  | [] => []
  | q :: rest => (σ.part 0).param q :: (σ.part 1).params rest

/-! ## Bodies -/

mutual

/-- An expression with new modifiers in it. -/
def expr (σ : Rescoping) : Expr → Expr
  | ⟨id, kind, ty, span⟩ => ⟨id, σ.exprKind kind, ty, span⟩

/-- The form of an expression. -/
def exprKind (σ : Rescoping) : ExprKind → ExprKind
  | .literal value => .literal value
  | .var name => .var name
  | .thisRef => .thisRef
  | .field receiver owner name => .field (σ.optional receiver) owner name
  | .property receiver getter args =>
    .property ((σ.part 0).optional receiver) getter ((σ.part 1).args args)
  | .call receiver method typeArgs args =>
    .call ((σ.part 0).optional receiver) method typeArgs ((σ.part 1).args args)
  | .create ctor args => .create ctor (σ.args args)
  | .stackAlloc elem len => .stackAlloc elem (σ.expr len)
  | .conditional cond thenExpr elseExpr byRef =>
    .conditional ((σ.part 0).expr cond) ((σ.part 1).expr thenExpr) ((σ.part 2).expr elseExpr)
      byRef
  | .convert operand explicit => .convert (σ.expr operand) explicit
  | .binary op left right => .binary op ((σ.part 0).expr left) ((σ.part 1).expr right)
  | .test operand pattern => .test ((σ.part 0).expr operand) ((σ.part 1).pattern pattern)
  | .lambda fn => .lambda (σ.lambda fn)
  | .arrayNew elem elems => .arrayNew elem (σ.exprs elems)
  | .anonymous members => .anonymous (σ.namedExprs members)
  | .await operand => .await (σ.expr operand)
  | .dynamicInvoke receiver name args =>
    .dynamicInvoke ((σ.part 0).expr receiver) name ((σ.part 1).args args)
  | .outVar name => .outVar name

/-- A receiver or an initial value. -/
def optional (σ : Rescoping) : Option Expr → Option Expr
  | none => none
  | some e => some (σ.expr e)

/-- The arguments of a call. -/
def args (σ : Rescoping) : List Arg → List Arg
  | [] => []
  | ⟨mode, e⟩ :: rest => ⟨mode, (σ.part 0).expr e⟩ :: (σ.part 1).args rest

/-- The elements of an array. -/
def exprs (σ : Rescoping) : List Expr → List Expr
  | [] => []
  | e :: rest => (σ.part 0).expr e :: (σ.part 1).exprs rest

/-- The members of an anonymous object. -/
def namedExprs (σ : Rescoping) : List NamedExpr → List NamedExpr
  | [] => []
  | ⟨name, e⟩ :: rest => ⟨name, (σ.part 0).expr e⟩ :: (σ.part 1).namedExprs rest

/-- A lambda. -/
def lambda (σ : Rescoping) : Lambda → Lambda
  | ⟨params, retTy, body, isExpressionTree, isStatic, isAsync⟩ =>
    ⟨(σ.part 0).params params, retTy, (σ.part 1).stmts body, isExpressionTree, isStatic, isAsync⟩

/-- A pattern. -/
def pattern (σ : Rescoping) : Pattern → Pattern
  | .discard => .discard
  | .declaration name ty span => .declaration name ty span
  | .typeTest ty => .typeTest ty
  | .constant e => .constant (σ.expr e)
  | .property ty subpatterns => .property ty (σ.subPatterns subpatterns)
  | .positional deconstruct subpatterns componentTys =>
    .positional deconstruct (σ.patterns subpatterns) componentTys
  | .negated inner => .negated (σ.pattern inner)

/-- The entries of a property pattern. -/
def subPatterns (σ : Rescoping) : List SubPattern → List SubPattern
  | [] => []
  | ⟨access, ty, pattern, span⟩ :: rest =>
    ⟨access, ty, (σ.part 0).pattern pattern, span⟩ :: (σ.part 1).subPatterns rest

/-- The parts of a positional pattern. -/
def patterns (σ : Rescoping) : List Pattern → List Pattern
  | [] => []
  | pattern :: rest => (σ.part 0).pattern pattern :: (σ.part 1).patterns rest

/-- A local variable. Its own position is the end of the way; its initial value is its part 0. -/
def localDecl (σ : Rescoping) : LocalDecl → LocalDecl
  | ⟨name, ty, refKind, isScoped, init, span⟩ =>
    ⟨name, ty, refKind, σ.localAt [] isScoped, (σ.part 0).optional init, span⟩

/-- Some statements. -/
def stmts (σ : Rescoping) : List Stmt → List Stmt
  | [] => []
  | s :: rest => (σ.part 0).stmt s :: (σ.part 1).stmts rest

/-- A statement. -/
def stmt (σ : Rescoping) : Stmt → Stmt
  | ⟨id, kind, span⟩ => ⟨id, σ.stmtKind kind, span⟩

/-- The form of a statement. -/
def stmtKind (σ : Rescoping) : StmtKind → StmtKind
  | .expr e => .expr (σ.expr e)
  | .declare decl => .declare (σ.localDecl decl)
  | .assign target value byRef => .assign ((σ.part 0).expr target) ((σ.part 1).expr value) byRef
  | .ret value => .ret (σ.optional value)
  | .block body => .block (σ.stmts body)
  | .ifElse cond thenBranch elseBranch =>
    .ifElse ((σ.part 0).expr cond) ((σ.part 1).stmts thenBranch) ((σ.part 2).branch elseBranch)
  | .whileLoop cond body => .whileLoop ((σ.part 0).expr cond) ((σ.part 1).stmts body)
  | .foreach loop => .foreach (σ.foreachStmt loop)
  | .using region => .using (σ.usingStmt region)
  | .localFunction decl => .localFunction (σ.fn decl)
  | .yieldReturn e => .yieldReturn (σ.expr e)

/-- The second branch of a conditional statement, or the statements of a function. -/
def branch (σ : Rescoping) : Option (List Stmt) → Option (List Stmt)
  | none => none
  | some body => some (σ.stmts body)

/-- An iteration. -/
def foreachStmt (σ : Rescoping) : ForeachStmt → ForeachStmt
  | ⟨binding, byRef, collection, enumerator, isAwait, body⟩ =>
    ⟨(σ.part 0).pattern binding, byRef, (σ.part 1).expr collection, enumerator, isAwait,
      (σ.part 2).stmts body⟩

/-- A region with a resource. -/
def usingStmt (σ : Rescoping) : UsingStmt → UsingStmt
  | ⟨resource, dispose, isAwait, body⟩ =>
    ⟨(σ.part 0).usingResource resource, dispose, isAwait, (σ.part 1).stmts body⟩

/-- The resource of a region. -/
def usingResource (σ : Rescoping) : UsingResource → UsingResource
  | .expr e => .expr (σ.expr e)
  | .declare decl => .declare (σ.localDecl decl)

/-- A member or a local function. -/
def fn (σ : Rescoping) : FnDecl → FnDecl
  | ⟨id, name, kind, modifiers, typeParams, params, ret, attrs, explicitImpl, overrides, body,
      span⟩ =>
    ⟨id, name, kind, modifiers, typeParams, (σ.part 0).params params, ret, attrs, explicitImpl,
      overrides, (σ.part 1).branch body, span⟩

end

/-! ## Programs -/

/-- Members with new modifiers in them. -/
def fns (σ : Rescoping) : List FnDecl → List FnDecl
  | [] => []
  | f :: rest => (σ.part 0).fn f :: (σ.part 1).fns rest

/-- A type part. -/
def typeDecl (σ : Rescoping) (t : TypeDecl) : TypeDecl :=
  { t with
    primaryParams := (σ.part 0).params t.primaryParams
    members := (σ.part 1).fns t.members }

/-- Type parts. -/
def typeDecls (σ : Rescoping) : List TypeDecl → List TypeDecl
  | [] => []
  | t :: rest => (σ.part 0).typeDecl t :: (σ.part 1).typeDecls rest

/-- A program. -/
def program (σ : Rescoping) (p : Program) : Program := ⟨σ.typeDecls p.types⟩

/-! ## What does not change -/

@[simp] theorem expr_id (σ : Rescoping) (e : Expr) : (σ.expr e).id = e.id := by
  rcases e with ⟨id, kind, ty, span⟩
  rw [expr]

@[simp] theorem expr_ty (σ : Rescoping) (e : Expr) : (σ.expr e).ty = e.ty := by
  rcases e with ⟨id, kind, ty, span⟩
  rw [expr]

@[simp] theorem expr_span (σ : Rescoping) (e : Expr) : (σ.expr e).span = e.span := by
  rcases e with ⟨id, kind, ty, span⟩
  rw [expr]

@[simp] theorem isNullLiteral_expr (σ : Rescoping) :
    (e : Expr) → (σ.expr e).isNullLiteral = e.isNullLiteral
  | ⟨id, .convert operand explicit, ty, span⟩ => by
    rw [expr, exprKind, Expr.isNullLiteral, Expr.isNullLiteral]
    exact isNullLiteral_expr σ operand
  | ⟨id, .literal value, ty, span⟩ => by rw [expr, exprKind]
  | ⟨id, .var _, ty, span⟩ | ⟨id, .thisRef, ty, span⟩ | ⟨id, .field .., ty, span⟩
  | ⟨id, .property .., ty, span⟩ | ⟨id, .call .., ty, span⟩ | ⟨id, .create .., ty, span⟩
  | ⟨id, .stackAlloc .., ty, span⟩ | ⟨id, .conditional .., ty, span⟩ | ⟨id, .binary .., ty, span⟩
  | ⟨id, .test .., ty, span⟩ | ⟨id, .lambda _, ty, span⟩ | ⟨id, .arrayNew .., ty, span⟩
  | ⟨id, .anonymous _, ty, span⟩ | ⟨id, .await _, ty, span⟩ | ⟨id, .dynamicInvoke .., ty, span⟩
  | ⟨id, .outVar _, ty, span⟩ => by simp only [expr, exprKind, Expr.isNullLiteral]

/-- A pattern compares with the same constant. -/
theorem comparedConstant_pattern (σ : Rescoping) (p : Pattern) :
    TypeEnv.comparedConstant (σ.pattern p) = (TypeEnv.comparedConstant p).map σ.expr := by
  rcases p with _ | _ | _ | e | _ | _ | inner
  case negated =>
    cases inner <;> simp [pattern, TypeEnv.comparedConstant]
  all_goals simp [pattern, TypeEnv.comparedConstant]

/-! ## Outlines -/

section Outline

variable {σ : Rescoping} {tight : Bool}

theorem outline_param (h : σ.Fits tight) (q : Param) :
    (σ.param q).outline tight = q.outline tight := by
  unfold param
  cases hq : q.isUnscoped with
  | true => rw [if_pos rfl]
  | false =>
    cases tight with
    | true => simp [(h rfl).paramAt]
    | false =>
      have hnew : Param.isUnscoped { q with isScoped := σ.paramAt [] q.isScoped } = false := hq
      simp [Param.outline, hq, hnew]

theorem outline_params (h : σ.Fits tight) (qs : List Param) :
    (σ.params qs).map (Param.outline tight) = qs.map (Param.outline tight) := by
  induction qs generalizing σ with
  | nil => rfl
  | cons q rest ih =>
    rw [params, List.map_cons, List.map_cons, outline_param (h.part 0), ih (h.part 1)]

/-- A member with new modifiers has the same outline. -/
theorem outline_fn (h : σ.Fits tight) (f : FnDecl) :
    (σ.fn f).outline tight = f.outline tight := by
  rcases f with ⟨id, name, kind, modifiers, typeParams, qs, ret, attrs, explicitImpl, overrides,
    body, span⟩
  rw [fn, FnDecl.outline, FnDecl.outline]
  simp only [outline_params (h.part 0)]

theorem outline_fns (h : σ.Fits tight) (fs : List FnDecl) :
    (σ.fns fs).map (FnDecl.outline tight) = fs.map (FnDecl.outline tight) := by
  induction fs generalizing σ with
  | nil => rfl
  | cons f rest ih =>
    rw [fns, List.map_cons, List.map_cons, outline_fn (h.part 0), ih (h.part 1)]

/-- A type part with new modifiers has the same outline. -/
theorem outline_typeDecl (h : σ.Fits tight) (t : TypeDecl) :
    (σ.typeDecl t).outline tight = t.outline tight := by
  simp only [typeDecl, TypeDecl.outline, outline_params (h.part 0), outline_fns (h.part 1)]

theorem outline_typeDecls (h : σ.Fits tight) (ts : List TypeDecl) :
    (σ.typeDecls ts).map (TypeDecl.outline tight) = ts.map (TypeDecl.outline tight) := by
  induction ts generalizing σ with
  | nil => rfl
  | cons t rest ih =>
    rw [typeDecls, List.map_cons, List.map_cons, outline_typeDecl (h.part 0), ih (h.part 1)]

/-- A program with new modifiers has the same outline. -/
theorem outline_program (h : σ.Fits tight) (p : Program) :
    (σ.program p).outline tight = p.outline tight := by
  simp only [program, Program.outline, outline_typeDecls h]

/-- The local functions of some statements have the same outlines. -/
theorem outline_directFunctions (h : σ.Fits tight) (xs : List Stmt) :
    (directFunctions (σ.stmts xs)).map (FnDecl.outline tight) =
      (directFunctions xs).map (FnDecl.outline tight) := by
  induction xs generalizing σ with
  | nil => rw [stmts]
  | cons x rest ih =>
    rcases x with ⟨id, kind, span⟩
    have hrest := ih (h.part 1)
    simp only [directFunctions] at hrest
    cases kind <;>
      simp [stmts, stmt, stmtKind, directFunctions, hrest, outline_fn (h.part 0)]

end Outline

end Rescoping

/-- The program without `scoped` modifiers, except those of parameters with `UnscopedRef`. Programs
are the same up to modifiers if this is the same. -/
def Program.unscoped (p : Program) : Program := Rescoping.erasing.program p

namespace TypeEnv

/-- A comparison looks at types and null literals alone. -/
@[simp] theorem binaryVerdict_expr (env : TypeEnv) (σ τ : Rescoping) (op : BinOp)
    (left right : Expr) :
    env.binaryVerdict op (σ.expr left) (τ.expr right) = env.binaryVerdict op left right := by
  simp [binaryVerdict, equalityVerdict]

/-- A pattern test looks at types and null literals alone. -/
@[simp] theorem testVerdict_pattern (env : TypeEnv) (σ : Rescoping) (subject : TypeRef)
    (p : Pattern) : env.testVerdict subject (σ.pattern p) = env.testVerdict subject p := by
  simp only [testVerdict, Rescoping.comparedConstant_pattern]
  cases comparedConstant p <;> simp

/-- A late-bound operand is refused by its type. -/
theorem dynamicErrors_cons (env : TypeEnv) (e : Expr) (rest : List Expr) :
    env.dynamicErrors (e :: rest) = env.dynamicErrors [e] ++ env.dynamicErrors rest := by
  simp only [dynamicErrors, List.filter_cons, List.filter_nil]
  split <;> rfl

theorem dynamicErrors_expr (env : TypeEnv) (σ : Rescoping) (e : Expr) :
    env.dynamicErrors [σ.expr e] = env.dynamicErrors [e] := by
  simp only [dynamicErrors, List.filter_cons, List.filter_nil, Rescoping.expr_ty]
  split <;> simp

theorem dynamicErrors_args (env : TypeEnv) (σ : Rescoping) (args : List Arg) :
    env.dynamicErrors ((σ.args args).map Arg.expr) =
      env.dynamicErrors (args.map Arg.expr) := by
  induction args generalizing σ with
  | nil => rw [Rescoping.args]
  | cons a rest ih =>
    rcases a with ⟨mode, e⟩
    rw [Rescoping.args, List.map_cons, List.map_cons, dynamicErrors_cons, dynamicErrors_expr,
      ih (σ.part 1), ← dynamicErrors_cons]

end TypeEnv

end StackEscape
