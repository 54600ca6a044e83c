import StackEscape.Proofs.OwnContract
import StackEscape.Proofs.Steps

/-!
# What a walk comes to

The expressions that a walk looks at, each with the state in which it does, and inside of a lambda or
local function with the scopes around that function. A walk comes to an expression by going on, by
entering blocks and by entering functions, and what it reports there is still reported at the end.

## Main definitions

* `StackEscape.Spot` — a state of the walk with the scopes around the innermost nested function.
* `StackEscape.Visit` — an expression at the spot where it is looked at.
* `StackEscape.Visit.ofExpr`, `ofPattern`, `ofStmts` — what the walk over a part of a body comes to.
* `StackEscape.Spot.Leads` — how the walk goes from one spot to another one.
* `StackEscape.Program.visits` — what a run comes to.

## Main results

* `StackEscape.Walk.Traces.checkExpr`, `checkPattern`, `checkStmts` — every visit is led to, and what
  it reports is kept.
* `StackEscape.Program.leads_visits`, `errors_visits` — the same for a whole run.

## Implementation notes

The visits are listed by functions with the recursion of the walk: they go through the states that the
walk goes through, and pass over what it passes over.
-/

set_option autoImplicit false

namespace StackEscape

/-! ## Values in expression trees -/

/-- Would a value of the type be part of an expression tree that may not hold it? -/
def WalkState.refusesValue (s : WalkState) (env : Surroundings) (ty : TypeRef) : Bool :=
  s.ctx.inExpressionTree && (s.types env).stackOnly ty

namespace Walk

variable {env : Surroundings} {s : WalkState} {ty : TypeRef}

/-- A refused value is given up and reported, whatever its form is. -/
theorem run_checkExpr_refused (h : s.refusesValue env ty = true) (id : NodeId) (kind : ExprKind)
    (span : Span) :
    (checkExpr env ⟨id, kind, ty, span⟩).answer s = .invalid ∧
      (checkExpr env ⟨id, kind, ty, span⟩).after s =
        { s with
          errors := s.errors ++ [⟨.expressionTree ty.display, span⟩]
          facts := s.facts.record id .invalid } := by
  unfold WalkState.refusesValue at h
  rw [checkExpr, answer_bind, after_bind, answer_get, after_get, if_pos h]
  exact ⟨rfl, rfl⟩

/-- Any other value gets the pair of its form. -/
theorem run_checkExpr_form (h : s.refusesValue env ty = false) (id : NodeId) (kind : ExprKind)
    (span : Span) :
    (checkExpr env ⟨id, kind, ty, span⟩).answer s = (checkForm env id ty span kind).answer s ∧
      (checkExpr env ⟨id, kind, ty, span⟩).after s =
        { (checkForm env id ty span kind).after s with
          facts := ((checkForm env id ty span kind).after s).facts.record id
            ((checkForm env id ty span kind).answer s) } := by
  unfold WalkState.refusesValue at h
  rw [checkExpr, answer_bind, after_bind, answer_get, after_get, if_neg (ne_true_of_eq_false h)]
  exact ⟨rfl, rfl⟩

end Walk

/-- What is recorded once one more expression is. -/
theorem Facts.pair?_record (f : Facts) (id id' : NodeId) (pair : ScopePair) :
    (f.record id pair).pair? id' = if id' = id then some pair else f.pair? id' :=
  Table.get?_set _ _ _ _

/-- What is recorded for an expression was recorded last, or it was recorded before. -/
theorem Facts.of_pair?_record {f : Facts} {id id' : NodeId} {pair other : ScopePair}
    (h : (f.record id pair).pair? id' = some other) :
    id = id' ∧ pair = other ∨ f.pair? id' = some other := by
  rw [pair?_record] at h
  split at h
  · next heq => exact .inl ⟨heq.symm, Option.some.inj h⟩
  · exact .inr h

/-! ## Spots -/

/-- A state of the walk. Inside of a lambda or local function it knows the scopes around the innermost
one. -/
structure Spot where
  /-- The state. -/
  state : WalkState
  /-- The scopes around the innermost nested function, if there is one. -/
  outside : Option (List Scope) := none

namespace Spot

variable {α : Type}

/-- The spot after a walk. -/
def after (p : Spot) (m : Walk α) : Spot := { p with state := m.after p.state }

/-- The spot inside of a scope that no function begins with. -/
def block (p : Spot) (kind : ScopeKind) (stmts : List Stmt) : Spot :=
  { p with state := p.state.inBlock kind stmts }

/-- The spot inside of a nested function. -/
def enter (p : Spot) (kind : ScopeKind) (frame : FunctionFrame) : Spot :=
  ⟨p.state.inFunction kind frame, some p.state.ctx.scopes⟩

/-- The spot with the local functions of some statements. -/
def functions (p : Spot) (stmts : List Stmt) : Spot :=
  { p with state := p.state.withFunctions stmts }

/-- The spot with the type parameters of a local function in scope. -/
def typeParams (p : Spot) (env : Surroundings) (decl : FnDecl) : Spot :=
  { p with state := { p.state with generics := p.state.localScope env decl } }

/-- The spot where the statements of a lambda begin. -/
def lambda (p : Spot) (env : Surroundings) (fn : Lambda) : Spot :=
  ((p.enter (.lambda fn.isExpressionTree) (Walk.lambdaFrame p.state env fn)).after
    (Walk.bindParams env true fn.params (fn.params.map fun q =>
      ParamContract.ofParam q ((p.state.types env).stackOnly q.ty)))).functions fn.body

/-- The spot where the statements of a local function begin. -/
def localFunction (p : Spot) (env : Surroundings) (decl : FnDecl) : Spot :=
  let entered := p.after (Walk.enterLocalFunction env decl)
  let contract := (Walk.enterLocalFunction env decl).answer p.state
  (((entered.typeParams env decl).enter .localFunction
    (Walk.localFrame entered.state decl contract)).after
      (Walk.bindParams env true decl.params contract.params)).functions (decl.body.getD [])

end Spot

/-! ## Visits -/

/-- An expression at the spot where it is looked at. -/
structure Visit where
  /-- Where it is looked at. -/
  spot : Spot
  /-- The expression. -/
  expr : Expr

namespace Visit

mutual

/-- The visits of the walk over an expression, its own first. -/
def ofExpr (env : Surroundings) : Expr → Spot → List Visit
  | ⟨id, kind, ty, span⟩ => fun p =>
    ⟨p, ⟨id, kind, ty, span⟩⟩ ::
      if p.state.refusesValue env ty then [] else ofKind env id ty span kind p

/-- The visits of an expression by its form. -/
def ofKind (env : Surroundings) (id : NodeId) (ty : TypeRef) (span : Span) :
    ExprKind → Spot → List Visit
  | .literal _ | .var _ | .thisRef | .outVar _ => fun _ => []
  | .field receiver _ _ => ofOptional env receiver
  | .property receiver _ args | .call receiver _ _ args => fun p =>
    ofReceiver env receiver p ++ ofArgs env args (p.after (Walk.checkReceiver env receiver))
  | .create _ args => fun p => ofArgs env args (p.after (Walk.checkShape env ty span))
  | .stackAlloc _ len => ofExpr env len
  | .conditional cond thenExpr elseExpr _ => fun p =>
    let q := p.after (Walk.checkExpr env cond)
    ofExpr env cond p ++
      (ofExpr env thenExpr q ++ ofExpr env elseExpr (q.after (Walk.checkExpr env thenExpr)))
  | .convert operand _ => ofExpr env operand
  | .binary _ left right => fun p =>
    ofExpr env left p ++ ofExpr env right (p.after (Walk.checkExpr env left))
  | .test operand pattern => fun p =>
    let q := p.after (Walk.checkExpr env operand)
    let settle := Walk.settleTest env id span operand.ty pattern
    ofExpr env operand p ++
      if settle.answer q.state then
        ofPattern env ((Walk.checkExpr env operand).answer p.state) operand.ty span pattern
          (q.after settle)
      else []
  | .lambda fn => ofLambda env fn
  | .arrayNew _ elems => fun p => ofExprs env elems (p.after (Walk.checkShape env ty span))
  | .anonymous members => ofMembers env members
  | .await operand => ofExpr env operand
  | .dynamicInvoke receiver _ args => fun p =>
    ofExpr env receiver p ++ ofValues env args (p.after (Walk.checkExpr env receiver))

/-- The visits of a receiver or an initial value. -/
def ofOptional (env : Surroundings) : Option Expr → Spot → List Visit
  | none => fun _ => []
  | some e => ofExpr env e

/-- The visits of the receiver of a call. -/
def ofReceiver (env : Surroundings) : Option Expr → Spot → List Visit
  | none => fun _ => []
  | some e => fun p => if e.isOutVar then [] else ofExpr env e p

/-- The visits of the arguments of a call. A variable declared in place is not looked at. -/
def ofArgs (env : Surroundings) : List Arg → Spot → List Visit
  | [] => fun _ => []
  | ⟨mode, e⟩ :: rest => fun p =>
    (if e.isOutVar then [] else ofExpr env e p) ++
      ofArgs env rest (p.after (Walk.operandOf env e mode (Walk.checkExpr env e)))

/-- The visits of arguments of which only the values matter. -/
def ofValues (env : Surroundings) : List Arg → Spot → List Visit
  | [] => fun _ => []
  | ⟨_, e⟩ :: rest => fun p =>
    ofExpr env e p ++ ofValues env rest (p.after (Walk.checkExpr env e))

/-- The visits of array elements. -/
def ofExprs (env : Surroundings) : List Expr → Spot → List Visit
  | [] => fun _ => []
  | e :: rest => fun p => ofExpr env e p ++ ofExprs env rest (p.after (Walk.checkExpr env e))

/-- The visits of the members of an anonymous object. -/
def ofMembers (env : Surroundings) : List NamedExpr → Spot → List Visit
  | [] => fun _ => []
  | ⟨name, e⟩ :: rest => fun p =>
    let pair := (Walk.checkExpr env e).answer p.state
    ofExpr env e p ++ ofMembers env rest
      ((p.after (Walk.checkExpr env e)).after (Walk.checkNamed env name e pair))

/-- The visits of a lambda. -/
def ofLambda (env : Surroundings) : Lambda → Spot → List Visit
  | ⟨params, retTy, body, isExpressionTree, isStatic, isAsync⟩ => fun p =>
    ofStmts env body (p.lambda env ⟨params, retTy, body, isExpressionTree, isStatic, isAsync⟩)

/-- The visits of a pattern. -/
def ofPattern (env : Surroundings) (input : ScopePair) (inputTy : TypeRef) (span : Span) :
    Pattern → Spot → List Visit
  | .discard | .typeTest _ | .declaration .. => fun _ => []
  | .constant e => ofExpr env e
  | .property ty subpatterns => ofSubPatterns env input (ty.getD inputTy) subpatterns
  | .positional deconstruct subpatterns componentTys => fun p =>
    let taken := Walk.deconstructInput env deconstruct componentTys input inputTy span
    ofComponents env (taken.answer p.state) span subpatterns componentTys (p.after taken)
  | .negated inner => ofPattern env input inputTy span inner

/-- The visits of the entries of a property pattern. -/
def ofSubPatterns (env : Surroundings) (input : ScopePair) (receiverTy : TypeRef) :
    List SubPattern → Spot → List Visit
  | [] => fun _ => []
  | ⟨access, ty, pattern, span⟩ :: rest => fun p =>
    let access := Walk.accessMember env access input receiverTy ty span
    let pair := access.answer p.state
    ofPattern env pair ty span pattern (p.after access) ++
      ofSubPatterns env input receiverTy rest
        ((p.after access).after (Walk.checkPattern env pair ty span pattern))

/-- The visits of the parts of a positional pattern, as far as there are component types. -/
def ofComponents (env : Surroundings) (outcome : Option Outcome) (span : Span) :
    List Pattern → List TypeRef → Spot → List Visit
  | pattern :: rest, ty :: tys => fun p =>
    let pair := Walk.componentPair outcome ((p.state.types env).stackOnly ty)
    ofPattern env pair ty span pattern p ++
      ofComponents env outcome span rest tys (p.after (Walk.checkPattern env pair ty span pattern))
  | _, _ => fun _ => []

/-- The visits of a local variable's declaration. -/
def ofLocal (env : Surroundings) : LocalDecl → Spot → List Visit
  | ⟨_, ty, _, _, init, span⟩ => fun p =>
    ofOptional env init (p.after (Walk.checkShape env ty span))

/-- The visits of some statements. -/
def ofStmts (env : Surroundings) : List Stmt → Spot → List Visit
  | [] => fun _ => []
  | s :: rest => fun p => ofStmt env s p ++ ofStmts env rest (p.after (Walk.checkStmt env s))

/-- The visits of a statement. The target of a by-value assignment to a property is not looked at, but
its receiver and its arguments are. -/
def ofStmt (env : Surroundings) : Stmt → Spot → List Visit
  | ⟨_, .expr e, _⟩ | ⟨_, .yieldReturn e, _⟩ | ⟨_, .ret (some e), _⟩ => ofExpr env e
  | ⟨_, .declare decl, _⟩ => ofLocal env decl
  | ⟨_, .assign ⟨_, .property receiver _ args, _, _⟩ value false, _⟩ => fun p =>
    let q := p.after (Walk.checkReceiver env receiver)
    ofReceiver env receiver p ++ (ofArgs env args q ++
      if value.isOutVar then [] else ofExpr env value (q.after (Walk.checkArgs env args)))
  | ⟨_, .assign target value _, _⟩ => fun p =>
    ofExpr env target p ++ ofExpr env value (p.after (Walk.checkExpr env target))
  | ⟨_, .ret none, _⟩ => fun _ => []
  | ⟨_, .block body, _⟩ => fun p => ofStmts env body (p.block .block body)
  | ⟨_, .ifElse cond thenBranch elseBranch, _⟩ => fun p =>
    let q := p.after (Walk.checkExpr env cond)
    ofExpr env cond p ++ (ofStmts env thenBranch (q.block .block thenBranch) ++
      ofElse env elseBranch (q.after (Walk.block thenBranch (Walk.checkStmts env thenBranch))))
  | ⟨_, .whileLoop cond body, _⟩ => fun p =>
    ofExpr env cond p ++ ofStmts env body ((p.after (Walk.checkExpr env cond)).block .block body)
  | ⟨_, .foreach loop, span⟩ => ofForeach env span loop
  | ⟨_, .using region, _⟩ => ofUsing env region
  | ⟨_, .localFunction decl, _⟩ => ofLocalFunction env decl

/-- The visits of the second branch of a conditional statement. -/
def ofElse (env : Surroundings) : Option (List Stmt) → Spot → List Visit
  | none => fun _ => []
  | some body => fun p => ofStmts env body (p.block .block body)

/-- The visits of an iteration. -/
def ofForeach (env : Surroundings) (span : Span) : ForeachStmt → Spot → List Visit
  | ⟨binding, byRef, collection, enumerator, isAwait, body⟩ => fun p =>
    let loop : ForeachStmt := ⟨binding, byRef, collection, enumerator, isAwait, body⟩
    let q := p.after (Walk.checkExpr env collection)
    let enter := Walk.enterLoop env loop ((Walk.checkExpr env collection).answer p.state) span
      ((q.state.types env).stackOnly enumerator.ty) (isAwait || q.state.forbidsLocals)
    let inner := (q.block .block []).after enter
    let element := (enter.answer (q.block .block []).state).1
    let bind := Walk.bindIteration env loop
      (fun element => Walk.checkPattern env element enumerator.elementTy span binding) element
    ofExpr env collection p ++ (ofPattern env element enumerator.elementTy span binding inner ++
      ofStmts env body ((inner.after bind).block .block body))

/-- The visits of a region with a resource. -/
def ofUsing (env : Surroundings) : UsingStmt → Spot → List Visit
  | ⟨.expr e, _, isAwait, body⟩ => fun p =>
    let q := p.block .block []
    let pair := (Walk.checkExpr env e).answer q.state
    let r := q.after (Walk.checkExpr env e)
    let op := Operand.ofExpr e pair ((r.state.types env).stackOnly e.ty) .none false
    ofExpr env e q ++
      ofStmts env body ((r.after (Walk.enterRegion isAwait op e.ty)).block .block body)
  | ⟨.declare decl, _, isAwait, body⟩ => fun p =>
    let q := p.block .block []
    let r := q.after (Walk.checkLocal env (!(q.state.types env).stackOnly decl.ty) decl)
    let op := (Walk.declaredResource env decl).answer r.state
    ofLocal env decl q ++
      ofStmts env body ((r.after (Walk.enterRegion isAwait op decl.ty)).block .block body)

/-- The visits of a local function. -/
def ofLocalFunction (env : Surroundings) : FnDecl → Spot → List Visit
  | ⟨id, name, kind, modifiers, typeParams, params, ret, attrs, explicitImpl, overrides, body,
      span⟩ => fun p =>
    ofBody env body (p.localFunction env ⟨id, name, kind, modifiers, typeParams, params, ret, attrs,
      explicitImpl, overrides, body, span⟩)

/-- The visits of the statements of a function, if it has any. -/
def ofBody (env : Surroundings) : Option (List Stmt) → Spot → List Visit
  | none => fun _ => []
  | some body => ofStmts env body

end

end Visit

/-! ## From spot to spot -/

namespace WalkState

/-- What was reported and filed before is kept later. -/
structure Before (env : Surroundings) (s t : WalkState) : Prop where
  /-- No error is forgotten. -/
  errors : s.errors <+: t.errors
  /-- Contracts and capabilities are filed. -/
  tables : Relation.ReflTransGen env.TableStep s.tables t.tables

namespace Before

variable {env : Surroundings} {s t u : WalkState}

theorem refl (env : Surroundings) (s : WalkState) : Before env s s := ⟨List.prefix_refl _, .refl⟩

theorem trans (h : Before env s t) (h' : Before env t u) : Before env s u :=
  ⟨h.errors.trans h'.errors, h.tables.trans h'.tables⟩

end Before

/-- A later state at the same depth keeps what was reported and filed. -/
theorem Progress.before {env : Surroundings} {s t : WalkState} (h : s.Progress env t) :
    s.Before env t := by
  obtain ⟨es, he⟩ := h.errors
  exact ⟨⟨es, he.symm⟩, h.tables⟩

end WalkState

namespace Spot

/-- The walk goes from one spot to another one: it goes on, enters blocks, and enters functions. -/
inductive Leads (env : Surroundings) (p : Spot) : Spot → Prop
  /-- It stays. -/
  | here : Leads env p p
  /-- It goes on at the same depth. -/
  | later {q : Spot} {t : WalkState} (h : Leads env p q) (ht : q.state.Progress env t) :
      Leads env p { q with state := t }
  /-- It enters a block. -/
  | block {q : Spot} {kind : ScopeKind} {stmts : List Stmt} (h : Leads env p q)
      (hkind : kind.isFunction = false)
      (hd : ∀ d ∈ directFunctions stmts, d ∈ env.member.localFunctions) :
      Leads env p (q.block kind stmts)
  /-- It enters a nested function. -/
  | enter {q : Spot} {kind : ScopeKind} (h : Leads env p q) (hkind : kind.isNested = true)
      (frame : FunctionFrame) : Leads env p (q.enter kind frame)
  /-- It declares the local functions of a function. -/
  | functions {q : Spot} {stmts : List Stmt} (h : Leads env p q)
      (hd : ∀ d ∈ directFunctions stmts, d ∈ env.member.localFunctions) :
      Leads env p (q.functions stmts)
  /-- It brings the type parameters of a local function into scope, which are filed. -/
  | typeParams {q : Spot} {d : FnDecl} (h : Leads env p q) (hd : d ∈ env.member.localFunctions)
      (hfiled : ∀ x ∈ d.typeParams,
        (q.state.tables.caps.get? ⟨env.localKey d, x.name⟩).isSome) :
      Leads env p (q.typeParams env d)

namespace Leads

variable {env : Surroundings} {p q r : Spot}

theorem trans (h : Leads env p q) (h' : Leads env q r) : Leads env p r := by
  induction h' with
  | here => exact h
  | later _ ht ih => exact ih.later ht
  | block _ hkind hd ih => exact ih.block hkind hd
  | enter _ hkind frame ih => exact ih.enter hkind frame
  | functions _ hd ih => exact ih.functions hd
  | typeParams _ hd hfiled ih => exact ih.typeParams hd hfiled

/-- The walk stays within the body. -/
theorem placed (h : Leads env p q) (hp : p.state.Placed env) : q.state.Placed env := by
  induction h with
  | here => exact hp
  | later _ ht ih => exact ht.placed ih
  | block _ _ hd ih => exact (ih.pushScope _ _).declareFunctions hd
  | enter _ _ _ ih => exact ih.pushScope _ _
  | functions _ hd ih => exact ih.declareFunctions hd
  | typeParams _ hd _ ih => exact ih.localScope hd

/-- It enters a nested function, binds its parameters and declares its local functions. -/
theorem body {kind : ScopeKind} (hkind : kind.isNested = true) (frame : FunctionFrame)
    {params : Walk Unit} (hparams : params.Proper env) {stmts : List Stmt}
    (hd : ∀ d ∈ directFunctions stmts, d ∈ env.member.localFunctions) (hp : p.state.Placed env) :
    Leads env p (((p.enter kind frame).after params).functions stmts) := by
  have henter : p.Leads env (p.enter kind frame) := .enter .here hkind frame
  exact (henter.later (hparams.progress _ (henter.placed hp))).functions hd

/-- What was reported and filed is kept. -/
theorem before (h : Leads env p q) : p.state.Before env q.state := by
  induction h with
  | here => exact .refl env _
  | later _ ht ih => exact ih.trans ht.before
  | block _ _ _ ih => exact ⟨ih.errors, ih.tables⟩
  | enter _ _ _ ih => exact ⟨ih.errors, ih.tables⟩
  | functions _ _ ih => exact ⟨ih.errors, ih.tables⟩
  | typeParams _ _ _ ih => exact ⟨ih.errors, ih.tables⟩

end Leads

end Spot

namespace Visit

/-- The state once the expression was looked at. -/
def done (env : Surroundings) (v : Visit) : WalkState :=
  (Walk.checkExpr env v.expr).after v.spot.state

/-- The pair that the expression gets. -/
def pair (env : Surroundings) (v : Visit) : ScopePair :=
  (Walk.checkExpr env v.expr).answer v.spot.state

end Visit

/-! ## Walks with their visits -/

/-- The surroundings with nothing to measure a walk against. -/
def Surroundings.inspection (env : Surroundings) : Inspection := ⟨env, .empty, .empty, False⟩

/-- The walk leads to its visits, which are at some sites, and keeps what they report, and it records no
other expressions but variables declared in place. -/
structure Walk.Traces (env : Surroundings) (ws : List Site) (tr : Spot → List Visit) {α : Type}
    (m : Walk α) : Prop where
  /-- It is proper. -/
  proper : ws ⊆ env.member.sites → m.Proper env
  /-- Its visits are led to and kept. -/
  visits : ws ⊆ env.member.sites → ∀ p : Spot, p.state.Placed env → ∀ v ∈ tr p,
    p.Leads env v.spot ∧ (v.done env).Before env (m.after p.state)
  /-- Its visits are at the sites. -/
  sites : ∀ p : Spot, ∀ v ∈ tr p, ∃ a, Site.ofExpr a v.expr ⊆ ws
  /-- What it records are visits. -/
  recorded : ws ⊆ env.member.sites → ∀ p : Spot, p.state.Placed env → ∀ id pair,
    (m.after p.state).facts.pair? id = some pair →
      p.state.facts.pair? id = some pair ∨ pair = .confined ∨
        ∃ v ∈ tr p, v.expr.id = id ∧ v.pair env = pair

namespace Walk.Traces

variable {env : Surroundings} {ws ws' : List Site} {tr : Spot → List Visit} {α β : Type}

/-- A walk that covers no sites comes to no expression. -/
theorem silent {a : Point} {Q : α → Prop} {m : Walk α} (h : Covers env.inspection a False [] Q m) :
    Traces env [] (fun _ => []) m where
  proper _ := h.proper (List.nil_subset _)
  visits := by simp
  sites := by simp
  recorded _ p hp id pair hid :=
    .inl (by rwa [h.frame (List.nil_subset _) p.state hp id List.not_mem_nil] at hid)

theorem pure (x : α) : Traces env [] (fun _ => []) (Pure.pure x : Walk α) :=
  ⟨fun _ => .pure x, by simp, by simp, fun _ _ _ _ _ hid => .inl hid⟩

/-- One walk after the other comes to the visits of both. -/
theorem bind {m : Walk α} {f : α → Walk β} {tr' : α → Spot → List Visit}
    (hm : Traces env ws tr m) (hf : ∀ x, Traces env ws' (tr' x) (f x)) :
    Traces env (ws ++ ws') (fun p => tr p ++ tr' (m.answer p.state) (p.after m)) (m >>= f) where
  proper hsub := (hm.proper (List.append_subset.1 hsub).1).bind
    fun x => (hf x).proper (List.append_subset.1 hsub).2
  visits hsub p hp v hv := by
    obtain ⟨hws, hws'⟩ := List.append_subset.1 hsub
    have hfirst := (hm.proper hws).progress _ hp
    have hlast := ((hf (m.answer p.state)).proper hws').progress _ (hfirst.placed hp)
    rcases List.mem_append.1 hv with hv | hv
    · obtain ⟨hleads, hbefore⟩ := hm.visits hws p hp v hv
      exact ⟨hleads, hbefore.trans hlast.before⟩
    · obtain ⟨hleads, hbefore⟩ := (hf _).visits hws' (p.after m) (hfirst.placed hp) v hv
      exact ⟨(Spot.Leads.here.later hfirst).trans hleads, hbefore⟩
  sites p v hv := by
    rcases List.mem_append.1 hv with hv | hv
    · obtain ⟨a, ha⟩ := hm.sites p v hv
      exact ⟨a, List.Subset.trans ha (List.subset_append_left _ _)⟩
    · obtain ⟨a, ha⟩ := (hf _).sites (p.after m) v hv
      exact ⟨a, List.Subset.trans ha (List.subset_append_right _ _)⟩
  recorded hsub p hp id pair hid := by
    obtain ⟨hws, hws'⟩ := List.append_subset.1 hsub
    have hfirst := (hm.proper hws).progress _ hp
    rcases (hf _).recorded hws' (p.after m) (hfirst.placed hp) id pair hid with
      hid | hid | ⟨v, hv, hvisit⟩
    · rcases hm.recorded hws p hp id pair hid with hid | hid | ⟨v, hv, hvisit⟩
      · exact .inl hid
      · exact .inr (.inl hid)
      · exact .inr (.inr ⟨v, List.mem_append_left _ hv, hvisit⟩)
    · exact .inr (.inl hid)
    · exact .inr (.inr ⟨v, List.mem_append_right _ hv, hvisit⟩)

/-- The visits may be listed in another way. -/
theorem listed {m : Walk α} {tr' : Spot → List Visit} (hm : Traces env ws tr m)
    (h : ∀ p v, v ∈ tr' p ↔ v ∈ tr p) : Traces env ws tr' m where
  proper := hm.proper
  visits hsub p hp v hv := hm.visits hsub p hp v ((h p v).1 hv)
  sites p v hv := hm.sites p v ((h p v).1 hv)
  recorded hsub p hp id pair hid :=
    (hm.recorded hsub p hp id pair hid).imp_right fun hid => hid.imp_right fun ⟨v, hv, hvisit⟩ =>
      ⟨v, (h p v).2 hv, hvisit⟩

/-- The sites may be more. -/
theorem among {m : Walk α} (hm : Traces env ws tr m) (h : ws ⊆ ws') : Traces env ws' tr m :=
  ⟨fun hsub => hm.proper (List.Subset.trans h hsub), fun hsub => hm.visits (List.Subset.trans h hsub),
    fun p v hv => (hm.sites p v hv).imp fun _ ha => List.Subset.trans ha h,
    fun hsub => hm.recorded (List.Subset.trans h hsub)⟩

/-- A walk and then one that comes to no expression. -/
theorem bind_nil {m : Walk α} {f : α → Walk β} (hm : Traces env ws tr m)
    (hf : ∀ x, Traces env [] (fun _ => []) (f x)) : Traces env ws tr (m >>= f) :=
  ((hm.bind hf).listed fun _ _ => by simp).among
    (List.append_subset.2 ⟨List.Subset.refl _, List.nil_subset _⟩)

/-- A walk that comes to no expression and then another one. -/
theorem nil_bind {m : Walk α} {f : α → Walk β} {tr : α → Spot → List Visit}
    (hm : Traces env [] (fun _ => []) m) (hf : ∀ x, Traces env ws (tr x) (f x)) :
    Traces env ws (fun p => tr (m.answer p.state) (p.after m)) (m >>= f) :=
  (hm.bind hf).listed fun _ _ => .rfl

theorem discard {m : Walk α} (hm : Traces env ws tr m) : Traces env ws tr (Functor.discard m) :=
  hm.bind_nil fun _ => .pure _

theorem ite {c : Prop} [Decidable c] {m n : Walk α} {tr tr' : Spot → List Visit}
    (hm : Traces env ws tr m) (hn : Traces env ws tr' n) :
    Traces env ws (fun p => if c then tr p else tr' p) (if c then m else n) := by
  split
  · exact hm
  · exact hn

/-! ### Scopes of their own -/

/-- The visits of a block are those of its statements. -/
theorem inScope {kind : ScopeKind} (hkind : kind.isFunction = false) {stmts : List Stmt}
    (hd : ws ⊆ env.member.sites → ∀ d ∈ directFunctions stmts, d ∈ env.member.localFunctions)
    {body : Walk Unit} (hb : Traces env ws tr body) :
    Traces env ws (fun p => tr (p.block kind stmts))
      (Walk.inScope kind (Walk.declareFunctions stmts >>= fun _ => body)) where
  proper hsub := .inScope hkind (hd hsub) (hb.proper hsub)
  visits hsub p hp v hv := by
    have hentry : p.Leads env (p.block kind stmts) := .block .here hkind (hd hsub)
    obtain ⟨hleads, hbefore⟩ := hb.visits hsub _ (hentry.placed hp) v hv
    rw [Walk.after_inScope]
    exact ⟨hentry.trans hleads, hbefore.errors, hbefore.tables⟩
  sites p v hv := hb.sites _ v hv
  recorded hsub p hp id pair hid := by
    have hentry : p.Leads env (p.block kind stmts) := .block .here hkind (hd hsub)
    rw [Walk.after_inScope] at hid
    exact hb.recorded hsub _ (hentry.placed hp) id pair hid

/-- A scope without local functions. -/
theorem scope {kind : ScopeKind} (hkind : kind.isFunction = false) {body : Walk Unit}
    (hb : Traces env ws tr body) :
    Traces env ws (fun p => tr (p.block kind [])) (Walk.inScope kind body) :=
  inScope hkind (fun _ _ hd => absurd hd List.not_mem_nil) hb

/-- A block, given the walk over its statements. -/
theorem block {a : Point} {stmts : List Stmt} {body : Walk Unit}
    (hb : Traces env (Site.ofStmts a stmts) tr body) :
    Traces env (Site.ofStmts a stmts) (fun p => tr (p.block .block stmts))
      (Walk.block stmts body) :=
  inScope rfl Covers.mem_localFunctions_of_direct hb

/-- The visits of a nested function are those of its statements. -/
theorem inFunction {kind : ScopeKind} (hkind : kind.isNested = true) (frame : FunctionFrame)
    {stmts : List Stmt}
    (hd : ws ⊆ env.member.sites → ∀ d ∈ directFunctions stmts, d ∈ env.member.localFunctions)
    {params body : Walk Unit} (hp : Traces env [] (fun _ => []) params)
    (hb : Traces env ws tr body) :
    Traces env ws (fun p => tr (((p.enter kind frame).after params).functions stmts))
      (Walk.inFunction kind frame (params >>= fun _ => Walk.declareFunctions stmts >>= fun _ =>
        body)) where
  proper hsub := by
    refine .inFunction ?_ frame (hd hsub) (hp.proper (List.nil_subset _)) (hb.proper hsub)
    cases kind <;> first | rfl | exact hkind
  visits hsub p hplaced v hv := by
    have hinside := Spot.Leads.body hkind frame (hp.proper (List.nil_subset _)) (hd hsub) hplaced
    obtain ⟨hleads, hbefore⟩ := hb.visits hsub _ (hinside.placed hplaced) v hv
    rw [Walk.after_inFunction]
    exact ⟨hinside.trans hleads, hbefore.errors, hbefore.tables⟩
  sites p v hv := hb.sites _ v hv
  recorded hsub p hplaced id pair hid := by
    have hinside := Spot.Leads.body hkind frame (hp.proper (List.nil_subset _)) (hd hsub) hplaced
    rw [Walk.after_inFunction] at hid
    have henter : p.Leads env (p.enter kind frame) := .enter .here hkind frame
    rcases hb.recorded hsub _ (hinside.placed hplaced) id pair hid with hid | hid
    · rcases hp.recorded (List.nil_subset _) _ (henter.placed hplaced) id pair hid with
        hid | hid | ⟨v, hv, _⟩
      · exact .inl hid
      · exact .inr (.inl hid)
      · exact absurd hv List.not_mem_nil
    · exact .inr hid

/-- Binding parameters comes to no expression. -/
theorem bindParams (checkShapes : Bool) (params : List Param) (contracts : List ParamContract) :
    Traces env [] (fun _ => []) (Walk.bindParams env checkShapes params contracts) :=
  silent (Covers.bindParams (I := env.inspection) (a := ⟨[], false, .void⟩) checkShapes params
    contracts)

/-- A lambda, given the walk over its statements. -/
theorem lambdaOver {a : Point} (fn : Lambda) {body : Walk Unit}
    (hproper : Site.ofStmts a fn.body ⊆ env.member.sites →
      (Walk.lambdaOver env fn body).Proper env)
    (hb : Traces env (Site.ofStmts a fn.body) tr body) :
    Traces env (Site.ofStmts a fn.body) (fun p => tr (p.lambda env fn))
      (Walk.lambdaOver env fn body) := by
  have hkind : (ScopeKind.lambda fn.isExpressionTree).isNested = true := rfl
  have hin (p : Spot) := inFunction hkind
    (Walk.lambdaFrame p.state env fn) Covers.mem_localFunctions_of_direct
    (bindParams true fn.params (fn.params.map fun q =>
      ParamContract.ofParam q ((p.state.types env).stackOnly q.ty))) hb
  exact ⟨hproper, fun hsub p => (hin p).visits hsub p, fun p => (hin p).sites p,
    fun hsub p => (hin p).recorded hsub p⟩

/-- What is done before the body of a local function is looked at comes to no expression. -/
theorem enterLocalFunction {decl : FnDecl} (hd : decl ∈ env.member.localFunctions) :
    Traces env [] (fun _ => []) (Walk.enterLocalFunction env decl) := by
  let a : Point := ⟨[], false, .void⟩
  exact (silent (Covers.reportAll (a := a) _)).nil_bind fun _ =>
    (silent (Covers.fileTypeParams (I := env.inspection) (a := a) hd)).nil_bind fun _ =>
      (silent (Covers.reportAll (a := a) _)).nil_bind fun _ =>
        silent (Covers.localContract (I := env.inspection) (a := a) hd)

/-- A local function, given the walk over its statements. -/
theorem localFunctionOver {decl : FnDecl}
    (hd : ws ⊆ env.member.sites → decl ∈ env.member.localFunctions)
    (hdirect : ws ⊆ env.member.sites →
      ∀ d ∈ directFunctions (decl.body.getD []), d ∈ env.member.localFunctions)
    {body : Walk Unit}
    (hproper : ws ⊆ env.member.sites → (Walk.localFunctionOver env decl body).Proper env)
    (hb : Traces env ws tr body) :
    Traces env ws (fun p => tr (p.localFunction env decl))
      (Walk.localFunctionOver env decl body) := by
  have hscope (hsub : ws ⊆ env.member.sites) (p : Spot) (hp : p.state.Placed env) :
      p.Leads env ((p.after (Walk.enterLocalFunction env decl)).typeParams env decl) := by
    have hentry := (enterLocalFunction (hd hsub)).proper (List.nil_subset _)
    refine (Spot.Leads.later .here (hentry.progress _ hp)).typeParams (hd hsub) fun q hq => ?_
    exact Capabilities.isSome_fillOwn p.state.tables.caps env.program (env.localKey decl)
      decl.typeParams p.state.generics hq
  have hkind : ScopeKind.localFunction.isNested = true := rfl
  have hin (p : Spot) := inFunction hkind
    (Walk.localFrame (p.after (Walk.enterLocalFunction env decl)).state decl
      ((Walk.enterLocalFunction env decl).answer p.state)) hdirect
    (bindParams true decl.params ((Walk.enterLocalFunction env decl).answer p.state).params) hb
  refine ⟨hproper, fun hsub p hp v hv => ?_, fun p => (hin p).sites _,
    fun hsub p hp id pair hid => ?_⟩
  · obtain ⟨hleads, hbefore⟩ := (hin p).visits hsub _ ((hscope hsub p hp).placed hp) v hv
    rw [Walk.localFunctionOver_eq]
    exact ⟨(hscope hsub p hp).trans hleads, hbefore.errors, hbefore.tables⟩
  · rw [Walk.localFunctionOver_eq] at hid
    rcases (hin p).recorded hsub _ ((hscope hsub p hp).placed hp) id pair hid with hid | hid
    · exact (enterLocalFunction (hd hsub)).recorded (List.nil_subset _) p hp id pair hid |>.imp_right
        fun hid => hid.imp_right fun ⟨v, hv, _⟩ => absurd hv List.not_mem_nil
    · exact .inr hid

/-! ### Parts of the walk -/

/-- An expression is a visit of its own. -/
theorem expr {a : Point} (id : NodeId) (kind : ExprKind) (ty : TypeRef) (span : Span)
    (hproper : ⟨a, .expr ⟨id, kind, ty, span⟩⟩ :: Site.ofKind a kind ⊆ env.member.sites →
      (Walk.checkExpr env ⟨id, kind, ty, span⟩).Proper env)
    (hk : Traces env (Site.ofKind a kind) tr (Walk.checkForm env id ty span kind)) :
    Traces env (⟨a, .expr ⟨id, kind, ty, span⟩⟩ :: Site.ofKind a kind)
      (fun p => ⟨p, ⟨id, kind, ty, span⟩⟩ :: if p.state.refusesValue env ty then [] else tr p)
      (Walk.checkExpr env ⟨id, kind, ty, span⟩) where
  proper := hproper
  visits hsub p hp v hv := by
    rcases List.mem_cons.1 hv with rfl | hv
    · exact ⟨.here, .refl env _⟩
    · split at hv
      · exact absurd hv List.not_mem_nil
      · next hrefused =>
        obtain ⟨hleads, hbefore⟩ := hk.visits (List.cons_subset.1 hsub).2 p hp v hv
        rw [(run_checkExpr_form (Bool.eq_false_iff.2 hrefused) id kind span).2]
        exact ⟨hleads, hbefore.errors, hbefore.tables⟩
  sites p v hv := by
    rcases List.mem_cons.1 hv with rfl | hv
    · exact ⟨a, by rw [Site.ofExpr]; exact List.Subset.refl _⟩
    · split at hv
      · exact absurd hv List.not_mem_nil
      · obtain ⟨b, hb⟩ := hk.sites p v hv
        exact ⟨b, List.Subset.trans hb (List.subset_cons_self _ _)⟩
  recorded hsub p hp id' pair hid := by
    let own : Visit := ⟨p, ⟨id, kind, ty, span⟩⟩
    -- What is recorded last is the visit itself.
    cases hrefused : p.state.refusesValue env ty with
    | true =>
      obtain ⟨hanswer, hafter⟩ := run_checkExpr_refused hrefused id kind span
      rw [hafter, ← hanswer] at hid
      rcases Facts.of_pair?_record hid with h | h
      · exact .inr (.inr ⟨own, List.mem_cons_self .., h⟩)
      · exact .inl h
    | false =>
      obtain ⟨hanswer, hafter⟩ := run_checkExpr_form hrefused id kind span
      rw [hafter, ← hanswer] at hid
      rcases Facts.of_pair?_record hid with h | h
      · exact .inr (.inr ⟨own, List.mem_cons_self .., h⟩)
      · refine (hk.recorded (List.cons_subset.1 hsub).2 p hp id' pair h).imp_right fun h =>
          h.imp_right fun ⟨v, hv, hvisit⟩ => ⟨v, List.mem_cons_of_mem _ ?_, hvisit⟩
        exact hv

/-- An operand comes to its expression, unless it declares a variable in place. -/
theorem operandOf {a : Point} (e : Expr) (mode : RefKind) {check : Walk ScopePair}
    (hc : Traces env (Site.ofExpr a e) tr check) :
    Traces env (Site.ofExpr a e) (fun p => if e.isOutVar then [] else tr p)
      (Walk.operandOf env e mode check) := by
  have hso : Traces env [] (fun _ => []) (Walk.stackOnly env e.ty) :=
    silent (Covers.stackOnly (a := a) e.ty)
  have main {ws : List Site} {tr : Spot → List Visit} (fresh : Bool) {w : Walk ScopePair}
      (hw : Traces env ws tr w) :
      Traces env ws tr (w >>= fun pair => Walk.stackOnly env e.ty >>= fun stackOnly =>
        Pure.pure (Operand.ofExpr e pair stackOnly mode fresh)) :=
    hw.bind_nil fun _ => hso.bind_nil fun _ => .pure _
  obtain ⟨id, kind, ty, span⟩ := e
  cases kind with
  | outVar name =>
    have hrecord : Traces env [] (fun _ => []) (Walk.record id .confined) := by
      refine ⟨fun _ => .record id .confined, by simp, by simp, fun _ p _ id' pair hid => ?_⟩
      rcases Facts.of_pair?_record hid with ⟨_, h⟩ | h
      · exact .inr (.inl h.symm)
      · exact .inl h
    exact ((main true (hrecord.bind_nil fun _ => .pure _)).among (List.nil_subset _)).listed
      fun _ _ => .rfl
  | _ => exact (main false hc).listed fun _ _ => .rfl

/-- What follows a test is only done if the test succeeds. -/
theorem guarded {m : Walk Bool} {w : Walk α} {y : α} (hm : Traces env [] (fun _ => []) m)
    (hw : Traces env ws tr w) :
    Traces env ws (fun p => if m.answer p.state then tr (p.after m) else [])
      (m >>= fun ok => if ok = true then w else Pure.pure y) := by
  have hrest (ok : Bool) : Traces env ws (fun p => if ok = true then tr p else [])
      (if ok = true then w else Pure.pure y) := ite hw ((pure y).among (List.nil_subset _))
  exact hm.nil_bind hrest

/-- A region comes to its statements. -/
theorem usingOver {a : Point} (region : UsingStmt) (op : Operand) (ty : TypeRef) (span : Span)
    {body : Walk Unit} (hb : Traces env (Site.ofStmts a region.body) tr body) :
    Traces env (Site.ofStmts a region.body)
      (fun p => tr ((p.after (Walk.enterRegion region.isAwait op ty)).block .block region.body))
      (Walk.usingOver env region op ty span body) := by
  have henter := silent (Covers.enterRegion (I := env.inspection) (a := a) region.isAwait op ty)
  rw [Walk.usingOver_eq]
  exact henter.nil_bind fun refused => (block hb).bind_nil fun _ =>
    silent (Covers.leaveRegion (a := a) region span refused False.elim)

/-- An iteration comes to the expressions of its pattern and to its statements. -/
theorem foreachOver {a : Point} (loop : ForeachStmt) (collection : ScopePair) (span : Span)
    {matchElement : ScopePair → Walk Unit} {body : Walk Unit} {tm : ScopePair → Spot → List Visit}
    (hm : ∀ element, Traces env ws (tm element)
      (Walk.bindIteration env loop matchElement element))
    (hb : Traces env (Site.ofStmts a loop.body) tr body) :
    Traces env (ws ++ Site.ofStmts a loop.body)
      (fun p =>
        let enter := Walk.enterLoop env loop collection span
          ((p.state.types env).stackOnly loop.enumerator.ty) (loop.isAwait || p.state.forbidsLocals)
        let inner := (p.block .block []).after enter
        let element := (enter.answer (p.block .block []).state).1
        tm element inner ++
          tr ((inner.after (Walk.bindIteration env loop matchElement element)).block .block
            loop.body))
      (Walk.foreachOver env loop collection span matchElement body) := by
  have henter (so refused : Bool) : Covers env.inspection a False [] _
      (Walk.enterLoop env loop collection span so refused) :=
    Covers.enterLoop loop span so refused False.elim
  rw [Walk.foreachOver_eq]
  exact (silent (Covers.stackOnly (a := a) loop.enumerator.ty)).nil_bind fun so =>
    (silent (Covers.refusesStackOnly (a := a) loop.isAwait)).nil_bind fun refused =>
      scope rfl ((silent (henter so refused)).nil_bind fun x => (hm x.1).bind fun _ =>
        (block hb).bind_nil fun _ => silent (Covers.leaveLoop (a := a) loop span False.elim))

/-! ### The walk -/

mutual

theorem checkExpr {a : Point} : (e : Expr) →
    Traces env (Site.ofExpr a e) (Visit.ofExpr env e) (Walk.checkExpr env e)
  | ⟨id, kind, ty, span⟩ => by
    have hcovers : Covers env.inspection a False (Site.ofExpr a ⟨id, kind, ty, span⟩) _
        (Walk.checkExpr env ⟨id, kind, ty, span⟩) := Covers.checkExpr ⟨id, kind, ty, span⟩
    rw [Visit.ofExpr, Site.ofExpr]
    exact expr id kind ty span hcovers.proper (checkForm id ty span kind)

theorem checkForm {a : Point} (id : NodeId) (ty : TypeRef) (span : Span) : (kind : ExprKind) →
    Traces env (Site.ofKind a kind) (Visit.ofKind env id ty span kind)
      (Walk.checkForm env id ty span kind)
  | .literal _ => by
    rw [Site.ofKind, Visit.ofKind, Walk.checkForm]
    exact pure _
  | .var name => by
    rw [Site.ofKind, Visit.ofKind, Walk.checkForm]
    exact silent (Covers.readVariable (a := a) name span)
  | .thisRef => by
    rw [Site.ofKind, Visit.ofKind, Walk.checkForm]
    exact silent (Covers.readThis (a := a) span)
  | .field receiver owner name => by
    rw [Site.ofKind, Visit.ofKind, Walk.checkForm_field]
    exact (checkOptional receiver).bind_nil fun _ =>
      silent (Covers.readField (a := a) owner name ty False.elim)
  | .property receiver getter args => by
    rw [Site.ofKind, Visit.ofKind, Walk.checkForm]
    exact (checkReceiver receiver).bind fun _ => (checkArgs args).bind_nil fun _ =>
      silent (Covers.readProperty (a := a) ty span False.elim)
  | .call receiver method typeArgs args => by
    rw [Site.ofKind, Visit.ofKind, Walk.checkForm_call]
    exact (checkReceiver receiver).bind fun _ => (checkArgs args).bind_nil fun _ =>
      silent (Covers.callMethod (a := a) method typeArgs ty span False.elim)
  | .create ctor args => by
    rw [Site.ofKind, Visit.ofKind, Walk.checkForm_create]
    exact (silent (Covers.checkShape (a := a) ty span)).nil_bind fun _ =>
      (checkArgs args).bind_nil fun _ =>
        silent (Covers.construct (a := a) ctor ty span False.elim False.elim)
  | .stackAlloc _ len => by
    rw [Site.ofKind, Visit.ofKind, Walk.checkForm]
    exact (checkExpr len).discard.bind_nil fun _ =>
      (silent (Covers.stackOnly (a := a) ty)).bind_nil fun _ => pure _
  | .conditional cond thenExpr elseExpr byRef => by
    rw [Site.ofKind, Visit.ofKind, Walk.checkForm]
    exact (checkExpr cond).discard.bind fun _ => (checkExpr thenExpr).bind fun _ =>
      (checkExpr elseExpr).bind_nil fun _ =>
        (silent (Covers.stackOnly (a := a) ty)).bind_nil fun _ => pure _
  | .convert operand explicit => by
    rw [Site.ofKind, Visit.ofKind, Walk.checkForm_convert]
    exact (checkExpr operand).bind_nil fun _ =>
      silent (Covers.convertTo (a := a) operand.ty ty span False.elim)
  | .binary op left right => by
    rw [Site.ofKind, Visit.ofKind, Walk.checkForm_binary]
    exact (checkExpr left).bind fun _ => (checkExpr right).bind_nil fun _ =>
      silent (Covers.compare (a := a) id span op left right False.elim)
  | .test operand pattern => by
    rw [Site.ofKind, Visit.ofKind, Walk.checkForm_test]
    exact (checkExpr operand).bind fun input =>
      guarded (silent (Covers.settleTest (a := a) id span operand.ty pattern))
        ((checkPattern input operand.ty span pattern).bind_nil fun _ => pure _)
  | .lambda fn => by
    rw [Site.ofKind, Visit.ofKind, Walk.checkForm]
    exact (checkLambda fn).bind_nil fun _ => pure _
  | .arrayNew _ elems => by
    rw [Site.ofKind, Visit.ofKind, Walk.checkForm]
    exact (silent (Covers.checkShape (a := a) ty span)).nil_bind fun _ =>
      (checkAll elems).bind_nil fun _ => pure _
  | .anonymous members => by
    rw [Site.ofKind, Visit.ofKind, Walk.checkForm]
    exact (checkMembers members).bind_nil fun _ => pure _
  | .await operand => by
    rw [Site.ofKind, Visit.ofKind, Walk.checkForm]
    exact (checkExpr operand).discard.bind_nil fun _ => pure _
  | .dynamicInvoke receiver name args => by
    rw [Site.ofKind, Visit.ofKind, Walk.checkForm_dynamicInvoke]
    exact (checkExpr receiver).discard.bind fun _ => (checkValues args).bind_nil fun _ =>
      silent (Covers.invokeLate (a := a) _)
  | .outVar _ => by
    rw [Site.ofKind, Visit.ofKind, Walk.checkForm]
    exact pure _

theorem checkOptional {a : Point} : (receiver : Option Expr) →
    Traces env (Site.ofOptional a receiver) (Visit.ofOptional env receiver)
      (Walk.checkOptional env receiver)
  | none => by
    rw [Site.ofOptional, Visit.ofOptional, Walk.checkOptional]
    exact pure _
  | some e => by
    rw [Site.ofOptional, Visit.ofOptional, Walk.checkOptional]
    exact (checkExpr e).bind_nil fun _ => pure _

theorem checkReceiver {a : Point} : (receiver : Option Expr) →
    Traces env (Site.ofOptional a receiver) (Visit.ofReceiver env receiver)
      (Walk.checkReceiver env receiver)
  | none => by
    rw [Site.ofOptional, Visit.ofReceiver, Walk.checkReceiver]
    exact pure _
  | some e => by
    rw [Site.ofOptional, Visit.ofReceiver, Walk.checkReceiver]
    exact (operandOf e .none (checkExpr e)).bind_nil fun _ => pure _

theorem checkArgs {a : Point} : (args : List Arg) →
    Traces env (Site.ofArgs a args) (Visit.ofArgs env args) (Walk.checkArgs env args)
  | [] => by
    rw [Site.ofArgs, Visit.ofArgs, Walk.checkArgs]
    exact pure _
  | ⟨mode, e⟩ :: rest => by
    rw [Site.ofArgs, Visit.ofArgs, Walk.checkArgs]
    exact (operandOf e mode (checkExpr e)).bind fun _ => (checkArgs rest).bind_nil fun _ => pure _

theorem checkValues {a : Point} : (args : List Arg) →
    Traces env (Site.ofArgs a args) (Visit.ofValues env args) (Walk.checkValues env args)
  | [] => by
    rw [Site.ofArgs, Visit.ofValues, Walk.checkValues]
    exact pure _
  | ⟨_, e⟩ :: rest => by
    rw [Site.ofArgs, Visit.ofValues, Walk.checkValues]
    exact (checkExpr e).discard.bind fun _ => checkValues rest

theorem checkAll {a : Point} : (elems : List Expr) →
    Traces env (Site.ofExprs a elems) (Visit.ofExprs env elems) (Walk.checkAll env elems)
  | [] => by
    rw [Site.ofExprs, Visit.ofExprs, Walk.checkAll]
    exact pure _
  | e :: rest => by
    rw [Site.ofExprs, Visit.ofExprs, Walk.checkAll]
    exact (checkExpr e).discard.bind fun _ => checkAll rest

theorem checkMembers {a : Point} : (members : List NamedExpr) →
    Traces env (Site.ofMembers a members) (Visit.ofMembers env members)
      (Walk.checkMembers env members)
  | [] => by
    rw [Site.ofMembers, Visit.ofMembers, Walk.checkMembers]
    exact pure _
  | ⟨name, e⟩ :: rest => by
    rw [Site.ofMembers, Visit.ofMembers, Walk.checkMembers_cons]
    exact (checkExpr e).bind fun pair =>
      (silent (Covers.checkNamed (a := a) name e pair)).nil_bind fun _ =>
        (checkMembers rest).bind_nil fun _ => pure _

theorem checkLambda {a : Point} : (fn : Lambda) →
    Traces env (Site.ofLambda a fn) (Visit.ofLambda env fn) (Walk.checkLambda env fn)
  | ⟨params, retTy, body, isExpressionTree, isStatic, isAsync⟩ => by
    have hcovers : Covers env.inspection a False
        (Site.ofLambda a ⟨params, retTy, body, isExpressionTree, isStatic, isAsync⟩) _
        (Walk.checkLambda env ⟨params, retTy, body, isExpressionTree, isStatic, isAsync⟩) :=
      Covers.checkLambda _
    rw [Site.ofLambda, Walk.checkLambda] at hcovers
    rw [Site.ofLambda, Visit.ofLambda, Walk.checkLambda]
    exact lambdaOver ⟨params, retTy, body, isExpressionTree, isStatic, isAsync⟩ hcovers.proper
      (checkStmts body)

theorem checkPattern {a : Point} (input : ScopePair) (inputTy : TypeRef) (span : Span) :
    (p : Pattern) →
    Traces env (Site.ofPattern a inputTy p) (Visit.ofPattern env input inputTy span p)
      (Walk.checkPattern env input inputTy span p)
  | .discard => by
    rw [Visit.ofPattern, Walk.checkPattern]
    exact (pure _).among (List.nil_subset _)
  | .typeTest _ => by
    rw [Visit.ofPattern, Walk.checkPattern]
    exact (pure _).among (List.nil_subset _)
  | .declaration name ty span => by
    rw [Visit.ofPattern, Walk.checkPattern]
    exact (silent (Covers.bindPattern (a := a) name ty span False.elim)).among (List.nil_subset _)
  | .constant e => by
    rw [Site.ofPattern, Visit.ofPattern, Walk.checkPattern]
    exact (checkExpr e).discard.among (List.subset_cons_self _ _)
  | .property ty subpatterns => by
    rw [Site.ofPattern, Visit.ofPattern, Walk.checkPattern]
    exact (checkSubPatterns input (ty.getD inputTy) subpatterns).among (List.subset_cons_self _ _)
  | .positional deconstruct subpatterns componentTys => by
    rw [Site.ofPattern, Visit.ofPattern, Walk.checkPattern]
    have htaken : Covers env.inspection a False [] _
        (Walk.deconstructInput env deconstruct componentTys input inputTy span) :=
      Covers.deconstructInput deconstruct componentTys inputTy span False.elim
    exact ((silent htaken).nil_bind fun outcome => checkComponents outcome span subpatterns
      componentTys).among (List.subset_cons_self _ _)
  | .negated inner => by
    rw [Site.ofPattern, Visit.ofPattern, Walk.checkPattern]
    exact (checkPattern input inputTy span inner).among (List.subset_cons_self _ _)

theorem checkSubPatterns {a : Point} (input : ScopePair) (receiverTy : TypeRef) :
    (subs : List SubPattern) →
    Traces env (Site.ofSubPatterns a subs) (Visit.ofSubPatterns env input receiverTy subs)
      (Walk.checkSubPatterns env input receiverTy subs)
  | [] => by
    rw [Site.ofSubPatterns, Visit.ofSubPatterns, Walk.checkSubPatterns]
    exact pure _
  | ⟨access, ty, p, span⟩ :: rest => by
    rw [Site.ofSubPatterns, Visit.ofSubPatterns, Walk.checkSubPatterns]
    have haccess : Covers env.inspection a False [] _
        (Walk.accessMember env access input receiverTy ty span) :=
      Covers.accessMember access receiverTy ty span False.elim
    exact (silent haccess).nil_bind fun extracted => (checkPattern extracted ty span p).bind fun _ =>
      checkSubPatterns input receiverTy rest

theorem checkComponents {a : Point} (outcome : Option Outcome) (span : Span) :
    (subs : List Pattern) → (tys : List TypeRef) →
    Traces env (Site.ofComponents a tys subs) (Visit.ofComponents env outcome span subs tys)
      (Walk.checkComponents env outcome span subs tys)
  | [], tys => by
    rw [Site.ofComponents, Visit.ofComponents.eq_def, Walk.checkComponents.eq_def]
    exact pure _
  | p :: rest, [] => by
    rw [Visit.ofComponents.eq_def, Walk.checkComponents.eq_def]
    exact (pure _).among (List.nil_subset _)
  | p :: rest, ty :: tys => by
    rw [Site.ofComponents, Visit.ofComponents, Walk.checkComponents]
    exact (silent (Covers.stackOnly (a := a) ty)).nil_bind fun so =>
      (checkPattern (Walk.componentPair outcome so) ty span p).bind fun _ =>
        checkComponents outcome span rest tys

theorem checkLocal {a : Point} (reportAsync : Bool) : (decl : LocalDecl) →
    Traces env (Site.ofLocal a decl) (Visit.ofLocal env decl)
      (Walk.checkLocal env reportAsync decl)
  | ⟨name, ty, refKind, isScoped, init, span⟩ => by
    rw [Site.ofLocal, Visit.ofLocal, Walk.checkLocal]
    exact (silent (Covers.checkShape (a := a) ty span)).nil_bind fun wellFormed =>
      (checkInit init).bind_nil fun pair => silent (Covers.declareLocal (a := a)
        ⟨name, ty, refKind, isScoped, init, span⟩ reportAsync False.elim False.elim)

theorem checkInit {a : Point} : (init : Option Expr) →
    Traces env (Site.ofOptional a init) (Visit.ofOptional env init) (Walk.checkInit env init)
  | none => by
    rw [Site.ofOptional, Visit.ofOptional, Walk.checkInit]
    exact pure _
  | some e => by
    rw [Site.ofOptional, Visit.ofOptional, Walk.checkInit]
    exact (checkExpr e).bind_nil fun _ => pure _

theorem checkStmts {a : Point} : (stmts : List Stmt) →
    Traces env (Site.ofStmts a stmts) (Visit.ofStmts env stmts) (Walk.checkStmts env stmts)
  | [] => by
    rw [Site.ofStmts, Visit.ofStmts, Walk.checkStmts]
    exact pure _
  | s :: rest => by
    rw [Site.ofStmts, Visit.ofStmts, Walk.checkStmts]
    exact (checkStmt s).bind fun _ => checkStmts rest

theorem checkStmt {a : Point} : (s : Stmt) →
    Traces env (Site.ofStmt a s) (Visit.ofStmt env s) (Walk.checkStmt env s)
  | ⟨_, .expr e, _⟩ => by
    rw [Site.ofStmt, Visit.ofStmt, Walk.checkStmt]
    exact (checkExpr e).discard.among (List.subset_cons_self _ _)
  | ⟨_, .yieldReturn e, _⟩ => by
    rw [Site.ofStmt, Visit.ofStmt, Walk.checkStmt]
    exact (checkExpr e).discard.among (List.subset_cons_self _ _)
  | ⟨_, .declare decl, _⟩ => by
    rw [Site.ofStmt, Visit.ofStmt, Walk.checkStmt]
    exact (checkLocal true decl).among (List.subset_cons_self _ _)
  | ⟨id, .assign ⟨tid, kind, ty, tspan⟩ value byRef, span⟩ => by
    have hassign (t v : ScopePair) : Traces env [] (fun _ => [])
        (Walk.checkAssignment env ⟨tid, kind, ty, tspan⟩ value byRef t v) :=
      silent (Covers.checkAssignment (a := a) _ value byRef False.elim)
    have main := (checkExpr (a := a) ⟨tid, kind, ty, tspan⟩).bind fun t =>
      (checkExpr (a := a) value).bind_nil fun v => hassign t v
    cases kind
    case property receiver getter args =>
      cases byRef with
      | true => exact main.among (List.subset_cons_self _ _)
      | false =>
        rw [Site.ofStmt, Visit.ofStmt, Walk.checkStmt]
        exact ((checkReceiver receiver).bind fun _ => (checkArgs args).bind fun _ =>
          (operandOf value .none (checkExpr value)).bind_nil fun _ =>
            (silent (Covers.invokeRef (a := a) .void span False.elim)).discard).among
              (List.subset_cons_self _ _)
    all_goals exact main.among (List.subset_cons_self _ _)
  | ⟨_, .ret none, _⟩ => by
    rw [Visit.ofStmt, Walk.checkStmt]
    exact (pure _).among (List.nil_subset _)
  | ⟨_, .ret (some value), _⟩ => by
    rw [Site.ofStmt, Visit.ofStmt, Walk.checkStmt]
    exact ((checkExpr value).bind_nil fun pair =>
      silent (Covers.checkReturned (a := a) value False.elim)).among (List.subset_cons_self _ _)
  | ⟨_, .block body, _⟩ => by
    rw [Site.ofStmt, Visit.ofStmt, Walk.checkStmt]
    exact (block (checkStmts body)).among (List.subset_cons_self _ _)
  | ⟨_, .ifElse cond thenBranch elseBranch, _⟩ => by
    rw [Site.ofStmt, Visit.ofStmt, Walk.checkStmt]
    exact ((checkExpr cond).discard.bind fun _ => (block (checkStmts thenBranch)).bind fun _ =>
      checkElse elseBranch).among (List.subset_cons_self _ _)
  | ⟨_, .whileLoop cond body, _⟩ => by
    rw [Site.ofStmt, Visit.ofStmt, Walk.checkStmt]
    exact ((checkExpr cond).discard.bind fun _ => block (checkStmts body)).among
      (List.subset_cons_self _ _)
  | ⟨_, .foreach loop, span⟩ => by
    rw [Site.ofStmt, Visit.ofStmt, Walk.checkStmt]
    exact (checkForeach span loop).among (List.subset_cons_self _ _)
  | ⟨_, .using region, span⟩ => by
    rw [Site.ofStmt, Visit.ofStmt, Walk.checkStmt]
    exact (checkUsing span region).among (List.subset_cons_self _ _)
  | ⟨id, .localFunction decl, span⟩ => by
    rw [Site.ofStmt, Visit.ofStmt, Walk.checkStmt]
    exact checkLocalFunction id span decl

theorem checkElse {a : Point} : (branch : Option (List Stmt)) →
    Traces env (Site.ofElse a branch) (Visit.ofElse env branch) (Walk.checkElse env branch)
  | none => by
    rw [Site.ofElse, Visit.ofElse, Walk.checkElse]
    exact pure _
  | some body => by
    rw [Site.ofElse, Visit.ofElse, Walk.checkElse]
    exact block (checkStmts body)

theorem checkForeach {a : Point} (span : Span) : (loop : ForeachStmt) →
    Traces env (Site.ofForeach a loop) (Visit.ofForeach env span loop)
      (Walk.checkForeach env span loop)
  | ⟨binding, byRef, collection, enumerator, isAwait, body⟩ => by
    have hb : Traces env (Site.ofStmts (a.block body) body) (Visit.ofStmts env body)
        (Walk.checkStmts env body) := checkStmts body
    have hm (element : ScopePair) : Traces env (Site.ofPattern a enumerator.elementTy binding)
        (Visit.ofPattern env element enumerator.elementTy span binding)
        (Walk.checkPattern env element enumerator.elementTy span binding) :=
      checkPattern element enumerator.elementTy span binding
    have main {ws : List Site} (hbind : ∀ element, Traces env ws
          (Visit.ofPattern env element enumerator.elementTy span binding)
          (Walk.bindIteration env ⟨binding, byRef, collection, enumerator, isAwait, body⟩
            (fun element => Walk.checkPattern env element enumerator.elementTy span binding)
            element)) :
        Traces env (Site.ofExpr a collection ++ (ws ++ Site.ofStmts (a.block body) body))
          (Visit.ofForeach env span ⟨binding, byRef, collection, enumerator, isAwait, body⟩)
          (Walk.checkForeach env span ⟨binding, byRef, collection, enumerator, isAwait, body⟩) := by
      rw [Visit.ofForeach, Walk.checkForeach]
      exact (checkExpr collection).bind fun pair => foreachOver _ pair span hbind hb
    -- A binding that only declares the loop variable is no pattern.
    cases binding with
    | declaration name ty dspan =>
      refine main fun element => ?_
      rw [Visit.ofPattern]
      exact silent (Covers.declareBinding (a := a) name ty byRef dspan False.elim)
    | _ => exact main hm

theorem checkUsing {a : Point} (span : Span) : (region : UsingStmt) →
    Traces env (Site.ofUsing a region) (Visit.ofUsing env region) (Walk.checkUsing env span region)
  | ⟨.expr e, dispose, isAwait, body⟩ => by
    rw [Site.ofUsing, Visit.ofUsing, Walk.checkUsing]
    exact scope rfl ((checkExpr e).bind fun pair =>
      (silent (Covers.stackOnly (a := a) e.ty)).nil_bind fun so =>
        usingOver ⟨.expr e, dispose, isAwait, body⟩ (.ofExpr e pair so .none false) e.ty span
          (checkStmts body))
  | ⟨.declare decl, dispose, isAwait, body⟩ => by
    rw [Site.ofUsing, Visit.ofUsing, Walk.checkUsing]
    exact scope rfl ((silent (Covers.stackOnly (a := a) decl.ty)).nil_bind fun so =>
      (checkLocal (!so) decl).bind fun _ =>
        (silent (Covers.declaredResource (a := a) decl)).nil_bind fun op =>
          usingOver ⟨.declare decl, dispose, isAwait, body⟩ op decl.ty span (checkStmts body))

theorem checkLocalFunction {a : Point} (id : NodeId) (span : Span) : (decl : FnDecl) →
    Traces env (⟨a, .stmt ⟨id, .localFunction decl, span⟩⟩ :: Site.ofLocalFunction a decl)
      (Visit.ofLocalFunction env decl) (Walk.checkLocalFunction env decl)
  | ⟨fid, name, kind, modifiers, typeParams, params, ret, attrs, explicitImpl, overrides, body,
      fspan⟩ => by
    let decl : FnDecl := ⟨fid, name, kind, modifiers, typeParams, params, ret, attrs, explicitImpl,
      overrides, body, fspan⟩
    have hcovers : Covers env.inspection a False
        (⟨a, .stmt ⟨id, .localFunction decl, span⟩⟩ :: Site.ofLocalFunction a decl) _
        (Walk.checkLocalFunction env decl) := Covers.checkLocalFunction id span decl
    have hdirect (hsub : Site.ofLocalFunction a decl ⊆ env.member.sites) :
        ∀ d ∈ directFunctions (decl.body.getD []), d ∈ env.member.localFunctions := by
      rw [Site.ofLocalFunction] at hsub
      cases body with
      | none => exact fun d hd => absurd hd List.not_mem_nil
      | some stmts =>
        rw [Site.ofBody] at hsub
        exact Covers.mem_localFunctions_of_direct hsub
    rw [Site.ofLocalFunction, Walk.checkLocalFunction] at hcovers
    rw [Visit.ofLocalFunction, Site.ofLocalFunction, Walk.checkLocalFunction]
    refine localFunctionOver (fun hsub => ?_)
      (fun hsub => hdirect (List.cons_subset.1 hsub).2) hcovers.proper
      ((checkBody body).among (List.subset_cons_self _ _))
    exact List.mem_filterMap.2 ⟨_, hsub (List.mem_cons_self ..), rfl⟩

theorem checkBody {a : Point} : (body : Option (List Stmt)) →
    Traces env (Site.ofBody a body) (Visit.ofBody env body) (Walk.checkBody env body)
  | none => by
    rw [Site.ofBody, Visit.ofBody, Walk.checkBody]
    exact pure _
  | some body => by
    rw [Site.ofBody, Visit.ofBody, Walk.checkBody]
    exact checkStmts body

end

end Walk.Traces

/-! ## Programs -/

/-- A step files and takes nothing away. -/
theorem Surroundings.TableStep.within {env : Surroundings} {T U : Tables}
    (h : env.TableStep T U) : T.caps.Within U.caps := by
  cases h with
  | member => exact .refl _
  | localFunction => exact .refl _
  | typeParams => exact Capabilities.within_fillOwn _ _ _ _ _

/-- What is filed before is filed later. -/
theorem WalkState.Before.within {env : Surroundings} {s t : WalkState} (h : s.Before env t) :
    s.tables.caps.Within t.tables.caps := by
  have main {T U : Tables} (h : Relation.ReflTransGen env.TableStep T U) : T.caps.Within U.caps := by
    induction h with
    | refl => exact .refl _
    | tail _ hstep ih => exact ih.trans hstep.within
  exact main h.tables

namespace Program

variable {p : Program} {runtime : Bool} {T : Tables} {m : Member} {ms : List Member} {v : Visit}

/-- The spot where the walk over the statements of a member starts. -/
def bodySpot (p : Program) (runtime : Bool) (T : Tables) (m : Member) (body : List Stmt) : Spot :=
  ⟨p.bodyEntry runtime T m body, none⟩

/-- The visits of the walk over a member. -/
def memberVisits (p : Program) (runtime : Bool) (T : Tables) (m : Member) : List Visit :=
  match m.decl.body with
  | none => []
  | some body => Visit.ofStmts ⟨p, m, runtime⟩ body (p.bodySpot runtime T m body)

/-- The visits of the walks over some members, one after the other, each with its member. -/
def visitsOf (p : Program) (runtime : Bool) : Tables → List Member → List (Member × Visit)
  | _, [] => []
  | T, m :: ms => (p.memberVisits runtime T m).map (Prod.mk m) ++
      visitsOf p runtime (p.checkMember runtime T m).2 ms

/-- The visits of a run with default options. -/
def visits (p : Program) : List (Member × Visit) :=
  p.visitsOf true ⟨(p.checkDeclarations true .empty).1, .empty⟩ p.bodies

/-- The walk over the statements of a member with its visits. -/
theorem traces_body (runtime : Bool) {body : List Stmt} (hbody : m.decl.body = some body) :
    Walk.Traces ⟨p, m, runtime⟩ m.sites (Visit.ofStmts ⟨p, m, runtime⟩ body)
      (Walk.checkStmts ⟨p, m, runtime⟩ body) := by
  rw [sites_eq_of_body hbody]
  exact Walk.Traces.checkStmts body

/-- The walk over a member leads to its visits, and keeps what they report. -/
theorem leads_memberVisits (hv : v ∈ p.memberVisits runtime T m) : ∃ body,
    m.decl.body = some body ∧ (p.bodySpot runtime T m body).Leads ⟨p, m, runtime⟩ v.spot ∧
      (v.done ⟨p, m, runtime⟩).Before ⟨p, m, runtime⟩ (p.walkMember runtime T m body) := by
  unfold memberVisits at hv
  split at hv
  · exact absurd hv List.not_mem_nil
  · next body hbody =>
    obtain ⟨hleads, hbefore⟩ := (traces_body runtime hbody).visits (List.Subset.refl _)
      (p.bodySpot runtime T m body) (placed_bodyEntry p runtime T hbody) v hv
    exact ⟨body, hbody, hleads, by rw [walkMember_eq]; exact hbefore⟩

/-- The visits of the walk over a member are nodes of its body. -/
theorem sites_memberVisits (hv : v ∈ p.memberVisits runtime T m) :
    ∃ a, Site.ofExpr a v.expr ⊆ m.sites := by
  unfold memberVisits at hv
  split at hv
  · exact absurd hv List.not_mem_nil
  · next body hbody => exact (traces_body runtime hbody).sites (p.bodySpot runtime T m body) v hv

/-- What the walk over a member records are visits, but for variables declared in place. -/
theorem recorded_memberVisits {id : NodeId} {pair : ScopePair}
    (hid : (p.checkMember runtime T m).1.facts.pair? id = some pair) :
    pair = .confined ∨ ∃ v ∈ p.memberVisits runtime T m, v.expr.id = id ∧
      v.pair ⟨p, m, runtime⟩ = pair := by
  cases hbody : m.decl.body with
  | none => rw [checkMember_of_none hbody] at hid; exact absurd hid (by simp [Facts.pair?, Facts.empty])
  | some body =>
    rw [checkMember_of_some hbody, walkMember_eq] at hid
    rcases (traces_body runtime hbody).recorded (List.Subset.refl _) (p.bodySpot runtime T m body)
      (placed_bodyEntry p runtime T hbody) id pair hid with hid | hid
    · rw [show (p.bodySpot runtime T m body).state.facts.pair? id = none from
        bodyEntry_unrecorded p runtime T m body id] at hid
      exact absurd hid (by simp)
    · rw [memberVisits, hbody]
      exact hid

/-- The first of some members is walked before all the others. -/
theorem checkMembers_cons (T : Tables) (m : Member) (ms : List Member) :
    let first := p.checkMember runtime T m
    let others := p.checkMembers runtime first.2 ms
    let all := p.checkMembers runtime T (m :: ms)
    all.1.errors = first.1.errors ++ others.1.errors ∧
      (∀ id, all.1.facts.pair? id = (others.1.facts.pair? id).or (first.1.facts.pair? id)) ∧
      all.2 = others.2 := by
  induction ms using List.reverseRecOn with
  | nil =>
    refine ⟨(List.append_nil _).symm, fun id => ?_, rfl⟩
    change (Facts.extend {} (p.checkMember runtime T m).1.facts).pair? id = _
    rw [Facts.pair?_extend]
    exact Option.or_none
  | append_singleton ms n ih =>
    obtain ⟨herrors, hpairs, htables⟩ := ih
    dsimp only at herrors hpairs htables ⊢
    rw [← List.cons_append, checkMembers_append_singleton, checkMembers_append_singleton, htables]
    refine ⟨by simp [BodyResult.merge, herrors], fun id => ?_, rfl⟩
    simp [BodyResult.merge, Facts.pair?_extend, hpairs, Option.or_assoc]

/-- What a visit reports is reported at the end, and what was filed by then is filed at the end. -/
theorem before_visitsOf (hv : (m, v) ∈ p.visitsOf runtime T ms) : m ∈ ms ∧
    (∃ before ⊆ ms, v ∈ p.memberVisits runtime (p.checkMembers runtime T before).2 m) ∧
      (v.done ⟨p, m, runtime⟩).errors ⊆ (p.checkMembers runtime T ms).1.errors ∧
      (v.done ⟨p, m, runtime⟩).tables.caps.Within (p.checkMembers runtime T ms).2.caps := by
  induction ms generalizing T with
  | nil => exact absurd hv List.not_mem_nil
  | cons n ms ih =>
    obtain ⟨herrors, _, htables⟩ := checkMembers_cons (p := p) T n ms
    rw [visitsOf, List.mem_append] at hv
    rw [herrors, htables]
    rcases hv with hv | hv
    · obtain ⟨w, hw, heq⟩ := List.mem_map.1 hv
      obtain ⟨rfl, rfl⟩ := Prod.mk.inj heq
      obtain ⟨body, hbody, _, hbefore⟩ := leads_memberVisits hw
      rw [checkMember_of_some hbody]
      exact ⟨List.mem_cons_self .., ⟨[], List.nil_subset _, hw⟩,
        fun e he => List.mem_append_left _ (hbefore.errors.subset he),
        hbefore.within.trans (passes_checkMembers p runtime _ ms).1⟩
    · obtain ⟨hm, ⟨before, hbefore, hvisit⟩, he, hcaps⟩ := ih hv
      refine ⟨List.mem_cons_of_mem _ hm, ⟨n :: before, List.cons_subset_cons _ hbefore, ?_⟩,
        fun e hmem => List.mem_append_right _ (he hmem), hcaps⟩
      rw [(checkMembers_cons (p := p) T n before).2.2]
      exact hvisit

/-- What some walks record are visits, but for variables declared in place. -/
theorem recorded_visitsOf {id : NodeId} {pair : ScopePair}
    (hid : (p.checkMembers runtime T ms).1.facts.pair? id = some pair) :
    pair = .confined ∨ ∃ x ∈ p.visitsOf runtime T ms, x.2.expr.id = id ∧
      x.2.pair ⟨p, x.1, runtime⟩ = pair := by
  induction ms generalizing T with
  | nil => exact absurd hid (by simp [checkMembers, Facts.pair?, Facts.empty])
  | cons n ms ih =>
    rw [(checkMembers_cons (p := p) T n ms).2.1, Option.or_eq_some_iff] at hid
    rw [visitsOf]
    rcases hid with hid | ⟨_, hid⟩
    · rcases ih hid with hout | ⟨x, hx, hvisit⟩
      · exact .inl hout
      · exact .inr ⟨x, List.mem_append_right _ hx, hvisit⟩
    · rcases recorded_memberVisits hid with hout | ⟨v, hv, hvisit⟩
      · exact .inl hout
      · exact .inr ⟨(n, v), List.mem_append_left _ (List.mem_map_of_mem hv), hvisit⟩

/-- A run leads to its visits, after the walks over some other members. -/
theorem leads_visits (hv : (m, v) ∈ p.visits) : m ∈ p.members ∧ ∃ before ⊆ p.members, ∃ body,
    m.decl.body = some body ∧
      (p.bodySpot true (p.checkMembers true (p.declaredTables true) before).2 m body).Leads
        ⟨p, m, true⟩ v.spot := by
  obtain ⟨hm, ⟨before, hbefore, hvisit⟩, _⟩ := before_visitsOf hv
  obtain ⟨body, hbody, hleads, _⟩ := leads_memberVisits hvisit
  exact ⟨List.mem_of_mem_filter hm, before, fun x hx => List.mem_of_mem_filter (hbefore hx), body,
    hbody, hleads⟩

/-- The visits of a run are nodes of bodies. -/
theorem sites_visits (hv : (m, v) ∈ p.visits) : ∃ a, Site.ofExpr a v.expr ⊆ m.sites := by
  obtain ⟨_, ⟨_, _, hvisit⟩, _⟩ := before_visitsOf hv
  exact sites_memberVisits hvisit

/-- What a visit reports is reported by the run. -/
theorem errors_visits (hv : (m, v) ∈ p.visits) :
    (v.done ⟨p, m, true⟩).errors ⊆ (p.analyze {}).escapeErrors := by
  rw [analyze_default]
  exact fun e he => List.mem_append_right _ ((before_visitsOf hv).2.2.1 he)

/-- What is filed by then is filed at the end. -/
theorem within_visits (hv : (m, v) ∈ p.visits) :
    (v.done ⟨p, m, true⟩).tables.caps.Within (p.analyze {}).tables.caps := by
  rw [analyze_default]
  exact (before_visitsOf hv).2.2.2

/-- What a run records are visits, but for variables declared in place. -/
theorem recorded_visits {id : NodeId} {pair : ScopePair}
    (hid : (p.analyze {}).facts.pair? id = some pair) :
    pair = .confined ∨ ∃ x ∈ p.visits, x.2.expr.id = id ∧ x.2.pair ⟨p, x.1, true⟩ = pair := by
  rw [analyze_default] at hid
  exact recorded_visitsOf hid

end Program

end StackEscape
