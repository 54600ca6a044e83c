import Mathlib.Data.Nat.Pairing
import StackEscape.Proofs.PatternPaths

/-!
# Patterns and the accesses they stand for

The way to a variable of a pattern can also be written as an access: fields and properties are read
in a chain, and what a `Deconstruct` method takes out is declared in place by a call of it. Both
yield the same.

## Main definitions

* `StackEscape.Leaf.written` — the statements that a variable stands for.
* `StackEscape.Writing.Fresh` — names under which components can be declared.
* `StackEscape.Walk.Reads` — what an expression on the way yields.

## Main results

* `StackEscape.Walk.Reads.path` — the expression for a way yields what is at the end of it.
* `StackEscape.Walk.test_binds_written` — a pattern binds what its variables stand for.

## Implementation notes

What is taken out has to be named before it can be looked into. The names are parameters of the
written form (`StackEscape.Writing`), different from one another and from all names in scope.

In a pattern, a variable declared in place counts for its value as any other expression; as the
receiver of a call it has no value yet. So the matched expression must not be one.
-/

set_option autoImplicit false

namespace StackEscape

/-! ## Accesses that are written out -/

/-- How accesses are written: what is taken out of values in some step is declared under names by
the positions of the components. -/
structure Writing where
  /-- The name of a component, by its step and its position. -/
  name : Nat → Nat → String
  /-- The identifiers of the nodes of a step. -/
  id : Nat → Nat → NodeId
  /-- Where everything is. -/
  span : Span

namespace Writing

variable (w : Writing)

/-- A component that is declared in place, by its type and its position. -/
def out (k : Nat) (x : TypeRef × Nat) : Expr :=
  ⟨w.id k (x.2 + 3), .outVar (w.name k x.2), x.1, w.span⟩

/-- The call that takes components of some types out of a value. -/
def call (k : Nat) (e : Expr) (deconstruct : MemberRef) (tys : List TypeRef) : Expr :=
  ⟨w.id k 1, .call (some e) deconstruct [] (tys.zipIdx.map fun x => ⟨.out, w.out k x⟩), .void,
    w.span⟩

/-- What has to be done before a step can be taken. -/
def stmts (k : Nat) (e : Expr) : Step → List Stmt
  | .member _ _ => []
  | .component deconstruct before ty after =>
    [⟨w.id k 0, .expr (w.call k e deconstruct (before ++ ty :: after)), w.span⟩]

/-- What a step from the value of an expression leads to. -/
def expr (k : Nat) (e : Expr) : Step → Expr
  | .member (.field owner name) ty => ⟨w.id k 2, .field (some e) owner name, ty, w.span⟩
  | .member (.property getter) ty => ⟨w.id k 2, .property (some e) getter [], ty, w.span⟩
  | .component _ before ty _ => ⟨w.id k 2, .var (w.name k before.length), ty, w.span⟩

/-- What has to be done before a way can be taken. -/
def pathStmts (k : Nat) (e : Expr) : List Step → List Stmt
  | [] => []
  | step :: rest => w.stmts k e step ++ pathStmts (k + 1) (w.expr k e step) rest

/-- What is at the end of a way. -/
def pathExpr (k : Nat) (e : Expr) : List Step → Expr
  | [] => e
  | step :: rest => pathExpr (k + 1) (w.expr k e step) rest

/-- The names differ from one another and from all names in scope. -/
structure Fresh (env : Surroundings) (c : Context) : Prop where
  /-- Each stands for one component. -/
  injective : ∀ {k i l j : Nat}, w.name k i = w.name l j → k = l ∧ i = j
  /-- No variable has such a name. -/
  lookup_eq_none : ∀ k i, c.lookup (w.name k i) = none
  /-- Nor has a parameter of a primary constructor. -/
  param_ne : ∀ k i, ∀ q ∈ env.member.owner.primaryParams, q.name ≠ w.name k i

theorem ty_expr (k : Nat) (e : Expr) (step : Step) : (w.expr k e step).ty = step.ty := by
  rcases step with ⟨_ | _, _⟩ | _ <;> rfl

end Writing

/-- The statements that a variable of a pattern stands for when an expression is matched. -/
def Leaf.written (leaf : Leaf) (w : Writing) (e : Expr) : List Stmt :=
  w.pathStmts 0 e leaf.steps ++
    [⟨w.id leaf.steps.length 0, .declare ⟨leaf.name, leaf.ty, .none, false,
      some (w.pathExpr 0 e leaf.steps), leaf.span⟩, leaf.span⟩]

namespace Walk

variable {env : Surroundings} {rs : List MemberRef} {s t u : WalkState} {w : Writing}

/-- A way may be written from here, in a function that is never suspended and outside of expression
trees: the matched expression is looked at in the first state and leads to the second. -/
structure Departure (w : Writing) (env : Surroundings) (rs : List MemberRef) (s t : WalkState) :
    Prop where
  /-- Variables can be declared. -/
  scopes : t.ctx.scopes ≠ []
  /-- The matched expression is not part of an expression tree. -/
  tree : s.ctx.inExpressionTree = false
  /-- Nor is what comes after it. -/
  tree' : t.ctx.inExpressionTree = false
  /-- No variable is refused. -/
  free : t.forbidsLocals = false
  /-- Members that share a key are the same. -/
  apart : t.KeepsApart env rs
  /-- The names for components are not taken. -/
  fresh : w.Fresh env t.ctx

/-! ### Components that are declared in place -/

/-- A component that is declared in place, as an operand. -/
def outOperand (w : Writing) (types : TypeEnv) (k : Nat) (x : TypeRef × Nat) : Operand :=
  .ofExpr (w.out k x) .confined (types.stackOnly x.1) .out true

/-- It counts for as much as a component in a pattern. -/
theorem core_outOperands (w : Writing) (t : WalkState) (env : Surroundings) (k : Nat)
    (tys : List TypeRef) (span : Span) :
    (tys.zipIdx.map (outOperand w (t.types env) k)).map Operand.core =
      (componentOuts t env tys span).map Operand.core := by
  rw [componentOuts, List.map_map, List.map_map]
  nth_rewrite 2 [← List.zipIdx_map_fst 0 tys]
  rw [List.map_map]
  rfl

/-- Components that are declared in place are operands without a value. -/
theorem run_checkArgs_out (w : Writing) (env : Surroundings) (rs : List MemberRef) (k : Nat)
    (xs : List (TypeRef × Nat)) (t : WalkState) :
    (checkArgs env (xs.map fun x => ⟨.out, w.out k x⟩)).answer t =
        xs.map (outOperand w (t.types env) k) ∧
      t.Onward env rs [] ((checkArgs env (xs.map fun x => ⟨.out, w.out k x⟩)).after t) := by
  induction xs generalizing t with
  | nil => exact run_checkArgs_nil env rs t
  | cons x xs ih =>
    let op := operandOf env (w.out k x) .out (checkExpr env (w.out k x))
    have hop : op.answer t = outOperand w (t.types env) k x := rfl
    have hafter : t.Onward env rs [] (op.after t) :=
      .of_tables rfl rfl (Context.declareAll_nil _).symm
    obtain ⟨hrest, honward⟩ := ih (op.after t)
    rw [List.map_cons, checkArgs, answer_bind, after_bind, answer_bind, after_bind]
    refine ⟨?_, hafter.trans honward⟩
    rw [List.map_cons, ← hafter.types_eq, ← hrest, hafter.types_eq, ← hop]
    rfl

/-- The variable of a component that is declared in place. -/
def outInfo (w : Writing) (types : TypeEnv) (k : Nat) (taken : Option Outcome)
    (x : TypeRef × Nat) : LocalInfo :=
  .ordinary types (w.name k x.2) x.1 (componentPair taken (types.stackOnly x.1))

/-- The variables are those of the components, or there are none and the components were given
up. -/
def Declared (w : Writing) (types : TypeEnv) (k : Nat) (taken : Option Outcome)
    (tys : List TypeRef) (locals : List LocalInfo) : Prop :=
  locals = tys.zipIdx.map (outInfo w types k taken) ∨
    locals = [] ∧ ∀ stackOnly, componentPair taken stackOnly = .invalid

namespace Declared

variable {types : TypeEnv} {k : Nat} {taken : Option Outcome} {tys : List TypeRef}
  {locals : List LocalInfo}

/-- They have names of the step. -/
theorem exists_name (h : Declared w types k taken tys locals) {info : LocalInfo}
    (hinfo : info ∈ locals) : ∃ i, info.name = w.name k i := by
  rcases h with rfl | ⟨rfl, -⟩
  · obtain ⟨x, -, rfl⟩ := List.mem_map.1 hinfo
    exact ⟨x.2, rfl⟩
  · cases hinfo

/-- Their names are distinct. -/
theorem nodup (h : Declared w types k taken tys locals) {c : Context} (hfresh : w.Fresh env c) :
    (locals.map LocalInfo.name).Nodup := by
  rcases h with rfl | ⟨rfl, -⟩
  · have hpositions : (tys.zipIdx.map Prod.snd).Nodup := by simp [List.nodup_range']
    have hnames := hpositions.map fun i j hij => (hfresh.injective (k := k) (l := k) hij).2
    rw [List.map_map] at hnames ⊢
    exact hnames
  · exact List.nodup_nil

end Declared

/-- A call declares the components with the pairs that a pattern finds, or it declares none and a
pattern finds nothing. -/
theorem callLocals_out (w : Writing) (t : WalkState) (env : Surroundings)
    (deconstruct : MemberRef) (op : Operand) (k : Nat) (tys : List TypeRef) :
    let outs := tys.zipIdx.map (outOperand w (t.types env) k)
    let taken := (t.contract? env deconstruct).map fun c =>
      c.outcome (some op) outs ((t.types env).stackOnly .void)
    Declared w (t.types env) k taken tys (callLocals t env deconstruct (some op) outs) := by
  intro outs taken
  cases hc : t.contract? env deconstruct with
  | none =>
    refine Or.inr ⟨by simp [callLocals, hc], ?_⟩
    exact componentPair_of_invalid (by simp [taken, hc])
  | some c =>
    cases hvalid : c.valid with
    | false =>
      refine Or.inr ⟨by simp [callLocals, hc, outLocals, hvalid], ?_⟩
      exact componentPair_of_invalid (by simp [taken, hc, Contract.outcome, hvalid,
        Outcome.invalid, ScopePair.invalid])
    | true =>
      have hlocal (x : TypeRef × Nat) : outLocal? (t.types env)
          (if ((some op).toList ++ outs).any fun op => op.pair.isInvalid then .unlimited
            else c.derivedLevel (some op) outs)
          (((some op).toList ++ outs).any fun op => op.pair.isInvalid)
          (outOperand w (t.types env) k x) = some (outInfo w (t.types env) k taken x) := by
        simp only [taken, hc, Option.map_some, outInfo, Contract.outcome, hvalid, Bool.true_and]
        cases ((some op).toList ++ outs).any fun op => op.pair.isInvalid with
        | true => rfl
        | false =>
          have hresult : (c.resultPair ((t.types env).stackOnly .void)
              (c.derivedLevel (some op) outs)).isInvalid = false := c.resultPair_isInvalid _ _
          simp [componentPair, hresult]
          rfl
      refine Or.inl ?_
      simp only [callLocals, hc, Option.map_some, Option.getD_some, outLocals, hvalid, if_true]
      rw [List.filterMap_map]
      exact List.filterMap_eq_map_iff_forall_eq_some.2 fun x _ => hlocal x

/-- The call that takes components out of a value declares what a pattern finds. -/
theorem run_takeApart (hd : Departure w env rs s t) {e : Expr} {pair : ScopePair}
    {infos : List LocalInfo} (htree : u.ctx.inExpressionTree = false)
    (hop : ((receiverOf env e).answer u).core = (scrutinee t env pair e.ty).core)
    (honward : t.Onward env rs infos ((receiverOf env e).after u)) {deconstruct : MemberRef}
    (hr : deconstruct ∈ rs) (k : Nat) (tys : List TypeRef) :
    let taken := takenApart t env deconstruct tys pair e.ty
    ∃ locals, t.Onward env rs (infos ++ locals)
        ((checkExpr env (w.call k e deconstruct tys)).after u) ∧
      Declared w (t.types env) k taken tys locals := by
  intro taken
  let v := (receiverOf env e).after u
  let outs := tys.zipIdx.map (outOperand w (v.types env) k)
  obtain ⟨-, hcall⟩ := run_call htree hr (honward.keepsApart hd.apart)
    (honward.forbidsLocals_eq.trans hd.free) (run_checkArgs_out w env rs k tys.zipIdx v) (w.id k 1)
    [] .void w.span
  refine ⟨_, honward.trans hcall, ?_⟩
  have htaken : taken = (v.contract? env deconstruct).map fun c =>
      c.outcome (some ((receiverOf env e).answer u)) outs ((v.types env).stackOnly .void) := by
    have hreceiver : (some ((receiverOf env e).answer u)).map Operand.core =
        (some (scrutinee t env pair e.ty)).map Operand.core := congrArg some hop
    have houts : outs.map Operand.core = (componentOuts t env tys .zero).map Operand.core := by
      rw [← core_outOperands w t env k tys .zero, ← honward.types_eq]
    rw [honward.contracts deconstruct hr, honward.types_eq]
    exact congrArg (Option.map · _) (funext fun c =>
      (c.outcome_congr _ hreceiver houts).symm)
  rw [htaken, ← honward.types_eq]
  exact callLocals_out w v env deconstruct _ k tys

/-! ### Steps that are written out -/

/-- From a state on the way, an expression yields a value, and the names of later steps are not
taken. The way starts where the matched value was found. -/
structure Reads (w : Writing) (env : Surroundings) (rs : List MemberRef) (s t : WalkState)
    (k : Nat) (e : Expr) (pair : ScopePair) (u : WalkState) : Prop where
  /-- Either nothing was done yet, or something was done on the way. -/
  place : u = s ∨ ∃ infos, t.Onward env rs infos u
  /-- The expression declares nothing itself. -/
  ordinary : e.isOutVar = false
  /-- It yields the value. -/
  answer : (checkExpr env e).answer u = pair
  /-- On the way, names of earlier steps were declared. -/
  onward : ∃ infos, (∀ info ∈ infos, ∃ l i, l < k ∧ info.name = w.name l i) ∧
    t.Onward env rs infos ((checkExpr env e).after u)

namespace Reads

variable {k : Nat} {e : Expr} {pair : ScopePair}

theorem inExpressionTree (h : Reads w env rs s t k e pair u) (hd : Departure w env rs s t) :
    u.ctx.inExpressionTree = false := by
  rcases h.place with rfl | ⟨infos, honward⟩
  · exact hd.tree
  · rw [honward.inExpressionTree_eq, hd.tree']

/-- As a receiver, the expression is what a pattern looks into. -/
theorem receiver (h : Reads w env rs s t k e pair u) :
    ((receiverOf env e).answer u).core = (scrutinee t env pair e.ty).core ∧
      (receiverOf env e).after u = (checkExpr env e).after u := by
  obtain ⟨hreceiver, hsame⟩ := run_receiverOf env u h.ordinary
  obtain ⟨infos, -, honward⟩ := h.onward
  rw [hreceiver, h.answer, honward.types_eq]
  exact ⟨rfl, hsame⟩

theorem mono (h : Reads w env rs s t k e pair u) : Reads w env rs s t (k + 1) e pair u := by
  obtain ⟨infos, hnames, honward⟩ := h.onward
  refine ⟨h.place, h.ordinary, h.answer, infos, fun info hinfo => ?_, honward⟩
  obtain ⟨l, i, hl, hname⟩ := hnames info hinfo
  exact ⟨l, i, Nat.lt_succ_of_lt hl, hname⟩

/-- A field or property is read as a pattern does. -/
theorem member (h : Reads w env rs s t k e pair u) (hd : Departure w env rs s t)
    (access : MemberAccess) (ty : TypeRef) (hr : ∀ r ∈ (Step.member access ty).ref?, r ∈ rs) :
    Reads w env rs s t (k + 1) (w.expr k e (.member access ty))
      (stepPair t env pair e.ty (.member access ty)) u := by
  have htree := h.inExpressionTree hd
  obtain ⟨infos, hnames, honward⟩ := h.mono.onward
  cases access with
  | field owner name =>
    obtain ⟨hanswer, hafter⟩ := run_field env rs htree e (w.id k 2) owner name ty w.span
    refine ⟨h.place, rfl, hanswer.trans ?_, infos, hnames, ?_⟩
    · rw [honward.types_eq, h.answer]
      rfl
    · exact List.append_nil infos ▸ honward.trans hafter
  | property getter =>
    have hgetter : getter ∈ rs := hr getter rfl
    obtain ⟨hop, hsame⟩ := h.receiver
    obtain ⟨hanswer, hafter⟩ := run_property htree hgetter (hsame ▸ honward.keepsApart hd.apart)
      (hsame ▸ honward.forbidsLocals_eq.trans hd.free) (w.id k 2) ty w.span
    rw [hsame] at hanswer hafter
    refine ⟨h.place, rfl, hanswer.trans (honward.readPair_eq hgetter hop ty), infos, hnames, ?_⟩
    exact List.append_nil infos ▸ honward.trans hafter

/-- A component is read from the variable that was declared for it. -/
theorem run_component (hd : Departure w env rs s t) {v : WalkState} {infos locals : List LocalInfo}
    (honward : t.Onward env rs (infos ++ locals) v)
    (hnames : ∀ info ∈ infos, ∃ l i, l < k ∧ info.name = w.name l i) {taken : Option Outcome}
    {before after : List TypeRef} {ty : TypeRef}
    (hlocals : Declared w (t.types env) k taken (before ++ ty :: after) locals)
    (deconstruct : MemberRef) :
    let read := w.expr k e (.component deconstruct before ty after)
    (checkExpr env read).answer v = componentPair taken ((t.types env).stackOnly ty) ∧
      v.Onward env rs [] ((checkExpr env read).after v) := by
  have htree : v.ctx.inExpressionTree = false := by rw [honward.inExpressionTree_eq, hd.tree']
  have hnodup := hlocals.nodup hd.fresh
  rcases hlocals with hlocals | ⟨hlocals, hnone⟩
  · let info := outInfo w (t.types env) k taken (ty, before.length)
    have hmem : info ∈ locals := by
      rw [hlocals]
      exact List.mem_map_of_mem (by simp [List.mem_zipIdx_iff_getElem?])
    have hfound : v.ctx.lookup info.name = some ⟨info, none⟩ := by
      rw [honward.context, ← Context.declareAll_declareAll]
      exact Context.lookup_of_nodup (Context.scopes_modifyTop_ne_nil hd.scopes _) hnodup hmem
    exact run_var env rs htree hfound (w.id k 2) ty w.span
  · have hother : ∀ info ∈ infos, info.name ≠ w.name k before.length := fun info hinfo hname => by
      obtain ⟨l, i, hl, hname'⟩ := hnames info hinfo
      exact absurd (hd.fresh.injective (hname'.symm.trans hname)).1 (Nat.ne_of_lt hl)
    have hfound : v.ctx.lookup (w.name k before.length) = none := by
      rw [honward.context, hlocals, List.append_nil,
        Context.lookup_declareAll_of_notMem _ hother, hd.fresh.lookup_eq_none]
    rw [hnone]
    exact run_unknown rs htree hfound (hd.fresh.param_ne k before.length) (w.id k 2) ty w.span

/-- Components are declared by the call that takes them out, and then one of them is read. -/
theorem component (h : Reads w env rs s t k e pair u) (hd : Departure w env rs s t)
    {deconstruct : MemberRef} (hr : deconstruct ∈ rs) (before : List TypeRef) (ty : TypeRef)
    (after : List TypeRef) :
    Reads w env rs s t (k + 1) (w.expr k e (.component deconstruct before ty after))
      (stepPair t env pair e.ty (.component deconstruct before ty after))
      ((checkExpr env (w.call k e deconstruct (before ++ ty :: after))).after u) := by
  obtain ⟨infos, hnames, honward⟩ := h.onward
  obtain ⟨hop, hsame⟩ := h.receiver
  obtain ⟨locals, hall, hlocals⟩ := run_takeApart hd (h.inExpressionTree hd) hop (hsame ▸ honward)
    hr k (before ++ ty :: after)
  obtain ⟨hanswer, hread⟩ := run_component (e := e) hd hall hnames hlocals deconstruct
  refine ⟨Or.inr ⟨_, hall⟩, rfl, hanswer, infos ++ locals, fun info hinfo => ?_, ?_⟩
  · rcases List.mem_append.1 hinfo with hinfo | hinfo
    · obtain ⟨l, i, hl, hname⟩ := hnames info hinfo
      exact ⟨l, i, Nat.lt_succ_of_lt hl, hname⟩
    · obtain ⟨i, hname⟩ := hlocals.exists_name hinfo
      exact ⟨k, i, Nat.lt_succ_self k, hname⟩
  · exact List.append_nil (infos ++ locals) ▸ hall.trans hread

/-- Every step leads to what a pattern finds. -/
theorem step (h : Reads w env rs s t k e pair u) (hd : Departure w env rs s t) {step : Step}
    (hr : ∀ r ∈ step.ref?, r ∈ rs) : Reads w env rs s t (k + 1) (w.expr k e step)
      (stepPair t env pair e.ty step) ((checkStmts env (w.stmts k e step)).after u) := by
  cases step with
  | member access ty =>
    rw [Writing.stmts, checkStmts]
    exact h.member hd access ty hr
  | component deconstruct before ty after =>
    rw [Writing.stmts, after_checkStmts_singleton, checkStmt]
    exact h.component hd (hr deconstruct rfl) before ty after

/-- So does every way. -/
theorem path {steps : List Step} (h : Reads w env rs s t k e pair u) (hd : Departure w env rs s t)
    (hr : ∀ step ∈ steps, ∀ r ∈ step.ref?, r ∈ rs) :
    Reads w env rs s t (k + steps.length) (w.pathExpr k e steps) (pathPair t env pair e.ty steps)
      ((checkStmts env (w.pathStmts k e steps)).after u) := by
  induction steps generalizing k e pair u with
  | nil =>
    rw [Writing.pathStmts, checkStmts]
    exact h
  | cons step rest ih =>
    have hfirst := h.step hd (hr step List.mem_cons_self)
    have hrest := ih hfirst fun step' hstep => hr step' (List.mem_cons_of_mem _ hstep)
    rw [w.ty_expr, Nat.add_right_comm, Nat.add_assoc] at hrest
    rw [Writing.pathStmts, after_checkStmts_append]
    exact hrest

end Reads

/-! ### What a pattern stands for -/

/-- The variable that a leaf stands for is the one that the pattern declares. -/
theorem lookup_written {e : Expr} (hroot : e.isOutVar = false)
    (hd : Departure w env rs s ((checkExpr env e).after s)) (hfree : s.forbidsLocals = false)
    {leaf : Leaf} (hr : ∀ step ∈ leaf.steps, ∀ r ∈ step.ref?, r ∈ rs)
    (hshape : (s.types env).typeErrors leaf.span leaf.ty = [])
    (hshape' : (((checkExpr env e).after s).types env).typeErrors leaf.span leaf.ty = []) :
    ((checkStmts env (leaf.written w e)).after s).ctx.lookup leaf.name =
      some ⟨leafLocal ((checkExpr env e).after s) env ((checkExpr env e).answer s) e.ty leaf,
        none⟩ := by
  have hstart : Reads w env rs s ((checkExpr env e).after s) 0 e ((checkExpr env e).answer s) s :=
    ⟨Or.inl rfl, hroot, rfl, [], by simp, .refl _ _ _⟩
  have hend := hstart.path hd hr
  let u := (checkStmts env (w.pathStmts 0 e leaf.steps)).after s
  let last := w.pathExpr 0 e leaf.steps
  have hready : (u.types env).typeErrors leaf.span leaf.ty = [] ∧ u.forbidsLocals = false := by
    rcases hend.place with hu | ⟨infos, honward⟩
    · have hu : u = s := hu
      rw [hu]
      exact ⟨hshape, hfree⟩
    · exact ⟨honward.types_eq ▸ hshape', honward.forbidsLocals_eq.trans hd.free⟩
  obtain ⟨infos, -, honward⟩ := hend.onward
  have hscopes : ((checkExpr env last).after u).ctx.scopes ≠ [] := by
    rw [honward.context]
    exact Context.scopes_modifyTop_ne_nil hd.scopes _
  rw [Leaf.written, after_checkStmts_append, after_checkStmts_singleton,
    after_declare hready.1 hready.2, hend.answer, honward.types_eq]
  exact Covers.lookup_declare hscopes _

/-- A plain pattern is matched after the expression. -/
theorem ctx_test {e : Expr} {p : Pattern} (hp : p.IsPlain)
    (htree : s.ctx.inExpressionTree = false) (id : NodeId) (ty : TypeRef) (span : Span) :
    ((checkExpr env ⟨id, .test e p, ty, span⟩).after s).ctx =
      ((checkPattern env ((checkExpr env e).answer s) e.ty span p).after
        ((checkExpr env e).after s)).ctx := by
  have hform : checkForm env id ty span (.test e p) = checkExpr env e >>= fun input =>
      checkPattern env input e.ty span p >>= fun _ => pure .temporary := by
    rw [checkForm]
    simp only [TypeEnv.testVerdict, hp.comparedConstant, settle]
    rfl
  have hrecord := onward_record env [] htree id (.test e p) ty span
  rw [hrecord.context, Context.declareAll_nil, hform]
  rfl

/-- **Patterns and accesses.** In a function that is never suspended and outside of expression
trees, a pattern that only takes a value apart declares its variables, and each of them is the
variable that is declared when its access is written out.

**Proof sketch.** Both the pattern and the written access go the same way from the same value. A
member is read through the same contract with a receiver of the same pair, and components are taken
out by the same call, in which they are written but not read. What is called on the way has no
influence on what is called later, so the order in which the pattern goes its ways does not matter.
A call that is given up declares no component, and reading one is given up as well, since its name
means nothing else. -/
theorem test_binds_written {e : Expr} {p : Pattern} (hp : p.IsPlain)
    (hs : s.ctx.scopes ≠ []) (htree : s.ctx.inExpressionTree = false)
    (hfree : s.forbidsLocals = false)
    (hshape : ∀ leaf ∈ p.leaves, (s.types env).typeErrors leaf.span leaf.ty = [] ∧
      (((checkExpr env e).after s).types env).typeErrors leaf.span leaf.ty = [])
    -- The matched expression is not declared in place, and members that share a key are the same.
    (hroot : e.isOutVar = false) (hapart : ((checkExpr env e).after s).KeepsApart env p.refs)
    (hfresh : w.Fresh env ((checkExpr env e).after s).ctx)
    (id : NodeId) (ty : TypeRef) (span : Span) :
    ∃ infos, ((checkExpr env ⟨id, .test e p, ty, span⟩).after s).ctx =
        ((checkExpr env e).after s).ctx.declareAll infos ∧
      List.Forall₂ (fun leaf info => info.name = leaf.name ∧
        ((checkStmts env (leaf.written w e)).after s).ctx.lookup leaf.name = some ⟨info, none⟩)
        p.leaves infos := by
  let t := (checkExpr env e).after s
  have hextends : s.Extends (Binders.ofExpr e) t :=
    (Declares.checkExpr e (List.Subset.refl _)).after s
  have hfree' : t.forbidsLocals = false := hextends.forbidsLocals_eq.trans hfree
  have hd : Departure w env p.refs s t :=
    { scopes := hextends.scopes_ne_nil hs
      tree := htree
      tree' := hextends.inExpressionTree_eq.trans htree
      free := hfree'
      apart := hapart
      fresh := hfresh }
  have honward := run_checkPattern hapart p hp (List.Subset.refl _)
    (fun leaf hleaf => (hshape leaf hleaf).2) t (.refl env p.refs t) hfree'
    ((checkExpr env e).answer s) e.ty span
  refine ⟨_, (ctx_test hp htree id ty span).trans honward.context, ?_⟩
  rw [List.forall₂_map_right_iff, List.forall₂_same]
  intro leaf hleaf
  obtain ⟨hbefore, hafter⟩ := hshape leaf hleaf
  exact ⟨rfl, lookup_written hroot hd hfree (p.mem_refs leaf hleaf) hbefore hafter⟩

end Walk

/-! ## Cases with slots -/

namespace Cases

open Slots

/-- The type of cases. -/
def caseTy : TypeRef := .named "Case" []

/-- The type of the parts of cases. -/
def partTy : TypeRef := .named "Case.Part" []

/-- A member of a case. -/
def caseMember (id : NodeId) (name : String) (kind : MemberKind) (params : List Param)
    (ret : ReturnType) : FnDecl :=
  ⟨id, name, kind, default, [], params, ret, [], none, none, some [], .zero⟩

/-- A reference to the first slot. -/
def getFirst : FnDecl := caseMember 3 "get_First" .getter [] (.byRef slotTy)

/-- A smaller case. -/
def getInner : FnDecl := caseMember 4 "get_Inner" .getter [] (.byValue caseTy)

/-- Takes two slots out. -/
def deconstruct : FnDecl :=
  caseMember 5 "Deconstruct" .method [slotParam "left" .out false, slotParam "right" .out false]
    .nothing

/-- A reference to a slot of the part. -/
def getOfPart : FnDecl := caseMember 11 "Part.get_Slot" .getter [] (.byRef slotTy)

/-- Cases hold slots, smaller cases and a part. -/
def caseDecl : TypeDecl :=
  ⟨2, "Case", .refStruct, false, false, [], [], [],
    [⟨"Part", partTy, false, false, false, false, .zero⟩],
    [getFirst, getInner, deconstruct, getOfPart], .zero⟩

/-- The slot of a part. -/
def getSlot : FnDecl := caseMember 13 "get_Slot" .getter [] (.byValue slotTy)

/-- Parts hold a slot. -/
def partDecl : TypeDecl :=
  ⟨12, "Case.Part", .refStruct, false, false, [], [], [], [], [getSlot], .zero⟩

/-- A function that is given a case. -/
def openCase : FnDecl := fn 7 "Open" [⟨"given", caseTy, .none, false, [], .zero⟩] .nothing []

/-- The class of the function. -/
def decl : TypeDecl := ⟨6, "Cases", .classType, false, false, [], [], [], [], [openCase], .zero⟩

/-- A program with the function, slots and cases of them. -/
def program : Program :=
  ⟨[decl, ⟨1, "Slot", .refStruct, false, false, [], [], [], [], [], .zero⟩, caseDecl, partDecl]⟩

/-- The surroundings of the body of the function. -/
def env : Surroundings := ⟨program, ⟨decl, openCase⟩, true⟩

/-- The state in which the body is entered. -/
def start : WalkState := program.bodyEntry true {} env.member []

/-- The case that the function is given. -/
def given : Expr := ⟨8, .var "given", caseTy, .zero⟩

/-- A case that is declared in place. -/
def inPlace : Expr := ⟨9, .outVar "other", caseTy, .zero⟩

/-- Matches the first slot. -/
def first : SubPattern :=
  ⟨.property ⟨caseTy, "get_First"⟩, slotTy, .declaration "first" slotTy .zero, .zero⟩

/-- Matches the two slots that are taken out of the smaller case. -/
def both : SubPattern :=
  ⟨.property ⟨caseTy, "get_Inner"⟩, caseTy, .positional ⟨caseTy, "Deconstruct"⟩
    [.declaration "left" slotTy .zero, .declaration "right" slotTy .zero] [slotTy, slotTy], .zero⟩

/-- Matches the reference to the slot of the part. -/
def ofPart : SubPattern :=
  ⟨.property ⟨caseTy, "Part.get_Slot"⟩, slotTy, .declaration "direct" slotTy .zero, .zero⟩

/-- Matches the slot in the part. -/
def inPart : SubPattern :=
  ⟨.field caseTy "Part", partTy, .property none [⟨.property ⟨partTy, "get_Slot"⟩, slotTy,
    .declaration "slot" slotTy .zero, .zero⟩], .zero⟩

/-- Names of one letter only. -/
def writing : Writing :=
  ⟨fun k i => String.ofList (List.replicate (Nat.pair k i) 'x'), fun _ i => UInt32.ofNat i, .zero⟩

theorem member?_case :
    program.member? ⟨caseTy, "get_First"⟩ = some ⟨caseDecl, getFirst⟩ ∧
      program.member? ⟨caseTy, "get_Inner"⟩ = some ⟨caseDecl, getInner⟩ ∧
      program.member? ⟨caseTy, "Deconstruct"⟩ = some ⟨caseDecl, deconstruct⟩ ∧
      program.member? ⟨caseTy, "Part.get_Slot"⟩ = some ⟨caseDecl, getOfPart⟩ := by
  refine ⟨?_, ?_, ?_, ?_⟩ <;> cbv

theorem member?_part : program.member? ⟨partTy, "get_Slot"⟩ = some ⟨partDecl, getSlot⟩ := by
  cbv

theorem target?_case (s : WalkState) (name : String) :
    s.target? env ⟨caseTy, name⟩ = (program.member? ⟨caseTy, name⟩).map .member :=
  rfl

/-- References to the members of a case. -/
def caseRefs : List MemberRef :=
  [⟨caseTy, "get_First"⟩, ⟨caseTy, "get_Inner"⟩, ⟨caseTy, "Deconstruct"⟩]

/-- The members of a case have different keys. -/
theorem keepsApart_case (s : WalkState) : s.KeepsApart env caseRefs := by
  refine .of_nodup ?_
  simp only [caseRefs, List.map_cons, List.map_nil, target?_case, member?_case, Option.map_some]
  decide

/-- The way to the first slot. -/
def toFirst : Leaf :=
  ⟨[.member (.property ⟨caseTy, "get_First"⟩) slotTy], "first", slotTy, .zero⟩

/-- The way to the reference to the slot of the part. -/
def toOfPart : Leaf :=
  ⟨[.member (.property ⟨caseTy, "Part.get_Slot"⟩) slotTy], "direct", slotTy, .zero⟩

/-- The way to the slot in the part. -/
def toSlot : Leaf :=
  ⟨[.member (.field caseTy "Part") partTy, .member (.property ⟨partTy, "get_Slot"⟩) slotTy],
    "slot", slotTy, .zero⟩

/-- The pair of a variable after a pattern was matched. -/
def matched (e : Expr) (p : Pattern) (name : String) : Option ScopePair :=
  (((Walk.checkExpr env ⟨10, .test e p, .bool, .zero⟩).after start).ctx.lookup name).map fun x =>
    x.info.pair

/-- The pair of the variable that is written out for a leaf. -/
def read (e : Expr) (leaf : Leaf) : Option ScopePair :=
  (((Walk.checkStmts env (leaf.written writing e)).after start).ctx.lookup leaf.name).map fun x =>
    x.info.pair

/-- Matches the first slot only. -/
def firstOnly : Pattern := .property none [first]

/-- Matches what there is of the part. -/
def wholePart : Pattern := .property none [ofPart, inPart]

/-- Matched in a case that is declared in place, a slot stays in the method; read out of the case, it
is free, since such a case has no value yet. And what is read from a part depends on what was called
before, if another member has the same key. -/
theorem test_differs_from_written :
    (start.ctx.inExpressionTree = false ∧ start.forbidsLocals = false ∧
      ∀ ty ∈ [slotTy, partTy], (start.types env).typeErrors .zero ty = []) ∧
    (firstOnly.IsPlain ∧ firstOnly.leaves = [toFirst] ∧ start.KeepsApart env firstOnly.refs ∧
      matched inPlace firstOnly "first" = some ⟨.currentMethod, .currentMethod, false⟩ ∧
      read inPlace toFirst = some ⟨.unlimited, .currentMethod, false⟩) ∧
    wholePart.IsPlain ∧ wholePart.leaves = [toOfPart, toSlot] ∧ given.isOutVar = false ∧
      matched given wholePart "slot" = some ⟨.callingMethod, .currentMethod, false⟩ ∧
      read given toSlot = some ⟨.currentMethod, .currentMethod, false⟩ := by
  have hfirst := Walk.resolve_of_otherType env rfl (by decide) member?_case.1
  have hofPart := Walk.resolve_of_otherType env rfl (by decide) member?_case.2.2.2
  have hslot := Walk.resolve_of_otherType env rfl (by decide) member?_part
  have hread : toFirst.written writing inPlace = [⟨0, .declare ⟨"first", slotTy, .none, false,
      some ⟨2, .property (some inPlace) ⟨caseTy, "get_First"⟩ [], slotTy, .zero⟩, .zero⟩,
      .zero⟩] := rfl
  have hreadPart : toSlot.written writing given = [⟨0, .declare ⟨"slot", slotTy, .none, false,
      some ⟨2, .property (some ⟨2, .field (some given) caseTy "Part", partTy, .zero⟩)
        ⟨partTy, "get_Slot"⟩ [], slotTy, .zero⟩, .zero⟩, .zero⟩] := rfl
  refine ⟨⟨rfl, rfl, by decide +kernel⟩, ⟨?_, rfl, ?_, ?_, ?_⟩, ?_, rfl, rfl, ?_, ?_⟩
  · simp [firstOnly, first, Pattern.IsPlain, Pattern.SubPatternsPlain]
  · exact .of_nodup (List.nodup_singleton _)
  -- The members that are looked up are put in first: the search for them cannot be evaluated.
  · simp only [matched, firstOnly, first, Walk.checkExpr, Walk.checkForm, Walk.checkPattern,
      Walk.checkSubPatterns, Walk.accessMember, Walk.readProperty, hfirst]
    decide +kernel
  · rw [read, hread]
    simp only [Walk.checkStmts, Walk.checkStmt, Walk.checkLocal, Walk.checkInit, Walk.checkExpr,
      Walk.checkForm, Walk.readProperty, hfirst]
    decide +kernel
  · simp [wholePart, ofPart, inPart, Pattern.IsPlain, Pattern.SubPatternsPlain]
  · simp only [matched, wholePart, ofPart, inPart, Walk.checkExpr, Walk.checkForm,
      Walk.checkPattern, Walk.checkSubPatterns, Walk.accessMember, Walk.readProperty,
      hofPart, hslot]
    decide +kernel
  · rw [read, hreadPart]
    simp only [Walk.checkStmts, Walk.checkStmt, Walk.checkLocal, Walk.checkInit, Walk.checkExpr,
      Walk.checkForm, Walk.readProperty, hslot]
    decide +kernel

/-- The names of one letter are not taken. -/
theorem fresh_writing : writing.Fresh env ((Walk.checkExpr env given).after start).ctx where
  injective {k i l j} h := by
    have hlength : Nat.pair k i = Nat.pair l j := by
      simpa [writing] using congrArg String.length h
    exact Nat.pair_eq_pair.1 hlength
  lookup_eq_none k i := by
    have hname : "given" ≠ writing.name k i := fun h => by
      have hmem : 'g' ∈ List.replicate (Nat.pair k i) 'x' := by
        have hlist : "given".toList = List.replicate (Nat.pair k i) 'x' := by
          rw [h, writing, String.toList_ofList]
        rw [← hlist]
        decide
      exact absurd (List.eq_of_mem_replicate hmem) (by decide)
    have hctx : ((Walk.checkExpr env given).after start).ctx.lookup (writing.name k i) =
        Context.lookupIn (writing.name k i) none
          [⟨.method, [⟨"given", caseTy, ⟨.callingMethod, .currentMethod, false⟩, true, false, false,
            .param⟩], .empty⟩] := rfl
    rw [hctx]
    simp [Context.lookupIn, Context.lastLocal, hname]
  param_ne k i q hq := by cases hq

/-- What a pattern finds in the case that the function is given is what its accesses yield. -/
theorem test_binds_written_case :
    let p : Pattern := .property none [first, both]
    let t := (Walk.checkExpr env given).after start
    p.leaves.map Leaf.name = ["first", "left", "right"] ∧
      ∃ infos, ((Walk.checkExpr env ⟨10, .test given p, .bool, .zero⟩).after start).ctx =
          t.ctx.declareAll infos ∧
        List.Forall₂ (fun leaf info => info.name = leaf.name ∧
          ((Walk.checkStmts env (leaf.written writing given)).after start).ctx.lookup leaf.name =
            some ⟨info, none⟩) p.leaves infos := by
  intro p t
  have hplain : p.IsPlain := by simp [p, first, both, Pattern.IsPlain, Pattern.SubPatternsPlain,
    Pattern.ComponentsPlain]
  have hs : start.ctx.scopes ≠ [] := List.cons_ne_nil _ _
  have htree : start.ctx.inExpressionTree = false := rfl
  have hfree : start.forbidsLocals = false := rfl
  have hshape : ∀ leaf ∈ p.leaves, (start.types env).typeErrors leaf.span leaf.ty = [] ∧
      (t.types env).typeErrors leaf.span leaf.ty = [] := by
    decide +kernel
  exact ⟨by decide +kernel, Walk.test_binds_written hplain hs htree hfree hshape rfl
    (keepsApart_case t) fresh_writing 10 .bool .zero⟩

end Cases

end StackEscape
