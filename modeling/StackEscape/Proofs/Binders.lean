import StackEscape.Proofs.Forwarding

/-!
# Where variables come from

A walk over a part of a body declares variables in the scope in which the part stands, but only
under names that stand there as binders. All else around it is left as it was: outer scopes, the
functions entered, the type parameters in scope, and what was reported and filed before. So a
variable keeps what its declaration fixed for as long as its name is not declared anew.

## Main definitions

* `StackEscape.Binders.ofExpr`, `ofPattern`, `ofStmts` — the names that a part of a body declares in
  the scope in which it stands.
* `StackEscape.WalkState.Keeps` — a state with what was reported and filed in an earlier one.
* `StackEscape.WalkState.Extends` — such a state in the same scopes, with some more variables.
* `StackEscape.Walk.Declares` — walks that only lead to such states.
* `StackEscape.Walk.Accepted` — a walk that reports nothing.

## Main results

* `StackEscape.Walk.Declares.checkExpr`, `checkPattern`, `checkStmts` — every walk declares only
  what its part of the tree names.
* `StackEscape.WalkState.Extends.lookup_eq` — a name that is not declared anew means what it meant.

## Implementation notes

The names are those of the same scope: what a lambda, a block or a local function declares inside is
gone at its end, whatever its name. Nothing is assumed of the state in which a walk starts.
-/

set_option autoImplicit false

namespace StackEscape

/-! ## Binders -/

namespace Binders

mutual

/-- The names that an expression declares in the scope in which it stands. -/
def ofExpr : Expr → List String
  | ⟨_, kind, _, _⟩ => ofKind kind

/-- The names that an expression of some form declares. -/
def ofKind : ExprKind → List String
  | .literal _ | .var _ | .thisRef | .lambda _ => []
  | .outVar name => [name]
  | .field receiver _ _ => ofOptional receiver
  | .property receiver _ args => ofOptional receiver ++ ofArgs args
  | .call receiver _ _ args => ofOptional receiver ++ ofArgs args
  | .create _ args => ofArgs args
  | .stackAlloc _ len => ofExpr len
  | .conditional cond thenExpr elseExpr _ => ofExpr cond ++ (ofExpr thenExpr ++ ofExpr elseExpr)
  | .convert operand _ => ofExpr operand
  | .binary _ left right => ofExpr left ++ ofExpr right
  | .test operand pattern => ofExpr operand ++ ofPattern pattern
  | .arrayNew _ elems => ofExprs elems
  | .anonymous members => ofMembers members
  | .await operand => ofExpr operand
  | .dynamicInvoke receiver _ args => ofExpr receiver ++ ofArgs args

/-- The names that a receiver or an initial value declares. -/
def ofOptional : Option Expr → List String
  | none => []
  | some e => ofExpr e

/-- The names that arguments declare. -/
def ofArgs : List Arg → List String
  | [] => []
  | ⟨_, e⟩ :: rest => ofExpr e ++ ofArgs rest

/-- The names that array elements declare. -/
def ofExprs : List Expr → List String
  | [] => []
  | e :: rest => ofExpr e ++ ofExprs rest

/-- The names that the members of an anonymous object declare. -/
def ofMembers : List NamedExpr → List String
  | [] => []
  | ⟨_, e⟩ :: rest => ofExpr e ++ ofMembers rest

/-- The names that a pattern declares. -/
def ofPattern : Pattern → List String
  | .discard | .typeTest _ => []
  | .declaration name _ _ => [name]
  | .constant e => ofExpr e
  | .property _ subpatterns => ofSubPatterns subpatterns
  | .positional _ subpatterns _ => ofComponents subpatterns
  | .negated inner => ofPattern inner

/-- The names that the entries of a property pattern declare. -/
def ofSubPatterns : List SubPattern → List String
  | [] => []
  | ⟨_, _, pattern, _⟩ :: rest => ofPattern pattern ++ ofSubPatterns rest

/-- The names that the parts of a positional pattern declare. -/
def ofComponents : List Pattern → List String
  | [] => []
  | pattern :: rest => ofPattern pattern ++ ofComponents rest

/-- The names that a local variable's declaration declares. -/
def ofLocal : LocalDecl → List String
  | ⟨name, _, _, _, init, _⟩ => name :: ofOptional init

/-- The names that a statement declares in the scope in which it stands. -/
def ofStmt : Stmt → List String
  | ⟨_, .expr e, _⟩ | ⟨_, .yieldReturn e, _⟩ | ⟨_, .ret (some e), _⟩ => ofExpr e
  | ⟨_, .declare decl, _⟩ => ofLocal decl
  | ⟨_, .assign target value _, _⟩ => ofExpr target ++ ofExpr value
  | ⟨_, .ifElse cond _ _, _⟩ | ⟨_, .whileLoop cond _, _⟩ => ofExpr cond
  | ⟨_, .foreach loop, _⟩ => ofForeach loop
  | ⟨_, .ret none, _⟩ | ⟨_, .block _, _⟩ | ⟨_, .using _, _⟩ | ⟨_, .localFunction _, _⟩ => []

/-- The names that an iteration declares around itself. -/
def ofForeach : ForeachStmt → List String
  | ⟨_, _, collection, _, _, _⟩ => ofExpr collection

/-- The names that some statements declare in the scope in which they stand. -/
def ofStmts : List Stmt → List String
  | [] => []
  | s :: rest => ofStmt s ++ ofStmts rest

end

/-- Statements in sequence declare the names of all of them. -/
theorem ofStmts_append (xs ys : List Stmt) : ofStmts (xs ++ ys) = ofStmts xs ++ ofStmts ys := by
  induction xs with
  | nil => rw [List.nil_append, ofStmts, List.nil_append]
  | cons x rest ih => rw [List.cons_append, ofStmts, ofStmts, ih, List.append_assoc]

end Binders

/-! ## Contexts with some more variables -/

namespace Context

/-- A declaration is found under its own name only. -/
theorem lookup_declareAll_of_notMem (c : Context) {infos : List LocalInfo} {name : String}
    (h : ∀ info ∈ infos, info.name ≠ name) : (c.declareAll infos).lookup name = c.lookup name := by
  rcases c with ⟨_ | ⟨top, rest⟩, frames⟩
  · rfl
  · have hnone : infos.reverse.find? (fun l => decide (l.name = name)) = none := by
      refine List.find?_eq_none.2 fun info hinfo => ?_
      simpa using h info (List.mem_reverse.1 hinfo)
    simp [declareAll, modifyTop, lookup, lookupIn, lastLocal, List.find?_append, hnone]

end Context

/-! ## Capabilities that are filed -/

namespace Capabilities

/-- What is filed in one table is filed in the other. -/
def Within (c d : Capabilities) : Prop := ∀ k v, c.get? k = some v → d.get? k = some v

theorem Within.refl (c : Capabilities) : c.Within c := fun _ _ h => h

theorem Within.trans {c d e : Capabilities} (h : c.Within d) (h' : d.Within e) : c.Within e :=
  fun k v hk => h' k v (h k v hk)

/-- What is filed stays, whatever is filed under any key. -/
theorem within_keep (c : Capabilities) (k : TypeParamKey) (v : Capability) :
    c.Within (c.keep k v) := by
  intro k' v' h
  rw [Table.get?_keep]
  split
  · next hk => rw [← hk, h, Option.getD_some]
  · exact h

/-- Filing the capabilities of a declaration leaves those that are filed. -/
theorem within_fillOwn (c : Capabilities) (p : Program) (owner : String)
    (params : List TypeParam) (scope : GenericScope) :
    c.Within (c.fillOwn p owner params scope) := by
  have main (qs : List TypeParam) : ∀ c : Capabilities,
      c.Within (qs.foldl (fun caps q => caps.fillOne p owner params scope q) c) := by
    induction qs with
    | nil => exact Within.refl
    | cons q rest ih => exact fun c => (within_keep c _ _).trans (ih _)
  exact main params c

end Capabilities

/-! ## States -/

namespace WalkState

/-- What was reported and filed is kept, and the type parameters in scope are the same. -/
structure Keeps (s t : WalkState) : Prop where
  /-- The type parameters in scope are the same. -/
  generics : t.generics = s.generics
  /-- No error is forgotten. -/
  errors : s.errors <+: t.errors
  /-- The capabilities of type parameters stay as they were filed. -/
  caps : s.tables.caps.Within t.tables.caps

/-- What was reported and filed is kept, and more variables of some names are declared in the same
scope. -/
structure Extends (ns : List String) (s t : WalkState) : Prop extends Keeps s t where
  /-- Some more variables are declared. -/
  context : ∃ infos, (∀ info ∈ infos, info.name ∈ ns) ∧ t.ctx = s.ctx.declareAll infos

namespace Keeps

variable {s t u : WalkState}

theorem refl (s : WalkState) : Keeps s s := ⟨rfl, List.prefix_refl _, .refl _⟩

theorem trans (h : Keeps s t) (h' : Keeps t u) : Keeps s u :=
  ⟨h'.generics.trans h.generics, h.errors.trans h'.errors, h.caps.trans h'.caps⟩

/-- If there is no error later, there was none before. -/
theorem errors_eq_nil (h : Keeps s t) (ht : t.errors = []) : s.errors = [] :=
  List.prefix_nil.1 (ht ▸ h.errors)

end Keeps

namespace Extends

variable {ns : List String} {s t u : WalkState}

theorem refl (ns : List String) (s : WalkState) : Extends ns s s :=
  ⟨.refl s, [], by simp, (Context.declareAll_nil _).symm⟩

theorem trans (h : Extends ns s t) (h' : Extends ns t u) : Extends ns s u := by
  obtain ⟨xs, hxs, hx⟩ := h.context
  obtain ⟨ys, hys, hy⟩ := h'.context
  refine ⟨h.toKeeps.trans h'.toKeeps, xs ++ ys, fun info hinfo => ?_, ?_⟩
  · exact (List.mem_append.1 hinfo).elim (hxs info) (hys info)
  · rw [hy, hx, Context.declareAll_declareAll]

/-- A name that is not declared anew means what it meant. -/
theorem lookup_eq (h : Extends ns s t) {name : String} (hname : name ∉ ns) :
    t.ctx.lookup name = s.ctx.lookup name := by
  obtain ⟨infos, hinfos, hc⟩ := h.context
  rw [hc]
  refine Context.lookup_declareAll_of_notMem _ fun info hinfo he => hname ?_
  exact he ▸ hinfos info hinfo

/-- The functions entered are the same. -/
theorem frames_eq (h : Extends ns s t) : t.ctx.frames = s.ctx.frames := by
  obtain ⟨infos, _, hc⟩ := h.context
  rw [hc, Context.frames_declareAll]

/-- The same is forbidden to local variables. -/
theorem forbidsLocals_eq (h : Extends ns s t) : t.forbidsLocals = s.forbidsLocals := by
  unfold forbidsLocals Context.function
  rw [h.frames_eq]

/-- The place is part of an expression tree only if it was. -/
theorem inExpressionTree_eq (h : Extends ns s t) :
    t.ctx.inExpressionTree = s.ctx.inExpressionTree := by
  obtain ⟨infos, _, hc⟩ := h.context
  rw [hc, Context.inExpressionTree_declareAll]

/-- There is still a scope to declare variables in. -/
theorem scopes_ne_nil (h : Extends ns s t) (hs : s.ctx.scopes ≠ []) : t.ctx.scopes ≠ [] := by
  obtain ⟨infos, _, hc⟩ := h.context
  rw [hc]
  exact Context.scopes_modifyTop_ne_nil hs _

end Extends

/-- The state with one more variable. -/
def declaring (s : WalkState) (info : LocalInfo) : WalkState :=
  { s with ctx := s.ctx.declare info }

/-- A state whose scope is left, when inside of it more variables were declared. -/
theorem Keeps.leave {ns : List String} {s t : WalkState} (h : Keeps s t)
    (hc : t.ctx.popScope = s.ctx) : Extends ns s t.leave :=
  ⟨⟨h.generics, h.errors, h.caps⟩, [], by simp, hc.trans (Context.declareAll_nil _).symm⟩

end WalkState

/-! ## Operands -/

/-- The name of the variable that an operand declares in place. -/
def Operand.binder? (op : Operand) : Option String :=
  match op.fresh, op.expr with
  | true, some ⟨_, .outVar name, _, _⟩ => some name
  | _, _ => none

/-- An operand declares no variable, or one of some names. -/
def Operand.Binds (ns : List String) (op : Operand) : Prop := ∀ name ∈ op.binder?, name ∈ ns

/-- Operands declare the variables that they name. -/
theorem Operand.binds_filterMap (ops : List Operand) :
    ∀ op ∈ ops, op.Binds (ops.filterMap Operand.binder?) :=
  fun op hop _ hname => List.mem_filterMap.2 ⟨op, hop, hname⟩

/-! ## Walks -/

/-- What is done with a local function before its body is looked at. -/
def Walk.enterLocalFunction (env : Surroundings) (decl : FnDecl) : Walk Contract := do
  reportAll (placementErrors env.member.owner decl (env.localKey decl) true)
  fileTypeParams env decl
  reportShapes (cycleErrors decl.typeParams ++
    decl.typeParams.flatMap (TypeParam.clauseErrors env.runtime))
  localContract env decl

/-- A local function is entered, and then its body is looked at. -/
theorem Walk.localFunctionOver_eq (env : Surroundings) (decl : FnDecl) (body : Walk Unit) :
    localFunctionOver env decl body = enterLocalFunction env decl >>= fun contract =>
      get >>= fun s => withGenerics (s.localScope env decl)
        (inFunction .localFunction (localFrame s decl contract)
          (bindParams env true decl.params contract.params >>= fun _ =>
            declareFunctions (decl.body.getD []) >>= fun _ => body)) := rfl

/-- The walk keeps what is around it and declares only variables of some names; what it yields is
as expected. -/
structure Walk.Declares (ns : List String) {α : Type} (Q : α → Prop) (m : Walk α) : Prop where
  /-- It declares only variables of the names. -/
  after : ∀ s : WalkState, s.Extends ns (m.after s)
  /-- It yields what is expected. -/
  answer : ∀ s : WalkState, Q (m.answer s)

namespace Walk.Declares

variable {env : Surroundings} {ns : List String} {α β : Type} {Q : α → Prop} {R : β → Prop}

theorem pure {x : α} (h : Q x) : Declares ns Q (Pure.pure x : Walk α) :=
  ⟨fun s => .refl ns s, fun _ => h⟩

theorem bind {m : Walk α} {f : α → Walk β} (hm : Declares ns Q m)
    (hf : ∀ x, Q x → Declares ns R (f x)) : Declares ns R (m >>= f) where
  after s := (hm.after s).trans ((hf _ (hm.answer s)).after _)
  answer s := (hf _ (hm.answer s)).answer _

theorem look {k : WalkState → Walk α} (hk : ∀ s, Declares ns Q (k s)) :
    Declares ns Q (get >>= k) :=
  ⟨fun s => (hk s).after s, fun s => (hk s).answer s⟩

theorem discard {m : Walk α} (hm : Declares ns Q m) :
    Declares ns (fun _ => True) (Functor.discard m) :=
  ⟨hm.after, fun _ => trivial⟩

theorem ite {c : Prop} [Decidable c] {m n : Walk α} (hm : Declares ns Q m)
    (hn : Declares ns Q n) : Declares ns Q (if c then m else n) := by
  split
  · exact hm
  · exact hn

/-- A change of the state that leaves all names alone. -/
theorem changing {f : WalkState → WalkState} (hctx : ∀ s, (f s).ctx = s.ctx)
    (h : ∀ s : WalkState, s.Keeps (f s)) : Declares ns (fun _ => True) (modify f : Walk Unit) where
  after s := ⟨h s, [], by simp, (hctx s).trans (Context.declareAll_nil _).symm⟩
  answer _ := trivial

theorem forM {f : α → Walk Unit} {l : List α} (h : ∀ x ∈ l, Declares ns (fun _ => True) (f x)) :
    Declares ns (fun _ => True) (l.forM f) := by
  induction l with
  | nil => exact .pure trivial
  | cons x rest ih =>
    refine (h x (List.mem_cons_self ..)).bind fun _ _ => ?_
    exact ih fun y hy => h y (List.mem_cons_of_mem _ hy)

/-! ### Errors, facts and tables -/

theorem reportAll (errors : List EscapeError) :
    Declares ns (fun _ => True) (Walk.reportAll errors) :=
  changing (fun _ => rfl) fun _ => ⟨rfl, List.prefix_append _ _, .refl _⟩

theorem report (kind : EscapeErrorKind) (span : Span) :
    Declares ns (fun _ => True) (Walk.report kind span) :=
  reportAll _

theorem passes (kind : Option EscapeErrorKind) (span : Span) :
    Declares ns (fun _ => True) (Walk.passes kind span) := by
  cases kind with
  | none => exact .pure trivial
  | some kind => exact (report kind span).bind fun _ _ => .pure trivial

theorem record (id : NodeId) (pair : ScopePair) :
    Declares ns (fun _ => True) (Walk.record id pair) :=
  changing (fun _ => rfl) fun _ => ⟨rfl, List.prefix_refl _, .refl _⟩

theorem recordNullTest (id : NodeId) (test : NullTest) :
    Declares ns (fun _ => True) (Walk.recordNullTest id test) :=
  changing (fun _ => rfl) fun _ => ⟨rfl, List.prefix_refl _, .refl _⟩

theorem noteCopy (span : Span) : Declares ns (fun _ => True) (Walk.noteCopy span) :=
  changing (fun _ => rfl) fun _ => ⟨rfl, List.prefix_refl _, .refl _⟩

theorem obtainContract (key : String) (build : WalkState → Contract) :
    Declares ns (fun _ => True) (Walk.obtainContract key build) where
  after _ := ⟨⟨rfl, List.prefix_refl _, .refl _⟩, [], by simp,
    (Context.declareAll_nil _).symm⟩
  answer _ := trivial

theorem fileTypeParams (env : Surroundings) (decl : FnDecl) :
    Declares ns (fun _ => True) (Walk.fileTypeParams env decl) :=
  changing (fun _ => rfl) fun _ => ⟨rfl, List.prefix_refl _,
    Capabilities.within_fillOwn _ _ _ _ _⟩

theorem settle (id : NodeId) (span : Span) (verdict : Verdict) :
    Declares ns (fun _ => True) (Walk.settle id span verdict) := by
  cases verdict with
  | plain => exact .pure trivial
  | lowered test => exact (recordNullTest id test).bind fun _ _ => .pure trivial
  | refused error => exact (report error span).bind fun _ _ => .pure trivial

/-! ### Types -/

theorem stackOnly (env : Surroundings) (ty : TypeRef) :
    Declares ns (fun _ => True) (Walk.stackOnly env ty) :=
  look fun _ => .pure trivial

theorem reportShapes (errors : List TypeError) :
    Declares ns (fun _ => True) (Walk.reportShapes errors) :=
  reportAll _

theorem checkShape (env : Surroundings) (ty : TypeRef) (span : Span) :
    Declares ns (fun _ => True) (Walk.checkShape env ty span) :=
  look fun _ => (reportShapes _).bind fun _ _ => .pure trivial

/-! ### Names -/

theorem declare {info : LocalInfo} (h : info.name ∈ ns) :
    Declares ns (fun _ => True) (Walk.declare info) where
  after _ := ⟨⟨rfl, List.prefix_refl _, .refl _⟩, [info], by simpa using h, rfl⟩
  answer _ := trivial

theorem rejectedInAsync (name : String) (ty : TypeRef) (span : Span) :
    Declares ns (fun _ => True) (Walk.rejectedInAsync name ty span) :=
  look fun _ => ite ((report _ _).bind fun _ _ => .pure trivial) (.pure trivial)

theorem declareBinding (env : Surroundings) {name : String} (h : name ∈ ns) (ty : TypeRef)
    (pair : ScopePair) (isRef : Bool) (span : Span) :
    Declares ns (fun _ => True) (Walk.declareBinding env name ty pair isRef span) :=
  (stackOnly env ty).bind fun _ _ => ite
    ((rejectedInAsync name ty span).bind fun _ _ => declare h) (declare h)

theorem bindParam (env : Surroundings) (checkShapes : Bool) {param : Param}
    (h : param.name ∈ ns) (contract : ParamContract) :
    Declares ns (fun _ => True) (Walk.bindParam env checkShapes param contract) := by
  unfold Walk.bindParam
  refine ite ((checkShape _ _ _).bind fun _ _ => ?_)
    (Declares.bind (Q := fun _ => True) (.pure trivial) fun _ _ => ?_)
  all_goals
    refine look fun s => ite (declare h) (ite ?_ (ite ?_ (declare h)))
    · exact (report _ _).bind fun _ _ => declare h
    · exact (report _ _).bind fun _ _ => declare h

theorem bindParams (env : Surroundings) (checkShapes : Bool) (params : List Param)
    (contracts : List ParamContract) :
    Declares (params.map Param.name) (fun _ => True)
      (Walk.bindParams env checkShapes params contracts) :=
  forM fun x hx => bindParam env checkShapes
    (List.mem_map_of_mem (List.of_mem_zip (a := x.1) (b := x.2) hx).1) x.2

theorem readPrimaryParam (env : Surroundings) (param : Param) (span : Span) :
    Declares ns (fun _ => True) (Walk.readPrimaryParam env param span) :=
  (stackOnly env param.ty).bind fun _ _ =>
    ite ((report _ _).bind fun _ _ => .pure trivial) (.pure trivial)

theorem readVariable (env : Surroundings) (name : String) (span : Span) :
    Declares ns (fun _ => True) (Walk.readVariable env name span) := by
  refine look fun s => ?_
  cases s.ctx.lookup name with
  | some found => exact ite ((report _ _).bind fun _ _ => .pure trivial) (.pure trivial)
  | none =>
    cases env.member.owner.primaryParams.find? fun q => decide (q.name = name) with
    | some param => exact readPrimaryParam env param span
    | none => exact (report _ _).bind fun _ _ => .pure trivial

theorem readThis (env : Surroundings) (span : Span) :
    Declares ns (fun _ => True) (Walk.readThis env span) := by
  refine look fun s => ?_
  cases s.thisPair with
  | none => exact .pure trivial
  | some pair => exact ite ((report _ _).bind fun _ _ => .pure trivial) (.pure trivial)

/-! ### Calls -/

/-- The callee of a reference is looked up in tables that only grow. -/
theorem resolve (env : Surroundings) (r : MemberRef) (span : Span) :
    Declares ns (fun _ => True) (Walk.resolve env r span) := by
  refine look fun s => ?_
  rcases s.target? env r with _ | d | m
  · exact (report _ _).bind fun _ _ => .pure trivial
  · exact (obtainContract _ _).bind fun _ _ => .pure trivial
  · exact (obtainContract _ _).bind fun _ _ => .pure trivial

theorem bindOutVar (env : Surroundings) (derived : Level) (isInvalid : Bool) {op : Operand}
    (h : op.Binds ns) : Declares ns (fun _ => True) (Walk.bindOutVar env derived isInvalid op) := by
  obtain ⟨expr, label, pair, stackOnly, mode, fresh, span⟩ := op
  unfold Walk.bindOutVar
  split
  · next hfresh hexpr =>
    refine declareBinding env (h _ ?_) _ _ _ _
    simp only at hfresh hexpr
    subst hfresh hexpr
    exact rfl
  · exact .pure trivial

/-- A call declares only the variables of its `out var` operands. -/
theorem invoke (env : Surroundings) (c : Contract) (receiver : Option Operand)
    {args : List Operand} (h : ∀ op ∈ args, op.Binds ns) (resultTy : TypeRef) (span : Span) :
    Declares ns (fun _ => True) (Walk.invoke env c receiver args resultTy span) := by
  have hvars (derived : Level) (isInvalid : Bool) :
      Declares ns (fun _ => True) (Walk.bindOutVars env derived isInvalid args) :=
    forM fun op hop => bindOutVar env derived isInvalid (h op hop)
  refine ite (.pure trivial) (ite ((hvars _ _).bind fun _ _ => .pure trivial) (look fun s => ?_))
  exact (reportAll _).bind fun _ _ => (stackOnly env resultTy).bind fun _ _ =>
    (hvars _ _).bind fun _ _ => .pure trivial

theorem invokeRef (env : Surroundings) (r : MemberRef) (receiver : Option Operand)
    {args : List Operand} (h : ∀ op ∈ args, op.Binds ns) (resultTy : TypeRef) (span : Span) :
    Declares ns (fun _ => True) (Walk.invokeRef env r receiver args resultTy span) := by
  refine (resolve env r span).bind fun callee _ => ?_
  cases callee with
  | none => exact .pure trivial
  | some callee =>
    exact (invoke env callee.contract receiver h resultTy span).bind fun _ _ => .pure trivial

theorem readProperty (env : Surroundings) (getter : MemberRef) (receiver : Option Operand)
    {args : List Operand} (h : ∀ op ∈ args, op.Binds ns) (resultTy : TypeRef) (span : Span) :
    Declares ns (fun _ => True) (Walk.readProperty env getter receiver args resultTy span) := by
  refine (resolve env getter span).bind fun callee _ => ?_
  cases callee with
  | none => exact .pure trivial
  | some callee =>
    refine (invoke env callee.contract receiver h resultTy span).bind fun _ _ =>
      (stackOnly env resultTy).bind fun _ _ => ite ?_ (.pure trivial)
    exact (noteCopy span).bind fun _ _ => .pure trivial

theorem checkTypeArgs (env : Surroundings) (callee : Callee) (typeArgs : List TypeRef)
    (span : Span) : Declares ns (fun _ => True) (Walk.checkTypeArgs env callee typeArgs span) :=
  look fun _ => reportShapes _

/-- An operand declares only what its expression names. -/
theorem operandOf (env : Surroundings) {e : Expr} (h : Binders.ofExpr e ⊆ ns) (mode : RefKind)
    {check : Walk ScopePair} (hc : Declares ns (fun _ => True) check) :
    Declares ns (Operand.Binds ns) (Walk.operandOf env e mode check) := by
  obtain ⟨id, kind, ty, span⟩ := e
  have main (fresh : Bool) (hbinds : ∀ pair stackOnly,
      (Operand.ofExpr ⟨id, kind, ty, span⟩ pair stackOnly mode fresh).Binds ns)
      {m : Walk ScopePair} (hm : Declares ns (fun _ => True) m) :
      Declares ns (Operand.Binds ns) (m >>= fun pair => Walk.stackOnly env ty >>= fun stackOnly =>
        Pure.pure (Operand.ofExpr ⟨id, kind, ty, span⟩ pair stackOnly mode fresh)) :=
    hm.bind fun pair _ => (stackOnly env ty).bind fun stackOnly _ => .pure (hbinds pair stackOnly)
  cases kind with
  | outVar name =>
    refine main true (fun _ _ name' hname => ?_)
      ((record id .confined).bind fun _ _ => .pure trivial)
    obtain rfl := Option.mem_some_iff.1 hname
    exact h (List.mem_singleton_self _)
  | _ => exact main false (fun _ _ _ hname => absurd hname (by simp [Operand.binder?,
      Operand.ofExpr])) hc

/-! ### Scopes of their own -/

/-- What is declared in a block is gone at its end. -/
theorem inBlock {kind : ScopeKind} (hk : kind.isFunction = false) (stmts : List Stmt)
    {body : Walk Unit} {inner : List String} (hb : Declares inner (fun _ => True) body) :
    Declares ns (fun _ => True)
      (Walk.inScope kind (Walk.declareFunctions stmts >>= fun _ => body)) where
  after s := by
    rw [Walk.after_inScope]
    have h := hb.after (s.inBlock kind stmts)
    obtain ⟨infos, _, hc⟩ := h.context
    refine WalkState.Keeps.leave ⟨h.generics, h.errors, h.caps⟩ ?_
    rw [hc]
    exact s.ctx.popScope_pushScope hk (directFunctions stmts) infos
  answer _ := trivial

/-- So it is in a scope without local functions of its own. -/
theorem inScope (inner : List String) {kind : ScopeKind} (hk : kind.isFunction = false)
    {body : Walk Unit} (hb : Declares inner (fun _ => True) body) :
    Declares ns (fun _ => True) (Walk.inScope kind body) :=
  inBlock hk [] hb

/-- What is declared in a nested function is gone at its end. -/
theorem inFunction {kind : ScopeKind} (hk : kind.isFunction = true) (frame : FunctionFrame)
    (stmts : List Stmt) {params body : Walk Unit} {names inner : List String}
    (hp : Declares names (fun _ => True) params) (hb : Declares inner (fun _ => True) body) :
    Declares ns (fun _ => True) (Walk.inFunction kind frame
      (params >>= fun _ => Walk.declareFunctions stmts >>= fun _ => body)) where
  after s := by
    rw [Walk.after_inFunction]
    have h := hp.after (s.inFunction kind frame)
    have h' := hb.after ((params.after (s.inFunction kind frame)).withFunctions stmts)
    obtain ⟨infos, _, hc⟩ := h.context
    obtain ⟨infos', _, hc'⟩ := h'.context
    have hparams : s.Keeps (params.after (s.inFunction kind frame)) :=
      ⟨h.generics, h.errors, h.caps⟩
    refine (hparams.trans ⟨h'.generics, h'.errors, h'.caps⟩).leave ?_
    rw [hc']
    change (((params.after (s.inFunction kind frame)).ctx.declareFunctions
      (directFunctions stmts)).declareAll infos').popScope = s.ctx
    rw [hc]
    exact s.ctx.popScope_pushFunction hk frame infos (directFunctions stmts) infos'
  answer _ := trivial

/-- Other type parameters are in scope only inside. -/
theorem withGenerics {scope : GenericScope} {body : Walk Unit}
    (hb : Declares ns (fun _ => True) body) :
    Declares ns (fun _ => True) (Walk.withGenerics scope body) where
  after s := by
    have h := hb.after { s with generics := scope }
    exact ⟨⟨rfl, h.errors, h.caps⟩, h.context⟩
  answer _ := trivial

theorem lambdaOver (env : Surroundings) (fn : Lambda) {body : Walk Unit} {inner : List String}
    (hb : Declares inner (fun _ => True) body) :
    Declares ns (fun _ => True) (Walk.lambdaOver env fn body) :=
  look fun _ => inFunction rfl _ fn.body (bindParams env true fn.params _) hb

theorem enterLocalFunction (env : Surroundings) (decl : FnDecl) :
    Declares ns (fun _ => True) (Walk.enterLocalFunction env decl) :=
  (reportAll _).bind fun _ _ => (fileTypeParams env decl).bind fun _ _ =>
    (reportShapes _).bind fun _ _ => obtainContract _ _

theorem localFunctionOver (env : Surroundings) (decl : FnDecl) {body : Walk Unit}
    {inner : List String} (hb : Declares inner (fun _ => True) body) :
    Declares ns (fun _ => True) (Walk.localFunctionOver env decl body) := by
  rw [Walk.localFunctionOver_eq]
  refine (enterLocalFunction env decl).bind fun contract _ => look fun s => ?_
  exact withGenerics (inFunction rfl _ _ (bindParams env true decl.params _) hb)

/-! ### Declarations, disposal and patterns -/

theorem declareLocal (env : Surroundings) {decl : LocalDecl} (h : decl.name ∈ ns)
    (wellFormed reportAsync : Bool) (init : Option ScopePair) :
    Declares ns (fun _ => True) (Walk.declareLocal env decl wellFormed reportAsync init) :=
  (stackOnly env decl.ty).bind fun _ _ => ite
    ((rejectedInAsync _ _ _).bind fun _ _ => declare h) (declare h)

theorem disposeOf (env : Surroundings) (dispose : Option MemberRef) (op : Operand) (span : Span) :
    Declares ns (fun _ => True) (Walk.disposeOf env dispose op span) := by
  cases dispose with
  | none => exact .pure trivial
  | some r =>
    exact inScope [] rfl (invokeRef env r (some op) (by simp) .void span).discard

theorem checkAssignment (env : Surroundings) (target value : Expr) (byRef : Bool)
    (t v : ScopePair) :
    Declares ns (fun _ => True) (Walk.checkAssignment env target value byRef t v) :=
  look fun _ => (passes _ _).discard

theorem checkReturned (value : Expr) (pair : ScopePair) :
    Declares ns (fun _ => True) (Walk.checkReturned value pair) := by
  refine look fun s => ?_
  cases s.ctx.function with
  | none => exact .pure trivial
  | some frame => exact (passes _ _).discard

theorem bindPattern (env : Surroundings) {name : String} (h : name ∈ ns) (ty : TypeRef)
    (input : ScopePair) (span : Span) :
    Declares ns (fun _ => True) (Walk.bindPattern env name ty input span) :=
  (checkShape env ty span).bind fun _ _ => (stackOnly env ty).bind fun _ _ =>
    declareBinding env h _ _ _ _

theorem accessMember (env : Surroundings) (access : MemberAccess) (input : ScopePair)
    (receiverTy ty : TypeRef) (span : Span) :
    Declares ns (fun _ => True) (Walk.accessMember env access input receiverTy ty span) := by
  refine look fun s => ?_
  cases access with
  | field owner name => exact .pure trivial
  | property getter => exact readProperty env getter _ (by simp) _ _

theorem deconstructInput (env : Surroundings) (deconstruct : MemberRef)
    (componentTys : List TypeRef) (input : ScopePair) (inputTy : TypeRef) (span : Span) :
    Declares ns (fun _ => True)
      (Walk.deconstructInput env deconstruct componentTys input inputTy span) := by
  refine look fun s => (resolve env deconstruct span).bind fun callee _ => ?_
  cases callee with
  | none => exact .pure trivial
  | some callee =>
    refine ite (.pure trivial) ((invoke env callee.contract _ (fun op hop => ?_) _ _).bind
      fun _ _ => .pure trivial)
    -- The components have no expression, so they declare nothing.
    obtain ⟨ty, _, rfl⟩ := List.mem_map.1 hop
    intro name hname
    exact absurd hname (by simp [Operand.binder?])

/-- A block, given the walk over its statements. -/
theorem block (stmts : List Stmt) {body : Walk Unit} {inner : List String}
    (hb : Declares inner (fun _ => True) body) :
    Declares ns (fun _ => True) (Walk.block stmts body) :=
  inBlock rfl stmts hb

theorem refusesStackOnly (isAwait : Bool) :
    Declares ns (fun _ => True) (Walk.refusesStackOnly isAwait) :=
  look fun _ => .pure trivial

theorem usingOver (env : Surroundings) (region : UsingStmt) (op : Operand) (ty : TypeRef)
    (span : Span) {body : Walk Unit} {inner : List String}
    (hb : Declares inner (fun _ => True) body) :
    Declares ns (fun _ => True) (Walk.usingOver env region op ty span body) := by
  refine (refusesStackOnly _).bind fun _ _ => ite ?_ ?_
  · exact (report _ _).bind fun _ _ => block region.body hb
  · exact (block region.body hb).bind fun _ _ => disposeOf env region.dispose op span

theorem foreachOver (env : Surroundings) (loop : ForeachStmt) (collection : ScopePair)
    (span : Span) {matchElement : ScopePair → Walk Unit} {body : Walk Unit}
    {inner : List String}
    (hm : ∀ element, Declares (Binders.ofPattern loop.binding) (fun _ => True)
      (matchElement element))
    (hb : Declares inner (fun _ => True) body) :
    Declares ns (fun _ => True)
      (Walk.foreachOver env loop collection span matchElement body) := by
  have hbind (element : ScopePair) : Declares (Binders.ofPattern loop.binding) (fun _ => True)
      (Walk.bindIteration env loop matchElement element) := by
    have hm' := hm element
    obtain ⟨binding, byRef, _, _, _, _⟩ := loop
    cases binding with
    | declaration name ty span =>
      exact declareBinding env (by simp [Binders.ofPattern]) ty element byRef span
    | _ => exact hm'
  refine (stackOnly _ _).bind fun _ _ => (refusesStackOnly _).bind fun _ _ => inScope
    (Binders.ofPattern loop.binding) rfl (ite ?_ ?_)
  · exact (report _ _).bind fun _ _ => (hbind _).bind fun _ _ => block loop.body hb
  · refine (stackOnly _ _).bind fun _ _ => (invokeRef env _ _ (by simp) _ _).bind fun _ _ => ?_
    refine (invokeRef env _ _ (by simp) _ _).discard.bind fun _ _ => ?_
    refine (readProperty env _ _ (by simp) _ _).bind fun _ _ => (hbind _).bind fun _ _ => ?_
    exact (block loop.body hb).bind fun _ _ => disposeOf env _ _ _

/-! ### The walk -/

mutual

theorem checkExpr {ns : List String} : (e : Expr) → Binders.ofExpr e ⊆ ns →
    Declares ns (fun _ => True) (Walk.checkExpr env e)
  | ⟨id, kind, ty, span⟩, h => by
    rw [Binders.ofExpr] at h
    rw [Walk.checkExpr]
    refine look fun s => ite ?_ ?_
    · exact (report _ _).bind fun _ _ => (record _ _).bind fun _ _ => .pure trivial
    · exact (checkForm id ty span kind h).bind fun _ _ => (record _ _).bind fun _ _ => .pure trivial

theorem checkForm {ns : List String} (id : NodeId) (ty : TypeRef) (span : Span) :
    (kind : ExprKind) → Binders.ofKind kind ⊆ ns →
    Declares ns (fun _ => True) (Walk.checkForm env id ty span kind)
  | .literal _, _ => by
    rw [Walk.checkForm]
    exact .pure trivial
  | .var name, _ => by
    rw [Walk.checkForm]
    exact readVariable env name span
  | .thisRef, _ => by
    rw [Walk.checkForm]
    exact readThis env span
  | .field receiver owner name, h => by
    rw [Binders.ofKind] at h
    rw [Walk.checkForm]
    exact (checkOptional receiver h).bind fun _ _ => look fun _ => .pure trivial
  | .property receiver getter args, h => by
    rw [Binders.ofKind] at h
    obtain ⟨hr, ha⟩ := List.append_subset.1 h
    rw [Walk.checkForm]
    exact (checkReceiver receiver hr).bind fun _ _ => (checkArgs args ha).bind fun _ hops =>
      readProperty env getter _ hops _ _
  | .call receiver method typeArgs args, h => by
    rw [Binders.ofKind] at h
    obtain ⟨hr, ha⟩ := List.append_subset.1 h
    rw [Walk.checkForm]
    refine (checkReceiver receiver hr).bind fun _ _ => (checkArgs args ha).bind fun _ hops =>
      (resolve env method span).bind fun callee _ => ?_
    cases callee with
    | none => exact .pure trivial
    | some callee =>
      exact (checkTypeArgs env callee _ _).bind fun _ _ =>
        (invoke env callee.contract _ hops _ _).bind fun _ _ => .pure trivial
  | .create ctor args, h => by
    rw [Binders.ofKind] at h
    rw [Walk.checkForm]
    refine (checkShape env ty span).bind fun _ _ => (checkArgs args h).bind fun _ hops =>
      ite (.pure trivial) ?_
    cases ctor with
    | none => exact .pure trivial
    | some ctor => exact invokeRef env ctor _ hops _ _
  | .stackAlloc _ len, h => by
    rw [Binders.ofKind] at h
    rw [Walk.checkForm]
    exact (checkExpr len h).discard.bind fun _ _ => (stackOnly env ty).bind fun _ _ =>
      .pure trivial
  | .conditional cond thenExpr elseExpr byRef, h => by
    rw [Binders.ofKind] at h
    obtain ⟨hc, hbranches⟩ := List.append_subset.1 h
    obtain ⟨ht, he⟩ := List.append_subset.1 hbranches
    rw [Walk.checkForm]
    exact (checkExpr cond hc).discard.bind fun _ _ => (checkExpr thenExpr ht).bind fun _ _ =>
      (checkExpr elseExpr he).bind fun _ _ => (stackOnly env ty).bind fun _ _ => .pure trivial
  | .convert operand _, h => by
    rw [Binders.ofKind] at h
    rw [Walk.checkForm]
    refine (checkExpr operand h).bind fun _ _ => (checkShape env ty span).bind fun _ _ =>
      ite (.pure trivial) (look fun _ => ?_)
    exact (passes _ _).bind fun _ _ => ite (.pure trivial) (.pure trivial)
  | .binary op left right, h => by
    rw [Binders.ofKind] at h
    obtain ⟨hl, hr⟩ := List.append_subset.1 h
    rw [Walk.checkForm]
    exact (checkExpr left hl).bind fun _ _ => (checkExpr right hr).bind fun _ _ =>
      ite (.pure trivial) (look fun _ => (settle _ _ _).bind fun _ _ => .pure trivial)
  | .test operand pattern, h => by
    rw [Binders.ofKind] at h
    obtain ⟨ho, hp⟩ := List.append_subset.1 h
    rw [Walk.checkForm]
    refine (checkExpr operand ho).bind fun input _ => look fun _ => (settle _ _ _).bind fun _ _ =>
      ite ?_ (.pure trivial)
    exact (checkPattern input operand.ty span pattern hp).bind fun _ _ => .pure trivial
  | .lambda fn, _ => by
    rw [Walk.checkForm]
    exact (checkLambda fn).bind fun _ _ => .pure trivial
  | .arrayNew _ elems, h => by
    rw [Binders.ofKind] at h
    rw [Walk.checkForm]
    exact (checkShape env ty span).bind fun _ _ => (checkAll elems h).bind fun _ _ => .pure trivial
  | .anonymous members, h => by
    rw [Binders.ofKind] at h
    rw [Walk.checkForm]
    exact (checkMembers members h).bind fun _ _ => .pure trivial
  | .await operand, h => by
    rw [Binders.ofKind] at h
    rw [Walk.checkForm]
    exact (checkExpr operand h).discard.bind fun _ _ => .pure trivial
  | .dynamicInvoke receiver _ args, h => by
    rw [Binders.ofKind] at h
    obtain ⟨hr, ha⟩ := List.append_subset.1 h
    rw [Walk.checkForm]
    exact (checkExpr receiver hr).discard.bind fun _ _ => (checkValues args ha).bind fun _ _ =>
      look fun _ => (reportAll _).bind fun _ _ => .pure trivial
  | .outVar _, _ => by
    rw [Walk.checkForm]
    exact .pure trivial

theorem checkOptional {ns : List String} : (receiver : Option Expr) →
    Binders.ofOptional receiver ⊆ ns →
    Declares ns (fun _ => True) (Walk.checkOptional env receiver)
  | none, _ => by
    rw [Walk.checkOptional]
    exact .pure trivial
  | some e, h => by
    rw [Binders.ofOptional] at h
    rw [Walk.checkOptional]
    exact (checkExpr e h).bind fun _ _ => .pure trivial

theorem checkReceiver {ns : List String} : (receiver : Option Expr) →
    Binders.ofOptional receiver ⊆ ns →
    Declares ns (fun _ => True) (Walk.checkReceiver env receiver)
  | none, _ => by
    rw [Walk.checkReceiver]
    exact .pure trivial
  | some e, h => by
    rw [Binders.ofOptional] at h
    rw [Walk.checkReceiver]
    exact (operandOf env h .none (checkExpr e h)).bind fun _ _ => .pure trivial

theorem checkArgs {ns : List String} : (args : List Arg) → Binders.ofArgs args ⊆ ns →
    Declares ns (fun ops => ∀ op ∈ ops, op.Binds ns) (Walk.checkArgs env args)
  | [], _ => by
    rw [Walk.checkArgs]
    exact .pure (by simp)
  | ⟨mode, e⟩ :: rest, h => by
    rw [Binders.ofArgs] at h
    obtain ⟨he, hrest⟩ := List.append_subset.1 h
    rw [Walk.checkArgs]
    refine (operandOf env he mode (checkExpr e he)).bind fun op hop =>
      (checkArgs rest hrest).bind fun ops hops => .pure ?_
    exact List.forall_mem_cons.2 ⟨hop, hops⟩

theorem checkValues {ns : List String} : (args : List Arg) → Binders.ofArgs args ⊆ ns →
    Declares ns (fun _ => True) (Walk.checkValues env args)
  | [], _ => by
    rw [Walk.checkValues]
    exact .pure trivial
  | ⟨_, e⟩ :: rest, h => by
    rw [Binders.ofArgs] at h
    obtain ⟨he, hrest⟩ := List.append_subset.1 h
    rw [Walk.checkValues]
    exact (checkExpr e he).discard.bind fun _ _ => checkValues rest hrest

theorem checkAll {ns : List String} : (elems : List Expr) → Binders.ofExprs elems ⊆ ns →
    Declares ns (fun _ => True) (Walk.checkAll env elems)
  | [], _ => by
    rw [Walk.checkAll]
    exact .pure trivial
  | e :: rest, h => by
    rw [Binders.ofExprs] at h
    obtain ⟨he, hrest⟩ := List.append_subset.1 h
    rw [Walk.checkAll]
    exact (checkExpr e he).discard.bind fun _ _ => checkAll rest hrest

theorem checkMembers {ns : List String} : (members : List NamedExpr) →
    Binders.ofMembers members ⊆ ns →
    Declares ns (fun _ => True) (Walk.checkMembers env members)
  | [], _ => by
    rw [Walk.checkMembers]
    exact .pure trivial
  | ⟨name, e⟩ :: rest, h => by
    rw [Binders.ofMembers] at h
    obtain ⟨he, hrest⟩ := List.append_subset.1 h
    rw [Walk.checkMembers]
    exact (checkExpr e he).bind fun _ _ => (stackOnly env e.ty).bind fun _ _ =>
      (passes _ _).bind fun _ _ => (checkMembers rest hrest).bind fun _ _ => .pure trivial

theorem checkLambda {ns : List String} : (fn : Lambda) →
    Declares ns (fun _ => True) (Walk.checkLambda env fn)
  | ⟨params, retTy, body, isExpressionTree, isStatic, isAsync⟩ => by
    rw [Walk.checkLambda]
    exact lambdaOver env _ (checkStmts body (List.Subset.refl (Binders.ofStmts body)))

theorem checkPattern {ns : List String} (input : ScopePair) (inputTy : TypeRef) (span : Span) :
    (p : Pattern) → Binders.ofPattern p ⊆ ns →
    Declares ns (fun _ => True) (Walk.checkPattern env input inputTy span p)
  | .discard, _ => by
    rw [Walk.checkPattern]
    exact .pure trivial
  | .declaration name ty span, h => by
    rw [Walk.checkPattern]
    exact bindPattern env (h (by simp [Binders.ofPattern])) ty input span
  | .typeTest _, _ => by
    rw [Walk.checkPattern]
    exact .pure trivial
  | .constant e, h => by
    rw [Binders.ofPattern] at h
    rw [Walk.checkPattern]
    exact (checkExpr e h).discard
  | .property ty subpatterns, h => by
    rw [Binders.ofPattern] at h
    rw [Walk.checkPattern]
    exact checkSubPatterns input (ty.getD inputTy) subpatterns h
  | .positional deconstruct subpatterns componentTys, h => by
    rw [Binders.ofPattern] at h
    rw [Walk.checkPattern]
    exact (deconstructInput env deconstruct componentTys input inputTy span).bind fun outcome _ =>
      checkComponents outcome span subpatterns componentTys h
  | .negated inner, h => by
    rw [Binders.ofPattern] at h
    rw [Walk.checkPattern]
    exact checkPattern input inputTy span inner h

theorem checkSubPatterns {ns : List String} (input : ScopePair) (receiverTy : TypeRef) :
    (subs : List SubPattern) → Binders.ofSubPatterns subs ⊆ ns →
    Declares ns (fun _ => True) (Walk.checkSubPatterns env input receiverTy subs)
  | [], _ => by
    rw [Walk.checkSubPatterns]
    exact .pure trivial
  | ⟨access, ty, p, span⟩ :: rest, h => by
    rw [Binders.ofSubPatterns] at h
    obtain ⟨hp, hrest⟩ := List.append_subset.1 h
    rw [Walk.checkSubPatterns]
    exact (accessMember env access input receiverTy ty span).bind fun extracted _ =>
      (checkPattern extracted ty span p hp).bind fun _ _ =>
        checkSubPatterns input receiverTy rest hrest

theorem checkComponents {ns : List String} (outcome : Option Outcome) (span : Span) :
    (subs : List Pattern) → (tys : List TypeRef) → Binders.ofComponents subs ⊆ ns →
    Declares ns (fun _ => True) (Walk.checkComponents env outcome span subs tys)
  | [], tys, _ => by
    rw [Walk.checkComponents.eq_def]
    exact .pure trivial
  | p :: rest, [], _ => by
    rw [Walk.checkComponents.eq_def]
    exact .pure trivial
  | p :: rest, ty :: tys, h => by
    rw [Binders.ofComponents] at h
    obtain ⟨hp, hrest⟩ := List.append_subset.1 h
    rw [Walk.checkComponents]
    exact (stackOnly env ty).bind fun so _ =>
      (checkPattern (Walk.componentPair outcome so) ty span p hp).bind fun _ _ =>
        checkComponents outcome span rest tys hrest

theorem checkLocal {ns : List String} (reportAsync : Bool) : (decl : LocalDecl) →
    Binders.ofLocal decl ⊆ ns →
    Declares ns (fun _ => True) (Walk.checkLocal env reportAsync decl)
  | ⟨name, ty, refKind, isScoped, init, span⟩, h => by
    rw [Binders.ofLocal] at h
    obtain ⟨hname, hinit⟩ := List.cons_subset.1 h
    rw [Walk.checkLocal]
    exact (checkShape env ty span).bind fun _ _ => (checkInit init hinit).bind fun _ _ =>
      declareLocal env hname _ _ _

theorem checkInit {ns : List String} : (init : Option Expr) → Binders.ofOptional init ⊆ ns →
    Declares ns (fun _ => True) (Walk.checkInit env init)
  | none, _ => by
    rw [Walk.checkInit]
    exact .pure trivial
  | some e, h => by
    rw [Binders.ofOptional] at h
    rw [Walk.checkInit]
    exact (checkExpr e h).bind fun _ _ => .pure trivial

theorem checkStmts {ns : List String} : (stmts : List Stmt) → Binders.ofStmts stmts ⊆ ns →
    Declares ns (fun _ => True) (Walk.checkStmts env stmts)
  | [], _ => by
    rw [Walk.checkStmts]
    exact .pure trivial
  | s :: rest, h => by
    rw [Binders.ofStmts] at h
    obtain ⟨hs, hrest⟩ := List.append_subset.1 h
    rw [Walk.checkStmts]
    exact (checkStmt s hs).bind fun _ _ => checkStmts rest hrest

theorem checkStmt {ns : List String} : (s : Stmt) → Binders.ofStmt s ⊆ ns →
    Declares ns (fun _ => True) (Walk.checkStmt env s)
  | ⟨_, .expr e, _⟩, h => by
    rw [Binders.ofStmt] at h
    rw [Walk.checkStmt]
    exact (checkExpr e h).discard
  | ⟨_, .yieldReturn e, _⟩, h => by
    rw [Binders.ofStmt] at h
    rw [Walk.checkStmt]
    exact (checkExpr e h).discard
  | ⟨_, .declare decl, _⟩, h => by
    rw [Binders.ofStmt] at h
    rw [Walk.checkStmt]
    exact checkLocal true decl h
  | ⟨id, .assign ⟨tid, kind, ty, tspan⟩ value byRef, span⟩, h => by
    rw [Binders.ofStmt] at h
    obtain ⟨ht, hv⟩ := List.append_subset.1 h
    rw [Binders.ofExpr] at ht
    have htarget : Declares ns (fun _ => True) (Walk.checkExpr env ⟨tid, kind, ty, tspan⟩) := by
      rw [Walk.checkExpr]
      refine look fun s => ite ?_ ?_
      · exact (report _ _).bind fun _ _ => (record _ _).bind fun _ _ => .pure trivial
      · exact (checkForm tid ty tspan kind ht).bind fun _ _ => (record _ _).bind fun _ _ =>
          .pure trivial
    have hvalue : Declares ns (fun _ => True) (Walk.checkExpr env value) := checkExpr value hv
    have main : Declares ns (fun _ => True)
        (Walk.checkExpr env ⟨tid, kind, ty, tspan⟩ >>= fun t => Walk.checkExpr env value >>=
          fun v => Walk.checkAssignment env ⟨tid, kind, ty, tspan⟩ value byRef t v) :=
      htarget.bind fun _ _ => hvalue.bind fun _ _ => checkAssignment env _ _ _ _ _
    cases kind
    case property receiver getter args =>
      cases byRef with
      | true => exact main
      | false =>
        rw [Binders.ofKind] at ht
        obtain ⟨hr, ha⟩ := List.append_subset.1 ht
        rw [Walk.checkStmt]
        refine (checkReceiver receiver hr).bind fun _ _ => (checkArgs args ha).bind fun ops hops =>
          (operandOf env hv .none hvalue).bind fun op hop => ?_
        refine (invokeRef env _ _ (fun o ho => ?_) _ _).discard
        rcases List.mem_append.1 ho with ho | ho
        · exact hops o ho
        · exact List.mem_singleton.1 ho ▸ hop
    all_goals exact main
  | ⟨_, .ret none, _⟩, _ => by
    rw [Walk.checkStmt]
    exact .pure trivial
  | ⟨_, .ret (some value), _⟩, h => by
    rw [Binders.ofStmt] at h
    rw [Walk.checkStmt]
    exact (checkExpr value h).bind fun _ _ => checkReturned value _
  | ⟨_, .block body, _⟩, _ => by
    rw [Walk.checkStmt]
    exact block body (checkStmts body (List.Subset.refl (Binders.ofStmts body)))
  | ⟨_, .ifElse cond thenBranch elseBranch, _⟩, h => by
    rw [Binders.ofStmt] at h
    rw [Walk.checkStmt]
    exact (checkExpr cond h).discard.bind fun _ _ => (block thenBranch
      (checkStmts thenBranch (List.Subset.refl (Binders.ofStmts thenBranch)))).bind
        fun _ _ => checkElse elseBranch
  | ⟨_, .whileLoop cond body, _⟩, h => by
    rw [Binders.ofStmt] at h
    rw [Walk.checkStmt]
    exact (checkExpr cond h).discard.bind fun _ _ => block body
      (checkStmts body (List.Subset.refl (Binders.ofStmts body)))
  | ⟨_, .foreach loop, span⟩, h => by
    rw [Binders.ofStmt] at h
    rw [Walk.checkStmt]
    exact checkForeach span loop h
  | ⟨_, .using region, span⟩, _ => by
    rw [Walk.checkStmt]
    exact checkUsing span region
  | ⟨_, .localFunction decl, _⟩, _ => by
    rw [Walk.checkStmt]
    exact checkLocalFunction decl

theorem checkElse {ns : List String} : (branch : Option (List Stmt)) →
    Declares ns (fun _ => True) (Walk.checkElse env branch)
  | none => by
    rw [Walk.checkElse]
    exact .pure trivial
  | some body => by
    rw [Walk.checkElse]
    exact block body (checkStmts body (List.Subset.refl (Binders.ofStmts body)))

theorem checkForeach {ns : List String} (span : Span) : (loop : ForeachStmt) →
    Binders.ofForeach loop ⊆ ns →
    Declares ns (fun _ => True) (Walk.checkForeach env span loop)
  | ⟨binding, byRef, collection, enumerator, isAwait, body⟩, h => by
    rw [Binders.ofForeach] at h
    have hm (element : ScopePair) : Declares (Binders.ofPattern binding) (fun _ => True)
        (Walk.checkPattern env element enumerator.elementTy span binding) :=
      checkPattern element enumerator.elementTy span binding (List.Subset.refl _)
    have hb : Declares (Binders.ofStmts body) (fun _ => True) (Walk.checkStmts env body) :=
      checkStmts body (List.Subset.refl _)
    rw [Walk.checkForeach]
    exact (checkExpr collection h).bind fun pair _ =>
      foreachOver env ⟨binding, byRef, collection, enumerator, isAwait, body⟩ pair span hm hb

theorem checkUsing {ns : List String} (span : Span) : (region : UsingStmt) →
    Declares ns (fun _ => True) (Walk.checkUsing env span region)
  | ⟨.expr e, dispose, isAwait, body⟩ => by
    rw [Walk.checkUsing]
    refine inScope (Binders.ofExpr e) rfl ((checkExpr e (List.Subset.refl (Binders.ofExpr e))).bind
      fun _ _ => (stackOnly env e.ty).bind fun _ _ => ?_)
    exact usingOver env _ _ _ _
      (checkStmts body (List.Subset.refl (Binders.ofStmts body)))
  | ⟨.declare ⟨name, ty, refKind, isScoped, init, dspan⟩, dispose, isAwait, body⟩ => by
    have hinit : Declares (name :: Binders.ofOptional init) (fun _ => True)
        (Walk.checkInit env init) := checkInit init (List.subset_cons_self _ _)
    have hname : name ∈ name :: Binders.ofOptional init := List.mem_cons_self ..
    rw [Walk.checkUsing]
    refine inScope (name :: Binders.ofOptional init) rfl ((stackOnly env ty).bind fun so _ => ?_)
    rw [Walk.checkLocal]
    refine Declares.bind (Q := fun _ => True) ((checkShape env ty dspan).bind fun _ _ =>
      hinit.bind fun _ _ => declareLocal env hname _ _ _) fun _ _ => ?_
    refine Declares.bind (Q := fun _ => True) (look fun _ => .pure trivial) fun op _ => ?_
    exact usingOver env _ _ _ _
      (checkStmts body (List.Subset.refl (Binders.ofStmts body)))

theorem checkLocalFunction {ns : List String} : (decl : FnDecl) →
    Declares ns (fun _ => True) (Walk.checkLocalFunction env decl)
  | ⟨fid, name, kind, modifiers, typeParams, params, ret, attrs, explicitImpl, overrides, body,
      fspan⟩ => by
    rw [Walk.checkLocalFunction]
    exact localFunctionOver env _ (checkBody body
      (List.Subset.refl (Binders.ofStmts (body.getD []))))

theorem checkBody {ns : List String} : (body : Option (List Stmt)) →
    Binders.ofStmts (body.getD []) ⊆ ns →
    Declares ns (fun _ => True) (Walk.checkBody env body)
  | none, _ => by
    rw [Walk.checkBody]
    exact .pure trivial
  | some body, h => by
    rw [Walk.checkBody]
    exact checkStmts body h

end

end Walk.Declares

/-! ## Accepted walks -/

namespace Walk

variable {α β : Type}

/-- The walk reports nothing. -/
def Accepted (m : Walk α) (s : WalkState) : Prop := (m.after s).errors = s.errors

/-- The parts of an accepted walk are accepted: no later part takes back what an earlier one
reported. -/
theorem Accepted.of_bind {ns ns' : List String} {Q : α → Prop} {R : β → Prop} {m : Walk α}
    {f : α → Walk β} {s : WalkState} (h : (m >>= f).Accepted s) (hm : Declares ns Q m)
    (hf : ∀ x, Declares ns' R (f x)) :
    m.Accepted s ∧ (f (m.answer s)).Accepted (m.after s) := by
  have h₁ : s.errors <+: (m.after s).errors := (hm.after s).errors
  have h₂ : (m.after s).errors <+: ((m >>= f).after s).errors :=
    ((hf (m.answer s)).after (m.after s)).errors
  have hall : ((m >>= f).after s).errors = s.errors := h
  have hsame : s.errors = (m.after s).errors := by
    refine h₁.eq_of_length_le ?_
    rw [← hall]
    exact h₂.length_le
  exact ⟨hsame.symm, hall.trans hsame⟩

/-- What is reported is accepted only if it is nothing. -/
theorem eq_nil_of_accepted_reportAll {errors : List EscapeError} {s : WalkState}
    (h : (reportAll errors).Accepted s) : errors = [] :=
  List.append_right_eq_self.1 h

/-- Only well-formed types are accepted. -/
theorem typeErrors_of_accepted {env : Surroundings} {ty : TypeRef} {span : Span} {s : WalkState}
    (h : (checkShape env ty span).Accepted s) : (s.types env).typeErrors span ty = [] := by
  have hreport : (reportAll (((s.types env).typeErrors span ty).map fun e =>
      (⟨.shape e.kind, e.span⟩ : EscapeError))).Accepted s := h
  exact List.map_eq_nil_iff.1 (eq_nil_of_accepted_reportAll hreport)

/-- Where a check is accepted, there was nothing to report. -/
theorem eq_none_of_accepted_passes {kind : Option EscapeErrorKind} {span : Span} {s : WalkState}
    (h : (passes kind span).Accepted s) : kind = none := by
  cases kind with
  | none => rfl
  | some kind =>
    have hreport : (reportAll [⟨kind, span⟩]).Accepted s := h
    exact absurd (eq_nil_of_accepted_reportAll hreport) (List.cons_ne_nil _ _)

end Walk

/-! ## Statements and declarations -/

namespace Walk

variable {env : Surroundings} {s : WalkState}

/-- Statements are walked one after the other. -/
theorem checkStmts_append (env : Surroundings) (stmts rest : List Stmt) :
    checkStmts env (stmts ++ rest) = checkStmts env stmts >>= fun _ => checkStmts env rest := by
  induction stmts with
  | nil =>
    rw [List.nil_append, checkStmts]
    rfl
  | cons x xs ih =>
    rw [List.cons_append, checkStmts, checkStmts, ih, bind_assoc]

/-- The state after some more statements. -/
theorem after_checkStmts_append (stmts rest : List Stmt) (s : WalkState) :
    (checkStmts env (stmts ++ rest)).after s =
      (checkStmts env rest).after ((checkStmts env stmts).after s) := by
  rw [checkStmts_append, after_bind]

/-- The state after one statement. -/
theorem after_checkStmts_singleton (x : Stmt) (s : WalkState) :
    (checkStmts env [x]).after s = (checkStmt env x).after s := by
  rw [checkStmts, after_bind, checkStmts, after_pure]

/-- An expression has just been recorded when its walk ends. -/
theorem pair?_checkExpr (env : Surroundings) (e : Expr) (s : WalkState) :
    ((checkExpr env e).after s).facts.pair? e.id = some ((checkExpr env e).answer s) := by
  rcases e with ⟨id, kind, ty, span⟩
  have hrecord (pair : ScopePair) (t : WalkState) :
      ((record id pair).after t).facts.pair? id = some pair :=
    (Table.get?_set t.facts.pairs id id pair).trans (if_pos rfl)
  rw [checkExpr, after_bind, answer_bind, answer_get, after_get]
  split
  · exact hrecord _ _
  · exact hrecord _ _

/-- The variable that a declaration declares. -/
def declaredLocal (decl : LocalDecl) (stackOnly : Bool) (init : Option ScopePair) : LocalInfo :=
  { name := decl.name, ty := decl.ty, stackOnly, isRef := decl.refKind.isByRef
    isScoped := decl.isScoped, kind := .declared, pair := localPair decl stackOnly init }

/-- Where stack-only variables are allowed, the variable of a well-formed type is declared with the
levels of its declaration. -/
theorem after_declareLocal (decl : LocalDecl) (init : Option ScopePair)
    (hfree : (s.types env).stackOnly decl.ty = true → s.forbidsLocals = false) :
    (declareLocal env decl true true init).after s =
      s.declaring (declaredLocal decl ((s.types env).stackOnly decl.ty) init) := by
  cases hso : (s.types env).stackOnly decl.ty with
  | false =>
    simp [declareLocal, stackOnly, hso]
    rfl
  | true =>
    simp [declareLocal, stackOnly, rejectedInAsync, hso, hfree hso]
    rfl

/-- The same for the whole declaration: its initial value is looked at first. -/
theorem after_checkLocal (decl : LocalDecl)
    (hshape : (s.types env).typeErrors decl.span decl.ty = [])
    (hfree : (((checkInit env decl.init).after s).types env).stackOnly decl.ty = true →
      s.forbidsLocals = false) :
    (checkLocal env true decl).after s =
      ((checkInit env decl.init).after s).declaring (declaredLocal decl
        ((((checkInit env decl.init).after s).types env).stackOnly decl.ty)
        ((checkInit env decl.init).answer s)) := by
  obtain ⟨hwell, hsame⟩ := run_checkShape hshape
  have hinit : s.Extends (Binders.ofOptional decl.init) ((checkInit env decl.init).after s) :=
    (Declares.checkInit decl.init (List.Subset.refl _)).after s
  rcases decl with ⟨name, ty, refKind, isScoped, init, span⟩
  rw [checkLocal, after_bind, hwell, hsame, after_bind]
  refine after_declareLocal _ _ fun hso => ?_
  rw [hinit.forbidsLocals_eq]
  exact hfree hso

end Walk

end StackEscape
