import StackEscape.Proofs.Ordinary

/-!
# Induction over a walk

A walk is made of a few kinds of steps: it looks at the state, reports errors, adds to the facts,
and changes what is in scope. What holds of these steps, and of two walks one after the other, holds
of the walk over every tree. The sinks are told apart, since only they report that something
escapes: operands that are passed together, assignments and returns.

## Main definitions

* `StackEscape.Walk.Closed` — a property of all ordinary steps.
* `StackEscape.Walk.ClosedAtSinks` — a property of the sinks as well.
* `StackEscape.Walk.Reports` — every error that a walk reports has a property.

## Main results

* `StackEscape.Walk.ClosedAtSinks.checkExpr`, `checkPattern`, `checkStmts` — the induction.
* `StackEscape.Walk.Reports.closed` — ordinary steps report nothing about escaping.
-/

set_option autoImplicit false

namespace StackEscape

/-! ## What is no matter of levels -/

theorem TypeErrorKind.errorClass_ne (kind : TypeErrorKind) :
    kind.errorClass ≠ .escapeViolation := by
  cases kind <;> nofun

namespace TypeEnv

variable {types : TypeEnv} {kind : EscapeErrorKind}

theorem errorClass_of_conversionError {source target : TypeRef}
    (h : kind ∈ types.conversionError source target) : kind.errorClass ≠ .escapeViolation := by
  unfold conversionError at h
  grind [EscapeErrorKind.errorClass]

theorem errorClass_of_nullTestVerdict {op : String} {subject : TypeRef}
    (h : types.nullTestVerdict op subject = .refused kind) :
    kind.errorClass ≠ .escapeViolation := by
  unfold nullTestVerdict at h
  grind [EscapeErrorKind.errorClass]

theorem errorClass_of_comparisonError {subject other : TypeRef}
    (h : types.comparisonError subject other = some kind) :
    kind.errorClass ≠ .escapeViolation := by
  unfold comparisonError at h
  grind [EscapeErrorKind.errorClass]

theorem errorClass_of_equalityVerdict {op : String} {left right : Expr}
    (h : types.equalityVerdict op left right = .refused kind) :
    kind.errorClass ≠ .escapeViolation := by
  unfold equalityVerdict at h
  split at h
  · exact errorClass_of_nullTestVerdict h
  · split at h
    · exact errorClass_of_nullTestVerdict h
    · split at h
      next error herror =>
        obtain rfl := Verdict.refused.inj h
        rcases Option.or_eq_some_iff.1 herror with herror | ⟨-, herror⟩
        · exact errorClass_of_comparisonError herror
        · exact errorClass_of_comparisonError herror
      next => cases h

theorem errorClass_of_binaryVerdict {op : BinOp} {left right : Expr}
    (h : types.binaryVerdict op left right = .refused kind) :
    kind.errorClass ≠ .escapeViolation := by
  cases op with
  | eq | ne => exact errorClass_of_equalityVerdict h
  | _ => cases h

theorem errorClass_of_testVerdict {subject : TypeRef} {pattern : Pattern}
    (h : types.testVerdict subject pattern = .refused kind) :
    kind.errorClass ≠ .escapeViolation := by
  unfold testVerdict at h
  split at h
  · split at h
    · exact errorClass_of_nullTestVerdict h
    · cases h
  · cases h

theorem errorClass_of_mem_dynamicErrors {operands : List Expr} {e : EscapeError}
    (h : e ∈ types.dynamicErrors operands) : e.errorClass ≠ .escapeViolation := by
  obtain ⟨x, -, rfl⟩ := List.mem_map.1 h
  nofun

end TypeEnv

namespace Walk

/-! ## Ordinary steps -/

/-- A property that every step of a walk has, as long as nothing is reported that is about escaping,
and that two walks have one after the other. -/
structure Closed (Q : {α : Type} → Walk α → Prop) : Prop where
  /-- What is done leaves facts and errors alone. -/
  silent : ∀ {α : Type} {m : Walk α},
    (∀ s : WalkState, (m.after s).facts = s.facts ∧ (m.after s).errors = s.errors) → Q m
  /-- One walk is followed by another. -/
  bind : ∀ {α β : Type} {m : Walk α} {f : α → Walk β}, Q m → (∀ x, Q (f x)) → Q (m >>= f)
  /-- The state is looked at. -/
  look : ∀ {α : Type} {k : WalkState → Walk α}, (∀ s, Q (k s)) → Q (get >>= k)
  /-- Errors are reported. -/
  reportAll : ∀ {errors : List EscapeError},
    (∀ e ∈ errors, e.errorClass ≠ .escapeViolation) → Q (Walk.reportAll errors)
  /-- The pair of an expression is recorded. -/
  record : ∀ (id : NodeId) (pair : ScopePair), Q (Walk.record id pair)
  /-- The way of a null test is recorded. -/
  recordNullTest : ∀ (id : NodeId) (test : NullTest), Q (Walk.recordNullTest id test)
  /-- A copy is noted. -/
  noteCopy : ∀ span : Span, Q (Walk.noteCopy span)

namespace Closed

variable {α β : Type} {env : Surroundings} {Q : {α : Type} → Walk α → Prop} (hQ : Closed Q)

include hQ

/-! ### Sequences and choices -/

theorem pure (x : α) : Q (Pure.pure x : Walk α) := hQ.silent fun _ => ⟨rfl, rfl⟩

theorem discard {m : Walk α} (hm : Q m) : Q (Functor.discard m) :=
  hQ.bind hm fun _ => hQ.pure ()

omit hQ in
theorem ite {c : Prop} [Decidable c] {m n : Walk α} (hm : Q m) (hn : Q n) :
    Q (if c then m else n) := by
  split
  · exact hm
  · exact hn

theorem forM {f : α → Walk Unit} {l : List α} (h : ∀ x, Q (f x)) : Q (l.forM f) := by
  induction l with
  | nil => exact hQ.pure ()
  | cons x rest ih => exact hQ.bind (h x) fun _ => ih

/-! ### Errors and tables -/

theorem report {kind : EscapeErrorKind} (span : Span)
    (h : kind.errorClass ≠ .escapeViolation := by nofun) : Q (Walk.report kind span) :=
  hQ.reportAll fun _ he => List.mem_singleton.1 he ▸ h

theorem reportShapes (errors : List TypeError) : Q (Walk.reportShapes errors) := by
  refine hQ.reportAll fun e he => ?_
  obtain ⟨x, -, rfl⟩ := List.mem_map.1 he
  exact x.kind.errorClass_ne

theorem passes {kind : Option EscapeErrorKind} (span : Span)
    (h : ∀ k ∈ kind, k.errorClass ≠ .escapeViolation) : Q (Walk.passes kind span) := by
  cases kind with
  | none => exact hQ.pure true
  | some kind => exact hQ.bind (hQ.report span (h kind rfl)) fun _ => hQ.pure false

theorem settle (id : NodeId) (span : Span) {verdict : Verdict}
    (h : ∀ kind, verdict = .refused kind → kind.errorClass ≠ .escapeViolation) :
    Q (Walk.settle id span verdict) := by
  cases verdict with
  | plain => exact hQ.pure true
  | lowered test => exact hQ.bind (hQ.recordNullTest id test) fun _ => hQ.pure true
  | refused error => exact hQ.bind (hQ.report span (h error rfl)) fun _ => hQ.pure false

theorem resolve (r : MemberRef) (span : Span) : Q (Walk.resolve env r span) := by
  refine hQ.look fun s => ?_
  cases s.target? env r with
  | none => exact hQ.bind (hQ.report span) fun _ => hQ.pure none
  | some x => cases x <;> exact hQ.silent fun _ => ⟨rfl, rfl⟩

theorem stackOnly (ty : TypeRef) : Q (Walk.stackOnly env ty) := hQ.look fun _ => hQ.pure _

theorem checkShape (ty : TypeRef) (span : Span) : Q (Walk.checkShape env ty span) :=
  hQ.look fun _ => hQ.bind (hQ.reportShapes _) fun _ => hQ.pure _

theorem checkTypeArgs (callee : Callee) (typeArgs : List TypeRef) (span : Span) :
    Q (Walk.checkTypeArgs env callee typeArgs span) := hQ.look fun _ => hQ.reportShapes _

/-! ### Names -/

theorem declare (info : LocalInfo) : Q (Walk.declare info) := hQ.silent fun _ => ⟨rfl, rfl⟩

theorem rejectedInAsync (name : String) (ty : TypeRef) (span : Span) :
    Q (Walk.rejectedInAsync name ty span) :=
  hQ.look fun _ => Closed.ite (hQ.bind (hQ.report span) fun _ => hQ.pure _) (hQ.pure _)

theorem declareBinding (name : String) (ty : TypeRef) (pair : ScopePair) (isRef : Bool)
    (span : Span) : Q (Walk.declareBinding env name ty pair isRef span) :=
  hQ.bind (hQ.stackOnly ty) fun _ => Closed.ite
    (hQ.bind (hQ.rejectedInAsync name ty span) fun _ => hQ.declare _) (hQ.declare _)

theorem bindParam (checkShapes : Bool) (param : Param) (contract : ParamContract) :
    Q (Walk.bindParam env checkShapes param contract) := by
  unfold Walk.bindParam
  refine Closed.ite (hQ.bind (hQ.checkShape _ _) fun _ => ?_) (hQ.bind (hQ.pure true) fun _ => ?_)
  all_goals
    refine hQ.look fun _ => Closed.ite (hQ.declare _) (Closed.ite ?_ (Closed.ite ?_ (hQ.declare _)))
    · exact hQ.bind (hQ.report _) fun _ => hQ.declare _
    · exact hQ.bind (hQ.report _) fun _ => hQ.declare _

theorem bindParams (checkShapes : Bool) (params : List Param) (contracts : List ParamContract) :
    Q (Walk.bindParams env checkShapes params contracts) :=
  hQ.forM fun x => hQ.bindParam checkShapes x.1 x.2

theorem readPrimaryParam (param : Param) (span : Span) :
    Q (Walk.readPrimaryParam env param span) :=
  hQ.bind (hQ.stackOnly param.ty) fun _ =>
    Closed.ite (hQ.bind (hQ.report span) fun _ => hQ.pure _) (hQ.pure _)

theorem readVariable (name : String) (span : Span) : Q (Walk.readVariable env name span) := by
  refine hQ.look fun s => ?_
  cases s.ctx.lookup name with
  | some found => exact Closed.ite (hQ.bind (hQ.report span) fun _ => hQ.pure _) (hQ.pure _)
  | none =>
    cases env.member.owner.primaryParams.find? fun q => decide (q.name = name) with
    | some param => exact hQ.readPrimaryParam param span
    | none => exact hQ.bind (hQ.report span) fun _ => hQ.pure _

theorem readThis (span : Span) : Q (Walk.readThis env span) := by
  refine hQ.look fun s => ?_
  cases s.thisPair with
  | none => exact hQ.pure _
  | some pair => exact Closed.ite (hQ.bind (hQ.report span) fun _ => hQ.pure _) (hQ.pure _)

theorem bindOutVar (derived : Level) (isInvalid : Bool) (op : Operand) :
    Q (Walk.bindOutVar env derived isInvalid op) := by
  unfold Walk.bindOutVar
  split
  · exact hQ.declareBinding _ _ _ _ _
  · exact hQ.pure ()

theorem bindOutVars (derived : Level) (isInvalid : Bool) (args : List Operand) :
    Q (Walk.bindOutVars env derived isInvalid args) :=
  hQ.forM fun op => hQ.bindOutVar derived isInvalid op

theorem operandOf (e : Expr) (mode : RefKind) {check : Walk ScopePair} (hc : Q check) :
    Q (Walk.operandOf env e mode check) := by
  obtain ⟨id, kind, ty, span⟩ := e
  have main (fresh : Bool) {m : Walk ScopePair} (hm : Q m) :
      Q (m >>= fun pair => Walk.stackOnly env ty >>= fun stackOnly =>
        Pure.pure (Operand.ofExpr ⟨id, kind, ty, span⟩ pair stackOnly mode fresh)) :=
    hQ.bind hm fun _ => hQ.bind (hQ.stackOnly ty) fun _ => hQ.pure _
  cases kind with
  | outVar name => exact main true (hQ.bind (hQ.record id .confined) fun _ => hQ.pure _)
  | _ => exact main false hc

/-! ### Scopes of their own -/

theorem modifyContext (f : Context → Context) : Q (Walk.modifyContext f) :=
  hQ.silent fun _ => ⟨rfl, rfl⟩

theorem declareFunctions (stmts : List Stmt) : Q (Walk.declareFunctions stmts) := by
  refine hQ.forM fun s => ?_
  rcases s with ⟨id, kind, span⟩
  cases kind with
  | localFunction decl => exact hQ.modifyContext _
  | _ => exact hQ.pure ()

theorem inScope (kind : ScopeKind) {body : Walk Unit} (hb : Q body) :
    Q (Walk.inScope kind body) :=
  hQ.bind (hQ.modifyContext _) fun _ => hQ.bind hb fun _ => hQ.modifyContext _

theorem inFunction (kind : ScopeKind) (frame : FunctionFrame) {body : Walk Unit}
    (hb : Q body) : Q (Walk.inFunction kind frame body) :=
  hQ.bind (hQ.modifyContext _) fun _ => hQ.bind hb fun _ => hQ.modifyContext _

theorem withGenerics (scope : GenericScope) {body : Walk Unit} (hb : Q body) :
    Q (Walk.withGenerics scope body) :=
  hQ.look fun _ => hQ.bind (hQ.silent fun _ => ⟨rfl, rfl⟩) fun _ => hQ.bind hb fun _ =>
    hQ.silent fun _ => ⟨rfl, rfl⟩

theorem block (stmts : List Stmt) {body : Walk Unit} (hb : Q body) :
    Q (Walk.block stmts body) :=
  hQ.inScope .block (hQ.bind (hQ.declareFunctions stmts) fun _ => hb)

theorem lambdaOver (fn : Lambda) {body : Walk Unit} (hb : Q body) :
    Q (Walk.lambdaOver env fn body) :=
  hQ.look fun _ => hQ.inFunction _ _ (hQ.bind (hQ.bindParams true fn.params _) fun _ =>
    hQ.bind (hQ.declareFunctions fn.body) fun _ => hb)

theorem localFunctionOver (decl : FnDecl) {body : Walk Unit} (hb : Q body) :
    Q (Walk.localFunctionOver env decl body) := by
  have hsignature : Q (Walk.reportAll (placementErrors env.member.owner decl (env.localKey decl)
      true) >>= fun _ => Walk.fileTypeParams env decl >>= fun _ => Walk.reportShapes
        (cycleErrors decl.typeParams ++
          decl.typeParams.flatMap (TypeParam.clauseErrors env.runtime))) :=
    hQ.bind (hQ.reportAll fun _ he => errorClass_of_mem_placementErrors he ▸ nofun) fun _ =>
      hQ.bind (hQ.silent fun _ => ⟨rfl, rfl⟩) fun _ => hQ.reportShapes _
  have hcontract : Q (Walk.localContract env decl) := hQ.silent fun _ => ⟨rfl, rfl⟩
  refine hQ.bind hsignature fun _ => hQ.bind hcontract fun contract =>
    hQ.look fun s => hQ.withGenerics _ (hQ.inFunction _ _ ?_)
  exact hQ.bind (hQ.bindParams true decl.params _) fun _ =>
    hQ.bind (hQ.declareFunctions _) fun _ => hb

/-! ### Declarations and patterns -/

theorem declareLocal (decl : LocalDecl) (wellFormed reportAsync : Bool) (init : Option ScopePair) :
    Q (Walk.declareLocal env decl wellFormed reportAsync init) :=
  hQ.bind (hQ.stackOnly decl.ty) fun _ => Closed.ite
    (hQ.bind (hQ.rejectedInAsync _ _ _) fun _ => hQ.declare _) (hQ.declare _)

theorem declaredResource (decl : LocalDecl) : Q (Walk.declaredResource env decl) :=
  hQ.look fun _ => hQ.pure _

theorem bindPattern (name : String) (ty : TypeRef) (input : ScopePair) (span : Span) :
    Q (Walk.bindPattern env name ty input span) :=
  hQ.bind (hQ.checkShape ty span) fun _ => hQ.bind (hQ.stackOnly ty) fun _ =>
    hQ.declareBinding _ _ _ _ _

theorem refusesStackOnly (isAwait : Bool) : Q (Walk.refusesStackOnly isAwait) :=
  hQ.look fun _ => hQ.pure _

theorem bindIteration (loop : ForeachStmt) {matchElement : ScopePair → Walk Unit}
    (hm : ∀ element, Q (matchElement element)) (element : ScopePair) :
    Q (Walk.bindIteration env loop matchElement element) := by
  unfold Walk.bindIteration
  split
  · exact hQ.declareBinding _ _ _ _ _
  · exact hm element

/-- An expression, by its form. -/
theorem exprOf {id : NodeId} {kind : ExprKind} {ty : TypeRef} {span : Span}
    (hf : Q (Walk.checkForm env id ty span kind)) :
    Q (Walk.checkExpr env ⟨id, kind, ty, span⟩) := by
  rw [Walk.checkExpr]
  refine hQ.look fun s => Closed.ite ?_ ?_
  · exact hQ.bind (hQ.report span) fun _ => hQ.bind (hQ.record id _) fun _ => hQ.pure _
  · exact hQ.bind hf fun _ => hQ.bind (hQ.record id _) fun _ => hQ.pure _

end Closed

/-! ## Errors -/

/-- Whatever the state is, the walk adds errors of a certain kind only. -/
def Reports (P : EscapeError → Prop) {α : Type} (m : Walk α) : Prop :=
  ∀ s : WalkState, ∃ errors, (m.after s).errors = s.errors ++ errors ∧ ∀ e ∈ errors, P e

namespace Reports

variable {α β : Type} {P : EscapeError → Prop}

theorem silent {m : Walk α} (h : ∀ s : WalkState, (m.after s).errors = s.errors) : Reports P m :=
  fun s => ⟨[], by rw [h, List.append_nil], fun _ he => absurd he List.not_mem_nil⟩

theorem bind {m : Walk α} {f : α → Walk β} (hm : Reports P m) (hf : ∀ x, Reports P (f x)) :
    Reports P (m >>= f) := by
  intro s
  obtain ⟨errors, hafter, herrors⟩ := hm s
  obtain ⟨more, hafter', hmore⟩ := hf (m.answer s) (m.after s)
  exact ⟨errors ++ more, by rw [after_bind, hafter', hafter, List.append_assoc],
    List.forall_mem_append.2 ⟨herrors, hmore⟩⟩

theorem reportAll {errors : List EscapeError} (h : ∀ e ∈ errors, P e) :
    Reports P (Walk.reportAll errors) := fun _ => ⟨errors, rfl, h⟩

theorem passes {kind : Option EscapeErrorKind} {span : Span} (h : ∀ k ∈ kind, P ⟨k, span⟩) :
    Reports P (Walk.passes kind span) := by
  cases kind with
  | none => exact silent fun _ => rfl
  | some k => exact fun _ => ⟨[⟨k, span⟩], rfl, fun e he => List.mem_singleton.1 he ▸ h k rfl⟩

theorem forM {f : α → Walk Unit} {l : List α} (h : ∀ x, Reports P (f x)) :
    Reports P (l.forM f) := by
  induction l with
  | nil => exact silent fun _ => rfl
  | cons x rest ih => exact bind (h x) fun _ => ih

/-- Ordinary steps report nothing about escaping. -/
theorem closed (hP : ∀ e : EscapeError, e.errorClass ≠ .escapeViolation → P e) :
    Closed (Reports P) where
  silent h := silent fun s => (h s).2
  bind := bind
  look h := fun s => h s s
  reportAll h := reportAll fun e he => hP e (h e he)
  record _ _ := silent fun _ => rfl
  recordNullTest _ _ := silent fun _ => rfl
  noteCopy _ := silent fun _ => rfl

end Reports

/-! ## Sinks -/

theorem after_passes (kind : Option EscapeErrorKind) (span : Span) (s : WalkState) :
    (passes kind span).after s =
      { s with errors := s.errors ++ kind.toList.map (⟨·, span⟩) } := by
  cases kind with
  | none => simp [passes]
  | some k => rfl

/-- What an assignment reports. -/
theorem after_checkAssignment (env : Surroundings) (target value : Expr) (byRef : Bool)
    (t v : ScopePair) (s : WalkState) :
    (checkAssignment env target value byRef t v).after s =
      let kind := assignmentError (s.types env) s.facts target value byRef t v
      { s with errors := s.errors ++ kind.toList.map (⟨·, value.span⟩) } :=
  after_passes _ _ s

/-- An assignment that calls no setter is checked after its two sides. -/
theorem checkStmt_assign (env : Surroundings) (id : NodeId) {target : Expr} (value : Expr)
    {byRef : Bool} (span : Span)
    (hplain : ∀ receiver getter args, target.kind = .property receiver getter args →
      byRef = true) :
    checkStmt env ⟨id, .assign target value byRef, span⟩ =
      checkExpr env target >>= fun t => checkExpr env value >>= fun v =>
        checkAssignment env target value byRef t v := by
  obtain ⟨tid, kind, ty, tspan⟩ := target
  cases kind
  case property receiver getter args =>
    obtain rfl : byRef = true := hplain receiver getter args rfl
    rfl
  all_goals rfl

/-- What a return reports. -/
theorem after_checkReturned (value : Expr) (pair : ScopePair) (s : WalkState) :
    (checkReturned value pair).after s =
      let kind := s.ctx.function.bind fun frame => returnError s.facts frame value pair
      { s with errors := s.errors ++ kind.toList.map (⟨·, value.span⟩) } := by
  rw [checkReturned, after_bind, answer_get, after_get]
  cases s.ctx.function with
  | none => simp
  | some frame => exact after_passes _ _ s

/-- A property that the sinks have as well. What is returned is looked at together with its walk. -/
structure ClosedAtSinks (env : Surroundings) (Q : {α : Type} → Walk α → Prop) : Prop
    extends Closed Q where
  /-- Operands are passed together. -/
  mixing : ∀ (facts : Facts) (c : Contract) (receiver : Option Operand) (args : List Operand)
    (span : Span), Q (Walk.reportAll (mixingErrors facts c receiver args span))
  /-- Something is assigned. -/
  assigned : ∀ (target value : Expr) (byRef : Bool) (t v : ScopePair),
    Q (Walk.checkAssignment env target value byRef t v)
  /-- Something is returned. -/
  returned : ∀ {value : Expr}, Q (Walk.checkExpr env value) →
    Q (Walk.checkExpr env value >>= Walk.checkReturned value)

namespace ClosedAtSinks

variable {α β : Type} {env : Surroundings} {Q : {α : Type} → Walk α → Prop}
  (hQ : ClosedAtSinks env Q)

include hQ

/-! ### Calls -/

theorem invoke (c : Contract) (receiver : Option Operand) (args : List Operand)
    (resultTy : TypeRef) (span : Span) :
    Q (Walk.invoke env c receiver args resultTy span) := by
  have hvars (derived : Level) (isInvalid : Bool) :
      Q (Walk.bindOutVars env derived isInvalid args) := hQ.bindOutVars derived isInvalid args
  refine Closed.ite (hQ.pure _)
    (Closed.ite (hQ.bind (hvars _ _) fun _ => hQ.pure _) (hQ.look fun s => ?_))
  exact hQ.bind (hQ.mixing _ _ _ _ _) fun _ => hQ.bind (hQ.stackOnly resultTy) fun _ =>
    hQ.bind (hvars _ _) fun _ => hQ.pure _

theorem invokeRef (r : MemberRef) (receiver : Option Operand) (args : List Operand)
    (resultTy : TypeRef) (span : Span) :
    Q (Walk.invokeRef env r receiver args resultTy span) := by
  refine hQ.bind (hQ.resolve r span) fun callee => ?_
  cases callee with
  | none => exact hQ.pure _
  | some callee =>
    exact hQ.bind (hQ.invoke callee.contract receiver args resultTy span) fun _ => hQ.pure _

theorem readProperty (getter : MemberRef) (receiver : Option Operand) (args : List Operand)
    (resultTy : TypeRef) (span : Span) :
    Q (Walk.readProperty env getter receiver args resultTy span) := by
  refine hQ.bind (hQ.resolve getter span) fun callee => ?_
  cases callee with
  | none => exact hQ.pure _
  | some callee =>
    refine hQ.bind (hQ.invoke callee.contract receiver args resultTy span) fun _ =>
      hQ.bind (hQ.stackOnly resultTy) fun _ => Closed.ite ?_ (hQ.pure _)
    exact hQ.bind (hQ.noteCopy span) fun _ => hQ.pure _

theorem disposeOf (dispose : Option MemberRef) (op : Operand) (span : Span) :
    Q (Walk.disposeOf env dispose op span) := by
  cases dispose with
  | none => exact hQ.pure ()
  | some r => exact hQ.inScope .disposal (hQ.discard (hQ.invokeRef r (some op) [] .void span))

theorem accessMember (access : MemberAccess) (input : ScopePair) (receiverTy ty : TypeRef)
    (span : Span) : Q (Walk.accessMember env access input receiverTy ty span) := by
  refine hQ.look fun s => ?_
  cases access with
  | field owner name => exact hQ.pure _
  | property getter => exact hQ.readProperty getter _ _ _ _

theorem deconstructInput (deconstruct : MemberRef) (componentTys : List TypeRef)
    (input : ScopePair) (inputTy : TypeRef) (span : Span) :
    Q (Walk.deconstructInput env deconstruct componentTys input inputTy span) := by
  refine hQ.look fun s => hQ.bind (hQ.resolve deconstruct span) fun callee => ?_
  cases callee with
  | none => exact hQ.pure none
  | some callee =>
    exact Closed.ite (hQ.pure none)
      (hQ.bind (hQ.invoke callee.contract _ _ _ _) fun _ => hQ.pure _)

theorem usingOver (region : UsingStmt) (op : Operand) (ty : TypeRef) (span : Span)
    {body : Walk Unit} (hb : Q body) :
    Q (Walk.usingOver env region op ty span body) := by
  refine hQ.bind (hQ.refusesStackOnly _) fun _ => Closed.ite ?_ ?_
  · exact hQ.bind (hQ.report _) fun _ => hQ.block _ hb
  · exact hQ.bind (hQ.block _ hb) fun _ => hQ.disposeOf region.dispose op span

theorem foreachOver (loop : ForeachStmt) (collection : ScopePair) (span : Span)
    {matchElement : ScopePair → Walk Unit} {body : Walk Unit}
    (hm : ∀ element, Q (matchElement element)) (hb : Q body) :
    Q (Walk.foreachOver env loop collection span matchElement body) := by
  refine hQ.bind (hQ.stackOnly _) fun _ => hQ.bind (hQ.refusesStackOnly _) fun _ =>
    hQ.inScope .block (Closed.ite ?_ ?_)
  · exact hQ.bind (hQ.report _) fun _ => hQ.bind (hQ.bindIteration loop hm _) fun _ =>
      hQ.block _ hb
  · exact hQ.bind (hQ.stackOnly _) fun _ => hQ.bind (hQ.invokeRef _ _ _ _ _) fun _ =>
      hQ.bind (hQ.discard (hQ.invokeRef _ _ _ _ _)) fun _ =>
        hQ.bind (hQ.readProperty _ _ _ _ _) fun _ => hQ.bind (hQ.bindIteration loop hm _) fun _ =>
          hQ.bind (hQ.block _ hb) fun _ => hQ.disposeOf _ _ _

/-! ### Whole trees -/

mutual

theorem checkExpr : (e : Expr) → Q (Walk.checkExpr env e)
  | ⟨id, kind, ty, span⟩ => hQ.exprOf (checkForm id ty span kind)

theorem checkForm (id : NodeId) (ty : TypeRef) (span : Span) :
    (kind : ExprKind) → Q (Walk.checkForm env id ty span kind)
  | .literal _ => by
    rw [Walk.checkForm]
    exact hQ.pure _
  | .var name => by
    rw [Walk.checkForm]
    exact hQ.readVariable name span
  | .thisRef => by
    rw [Walk.checkForm]
    exact hQ.readThis span
  | .field receiver owner name => by
    rw [Walk.checkForm]
    exact hQ.bind (checkOptional receiver) fun _ => hQ.look fun _ => hQ.pure _
  | .property receiver getter args => by
    rw [Walk.checkForm]
    exact hQ.bind (checkReceiver receiver) fun _ => hQ.bind (checkArgs args) fun _ =>
      hQ.readProperty getter _ _ _ _
  | .call receiver method typeArgs args => by
    rw [Walk.checkForm]
    refine hQ.bind (checkReceiver receiver) fun _ => hQ.bind (checkArgs args) fun _ =>
      hQ.bind (hQ.resolve method span) fun callee => ?_
    cases callee with
    | none => exact hQ.pure _
    | some callee =>
      exact hQ.bind (hQ.checkTypeArgs callee typeArgs span) fun _ =>
        hQ.bind (hQ.invoke callee.contract _ _ _ _) fun _ => hQ.pure _
  | .create ctor args => by
    rw [Walk.checkForm]
    refine hQ.bind (hQ.checkShape ty span) fun _ => hQ.bind (checkArgs args) fun _ =>
      Closed.ite (hQ.pure _) ?_
    cases ctor with
    | none => exact hQ.pure _
    | some ctor => exact hQ.invokeRef ctor _ _ _ _
  | .stackAlloc _ len => by
    rw [Walk.checkForm]
    exact hQ.bind (hQ.discard (checkExpr len)) fun _ => hQ.bind (hQ.stackOnly ty) fun _ => hQ.pure _
  | .conditional cond thenExpr elseExpr byRef => by
    rw [Walk.checkForm]
    exact hQ.bind (hQ.discard (checkExpr cond)) fun _ => hQ.bind (checkExpr thenExpr) fun _ =>
      hQ.bind (checkExpr elseExpr) fun _ => hQ.bind (hQ.stackOnly ty) fun _ => hQ.pure _
  | .convert operand _ => by
    rw [Walk.checkForm]
    refine hQ.bind (checkExpr operand) fun _ => hQ.bind (hQ.checkShape ty span) fun _ =>
      Closed.ite (hQ.pure _) (hQ.look fun s => ?_)
    exact hQ.bind (hQ.passes span fun _ => TypeEnv.errorClass_of_conversionError) fun _ =>
      Closed.ite (hQ.pure _) (hQ.pure _)
  | .binary op left right => by
    rw [Walk.checkForm]
    exact hQ.bind (checkExpr left) fun _ => hQ.bind (checkExpr right) fun _ =>
      Closed.ite (hQ.pure _) (hQ.look fun _ => hQ.bind
        (hQ.settle id span fun _ => TypeEnv.errorClass_of_binaryVerdict) fun _ => hQ.pure _)
  | .test operand pattern => by
    rw [Walk.checkForm]
    refine hQ.bind (checkExpr operand) fun input => hQ.look fun _ =>
      hQ.bind (hQ.settle id span fun _ => TypeEnv.errorClass_of_testVerdict) fun _ =>
        Closed.ite ?_ (hQ.pure _)
    exact hQ.bind (checkPattern input operand.ty span pattern) fun _ => hQ.pure _
  | .lambda fn => by
    rw [Walk.checkForm]
    exact hQ.bind (checkLambda fn) fun _ => hQ.pure _
  | .arrayNew _ elems => by
    rw [Walk.checkForm]
    exact hQ.bind (hQ.checkShape ty span) fun _ => hQ.bind (checkAll elems) fun _ => hQ.pure _
  | .anonymous members => by
    rw [Walk.checkForm]
    exact hQ.bind (checkMembers members) fun _ => hQ.pure _
  | .await operand => by
    rw [Walk.checkForm]
    exact hQ.bind (hQ.discard (checkExpr operand)) fun _ => hQ.pure _
  | .dynamicInvoke receiver _ args => by
    rw [Walk.checkForm]
    exact hQ.bind (hQ.discard (checkExpr receiver)) fun _ => hQ.bind (checkValues args) fun _ =>
      hQ.look fun _ => hQ.bind (hQ.reportAll fun _ => TypeEnv.errorClass_of_mem_dynamicErrors)
        fun _ => hQ.pure _
  | .outVar _ => by
    rw [Walk.checkForm]
    exact hQ.pure _

theorem checkOptional : (receiver : Option Expr) → Q (Walk.checkOptional env receiver)
  | none => by
    rw [Walk.checkOptional]
    exact hQ.pure _
  | some e => by
    rw [Walk.checkOptional]
    exact hQ.bind (checkExpr e) fun _ => hQ.pure _

theorem checkReceiver : (receiver : Option Expr) → Q (Walk.checkReceiver env receiver)
  | none => by
    rw [Walk.checkReceiver]
    exact hQ.pure _
  | some e => by
    rw [Walk.checkReceiver]
    exact hQ.bind (hQ.operandOf e .none (checkExpr e)) fun _ => hQ.pure _

theorem checkArgs : (args : List Arg) → Q (Walk.checkArgs env args)
  | [] => by
    rw [Walk.checkArgs]
    exact hQ.pure _
  | ⟨mode, e⟩ :: rest => by
    rw [Walk.checkArgs]
    exact hQ.bind (hQ.operandOf e mode (checkExpr e)) fun _ =>
      hQ.bind (checkArgs rest) fun _ => hQ.pure _

theorem checkValues : (args : List Arg) → Q (Walk.checkValues env args)
  | [] => by
    rw [Walk.checkValues]
    exact hQ.pure ()
  | ⟨_, e⟩ :: rest => by
    rw [Walk.checkValues]
    exact hQ.bind (hQ.discard (checkExpr e)) fun _ => checkValues rest

theorem checkAll : (elems : List Expr) → Q (Walk.checkAll env elems)
  | [] => by
    rw [Walk.checkAll]
    exact hQ.pure ()
  | e :: rest => by
    rw [Walk.checkAll]
    exact hQ.bind (hQ.discard (checkExpr e)) fun _ => checkAll rest

theorem checkMembers : (members : List NamedExpr) → Q (Walk.checkMembers env members)
  | [] => by
    rw [Walk.checkMembers]
    exact hQ.pure true
  | ⟨name, e⟩ :: rest => by
    rw [Walk.checkMembers]
    refine hQ.bind (checkExpr e) fun _ => hQ.bind (hQ.stackOnly e.ty) fun _ =>
      hQ.bind (hQ.passes e.span fun kind hkind => ?_) fun _ =>
        hQ.bind (checkMembers rest) fun _ => hQ.pure _
    split at hkind
    · exact Option.some.inj hkind ▸ nofun
    · cases hkind

theorem checkLambda : (fn : Lambda) → Q (Walk.checkLambda env fn)
  | ⟨params, retTy, body, isExpressionTree, isStatic, isAsync⟩ => by
    rw [Walk.checkLambda]
    exact hQ.lambdaOver _ (checkStmts body)

theorem checkPattern (input : ScopePair) (inputTy : TypeRef) (span : Span) :
    (p : Pattern) → Q (Walk.checkPattern env input inputTy span p)
  | .discard => by
    rw [Walk.checkPattern]
    exact hQ.pure ()
  | .declaration name ty span => by
    rw [Walk.checkPattern]
    exact hQ.bindPattern name ty input span
  | .typeTest _ => by
    rw [Walk.checkPattern]
    exact hQ.pure ()
  | .constant e => by
    rw [Walk.checkPattern]
    exact hQ.discard (checkExpr e)
  | .property ty subpatterns => by
    rw [Walk.checkPattern]
    exact checkSubPatterns input (ty.getD inputTy) subpatterns
  | .positional deconstruct subpatterns componentTys => by
    rw [Walk.checkPattern]
    exact hQ.bind (hQ.deconstructInput deconstruct componentTys input inputTy span) fun outcome =>
      checkComponents outcome span subpatterns componentTys
  | .negated inner => by
    rw [Walk.checkPattern]
    exact checkPattern input inputTy span inner

theorem checkSubPatterns (input : ScopePair) (receiverTy : TypeRef) :
    (subs : List SubPattern) → Q (Walk.checkSubPatterns env input receiverTy subs)
  | [] => by
    rw [Walk.checkSubPatterns]
    exact hQ.pure ()
  | ⟨access, ty, p, span⟩ :: rest => by
    rw [Walk.checkSubPatterns]
    exact hQ.bind (hQ.accessMember access input receiverTy ty span) fun extracted =>
      hQ.bind (checkPattern extracted ty span p) fun _ => checkSubPatterns input receiverTy rest

theorem checkComponents (outcome : Option Outcome) (span : Span) :
    (subs : List Pattern) → (tys : List TypeRef) →
      Q (Walk.checkComponents env outcome span subs tys)
  | [], tys => by
    rw [Walk.checkComponents.eq_def]
    exact hQ.pure ()
  | p :: rest, [] => by
    rw [Walk.checkComponents.eq_def]
    exact hQ.pure ()
  | p :: rest, ty :: tys => by
    rw [Walk.checkComponents]
    exact hQ.bind (hQ.stackOnly ty) fun so =>
      hQ.bind (checkPattern (Walk.componentPair outcome so) ty span p) fun _ =>
        checkComponents outcome span rest tys

theorem checkLocal (reportAsync : Bool) :
    (decl : LocalDecl) → Q (Walk.checkLocal env reportAsync decl)
  | ⟨name, ty, refKind, isScoped, init, span⟩ => by
    rw [Walk.checkLocal]
    exact hQ.bind (hQ.checkShape ty span) fun _ => hQ.bind (checkInit init) fun _ =>
      hQ.declareLocal _ _ _ _

theorem checkInit : (init : Option Expr) → Q (Walk.checkInit env init)
  | none => by
    rw [Walk.checkInit]
    exact hQ.pure none
  | some e => by
    rw [Walk.checkInit]
    exact hQ.bind (checkExpr e) fun _ => hQ.pure _

theorem checkStmts : (stmts : List Stmt) → Q (Walk.checkStmts env stmts)
  | [] => by
    rw [Walk.checkStmts]
    exact hQ.pure ()
  | s :: rest => by
    rw [Walk.checkStmts]
    exact hQ.bind (checkStmt s) fun _ => checkStmts rest

theorem checkStmt : (s : Stmt) → Q (Walk.checkStmt env s)
  | ⟨_, .expr e, _⟩ => by
    rw [Walk.checkStmt]
    exact hQ.discard (checkExpr e)
  | ⟨_, .yieldReturn e, _⟩ => by
    rw [Walk.checkStmt]
    exact hQ.discard (checkExpr e)
  | ⟨_, .declare decl, _⟩ => by
    rw [Walk.checkStmt]
    exact checkLocal true decl
  | ⟨id, .assign ⟨tid, kind, ty, tspan⟩ value byRef, span⟩ => by
    have main : Q (Walk.checkExpr env ⟨tid, kind, ty, tspan⟩ >>= fun t =>
        Walk.checkExpr env value >>= fun v =>
          Walk.checkAssignment env ⟨tid, kind, ty, tspan⟩ value byRef t v) :=
      hQ.bind (hQ.exprOf (checkForm tid ty tspan kind)) fun _ =>
        hQ.bind (checkExpr value) fun _ => hQ.assigned _ value byRef _ _
    cases kind
    case property receiver getter args =>
      cases byRef with
      | true => exact main
      | false =>
        rw [Walk.checkStmt]
        exact hQ.bind (checkReceiver receiver) fun _ => hQ.bind (checkArgs args) fun _ =>
          hQ.bind (hQ.operandOf value .none (checkExpr value)) fun _ =>
            hQ.discard (hQ.invokeRef _ _ _ _ _)
    all_goals exact main
  | ⟨_, .ret none, _⟩ => by
    rw [Walk.checkStmt]
    exact hQ.pure ()
  | ⟨_, .ret (some value), _⟩ => by
    rw [Walk.checkStmt]
    exact hQ.returned (checkExpr value)
  | ⟨_, .block body, _⟩ => by
    rw [Walk.checkStmt]
    exact hQ.block _ (checkStmts body)
  | ⟨_, .ifElse cond thenBranch elseBranch, _⟩ => by
    rw [Walk.checkStmt]
    exact hQ.bind (hQ.discard (checkExpr cond)) fun _ =>
      hQ.bind (hQ.block _ (checkStmts thenBranch)) fun _ => checkElse elseBranch
  | ⟨_, .whileLoop cond body, _⟩ => by
    rw [Walk.checkStmt]
    exact hQ.bind (hQ.discard (checkExpr cond)) fun _ => hQ.block _ (checkStmts body)
  | ⟨_, .foreach loop, span⟩ => by
    rw [Walk.checkStmt]
    exact checkForeach span loop
  | ⟨_, .using region, span⟩ => by
    rw [Walk.checkStmt]
    exact checkUsing span region
  | ⟨_, .localFunction decl, _⟩ => by
    rw [Walk.checkStmt]
    exact checkLocalFunction decl

theorem checkElse : (branch : Option (List Stmt)) → Q (Walk.checkElse env branch)
  | none => by
    rw [Walk.checkElse]
    exact hQ.pure ()
  | some body => by
    rw [Walk.checkElse]
    exact hQ.block _ (checkStmts body)

theorem checkForeach (span : Span) : (loop : ForeachStmt) →
    Q (Walk.checkForeach env span loop)
  | ⟨binding, byRef, collection, enumerator, isAwait, body⟩ => by
    rw [Walk.checkForeach]
    exact hQ.bind (checkExpr collection) fun pair => hQ.foreachOver _ pair span
      (fun element => checkPattern element enumerator.elementTy span binding) (checkStmts body)

theorem checkUsing (span : Span) : (region : UsingStmt) → Q (Walk.checkUsing env span region)
  | ⟨.expr e, dispose, isAwait, body⟩ => by
    rw [Walk.checkUsing]
    exact hQ.inScope .block (hQ.bind (checkExpr e) fun _ => hQ.bind (hQ.stackOnly e.ty) fun _ =>
      hQ.usingOver _ _ _ _ (checkStmts body))
  | ⟨.declare ⟨name, ty, refKind, isScoped, init, dspan⟩, dispose, isAwait, body⟩ => by
    have hinit : Q (Walk.checkInit env init) := checkInit init
    rw [Walk.checkUsing]
    refine hQ.inScope .block (hQ.bind (hQ.stackOnly ty) fun _ => ?_)
    rw [Walk.checkLocal]
    refine hQ.bind (hQ.bind (hQ.checkShape ty dspan) fun _ => hQ.bind hinit fun _ =>
      hQ.declareLocal _ _ _ _) fun _ => hQ.bind (hQ.declaredResource _) fun _ => ?_
    exact hQ.usingOver _ _ _ _ (checkStmts body)

theorem checkLocalFunction : (decl : FnDecl) → Q (Walk.checkLocalFunction env decl)
  | ⟨fid, name, kind, modifiers, typeParams, params, ret, attrs, explicitImpl, overrides, body,
      fspan⟩ => by
    rw [Walk.checkLocalFunction]
    exact hQ.localFunctionOver _ (checkBody body)

theorem checkBody : (body : Option (List Stmt)) → Q (Walk.checkBody env body)
  | none => by
    rw [Walk.checkBody]
    exact hQ.pure ()
  | some body => by
    rw [Walk.checkBody]
    exact checkStmts body

end

end ClosedAtSinks

end Walk

end StackEscape
