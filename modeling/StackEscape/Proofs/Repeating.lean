import StackEscape.Proofs.Reordering
import StackEscape.Proofs.Walks

/-!
# Walks that repeat themselves

In a program in which all names mean the same, a body is walked in the same way. On its way a walk
records how an expression is tested for null only if it records the pair of that expression as well,
so that what is known of null tests is about expressions of the body alone.

## Main definitions

* `StackEscape.Surroundings.inProgram` — the same surroundings in another program.
* `StackEscape.Facts.Kept` — null tests are recorded with pairs only.
* `StackEscape.Walk.Repeats` — a walk in two programs.

## Main results

* `StackEscape.Walk.Repeats.bind`, `look`, `recorded` — walks are compared part by part.
* `StackEscape.Walk.Repeats.resolve`, `invoke`, `readProperty` — calls.
* `StackEscape.Walk.Repeats.lambdaOver`, `localFunctionOver`, `usingOver`, `foreachOver` — walks in
  scopes of their own.
-/

set_option autoImplicit false

namespace StackEscape

/-! ## Surroundings -/

/-- The same surroundings in another program. -/
def Surroundings.inProgram (env : Surroundings) (q : Program) : Surroundings :=
  { env with program := q }

namespace Surroundings

variable (env : Surroundings) (q : Program)

@[simp] theorem inProgram_program : (env.inProgram q).program = q := rfl

@[simp] theorem inProgram_member : (env.inProgram q).member = env.member := rfl

@[simp] theorem inProgram_runtime : (env.inProgram q).runtime = env.runtime := rfl

end Surroundings

namespace Program.SameSymbols

variable {env : Surroundings} {q : Program}

/-- Types have the same capabilities at a point of a body. -/
theorem types_capability (h : env.program.SameSymbols q) (s : WalkState) :
    (s.types (env.inProgram q)).capability = (s.types env).capability :=
  h.capability_eq s.tables.caps s.generics env.runtime

theorem types_stackOnly (h : env.program.SameSymbols q) (s : WalkState) :
    (s.types (env.inProgram q)).stackOnly = (s.types env).stackOnly :=
  TypeEnv.stackOnly_congr (h.types_capability s)

theorem types_typeErrors (h : env.program.SameSymbols q) (s : WalkState) :
    (s.types (env.inProgram q)).typeErrors = (s.types env).typeErrors :=
  funext fun span => funext fun ty =>
    h.typeErrors_eq s.tables.caps s.generics env.runtime span ty

theorem types_allTypeErrors (h : env.program.SameSymbols q) (s : WalkState) :
    (s.types (env.inProgram q)).allTypeErrors = (s.types env).allTypeErrors :=
  funext fun span => funext fun tys =>
    h.allTypeErrors_eq s.tables.caps s.generics env.runtime span tys

theorem types_argErrors (h : env.program.SameSymbols q) (s : WalkState) :
    (s.types (env.inProgram q)).argErrors = (s.types env).argErrors :=
  h.argErrors_eq s.tables.caps s.generics env.runtime

theorem types_fieldPair (h : env.program.SameSymbols q) (s : WalkState) :
    (s.types (env.inProgram q)).fieldPair = (s.types env).fieldPair :=
  h.fieldPair_eq s.tables.caps s.generics env.runtime

/-- References mean the same at a point of a body. -/
theorem target?_eq (h : env.program.SameSymbols q) (s : WalkState) :
    s.target? (env.inProgram q) = s.target? env := by
  have hbound : (env.inProgram q).boundMember? = env.boundMember? := by
    funext param name
    simp only [Surroundings.boundMember?, Surroundings.inProgram_program, h.member]
    rfl
  funext r
  simp only [WalkState.target?, hbound, Surroundings.inProgram_program,
    Surroundings.inProgram_member, h.member]
  rfl

end Program.SameSymbols

/-! ## Null tests -/

/-- What is recorded after a walk whose own expression, if there is one, is still to be recorded: no
pair got lost, and null tests were recorded for other expressions only together with their pairs. -/
structure Facts.Kept (x : Option NodeId) (f g : Facts) : Prop where
  /-- Pairs are kept. -/
  pairs : ∀ id, (f.pair? id).isSome → (g.pair? id).isSome
  /-- Null tests come with pairs. -/
  tests : ∀ id, some id ≠ x → g.nullTest? id = f.nullTest? id ∨ (g.pair? id).isSome

namespace Facts.Kept

variable {x : Option NodeId} {f g k : Facts}

theorem refl (x : Option NodeId) (f : Facts) : Kept x f f := ⟨fun _ => id, fun _ _ => .inl rfl⟩

theorem trans (h : Kept x f g) (h' : Kept x g k) : Kept x f k := by
  refine ⟨fun id hid => h'.pairs id (h.pairs id hid), fun id hne => ?_⟩
  rcases h'.tests id hne with heq | hsome
  · rcases h.tests id hne with heq' | hsome
    · exact .inl (heq.trans heq')
    · exact .inr (h'.pairs id hsome)
  · exact .inr hsome

/-- Once the expression is recorded, null tests come with pairs without exception. -/
theorem record {id : NodeId} (h : Kept (some id) f g) (x : Option NodeId) (pair : ScopePair) :
    Kept x f (g.record id pair) := by
  have hpair (id' : NodeId) :
      (g.record id pair).pair? id' = if id' = id then some pair else g.pair? id' :=
    Table.get?_set _ _ _ _
  refine ⟨fun id' hid => ?_, fun id' _ => ?_⟩
  · rw [hpair]
    split
    · rfl
    · exact h.pairs id' hid
  · rw [hpair]
    split
    · exact .inr rfl
    · next hne => exact h.tests id' fun he => hne (Option.some.inj he)

/-- A null test of the expression at work may be recorded. -/
theorem recordNullTest (f : Facts) (id : NodeId) (test : NullTest) :
    Kept (some id) f (f.recordNullTest id test) := by
  have htest (id' : NodeId) (hne : some id' ≠ some id) :
      (f.recordNullTest id test).nullTest? id' = f.nullTest? id' :=
    (Table.get?_set _ _ _ _).trans (if_neg fun he => hne (congrArg some he))
  exact ⟨fun _ hid => hid, fun id' hne => .inl (htest id' hne)⟩

end Facts.Kept

namespace Walk

variable {α β : Type} {x : Option NodeId} {env : Surroundings} {q : Program}

/-- The second walk is the same as the first one, and it records null tests with pairs only. -/
structure Repeats (x : Option NodeId) (m m' : Walk α) : Prop where
  /-- The same walk. -/
  same : m' = m
  /-- Null tests come with pairs. -/
  kept : ∀ s : WalkState, s.facts.Kept x (m.after s).facts

namespace Repeats

theorem pure (a : α) : Repeats x (Pure.pure a : Walk α) (Pure.pure a) :=
  ⟨rfl, fun s => .refl x s.facts⟩

theorem bind {m m' : Walk α} {f f' : α → Walk β} (hm : Repeats x m m')
    (hf : ∀ a, Repeats x (f a) (f' a)) : Repeats x (m >>= f) (m' >>= f') := by
  refine ⟨?_, fun s => ?_⟩
  · rw [hm.same, funext fun a => (hf a).same]
  · rw [after_bind]
    exact (hm.kept s).trans ((hf _).kept _)

/-- Walks may look at the state. -/
theorem look {k k' : WalkState → Walk α} (hk : ∀ s, Repeats x (k s) (k' s)) :
    Repeats x (get >>= k) (get >>= k') :=
  ⟨by rw [funext fun s => (hk s).same], fun s => (hk s).kept s⟩

theorem discard {m m' : Walk α} (hm : Repeats x m m') :
    Repeats x (Functor.discard m) (Functor.discard m') :=
  ⟨by rw [hm.same], hm.kept⟩

theorem ite {c : Prop} [Decidable c] {m m' n n' : Walk α} (hm : Repeats x m m')
    (hn : Repeats x n n') : Repeats x (if c then m else n) (if c then m' else n') := by
  split
  · exact hm
  · exact hn

theorem forM {f f' : α → Walk Unit} {l : List α} (h : ∀ a ∈ l, Repeats x (f a) (f' a)) :
    Repeats x (l.forM f) (l.forM f') := by
  induction l with
  | nil => exact .pure ()
  | cons a rest ih =>
    refine (h a (List.mem_cons_self ..)).bind fun _ => ih fun b hb => ?_
    exact h b (List.mem_cons_of_mem _ hb)

/-- A walk that records nothing. -/
theorem silent {m m' : Walk α} (hsame : m' = m)
    (hfacts : ∀ s : WalkState, (m.after s).facts = s.facts) : Repeats x m m' :=
  ⟨hsame, fun s => hfacts s ▸ .refl x s.facts⟩

/-! ### Errors and facts -/

theorem reportAll (errors : List EscapeError) :
    Repeats x (Walk.reportAll errors) (Walk.reportAll errors) := silent rfl fun _ => rfl

theorem report (kind : EscapeErrorKind) (span : Span) :
    Repeats x (Walk.report kind span) (Walk.report kind span) := silent rfl fun _ => rfl

theorem reportShapes (errors : List TypeError) :
    Repeats x (Walk.reportShapes errors) (Walk.reportShapes errors) := silent rfl fun _ => rfl

theorem passes (kind : Option EscapeErrorKind) (span : Span) :
    Repeats x (Walk.passes kind span) (Walk.passes kind span) := by
  cases kind with
  | none => exact .pure true
  | some kind => exact (report kind span).bind fun _ => .pure false

theorem record (id : NodeId) (pair : ScopePair) :
    Repeats x (Walk.record id pair) (Walk.record id pair) :=
  ⟨rfl, fun s => (Facts.Kept.refl (some id) s.facts).record x pair⟩

/-- The record of an expression ends the walk over it. -/
theorem recorded {id : NodeId} {m m' : Walk ScopePair} (hm : Repeats (some id) m m') :
    Repeats x (m >>= fun pair => Walk.record id pair >>= fun _ => Pure.pure pair)
      (m' >>= fun pair => Walk.record id pair >>= fun _ => Pure.pure pair) :=
  ⟨by rw [hm.same], fun s => (hm.kept s).record x (m.answer s)⟩

theorem noteCopy (span : Span) : Repeats x (Walk.noteCopy span) (Walk.noteCopy span) :=
  ⟨rfl, fun _ => ⟨fun _ hid => hid, fun _ _ => .inl rfl⟩⟩

/-- A null test is recorded for the expression at work. -/
theorem settle (id : NodeId) (span : Span) (verdict : Verdict) :
    Repeats (some id) (Walk.settle id span verdict) (Walk.settle id span verdict) := by
  cases verdict with
  | plain => exact .pure true
  | lowered test =>
    exact ⟨rfl, fun s => Facts.Kept.recordNullTest s.facts id test⟩
  | refused error => exact (report error span).bind fun _ => .pure false

/-! ### Contracts and types -/

section Symbols

variable (h : env.program.SameSymbols q)

include h

theorem memberContract (m : Member) :
    Repeats x (Walk.memberContract env m) (Walk.memberContract (env.inProgram q) m) := by
  refine silent ?_ fun _ => rfl
  simp only [Walk.memberContract, Surroundings.inProgram_program, h.ofMember_eq]

theorem localContract (d : FnDecl) :
    Repeats x (Walk.localContract env d) (Walk.localContract (env.inProgram q) d) := by
  have hbuilt (s : WalkState) : s.localContract (env.inProgram q) d = s.localContract env d :=
    h.build_eq ..
  refine silent ?_ fun _ => rfl
  simp only [Walk.localContract, hbuilt]
  rfl

/-- The callee of a reference is the same. -/
theorem resolve (r : MemberRef) (span : Span) :
    Repeats x (Walk.resolve env r span) (Walk.resolve (env.inProgram q) r span) := by
  refine look fun s => ?_
  rw [h.target?_eq]
  rcases s.target? env r with _ | d | m
  · exact (report _ span).bind fun _ => .pure none
  · exact (localContract h d).bind fun _ => .pure _
  · exact (memberContract h m).bind fun _ => .pure _

theorem stackOnly (ty : TypeRef) :
    Repeats x (Walk.stackOnly env ty) (Walk.stackOnly (env.inProgram q) ty) := by
  refine look fun s => ?_
  rw [h.types_stackOnly]
  exact .pure _

theorem checkShape (ty : TypeRef) (span : Span) :
    Repeats x (Walk.checkShape env ty span) (Walk.checkShape (env.inProgram q) ty span) := by
  refine look fun s => ?_
  rw [h.types_typeErrors]
  exact (reportShapes _).bind fun _ => .pure _

theorem checkTypeArgs (callee : Callee) (typeArgs : List TypeRef) (span : Span) :
    Repeats x (Walk.checkTypeArgs env callee typeArgs span)
      (Walk.checkTypeArgs (env.inProgram q) callee typeArgs span) := by
  refine look fun s => ?_
  simp only [h.types_allTypeErrors, h.types_argErrors]
  exact reportShapes _

/-! ### Names -/

omit h in
theorem declare (info : LocalInfo) : Repeats x (Walk.declare info) (Walk.declare info) :=
  silent rfl fun _ => rfl

omit h in
theorem rejectedInAsync (name : String) (ty : TypeRef) (span : Span) :
    Repeats x (Walk.rejectedInAsync name ty span) (Walk.rejectedInAsync name ty span) :=
  look fun _ => ite ((report _ span).bind fun _ => .pure _) (.pure _)

theorem declareBinding (name : String) (ty : TypeRef) (pair : ScopePair) (isRef : Bool)
    (span : Span) : Repeats x (Walk.declareBinding env name ty pair isRef span)
      (Walk.declareBinding (env.inProgram q) name ty pair isRef span) :=
  (stackOnly h ty).bind fun _ => ite
    ((rejectedInAsync name ty span).bind fun _ => declare _) (declare _)

theorem bindParam (checkShapes : Bool) (param : Param) (contract : ParamContract) :
    Repeats x (Walk.bindParam env checkShapes param contract)
      (Walk.bindParam (env.inProgram q) checkShapes param contract) := by
  unfold Walk.bindParam
  refine ite ((checkShape h _ _).bind fun _ => ?_) (Repeats.bind (.pure true) fun _ => ?_)
  all_goals
    refine look fun _ => ite (declare _) (ite ?_ (ite ?_ (declare _)))
    · exact (report _ _).bind fun _ => declare _
    · exact (report _ _).bind fun _ => declare _

theorem bindParams (checkShapes : Bool) (params : List Param) (contracts : List ParamContract) :
    Repeats x (Walk.bindParams env checkShapes params contracts)
      (Walk.bindParams (env.inProgram q) checkShapes params contracts) :=
  forM fun y _ => bindParam h checkShapes y.1 y.2

theorem readPrimaryParam (param : Param) (span : Span) :
    Repeats x (Walk.readPrimaryParam env param span)
      (Walk.readPrimaryParam (env.inProgram q) param span) :=
  (stackOnly h param.ty).bind fun _ => ite ((report _ span).bind fun _ => .pure _) (.pure _)

theorem readVariable (name : String) (span : Span) :
    Repeats x (Walk.readVariable env name span)
      (Walk.readVariable (env.inProgram q) name span) := by
  refine look fun s => ?_
  cases s.ctx.lookup name with
  | some found => exact ite ((report _ span).bind fun _ => .pure _) (.pure _)
  | none =>
    rw [Surroundings.inProgram_member]
    cases env.member.owner.primaryParams.find? fun q => decide (q.name = name) with
    | some param => exact readPrimaryParam h param span
    | none => exact (report _ span).bind fun _ => .pure _

omit h in
theorem readThis (span : Span) :
    Repeats x (Walk.readThis env span) (Walk.readThis (env.inProgram q) span) := by
  refine look fun s => ?_
  cases s.thisPair with
  | none => exact .pure _
  | some pair => exact ite ((report _ span).bind fun _ => .pure _) (.pure _)

/-! ### Calls -/

theorem bindOutVar (derived : Level) (isInvalid : Bool) (op : Operand) :
    Repeats x (Walk.bindOutVar env derived isInvalid op)
      (Walk.bindOutVar (env.inProgram q) derived isInvalid op) := by
  unfold Walk.bindOutVar
  split
  · exact declareBinding h _ _ _ _ _
  · exact .pure ()

theorem invoke (c : Contract) (receiver : Option Operand) (args : List Operand)
    (resultTy : TypeRef) (span : Span) :
    Repeats x (Walk.invoke env c receiver args resultTy span)
      (Walk.invoke (env.inProgram q) c receiver args resultTy span) := by
  have hvars (derived : Level) (isInvalid : Bool) :
      Repeats x (Walk.bindOutVars env derived isInvalid args)
        (Walk.bindOutVars (env.inProgram q) derived isInvalid args) :=
    forM fun op _ => bindOutVar h derived isInvalid op
  refine ite (.pure _) (ite ((hvars _ _).bind fun _ => .pure _) (look fun s => ?_))
  exact (reportAll _).bind fun _ => (stackOnly h resultTy).bind fun _ =>
    (hvars _ _).bind fun _ => .pure _

theorem invokeRef (r : MemberRef) (receiver : Option Operand) (args : List Operand)
    (resultTy : TypeRef) (span : Span) :
    Repeats x (Walk.invokeRef env r receiver args resultTy span)
      (Walk.invokeRef (env.inProgram q) r receiver args resultTy span) := by
  refine (resolve h r span).bind fun callee => ?_
  cases callee with
  | none => exact .pure _
  | some callee =>
    exact (invoke h callee.contract receiver args resultTy span).bind fun _ => .pure _

theorem readProperty (getter : MemberRef) (receiver : Option Operand) (args : List Operand)
    (resultTy : TypeRef) (span : Span) :
    Repeats x (Walk.readProperty env getter receiver args resultTy span)
      (Walk.readProperty (env.inProgram q) getter receiver args resultTy span) := by
  refine (resolve h getter span).bind fun callee => ?_
  cases callee with
  | none => exact .pure _
  | some callee =>
    refine (invoke h callee.contract receiver args resultTy span).bind fun _ =>
      (stackOnly h resultTy).bind fun _ => ite ?_ (.pure _)
    exact (noteCopy span).bind fun _ => .pure _

theorem operandOf (e : Expr) (mode : RefKind) {check check' : Walk ScopePair}
    (hc : Repeats x check check') : Repeats x (Walk.operandOf env e mode check)
      (Walk.operandOf (env.inProgram q) e mode check') := by
  obtain ⟨id, kind, ty, span⟩ := e
  have main (fresh : Bool) {m m' : Walk ScopePair} (hm : Repeats x m m') :
      Repeats x (m >>= fun pair => Walk.stackOnly env ty >>= fun stackOnly =>
          Pure.pure (Operand.ofExpr ⟨id, kind, ty, span⟩ pair stackOnly mode fresh))
        (m' >>= fun pair => Walk.stackOnly (env.inProgram q) ty >>= fun stackOnly =>
          Pure.pure (Operand.ofExpr ⟨id, kind, ty, span⟩ pair stackOnly mode fresh)) :=
    hm.bind fun _ => (stackOnly h ty).bind fun _ => .pure _
  cases kind with
  | outVar name => exact main true ((record id .confined).bind fun _ => .pure _)
  | _ => exact main false hc

/-! ### Scopes of their own -/

omit h in
theorem modifyContext (f : Context → Context) :
    Repeats x (Walk.modifyContext f) (Walk.modifyContext f) := silent rfl fun _ => rfl

omit h in
theorem declareFunctions (stmts : List Stmt) :
    Repeats x (Walk.declareFunctions stmts) (Walk.declareFunctions stmts) := by
  refine forM fun s _ => ?_
  rcases s with ⟨id, kind, span⟩
  cases kind with
  | localFunction decl => exact modifyContext _
  | _ => exact .pure ()

omit h in
theorem inScope (kind : ScopeKind) {body body' : Walk Unit} (hb : Repeats x body body') :
    Repeats x (Walk.inScope kind body) (Walk.inScope kind body') :=
  (modifyContext _).bind fun _ => hb.bind fun _ => modifyContext _

omit h in
theorem inFunction (kind : ScopeKind) (frame : FunctionFrame) {body body' : Walk Unit}
    (hb : Repeats x body body') :
    Repeats x (Walk.inFunction kind frame body) (Walk.inFunction kind frame body') :=
  (modifyContext _).bind fun _ => hb.bind fun _ => modifyContext _

omit h in
theorem withGenerics (scope : GenericScope) {body body' : Walk Unit} (hb : Repeats x body body') :
    Repeats x (Walk.withGenerics scope body) (Walk.withGenerics scope body') :=
  look fun _ => Repeats.bind (silent rfl fun _ => rfl) fun _ =>
    hb.bind fun _ => silent rfl fun _ => rfl

omit h in
theorem block (stmts : List Stmt) {body body' : Walk Unit} (hb : Repeats x body body') :
    Repeats x (Walk.block stmts body) (Walk.block stmts body') :=
  inScope .block ((declareFunctions stmts).bind fun _ => hb)

theorem lambdaOver (fn : Lambda) {body body' : Walk Unit} (hb : Repeats x body body') :
    Repeats x (Walk.lambdaOver env fn body) (Walk.lambdaOver (env.inProgram q) fn body') := by
  refine look fun s => ?_
  have hframe : Walk.lambdaFrame s (env.inProgram q) fn = Walk.lambdaFrame s env fn := by
    simp only [Walk.lambdaFrame, h.types_stackOnly]
  rw [hframe, h.types_stackOnly]
  exact inFunction _ _ ((bindParams h true fn.params _).bind fun _ =>
    (declareFunctions fn.body).bind fun _ => hb)

theorem checkLocalSignature (decl : FnDecl) : Repeats x (Walk.checkLocalSignature env decl)
    (Walk.checkLocalSignature (env.inProgram q) decl) := by
  refine silent ?_ fun _ => rfl
  simp only [Walk.checkLocalSignature, Program.checkLocalTypeParams,
    Surroundings.inProgram_program, h.fillOwn_eq]
  rfl

theorem localFunctionOver (decl : FnDecl) {body body' : Walk Unit} (hb : Repeats x body body') :
    Repeats x (Walk.localFunctionOver env decl body)
      (Walk.localFunctionOver (env.inProgram q) decl body') := by
  refine (checkLocalSignature h decl).bind fun _ => (localContract h decl).bind fun contract =>
    look fun s => withGenerics _ (inFunction _ _ ?_)
  exact (bindParams h true decl.params _).bind fun _ =>
    (declareFunctions _).bind fun _ => hb

/-! ### Declarations, sinks, patterns and regions -/

theorem declareLocal (decl : LocalDecl) (wellFormed reportAsync : Bool) (init : Option ScopePair) :
    Repeats x (Walk.declareLocal env decl wellFormed reportAsync init)
      (Walk.declareLocal (env.inProgram q) decl wellFormed reportAsync init) :=
  (stackOnly h decl.ty).bind fun _ => ite
    ((rejectedInAsync _ _ _).bind fun _ => declare _) (declare _)

theorem disposeOf (dispose : Option MemberRef) (op : Operand) (span : Span) :
    Repeats x (Walk.disposeOf env dispose op span)
      (Walk.disposeOf (env.inProgram q) dispose op span) := by
  cases dispose with
  | none => exact .pure ()
  | some r => exact inScope .disposal (invokeRef h r (some op) [] .void span).discard

theorem declaredResource (decl : LocalDecl) : Repeats x (Walk.declaredResource env decl)
    (Walk.declaredResource (env.inProgram q) decl) := by
  refine look fun s => ?_
  rw [h.types_stackOnly]
  exact .pure _

theorem checkAssignment (target value : Expr) (byRef : Bool) (t v : ScopePair) :
    Repeats x (Walk.checkAssignment env target value byRef t v)
      (Walk.checkAssignment (env.inProgram q) target value byRef t v) := by
  refine look fun s => ?_
  simp only [Walk.assignmentError, h.types_stackOnly]
  exact (passes _ _).discard

omit h in
theorem checkReturned (value : Expr) (pair : ScopePair) :
    Repeats x (Walk.checkReturned value pair) (Walk.checkReturned value pair) := by
  refine look fun s => ?_
  cases s.ctx.function with
  | none => exact .pure ()
  | some frame => exact (passes _ _).discard

theorem bindPattern (name : String) (ty : TypeRef) (input : ScopePair) (span : Span) :
    Repeats x (Walk.bindPattern env name ty input span)
      (Walk.bindPattern (env.inProgram q) name ty input span) :=
  (checkShape h ty span).bind fun _ => (stackOnly h ty).bind fun _ => declareBinding h _ _ _ _ _

theorem accessMember (access : MemberAccess) (input : ScopePair) (receiverTy ty : TypeRef)
    (span : Span) : Repeats x (Walk.accessMember env access input receiverTy ty span)
      (Walk.accessMember (env.inProgram q) access input receiverTy ty span) := by
  refine look fun s => ?_
  simp only [h.types_fieldPair, h.types_stackOnly]
  cases access with
  | field owner name => exact .pure _
  | property getter => exact readProperty h getter _ _ _ _

theorem deconstructInput (deconstruct : MemberRef) (componentTys : List TypeRef)
    (input : ScopePair) (inputTy : TypeRef) (span : Span) :
    Repeats x (Walk.deconstructInput env deconstruct componentTys input inputTy span)
      (Walk.deconstructInput (env.inProgram q) deconstruct componentTys input inputTy span) := by
  refine look fun s => ?_
  simp only [h.types_stackOnly]
  refine (resolve h deconstruct span).bind fun callee => ?_
  cases callee with
  | none => exact .pure none
  | some callee =>
    exact ite (.pure none) ((invoke h callee.contract _ _ _ _).bind fun _ => .pure _)

omit h in
theorem refusesStackOnly (isAwait : Bool) :
    Repeats x (Walk.refusesStackOnly isAwait) (Walk.refusesStackOnly isAwait) :=
  look fun _ => .pure _

theorem usingOver (region : UsingStmt) (op : Operand) (ty : TypeRef) (span : Span)
    {body body' : Walk Unit} (hb : Repeats x body body') :
    Repeats x (Walk.usingOver env region op ty span body)
      (Walk.usingOver (env.inProgram q) region op ty span body') := by
  refine (refusesStackOnly _).bind fun _ => ite ?_ ?_
  · exact (report _ _).bind fun _ => block _ hb
  · exact (block _ hb).bind fun _ => disposeOf h region.dispose op span

theorem bindIteration (loop : ForeachStmt) {matchElement matchElement' : ScopePair → Walk Unit}
    (hm : ∀ element, Repeats x (matchElement element) (matchElement' element))
    (element : ScopePair) : Repeats x (Walk.bindIteration env loop matchElement element)
      (Walk.bindIteration (env.inProgram q) loop matchElement' element) := by
  unfold Walk.bindIteration
  split
  · exact declareBinding h _ _ _ _ _
  · exact hm element

theorem foreachOver (loop : ForeachStmt) (collection : ScopePair) (span : Span)
    {matchElement matchElement' : ScopePair → Walk Unit} {body body' : Walk Unit}
    (hm : ∀ element, Repeats x (matchElement element) (matchElement' element))
    (hb : Repeats x body body') :
    Repeats x (Walk.foreachOver env loop collection span matchElement body)
      (Walk.foreachOver (env.inProgram q) loop collection span matchElement' body') := by
  refine (stackOnly h _).bind fun _ => (refusesStackOnly _).bind fun _ =>
    inScope .block (ite ?_ ?_)
  · exact (report _ _).bind fun _ => (bindIteration h loop hm _).bind fun _ => block _ hb
  · exact (stackOnly h _).bind fun _ => (invokeRef h _ _ _ _ _).bind fun _ =>
      (invokeRef h _ _ _ _ _).discard.bind fun _ => (readProperty h _ _ _ _ _).bind fun _ =>
        (bindIteration h loop hm _).bind fun _ => (block _ hb).bind fun _ =>
          disposeOf h _ _ _

end Symbols

end Repeats

end Walk

end StackEscape
