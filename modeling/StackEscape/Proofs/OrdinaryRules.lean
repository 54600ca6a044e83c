import StackEscape.Proofs.Ordinary

/-!
# Rules for ordinary programs

The steps of a walk over a body of an ordinary program, as far as they need no further walk over the
tree: names, types, calls, bindings, sinks and disposal. From a state in which nothing is stack-only each
of them leads to such a state, and reports nothing but malformed declarations. So no operand is
stack-only, nothing can be stored through one, and nothing that is returned or assigned is confined.

## Main definitions

* `StackEscape.Walk.Ordinary` — a walk that stays among states in which nothing is stack-only.
* `StackEscape.Surroundings.IsOrdinary` — a member of an ordinary program.

## Main results

* `StackEscape.Walk.Ordinary.invoke`, `readProperty` — calls.
* `StackEscape.Walk.Ordinary.checkReturned`, `checkAssignment` — sinks.
* `StackEscape.Walk.Ordinary.lambdaOver`, `localFunctionOver`, `foreachOver`, `usingOver` — nested
  functions and regions.
-/

set_option autoImplicit false

namespace StackEscape

/-! ## Walks -/

/-- The walk leads from states in which nothing is stack-only to such states, and then `Q` holds of what
it yields. -/
def Walk.Ordinary (env : Surroundings) {α : Type} (Q : α → Prop) (m : Walk α) : Prop :=
  ∀ s : WalkState, s.IsOrdinary env.program → (m.after s).IsOrdinary env.program ∧ Q (m.answer s)

namespace Walk.Ordinary

variable {env : Surroundings} {α β : Type} {Q : α → Prop} {R : β → Prop}

theorem pure {x : α} (hx : Q x) : Ordinary env Q (Pure.pure x) := fun _ hs => ⟨hs, hx⟩

theorem bind {m : Walk α} {f : α → Walk β} (hm : Ordinary env Q m)
    (hf : ∀ x, Q x → Ordinary env R (f x)) : Ordinary env R (m >>= f) := by
  intro s hs
  obtain ⟨hafter, hanswer⟩ := hm s hs
  exact hf _ hanswer _ hafter

/-- A walk may look at the state. -/
theorem look {k : WalkState → Walk α}
    (hk : ∀ s : WalkState, s.IsOrdinary env.program → Ordinary env Q (k s)) :
    Ordinary env Q (get >>= k) := fun s hs => hk s hs s hs

theorem discard {m : Walk α} (hm : Ordinary env Q m) :
    Ordinary env (fun _ => True) (Functor.discard m) := fun s hs => ⟨(hm s hs).1, trivial⟩

theorem ite {c : Prop} [Decidable c] {m n : Walk α} (hm : c → Ordinary env Q m)
    (hn : ¬ c → Ordinary env Q n) : Ordinary env Q (if c then m else n) := by
  split
  · next h => exact hm h
  · next h => exact hn h

theorem forM {f : α → Walk Unit} {l : List α}
    (h : ∀ x ∈ l, Ordinary env (fun _ => True) (f x)) :
    Ordinary env (fun _ => True) (l.forM f) := by
  induction l with
  | nil => exact .pure trivial
  | cons x rest ih =>
    exact (h x (List.mem_cons_self ..)).bind fun _ _ =>
      ih fun y hy => h y (List.mem_cons_of_mem _ hy)

/-- A change of the state. -/
theorem changing {f : WalkState → WalkState}
    (h : ∀ s : WalkState, s.IsOrdinary env.program → (f s).IsOrdinary env.program) :
    Ordinary env (fun _ => True) (modify f : Walk Unit) := fun s hs => ⟨h s hs, trivial⟩

/-! ### Errors and facts -/

theorem reportAll {errors : List EscapeError}
    (h : ∀ e ∈ errors, e.errorClass = .declarationContract) :
    Ordinary env (fun _ => True) (Walk.reportAll errors) :=
  changing fun _ hs => hs.congr rfl rfl fun e he => (List.mem_append.1 he).imp_right (h e)

theorem report {kind : EscapeErrorKind} (h : kind.errorClass = .declarationContract) (span : Span) :
    Ordinary env (fun _ => True) (Walk.report kind span) :=
  reportAll fun e he => by rw [List.mem_singleton.1 he]; exact h

theorem passes_none (span : Span) : Ordinary env (fun _ => True) (Walk.passes none span) :=
  .pure trivial

theorem record (id : NodeId) (pair : ScopePair) :
    Ordinary env (fun _ => True) (Walk.record id pair) :=
  changing fun _ hs => hs.congr rfl rfl fun _ he => .inl he

theorem noteCopy (span : Span) : Ordinary env (fun _ => True) (Walk.noteCopy span) :=
  changing fun _ hs => hs.congr rfl rfl fun _ he => .inl he

/-! ### Scopes -/

theorem declare {info : LocalInfo} (h : info.stackOnly = false) :
    Ordinary env (fun _ => True) (Walk.declare info) := changing fun _ hs => hs.declare h

theorem declareFunctions {stmts : List Stmt}
    (h : ∀ f ∈ directFunctions stmts, env.program.HasOrdinary f) :
    Ordinary env (fun _ => True) (Walk.declareFunctions stmts) := by
  refine forM fun x hx => ?_
  rcases x with ⟨id, kind, span⟩
  cases kind with
  | localFunction f =>
    exact changing fun _ hs => hs.declareFunction (h f (List.mem_filterMap.2 ⟨_, hx, rfl⟩))
  | _ => exact .pure trivial

theorem inScope (kind : ScopeKind) {body : Walk Unit} (hb : Ordinary env (fun _ => True) body) :
    Ordinary env (fun _ => True) (Walk.inScope kind body) :=
  (changing fun _ hs => hs.pushScope kind hs.frames).bind fun _ _ => hb.bind fun _ _ =>
    changing fun _ hs => hs.popScope

/-- The inside of a nested function. -/
theorem inFunction (kind : ScopeKind) {frame : FunctionFrame}
    (hframe : frame.returnsByRef = false ∧ frame.returnsStackOnly = false) {body : Walk Unit}
    (hb : Ordinary env (fun _ => True) body) :
    Ordinary env (fun _ => True) (Walk.inFunction kind frame body) := by
  have henter (s : WalkState) (hs : s.IsOrdinary env.program) :
      ({ s with ctx := s.ctx.pushFunction kind frame } : WalkState).IsOrdinary env.program :=
    hs.pushScope kind (List.forall_mem_cons.2 ⟨hframe, hs.frames⟩)
  exact (changing henter).bind fun _ _ => hb.bind fun _ _ => changing fun _ hs => hs.popScope

theorem withGenerics (scope : GenericScope) {body : Walk Unit}
    (hb : Ordinary env (fun _ => True) body) :
    Ordinary env (fun _ => True) (Walk.withGenerics scope body) := by
  have henter (g : GenericScope) : Ordinary env (fun _ => True)
      (modify fun s => { s with generics := g } : Walk Unit) :=
    changing fun _ hs => hs.congr rfl rfl fun _ he => .inl he
  exact look fun s _ => (henter scope).bind fun _ _ => hb.bind fun _ _ => henter s.generics

/-- A block, given the walk over its statements. -/
theorem block {stmts : List Stmt} (hfns : ∀ f ∈ directFunctions stmts, env.program.HasOrdinary f)
    {body : Walk Unit} (hb : Ordinary env (fun _ => True) body) :
    Ordinary env (fun _ => True) (Walk.block stmts body) :=
  inScope .block ((declareFunctions hfns).bind fun _ _ => hb)

end Walk.Ordinary

/-- Nothing can be stored through operands that are not stack-only. -/
theorem mixingErrors_eq_nil_of_ordinary {p : Program} {receiver : Option Operand} {args : List Operand}
    (hreceiver : ∀ op ∈ receiver, op.IsOrdinary p) (hargs : ∀ op ∈ args, op.IsOrdinary p)
    (facts : Facts) (c : Contract) (span : Span) :
    mixingErrors facts c receiver args span = [] := by
  have hheap : ∀ a ∈ c.mixingArgs receiver args, a.stackOnly = false := by
    intro a ha
    rcases List.mem_append.1 ha with ha | ha
    · obtain ⟨op, hop, rfl⟩ := List.mem_map.1 ha
      exact (hreceiver op (Option.mem_toList.1 hop)).heap
    · obtain ⟨x, hx, rfl⟩ := List.mem_map.1 ha
      exact (hargs x.1 (List.fst_mem_of_mem_zipIdx hx)).heap
  have hsinks : Mixing.sinks (c.mixingArgs receiver args) = [] := by
    refine List.filterMap_eq_nil_iff.2 fun x hx => ?_
    simp [MixingArg.sinkLevel, hheap x.1 (List.fst_mem_of_mem_zipIdx hx)]
  have hnone : Mixing.violations (c.mixingArgs receiver args) = [] := by
    simp [Mixing.violations, hsinks]
  rw [mixingErrors, hnone]
  rfl

/-- A member of an ordinary program. -/
structure Surroundings.IsOrdinary (env : Surroundings) : Prop where
  /-- The program is ordinary. -/
  program : env.program.IsOrdinary
  /-- The member is one of it. -/
  member : env.member ∈ env.program.members

namespace Walk.Ordinary

variable {env : Surroundings} {α : Type}

section Member

variable (h : env.IsOrdinary)

include h

/-! ### Types -/

theorem stackOnly {ty : TypeRef} (hty : env.program.Declares ty) :
    Ordinary env (fun b => b = false) (Walk.stackOnly env ty) :=
  look fun _ hs => .pure (hs.stackOnly_eq_false h.program hty)

theorem checkShape {ty : TypeRef} (hty : env.program.Declares ty) (span : Span) :
    Ordinary env (fun _ => True) (Walk.checkShape env ty span) := by
  refine look fun s hs => ?_
  have hnone : (s.types env).typeErrors span ty = [] :=
    TypeEnv.typeErrors_eq_nil h.program hs.caps span ty hty
  rw [hnone]
  exact (reportAll fun _ he => absurd he List.not_mem_nil).bind fun _ _ => .pure trivial

theorem checkTypeArgs (callee : Callee) {typeArgs : List TypeRef}
    (hargs : ∀ ty ∈ typeArgs, env.program.Declares ty) (span : Span) :
    Ordinary env (fun _ => True) (Walk.checkTypeArgs env callee typeArgs span) := by
  refine look fun s hs => ?_
  have htypes : (s.types env).allTypeErrors span typeArgs = [] :=
    TypeEnv.allTypeErrors_eq_nil h.program hs.caps span typeArgs hargs
  have hadmitted : (s.types env).argErrors callee.key callee.key callee.decl.typeParams typeArgs
      span = [] := TypeEnv.argErrors_eq_nil h.program hs.caps hargs _ _ _ _
  simp only [htypes, hadmitted]
  exact reportAll fun _ he => absurd he List.not_mem_nil

/-! ### Callees -/

theorem memberContract {m : Member} (hm : m ∈ env.program.members) :
    Ordinary env Contract.IsOrdinary (Walk.memberContract env m) := fun _ hs =>
  (hs.obtain m.key (.build h.program hs.caps (h.program.member hm) m.owner m.key m.innerScope
    false)).symm

theorem localContract {f : FnDecl} (hf : env.program.HasOrdinary f) :
    Ordinary env Contract.IsOrdinary (Walk.localContract env f) := fun s hs =>
  (hs.obtain (env.localKey f) (.build h.program hs.caps hf env.member.owner (env.localKey f)
    (WalkState.localScope s env f) true)).symm

/-- A reference that means nothing is a malformed declaration, and so is nothing else. -/
theorem resolve (r : MemberRef) (span : Span) :
    Ordinary env (fun _ => True) (Walk.resolve env r span) := by
  refine look fun s hs => ?_
  cases htarget : s.target? env r with
  | none => exact (report rfl span).bind fun _ _ => .pure trivial
  | some target =>
    cases target with
    | localFunction f =>
      obtain ⟨scope, hscope, hfound⟩ := Covers.exists_scope_of_target? htarget
      exact (localContract h (hs.functions scope hscope _ f hfound)).bind fun _ _ => .pure trivial
    | member m =>
      exact (memberContract h (Covers.mem_members_of_target? htarget)).bind fun _ _ =>
        .pure trivial

/-! ### Variables -/

theorem declareBinding (name : String) {ty : TypeRef} (hty : env.program.Declares ty)
    (pair : ScopePair) (isRef : Bool) (span : Span) :
    Ordinary env (fun _ => True) (Walk.declareBinding env name ty pair isRef span) := by
  refine (stackOnly h hty).bind fun b hb => ite (fun hc => ?_) fun _ => declare hb
  simp [hb] at hc

theorem bindParam (checkShapes : Bool) {param : Param} (hty : env.program.Declares param.ty)
    {contract : ParamContract} (hc : contract.stackOnly = false) :
    Ordinary env (fun _ => True) (Walk.bindParam env checkShapes param contract) := by
  unfold Walk.bindParam
  refine ite (fun _ => (checkShape h hty _).bind fun _ _ => ?_) fun _ =>
    Ordinary.bind (Q := fun _ => True) (.pure trivial) fun _ _ => ?_
  all_goals
    refine look fun _ _ => ite (fun _ => declare hc) fun _ => ite (fun hb => ?_) fun _ =>
      ite (fun hb => ?_) fun _ => declare hc
    · simp [hc] at hb
    · simp [hc] at hb

theorem bindParams (checkShapes : Bool) {params : List Param} {contracts : List ParamContract}
    (hparams : ∀ q ∈ params, env.program.Declares q.ty)
    (hcontracts : ∀ c ∈ contracts, c.stackOnly = false) :
    Ordinary env (fun _ => True) (Walk.bindParams env checkShapes params contracts) :=
  forM fun _ hx => bindParam h checkShapes (hparams _ (List.of_mem_zip hx).1)
    (hcontracts _ (List.of_mem_zip hx).2)

theorem readPrimaryParam {param : Param} (hq : param ∈ env.member.owner.primaryParams)
    (span : Span) : Ordinary env (fun _ => True) (Walk.readPrimaryParam env param span) := by
  refine (stackOnly h (h.program.primaryParam h.member hq)).bind fun b hb =>
    ite (fun hc => ?_) fun _ => .pure trivial
  simp [hb] at hc

theorem readVariable (name : String) (span : Span) :
    Ordinary env (fun _ => True) (Walk.readVariable env name span) := by
  refine look fun s hs => ?_
  cases hfound : s.ctx.lookup name with
  | some found =>
    refine ite (fun hc => ?_) fun _ => .pure trivial
    simp [hs.lookup hfound] at hc
  | none =>
    cases hq : env.member.owner.primaryParams.find? fun q => decide (q.name = name) with
    | some param => exact readPrimaryParam h (List.mem_of_find?_eq_some hq) span
    | none => exact (report rfl span).bind fun _ _ => .pure trivial

theorem readThis (span : Span) : Ordinary env (fun _ => True) (Walk.readThis env span) := by
  obtain ⟨t, ht, hmem⟩ := List.mem_flatMap.1 h.member
  obtain ⟨d, -, howner⟩ := List.mem_map.1 hmem
  have hkind : env.member.owner.kind ≠ .refStruct := by
    rw [← howner]
    exact h.program.kinds t ht
  refine look fun s hs => ?_
  cases s.thisPair with
  | none => exact .pure trivial
  | some pair =>
    refine ite (fun hc => ?_) fun _ => .pure trivial
    simp [hkind] at hc

/-! ### Calls -/

theorem bindOutVar (derived : Level) (isInvalid : Bool) {op : Operand}
    (hop : op.IsOrdinary env.program) :
    Ordinary env (fun _ => True) (Walk.bindOutVar env derived isInvalid op) := by
  unfold Walk.bindOutVar
  split
  · next hexpr => exact declareBinding h _ (hop.declares _ hexpr) _ _ _
  · exact .pure trivial

theorem invoke (c : Contract) {receiver : Option Operand} {args : List Operand}
    (hreceiver : ∀ op ∈ receiver, op.IsOrdinary env.program)
    (hargs : ∀ op ∈ args, op.IsOrdinary env.program) {resultTy : TypeRef}
    (hty : env.program.Declares resultTy) (span : Span) :
    Ordinary env (fun _ => True) (Walk.invoke env c receiver args resultTy span) := by
  have hvars (derived : Level) (isInvalid : Bool) :
      Ordinary env (fun _ => True) (Walk.bindOutVars env derived isInvalid args) :=
    forM fun op hop => bindOutVar h derived isInvalid (hargs op hop)
  refine ite (fun _ => .pure trivial) fun _ => ite (fun _ => (hvars _ _).bind fun _ _ =>
    .pure trivial) fun _ => look fun s _ => ?_
  rw [mixingErrors_eq_nil_of_ordinary hreceiver hargs]
  exact (reportAll fun _ he => absurd he List.not_mem_nil).bind fun _ _ =>
    (stackOnly h hty).bind fun _ _ => (hvars _ _).bind fun _ _ => .pure trivial

theorem invokeRef (r : MemberRef) {receiver : Option Operand} {args : List Operand}
    (hreceiver : ∀ op ∈ receiver, op.IsOrdinary env.program)
    (hargs : ∀ op ∈ args, op.IsOrdinary env.program) {resultTy : TypeRef}
    (hty : env.program.Declares resultTy) (span : Span) :
    Ordinary env (fun _ => True) (Walk.invokeRef env r receiver args resultTy span) := by
  refine (resolve h r span).bind fun callee _ => ?_
  cases callee with
  | none => exact .pure trivial
  | some callee =>
    exact (invoke h callee.contract hreceiver hargs hty span).bind fun _ _ => .pure trivial

theorem readProperty (getter : MemberRef) {receiver : Option Operand} {args : List Operand}
    (hreceiver : ∀ op ∈ receiver, op.IsOrdinary env.program)
    (hargs : ∀ op ∈ args, op.IsOrdinary env.program) {resultTy : TypeRef}
    (hty : env.program.Declares resultTy) (span : Span) :
    Ordinary env (fun _ => True) (Walk.readProperty env getter receiver args resultTy span) := by
  refine (resolve h getter span).bind fun callee _ => ?_
  cases callee with
  | none => exact .pure trivial
  | some callee =>
    refine (invoke h callee.contract hreceiver hargs hty span).bind fun _ _ =>
      (stackOnly h hty).bind fun _ _ => ite (fun _ => ?_) fun _ => .pure trivial
    exact (noteCopy span).bind fun _ _ => .pure trivial

theorem operandOf {e : Expr} (hty : env.program.Declares e.ty) (mode : RefKind)
    {check : Walk ScopePair} (hc : Ordinary env (fun _ => True) check) :
    Ordinary env (Operand.IsOrdinary env.program) (Walk.operandOf env e mode check) := by
  obtain ⟨id, kind, ty, span⟩ := e
  have main (fresh : Bool) {m : Walk ScopePair} (hm : Ordinary env (fun _ => True) m) :
      Ordinary env (Operand.IsOrdinary env.program) (m >>= fun pair =>
        Walk.stackOnly env ty >>= fun stackOnly =>
          Pure.pure (Operand.ofExpr ⟨id, kind, ty, span⟩ pair stackOnly mode fresh)) := by
    refine hm.bind fun _ _ => (stackOnly h hty).bind fun _ hb => .pure ⟨hb, fun e he => ?_⟩
    obtain rfl := Option.some.inj he
    exact hty
  cases kind with
  | outVar name => exact main true ((record id .confined).bind fun _ _ => .pure trivial)
  | _ => exact main false hc

omit h in
/-- A temporary that is not stack-only. -/
theorem temporary {label : String} {pair : ScopePair} {isStackOnly : Bool} {span : Span}
    (hb : isStackOnly = false) :
    (Operand.temporary label pair isStackOnly span).IsOrdinary env.program :=
  ⟨hb, fun _ he => absurd he (by simp [Operand.temporary])⟩

/-! ### Comparisons, conversions and sinks -/

theorem conversionError_eq_none {s : WalkState} (hs : s.IsOrdinary env.program)
    {source target : TypeRef} (hsource : env.program.Declares source)
    (htarget : env.program.Declares target) :
    (s.types env).conversionError source target = none := by
  rw [TypeEnv.conversionError, hs.stackOnly_eq_false h.program hsource,
    hs.stackOnly_eq_false h.program htarget]
  exact if_pos (.inl rfl)

theorem nullTestVerdict_eq_plain {s : WalkState} (hs : s.IsOrdinary env.program) (op : String)
    {ty : TypeRef} (hty : env.program.Declares ty) :
    (s.types env).nullTestVerdict op ty = .plain := by
  have hheap : ((s.types env).capability ty).isStackOnly = false :=
    hs.stackOnly_eq_false h.program hty
  simp [TypeEnv.nullTestVerdict, hheap]

theorem binaryVerdict_eq_plain {s : WalkState} (hs : s.IsOrdinary env.program) (op : BinOp)
    {left right : Expr} (hleft : env.program.Declares left.ty)
    (hright : env.program.Declares right.ty) :
    (s.types env).binaryVerdict op left right = .plain := by
  have hequality (op : String) : (s.types env).equalityVerdict op left right = .plain := by
    simp [TypeEnv.equalityVerdict, nullTestVerdict_eq_plain h hs, hleft, hright,
      TypeEnv.comparisonError, hs.stackOnly_eq_false h.program]
  cases op <;> simp [TypeEnv.binaryVerdict, hequality]

theorem testVerdict_eq_plain {s : WalkState} (hs : s.IsOrdinary env.program) {subject : TypeRef}
    (hty : env.program.Declares subject) (pattern : Pattern) :
    (s.types env).testVerdict subject pattern = .plain := by
  unfold TypeEnv.testVerdict
  split
  · split
    · exact nullTestVerdict_eq_plain h hs "is" hty
    · rfl
  · rfl

omit h in
theorem settle_plain (id : NodeId) (span : Span) :
    Ordinary env (fun _ => True) (Walk.settle id span .plain) := .pure trivial

theorem dynamicErrors_eq_nil {s : WalkState} (hs : s.IsOrdinary env.program)
    {operands : List Expr} (hop : ∀ e ∈ operands, env.program.Declares e.ty) :
    (s.types env).dynamicErrors operands = [] := by
  have hnone : (operands.filter fun e => (s.types env).stackOnly e.ty) = [] :=
    List.filter_eq_nil_iff.2 fun e he => by simp [hs.stackOnly_eq_false h.program (hop e he)]
  rw [TypeEnv.dynamicErrors, hnone, List.map_nil]

theorem checkAssignment {target : Expr} (hty : env.program.Declares target.ty) (value : Expr)
    (t v : ScopePair) :
    Ordinary env (fun _ => True) (Walk.checkAssignment env target value false t v) := by
  refine look fun s hs => ?_
  have hnone : Walk.assignmentError (s.types env) s.facts target value false t v = none := by
    simp [Walk.assignmentError, hs.stackOnly_eq_false h.program hty]
  rw [hnone]
  exact (passes_none _).discard

omit h in
/-- No function returns a reference or anything stack-only. -/
theorem checkReturned (value : Expr) (pair : ScopePair) :
    Ordinary env (fun _ => True) (Walk.checkReturned value pair) := by
  refine look fun s hs => ?_
  cases hframe : s.ctx.function with
  | none => exact .pure trivial
  | some frame =>
    obtain ⟨href, hstack⟩ := hs.frames frame (List.mem_of_mem_head? hframe)
    have hnone : Walk.returnError s.facts frame value pair = none := by
      simp [Walk.returnError, href, hstack]
    simp only [hnone]
    exact (passes_none _).discard

/-! ### Nested functions -/

theorem lambdaOver {fn : Lambda} (hret : env.program.Declares fn.retTy)
    (hparams : ∀ q ∈ fn.params, env.program.Declares q.ty)
    (hfns : ∀ f ∈ directFunctions fn.body, env.program.HasOrdinary f) {body : Walk Unit}
    (hb : Ordinary env (fun _ => True) body) :
    Ordinary env (fun _ => True) (Walk.lambdaOver env fn body) := by
  refine look fun s hs => inFunction _ ⟨rfl, hs.stackOnly_eq_false h.program hret⟩ ?_
  refine (bindParams h true hparams fun c hc => ?_).bind fun _ _ =>
    (declareFunctions hfns).bind fun _ _ => hb
  obtain ⟨q, hq, rfl⟩ := List.mem_map.1 hc
  exact hs.stackOnly_eq_false h.program (hparams q hq)

omit h in
theorem checkLocalSignature {f : FnDecl} (hf : env.program.HasOrdinary f) :
    Ordinary env (fun _ => True) (Walk.checkLocalSignature env f) := by
  refine (reportAll fun _ he => errorClass_of_mem_placementErrors he).bind fun _ _ =>
    look fun s hs => ?_
  have hshapes (errors : List TypeError)
      (herrors : ∀ e ∈ errors, e.errorClass = .declarationContract) :
      Ordinary env (fun _ => True) (Walk.reportShapes errors) := by
    refine reportAll fun e he => ?_
    obtain ⟨x, hx, rfl⟩ := List.mem_map.1 he
    exact herrors x hx
  let filed := s.tables.caps.fillOwn env.program (env.localKey f) f.typeParams s.generics
  have hfiled : ({ s with tables := ⟨filed, s.tables.contracts⟩ } : WalkState).IsOrdinary
      env.program :=
    ⟨hs.caps.fillOwn _ _ hf.unmarked _, hs.contracts, hs.locals, hs.functions, hs.frames, hs.errors⟩
  refine Ordinary.bind (Q := fun _ => True) (fun _ _ => ⟨hfiled, trivial⟩) fun _ _ =>
    hshapes _ fun e he => ?_
  rcases List.mem_append.1 he with he | he
  · exact errorClass_of_mem_cycleErrors he
  · obtain ⟨q, hq, he⟩ := List.mem_flatMap.1 he
    rw [TypeParam.clauseErrors_eq_nil (hf.unmarked q hq)] at he
    exact absurd he List.not_mem_nil

theorem localFunctionOver {f : FnDecl} (hf : env.program.HasOrdinary f)
    (hfns : ∀ g ∈ directFunctions (f.body.getD []), env.program.HasOrdinary g) {body : Walk Unit}
    (hb : Ordinary env (fun _ => True) body) :
    Ordinary env (fun _ => True) (Walk.localFunctionOver env f body) :=
  (checkLocalSignature hf).bind fun _ _ => (localContract h hf).bind fun _ hc =>
    look fun _ _ => withGenerics _ (inFunction _ ⟨hf.returns, hc.result⟩
      ((bindParams h true (fun _ hq => hf.param hq) hc.params).bind fun _ _ =>
        (declareFunctions hfns).bind fun _ _ => hb))

/-! ### Declarations and disposal -/

theorem declareLocal {decl : LocalDecl} (hty : env.program.Declares decl.ty)
    (wellFormed reportAsync : Bool) (init : Option ScopePair) :
    Ordinary env (fun _ => True) (Walk.declareLocal env decl wellFormed reportAsync init) := by
  refine (stackOnly h hty).bind fun b hb => ite (fun hc => ?_) fun _ =>
    Ordinary.bind (Q := fun _ => True) (.pure trivial) fun _ _ => declare hb
  simp [hb] at hc

theorem disposeOf (dispose : Option MemberRef) {op : Operand} (hop : op.IsOrdinary env.program)
    (span : Span) : Ordinary env (fun _ => True) (Walk.disposeOf env dispose op span) := by
  cases dispose with
  | none => exact .pure trivial
  | some r =>
    refine inScope .disposal (invokeRef h r (fun x hx => ?_) (fun _ hx => ?_) .void span).discard
    · exact Option.some.inj hx ▸ hop
    · exact absurd hx List.not_mem_nil

theorem declaredResource {decl : LocalDecl} (hty : env.program.Declares decl.ty) :
    Ordinary env (Operand.IsOrdinary env.program) (Walk.declaredResource env decl) :=
  look fun _ hs => .pure (temporary (hs.stackOnly_eq_false h.program hty))

omit h in
theorem refusesStackOnly (isAwait : Bool) :
    Ordinary env (fun _ => True) (Walk.refusesStackOnly isAwait) := look fun _ _ => .pure trivial

/-- Nothing is refused because of a suspension. -/
theorem usingOver {region : UsingStmt} {op : Operand} (hop : op.IsOrdinary env.program)
    (hfns : ∀ f ∈ directFunctions region.body, env.program.HasOrdinary f) (ty : TypeRef)
    (span : Span) {body : Walk Unit} (hb : Ordinary env (fun _ => True) body) :
    Ordinary env (fun _ => True) (Walk.usingOver env region op ty span body) := by
  refine (refusesStackOnly _).bind fun _ _ => ite (fun hc => ?_) fun _ =>
    (block hfns hb).bind fun _ _ => disposeOf h region.dispose hop span
  simp [hop.heap] at hc

theorem bindIteration {loop : ForeachStmt}
    (hbinding : ∀ ty ∈ loop.binding.mentioned, env.program.Declares ty)
    {matchElement : ScopePair → Walk Unit}
    (hm : ∀ element, Ordinary env (fun _ => True) (matchElement element)) (element : ScopePair) :
    Ordinary env (fun _ => True) (Walk.bindIteration env loop matchElement element) := by
  unfold Walk.bindIteration
  split
  · next heq =>
    exact declareBinding h _ (hbinding _ (by rw [heq]; exact List.mem_cons_self ..)) _ _ _
  · exact hm element

theorem foreachOver {loop : ForeachStmt}
    (hcollection : env.program.Declares loop.collection.ty)
    (hbinding : ∀ ty ∈ loop.binding.mentioned, env.program.Declares ty)
    (henumerator : ∀ ty ∈ loop.enumerator.mentioned, env.program.Declares ty)
    (hfns : ∀ f ∈ directFunctions loop.body, env.program.HasOrdinary f) (collection : ScopePair)
    (span : Span) {matchElement : ScopePair → Walk Unit}
    (hm : ∀ element, Ordinary env (fun _ => True) (matchElement element)) {body : Walk Unit}
    (hb : Ordinary env (fun _ => True) body) :
    Ordinary env (fun _ => True)
      (Walk.foreachOver env loop collection span matchElement body) := by
  have hty : env.program.Declares loop.enumerator.ty :=
    henumerator _ (by simp [Enumerator.mentioned])
  have hno : ∀ op ∈ ([] : List Operand), op.IsOrdinary env.program :=
    fun _ hop => absurd hop List.not_mem_nil
  refine (stackOnly h hty).bind fun b hb' => (refusesStackOnly _).bind fun _ _ =>
    inScope .block (ite (fun hc => ?_) fun _ => ?_)
  · simp [hb'] at hc
  have hop {pair : ScopePair} :
      (Operand.temporary "enumerator" pair b span).IsOrdinary env.program := temporary hb'
  refine (stackOnly h hcollection).bind fun _ hc => ?_
  refine (invokeRef h _ (fun x hx => ?_) hno hty span).bind fun _ _ => ?_
  · obtain rfl := Option.some.inj hx
    exact ⟨hc, fun e he => Option.some.inj he ▸ hcollection⟩
  refine (invokeRef h _ (fun x hx => Option.some.inj hx ▸ hop) hno .bool span).discard.bind
    fun _ _ => ?_
  refine (readProperty h _ (fun x hx => Option.some.inj hx ▸ hop) hno
    (henumerator _ (by simp [Enumerator.mentioned])) span).bind fun _ _ => ?_
  exact (bindIteration h hbinding hm _).bind fun _ _ => (block hfns hb).bind fun _ _ =>
    disposeOf h loop.enumerator.dispose hop span

/-! ### Patterns -/

theorem bindPattern (name : String) {ty : TypeRef} (hty : env.program.Declares ty)
    (input : ScopePair) (span : Span) :
    Ordinary env (fun _ => True) (Walk.bindPattern env name ty input span) :=
  (checkShape h hty span).bind fun _ _ => (stackOnly h hty).bind fun _ _ =>
    declareBinding h name hty _ false span

theorem accessMember (access : MemberAccess) (input : ScopePair) {receiverTy ty : TypeRef}
    (hreceiver : env.program.Declares receiverTy) (hty : env.program.Declares ty) (span : Span) :
    Ordinary env (fun _ => True) (Walk.accessMember env access input receiverTy ty span) := by
  refine look fun s hs => ?_
  cases access with
  | field owner name => exact .pure trivial
  | property getter =>
    refine readProperty h getter (fun op hop => ?_) (fun _ hop => absurd hop List.not_mem_nil) hty
      span
    exact Option.some.inj hop ▸ temporary (hs.stackOnly_eq_false h.program hreceiver)

theorem deconstructInput (deconstruct : MemberRef) {componentTys : List TypeRef}
    (htys : ∀ ty ∈ componentTys, env.program.Declares ty) (input : ScopePair) {inputTy : TypeRef}
    (hinput : env.program.Declares inputTy) (span : Span) :
    Ordinary env (fun _ => True)
      (Walk.deconstructInput env deconstruct componentTys input inputTy span) := by
  refine look fun s hs => (resolve h deconstruct span).bind fun callee _ => ?_
  cases callee with
  | none => exact .pure trivial
  | some callee =>
    refine ite (fun _ => .pure trivial) fun _ => (invoke h callee.contract (fun op hop => ?_)
      (fun op hop => ?_) .void span).bind fun _ _ => .pure trivial
    · exact Option.some.inj hop ▸ temporary (hs.stackOnly_eq_false h.program hinput)
    · obtain ⟨ty, hty, rfl⟩ := List.mem_map.1 hop
      exact ⟨hs.stackOnly_eq_false h.program (htys ty hty), fun _ he => absurd he (by simp)⟩

end Member

end Walk.Ordinary

end StackEscape
