import StackEscape.Proofs.Rules

/-!
# Every walk covers its part of the tree

The walk over an expression, a pattern or a statement covers the sites of that part: an induction
over the tree, with one case for each form.

## Main results

* `StackEscape.Covers.checkExpr`, `checkPattern`, `checkStmts` — the walk covers its sites.
-/

set_option autoImplicit false

namespace StackEscape

namespace Covers

variable {I : Inspection} {a : Point}

/-! ## Operands of calls -/

/-- A receiver has the record of its expression. -/
def IsReceiver (I : Inspection) (receiver : Option Expr) (op : Option Operand) : Prop :=
  (∀ o ∈ op.toList, o.pair.isInvalid = false) ∧
    (I.strict → (∀ e ∈ receiver.toList, I.facts.Sure e) ∧
      op = receiver.map (I.types.operand I.facts .none))

/-- Arguments have the records of their expressions. -/
def IsArgs (I : Inspection) (args : List Arg) (ops : List Operand) : Prop :=
  (∀ o ∈ ops, o.pair.isInvalid = false) ∧
    (I.strict → (∀ x ∈ args, I.facts.Sure x.expr) ∧
      ops = args.map fun x => I.types.operand I.facts x.mode x.expr)

/-- No operand was given up. -/
theorem operands_isInvalid {receiver : Option Expr} {args : List Arg} {op : Option Operand}
    {ops : List Operand} (hr : IsReceiver I receiver op) (ha : IsArgs I args ops) :
    ∀ o ∈ op.toList ++ ops, o.pair.isInvalid = false := fun o ho =>
  (List.mem_append.1 ho).elim (hr.1 o) (ha.1 o)

/-- What is known of the operands of a call is known of their expressions. -/
theorem callRespects {receiver : Option Expr} {args : List Arg} {op : Option Operand}
    {ops : List Operand} {r : MemberRef} (hr : IsReceiver I receiver op) (ha : IsArgs I args ops)
    (hs : CallSafe I a r op ops) (hst : I.strict) :
    I.env.CallRespects I.caps I.facts a r receiver args := by
  obtain ⟨hsure, rfl⟩ := hr.2 hst
  obtain ⟨hsures, rfl⟩ := ha.2 hst
  refine ⟨fun e he => ?_, hs hst⟩
  rcases List.mem_append.1 he with he | he
  · exact hsure e he
  · obtain ⟨x, hx, rfl⟩ := List.mem_map.1 he
    exact hsures x hx

/-- A call without a receiver. -/
theorem isReceiver_none : IsReceiver I none none := ⟨by simp, fun _ => ⟨by simp, rfl⟩⟩

/-! ## Nodes without an expression of their own -/

/-- A pattern adds its own site, at which nothing flows out. -/
theorem pattern {pre : Prop} {xs : List Site} {m : Walk Unit} (p : Pattern) (input : TypeRef)
    (hm : Covers I a pre xs (fun _ => True) m) :
    Covers I a pre (⟨a, .pattern p input⟩ :: xs) (fun _ => True) m :=
  head rfl (fun _ _ _ _ _ h => by simp [Site.localFunction?] at h)
    (hm.weaken fun _ _ _ => ⟨trivial, fun _ => trivial⟩)

/-- A statement that declares no local function adds its own site. -/
theorem stmt {pre : Prop} {xs : List Site} {m : Walk Unit} {s : Stmt}
    (hs : (⟨a, .stmt s⟩ : Site).localFunction? = none)
    (hm : Covers I a pre xs
      (fun _ => I.strict → Site.Respects I.env I.caps I.facts ⟨a, .stmt s⟩) m) :
    Covers I a pre (⟨a, .stmt s⟩ :: xs) (fun _ => True) m :=
  head rfl (fun _ _ _ _ _ h => by simp [hs] at h) (hm.weaken fun _ _ h => ⟨trivial, h⟩)

/-- A pattern with more parts than component types is no part of a regular program. -/
theorem of_irregular {pre : Prop} {xs ys : List Site} {m : Walk Unit} {x : Site}
    (hx : ¬ x.IsRegular) (hsub : ys ⊆ xs) (hm : Covers I a pre ys (fun _ => True) m) :
    Covers I a pre (x :: xs) (fun _ => True) m where
  proper h := hm.proper fun y hy => (List.cons_subset.1 h).2 (hsub hy)
  reaches h hreg := absurd (hreg x (List.cons_subset.1 h).1) hx
  frame h s hs id hid := by
    refine hm.frame (fun y hy => (List.cons_subset.1 h).2 (hsub hy)) s hs id fun hmem => hid ?_
    obtain ⟨y, hy, hyid⟩ := List.mem_filterMap.1 hmem
    exact List.mem_filterMap.2 ⟨y, List.mem_cons_of_mem _ (hsub hy), hyid⟩
  run h hI := absurd (hI.regular x ((List.cons_subset.1 h).1)) hx

/-- The sites of the first parts are among those of all parts. -/
theorem ofComponents_take_subset (n : Nat) (subs : List Pattern) (tys : List TypeRef) :
    Site.ofComponents a tys (subs.take n) ⊆ Site.ofComponents a tys subs := by
  induction subs generalizing n tys with
  | nil => simp
  | cons p rest ih =>
    cases n with
    | zero => simp [Site.ofComponents]
    | succ n =>
      rw [List.take_succ_cons, Site.ofComponents, Site.ofComponents]
      exact List.append_subset.2 ⟨List.subset_append_left _ _,
        fun x hx => List.mem_append_right _ (ih n tys.tail hx)⟩

/-- Parts without a component type are passed over. -/
theorem checkComponents_take (env : Surroundings) (outcome : Option Outcome) (span : Span)
    (subs : List Pattern) (tys : List TypeRef) :
    Walk.checkComponents env outcome span (subs.take tys.length) tys =
      Walk.checkComponents env outcome span subs tys := by
  induction subs generalizing tys with
  | nil => simp
  | cons p rest ih =>
    cases tys with
    | nil => simp [Walk.checkComponents]
    | cons ty tys => simp [Walk.checkComponents, ih]

/-- An assignment that is no call of a setter. -/
theorem assignment {pre : Prop} {id : NodeId} {target value : Expr} {byRef : Bool} {span : Span}
    (hsites : Site.ofStmt a ⟨id, .assign target value byRef, span⟩ =
      ⟨a, .stmt ⟨id, .assign target value byRef, span⟩⟩ ::
        (Site.ofExpr a target ++ Site.ofExpr a value))
    (hwalk : Walk.checkStmt I.env ⟨id, .assign target value byRef, span⟩ =
      (Walk.checkExpr I.env target >>= fun t => Walk.checkExpr I.env value >>= fun v =>
        Walk.checkAssignment I.env target value byRef t v))
    (hrespects : Site.RespectsAssignment I.env I.caps I.facts target value byRef →
      Site.Respects I.env I.caps I.facts ⟨a, .stmt ⟨id, .assign target value byRef, span⟩⟩)
    (ht : ∀ pre' : Prop, Covers I a pre' (Site.ofExpr a target)
      (fun pair => pair.isInvalid = false ∧ I.facts.pair? target.id = some pair)
      (Walk.checkExpr I.env target))
    (hv : ∀ pre' : Prop, Covers I a pre' (Site.ofExpr a value)
      (fun pair => pair.isInvalid = false ∧ I.facts.pair? value.id = some pair)
      (Walk.checkExpr I.env value)) :
    Covers I a pre (Site.ofStmt a ⟨id, .assign target value byRef, span⟩) (fun _ => True)
      (Walk.checkStmt I.env ⟨id, .assign target value byRef, span⟩) := by
  rw [hsites, hwalk]
  refine stmt rfl ((ht _).bind fun t => (hv _).bind_nil fun v => ?_)
  refine (checkAssignment target value byRef fun h => ⟨h.1.2.1, h.2.1⟩).weaken ?_
  exact fun _ h hq hst => hrespects ⟨t, v, h.1.2.2, h.2.2, hq.1, hq.2 hst⟩

/-- An assignment that is a call of a setter. -/
theorem setter {pre : Prop} {id tid : NodeId} {receiver : Option Expr} {getter : MemberRef}
    {args : List Arg} {ty : TypeRef} {tspan : Span} {value : Expr} {span : Span}
    (hr : ∀ pre' : Prop, Covers I a pre' (Site.ofOptional a receiver) (IsReceiver I receiver)
      (Walk.checkReceiver I.env receiver))
    (ha : ∀ pre' : Prop, Covers I a pre' (Site.ofArgs a args) (IsArgs I args)
      (Walk.checkArgs I.env args))
    (hv : ∀ pre' : Prop, Covers I a pre' (Site.ofExpr a value)
      (fun pair => pair.isInvalid = false ∧ I.facts.pair? value.id = some pair)
      (Walk.checkExpr I.env value)) :
    Covers I a pre
      (Site.ofStmt a
        ⟨id, .assign ⟨tid, .property receiver getter args, ty, tspan⟩ value false, span⟩)
      (fun _ => True) (Walk.checkStmt I.env
        ⟨id, .assign ⟨tid, .property receiver getter args, ty, tspan⟩ value false, span⟩) := by
  rw [Site.ofStmt, Walk.checkStmt]
  refine stmt rfl ((hr _).bind fun op => (ha _).bind fun ops =>
    (operandOf value .none (hv _)).bind_nil fun vop => ?_)
  have hargs (h : ((pre ∧ IsReceiver I receiver op) ∧ IsArgs I args ops) ∧
      vop.pair.isInvalid = false ∧
        (I.strict → I.facts.Sure value ∧ vop = I.types.operand I.facts .none value)) :
      IsArgs I (args ++ [⟨.none, value⟩]) (ops ++ [vop]) := by
    refine ⟨fun o ho => ?_, fun hst => ?_⟩
    · rcases List.mem_append.1 ho with ho | ho
      · exact h.1.2.1 o ho
      · obtain rfl := List.mem_singleton.1 ho
        exact h.2.1
    · obtain ⟨hsures, hops⟩ := h.1.2.2 hst
      obtain ⟨hsure, hvop⟩ := h.2.2 hst
      refine ⟨fun x hx => ?_, by rw [hops, hvop, List.map_append]; rfl⟩
      rcases List.mem_append.1 hx with hx | hx
      · exact hsures x hx
      · obtain rfl := List.mem_singleton.1 hx
        exact hsure
  refine (invokeRef .void span fun h => operands_isInvalid h.1.1.2 (hargs h)).discard.weaken ?_
  rintro _ h ⟨_, _, hsafe⟩ hst
  exact callRespects h.1.1.2 (hargs h) hsafe hst

/-- A local variable is found once the walk over its declaration is done. -/
theorem exists_lookup_checkLocal (reportAsync : Bool) (name : String) (ty : TypeRef)
    (refKind : RefKind) (isScoped : Bool) {init : Option Expr} (span : Span)
    (hinit : (Walk.checkInit I.env init).Proper I.env) {s : WalkState} (hs : s.Placed I.env)
    (h : s.ctx.scopes ≠ []) :
    ∃ found, ((Walk.checkLocal I.env reportAsync ⟨name, ty, refKind, isScoped, init, span⟩).after
      s).ctx.lookup name = some found := by
  have hshape : Covers I ⟨[], false, .void⟩ True [] (fun b => b = true)
      (Walk.checkShape I.env ty span) := checkShape ty span
  have hp := (hshape.proper (List.nil_subset _)).progress s hs
  have hp' := hp.trans (hinit.progress _ (hp.placed hs))
  rw [Walk.checkLocal]
  exact exists_lookup_declareLocal I.env ⟨name, ty, refKind, isScoped, init, span⟩ _ reportAsync _
    (hp'.scopes_ne_nil h)

/-! ## The walk -/

mutual

theorem checkExpr {a : Point} {pre : Prop} : (e : Expr) → Covers I a pre (Site.ofExpr a e)
    (fun pair => pair.isInvalid = false ∧ I.facts.pair? e.id = some pair)
    (Walk.checkExpr I.env e)
  | ⟨id, kind, ty, span⟩ => by
    rw [Site.ofExpr, Walk.checkExpr]
    refine look (fun hk s t h => by simp only [h.ctx, h.stackOnly_eq hk]) fun s _ =>
      ite (fun _ => ?_) fun _ => expr (checkForm id ty span kind)
    refine fails ((Walk.Proper.reportAll _).bind fun _ => (Walk.Proper.record _ _).bind fun _ =>
      .pure _) (fun _ => List.append_ne_nil_of_right_ne_nil _ (List.cons_ne_nil _ _)) ?_
    intro s id' hid
    have hne : id' ≠ id := fun h => hid (h ▸ List.mem_cons_self ..)
    exact (Table.get?_set _ _ _ _).trans (if_neg hne)

theorem checkForm {a : Point} {pre : Prop} (id : NodeId) (ty : TypeRef) (span : Span) :
    (kind : ExprKind) →
    Covers I a pre (Site.ofKind a kind)
      (fun pair => pair.isInvalid = false ∧
        (I.strict → Site.Respects I.env I.caps I.facts ⟨a, .expr ⟨id, kind, ty, span⟩⟩))
      (Walk.checkForm I.env id ty span kind)
  | .literal _ => by
    rw [Site.ofKind, Walk.checkForm]
    exact .pure fun _ => ⟨rfl, fun _ => trivial⟩
  | .var name => by
    rw [Site.ofKind, Walk.checkForm]
    exact (readVariable name span).weaken fun _ _ h => ⟨h, fun _ => trivial⟩
  | .thisRef => by
    rw [Site.ofKind, Walk.checkForm]
    exact (readThis span).weaken fun _ _ h => ⟨h, fun _ => trivial⟩
  | .field receiver owner name => by
    rw [Site.ofKind, Walk.checkForm]
    refine (checkOptional receiver).bind_nil fun r => ?_
    refine look (fun hk s t h => by rw [h.fieldPair_eq hk]) fun s _ => .pure fun h => ?_
    exact ⟨fieldPair_isInvalid _ _ _ _ h.1.2, fun _ => trivial⟩
  | .property receiver getter args => by
    rw [Site.ofKind, Walk.checkForm]
    refine (checkReceiver receiver).bind fun r => (checkArgs args).bind_nil fun ops => ?_
    refine (readProperty ty span fun h => operands_isInvalid h.1.2 h.2).weaken ?_
    exact fun _ h hq => ⟨hq.1, callRespects h.1.2 h.2 hq.2⟩
  | .call receiver method typeArgs args => by
    rw [Site.ofKind, Walk.checkForm]
    refine (checkReceiver receiver).bind fun r => (checkArgs args).bind_nil fun ops => ?_
    refine resolving (fun callee ho => ?_) (.pure False.elim)
    refine (checkTypeArgs ho typeArgs span).bind fun _ => ?_
    refine (invoke ty span fun h => ⟨h.1.2.1, operands_isInvalid h.1.1.1.2 h.1.1.2⟩).bind fun o =>
      .pure ?_
    rintro ⟨⟨⟨⟨⟨_, hr⟩, ha⟩, _, hc⟩, _⟩, ho, hkeeps⟩
    exact ⟨ho, callRespects hr ha (callSafe_of_keepsApart hc hkeeps)⟩
  | .create ctor args => by
    rw [Site.ofKind, Walk.checkForm]
    refine (checkShape ty span).nil_bind fun w => (checkArgs args).bind_nil fun ops => ?_
    refine ite (fun hw => ?_) fun _ => ?_
    · exact .pure fun h => by simp [h.1.2] at hw
    · cases ctor with
      | none => exact .pure fun _ => ⟨rfl, fun _ => trivial⟩
      | some ctor =>
        refine (invokeRef ty span fun h => operands_isInvalid isReceiver_none h.2).weaken ?_
        exact fun _ h hq => ⟨hq.1, callRespects isReceiver_none h.2 hq.2⟩
  | .stackAlloc _ len => by
    rw [Site.ofKind, Walk.checkForm]
    refine (checkExpr len).discard.bind_nil fun _ => (stackOnly ty).bind fun b => .pure fun _ => ?_
    exact ⟨by split <;> rfl, fun _ => trivial⟩
  | .conditional cond thenExpr elseExpr byRef => by
    rw [Site.ofKind, Walk.checkForm]
    refine (checkExpr cond).discard.bind fun _ => (checkExpr thenExpr).bind fun x =>
      (checkExpr elseExpr).bind_nil fun y => (stackOnly ty).bind fun b => .pure fun h => ?_
    obtain ⟨⟨⟨_, hx, _⟩, hy, _⟩, _⟩ := h
    exact ⟨by simp [ScopePair.narrower, hx, hy], fun _ => trivial⟩
  | .convert operand _ => by
    rw [Site.ofKind, Walk.checkForm]
    refine (checkExpr operand).bind_nil fun inner => (checkShape ty span).bind fun w => ?_
    refine ite (fun hw => ?_) fun _ => ?_
    · exact .pure fun h => by simp [h.2] at hw
    · refine look (fun hk s t h => by
        simp only [TypeEnv.conversionError_congr (h.capability_eq hk), h.stackOnly_eq hk])
        fun s _ => ?_
      refine (passes _ _).bind fun ok => ite (fun _ => ?_) fun hok => ?_
      · refine .pure fun h => ⟨?_, fun _ => trivial⟩
        split
        · exact h.1.1.1.2.1
        · rfl
      · exact .pure fun h => absurd h.2.1 hok
  | .binary op left right => by
    rw [Site.ofKind, Walk.checkForm]
    refine (checkExpr left).bind fun l => (checkExpr right).bind_nil fun r => ?_
    refine ite (fun hor => ?_) fun _ => ?_
    · exact .pure fun h => by simp [h.1.2.1, h.2.1] at hor
    · refine look (fun hk s t h => by
        simp only [TypeEnv.binaryVerdict_congr (h.capability_eq hk)]) fun s _ => ?_
      refine (settle _ _ _).bind fun ok => .pure fun h => ?_
      rw [h.2]
      exact ⟨rfl, fun _ => trivial⟩
  | .test operand pattern => by
    rw [Site.ofKind, Walk.checkForm]
    refine (checkExpr operand).bind fun input => ?_
    refine look (fun hk s t h => by
      simp only [TypeEnv.testVerdict_congr (h.capability_eq hk)]) fun s _ => ?_
    refine guarded (settle _ _ _) (fun _ h => errors_settle h) ?_
    exact (checkPattern operand.ty span (fun h => h.1.2.1) pattern).bind_nil fun _ =>
      .pure fun _ => ⟨rfl, fun _ => trivial⟩
  | .lambda fn => by
    rw [Site.ofKind, Walk.checkForm]
    exact (checkLambda fn).bind_nil fun _ => .pure fun _ => ⟨rfl, fun _ => trivial⟩
  | .arrayNew _ elems => by
    rw [Site.ofKind, Walk.checkForm]
    refine (checkShape ty span).nil_bind fun w => (checkAll elems).bind_nil fun _ =>
      .pure fun h => ?_
    rw [h.1.2]
    exact ⟨rfl, fun _ => trivial⟩
  | .anonymous members => by
    rw [Site.ofKind, Walk.checkForm]
    refine (checkMembers members).bind_nil fun ok => .pure fun h => ?_
    rw [h.2]
    exact ⟨rfl, fun _ => trivial⟩
  | .await operand => by
    rw [Site.ofKind, Walk.checkForm]
    exact (checkExpr operand).discard.bind_nil fun _ => .pure fun _ => ⟨rfl, fun _ => trivial⟩
  | .dynamicInvoke receiver _ args => by
    rw [Site.ofKind, Walk.checkForm]
    refine (checkExpr receiver).discard.bind fun _ => (checkValues args).bind_nil fun _ => ?_
    refine look (fun hk s t h => by
      simp only [TypeEnv.dynamicErrors_congr (h.capability_eq hk)]) fun s _ => ?_
    refine (reportAll _).bind fun _ => .pure fun h => ?_
    rw [h.2]
    exact ⟨rfl, fun _ => trivial⟩
  | .outVar _ => by
    rw [Site.ofKind, Walk.checkForm]
    exact .pure fun _ => ⟨rfl, fun _ => trivial⟩

theorem checkOptional {a : Point} {pre : Prop} : (receiver : Option Expr) →
    Covers I a pre (Site.ofOptional a receiver)
      (fun r => ∀ x, r = some x → x.1.isInvalid = false) (Walk.checkOptional I.env receiver)
  | none => by
    rw [Site.ofOptional, Walk.checkOptional]
    exact .pure fun _ => by simp
  | some e => by
    rw [Site.ofOptional, Walk.checkOptional]
    refine (checkExpr e).bind_nil fun pair => .pure fun h x hx => ?_
    obtain rfl := Option.some.inj hx
    exact h.2.1

theorem checkReceiver {a : Point} {pre : Prop} : (receiver : Option Expr) →
    Covers I a pre (Site.ofOptional a receiver) (IsReceiver I receiver)
      (Walk.checkReceiver I.env receiver)
  | none => by
    rw [Site.ofOptional, Walk.checkReceiver]
    exact .pure fun _ => isReceiver_none
  | some e => by
    rw [Site.ofOptional, Walk.checkReceiver]
    refine (operandOf e .none (checkExpr e)).bind_nil fun op => .pure fun h => ?_
    refine ⟨by simpa using h.2.1, fun hst => ?_⟩
    obtain ⟨hsure, rfl⟩ := h.2.2 hst
    exact ⟨by simpa using hsure, rfl⟩

theorem checkArgs {a : Point} {pre : Prop} : (args : List Arg) →
    Covers I a pre (Site.ofArgs a args) (IsArgs I args) (Walk.checkArgs I.env args)
  | [] => by
    rw [Site.ofArgs, Walk.checkArgs]
    exact .pure fun _ => ⟨by simp, fun _ => ⟨by simp, rfl⟩⟩
  | ⟨mode, e⟩ :: rest => by
    rw [Site.ofArgs, Walk.checkArgs]
    refine (operandOf e mode (checkExpr e)).bind fun op => (checkArgs rest).bind_nil fun ops =>
      .pure fun h => ?_
    obtain ⟨⟨_, hop⟩, hops⟩ := h
    refine ⟨by simpa using ⟨hop.1, hops.1⟩, fun hst => ?_⟩
    obtain ⟨hsure, rfl⟩ := hop.2 hst
    obtain ⟨hsures, rfl⟩ := hops.2 hst
    exact ⟨by simpa using ⟨hsure, hsures⟩, rfl⟩

theorem checkValues {a : Point} {pre : Prop} : (args : List Arg) →
    Covers I a pre (Site.ofArgs a args) (fun _ => True) (Walk.checkValues I.env args)
  | [] => by
    rw [Site.ofArgs, Walk.checkValues]
    exact .pure fun _ => trivial
  | ⟨_, e⟩ :: rest => by
    rw [Site.ofArgs, Walk.checkValues]
    exact (checkExpr e).discard.bind fun _ => checkValues rest

theorem checkAll {a : Point} {pre : Prop} : (elems : List Expr) →
    Covers I a pre (Site.ofExprs a elems) (fun _ => True) (Walk.checkAll I.env elems)
  | [] => by
    rw [Site.ofExprs, Walk.checkAll]
    exact .pure fun _ => trivial
  | e :: rest => by
    rw [Site.ofExprs, Walk.checkAll]
    exact (checkExpr e).discard.bind fun _ => checkAll rest

theorem checkMembers {a : Point} {pre : Prop} : (members : List NamedExpr) →
    Covers I a pre (Site.ofMembers a members) (fun ok => ok = true)
      (Walk.checkMembers I.env members)
  | [] => by
    rw [Site.ofMembers, Walk.checkMembers]
    exact .pure fun _ => rfl
  | ⟨name, e⟩ :: rest => by
    rw [Site.ofMembers, Walk.checkMembers]
    refine (checkExpr e).bind fun pair => (stackOnly e.ty).nil_bind fun so =>
      (passes _ _).nil_bind fun ok => (checkMembers rest).bind_nil fun restOk => .pure fun h => ?_
    rw [h.1.2.1, h.2]
    rfl

theorem checkLambda {a : Point} {pre : Prop} : (fn : Lambda) →
    Covers I a pre (Site.ofLambda a fn) (fun _ => True) (Walk.checkLambda I.env fn)
  | ⟨params, retTy, body, isExpressionTree, isStatic, isAsync⟩ => by
    rw [Site.ofLambda, Walk.checkLambda]
    exact lambdaOver ⟨params, retTy, body, isExpressionTree, isStatic, isAsync⟩ (checkStmts body)

theorem checkPattern {a : Point} {pre : Prop} (inputTy : TypeRef) (span : Span) {input : ScopePair}
    (hv : pre → input.isInvalid = false) : (p : Pattern) →
    Covers I a pre (Site.ofPattern a inputTy p) (fun _ => True)
      (Walk.checkPattern I.env input inputTy span p)
  | .discard => by
    rw [Site.ofPattern, Walk.checkPattern]
    exact pattern _ _ (.pure fun _ => trivial)
  | .declaration name ty span => by
    rw [Site.ofPattern, Walk.checkPattern]
    exact pattern _ _ (bindPattern _ _ _ hv)
  | .typeTest _ => by
    rw [Site.ofPattern, Walk.checkPattern]
    exact pattern _ _ (.pure fun _ => trivial)
  | .constant e => by
    rw [Site.ofPattern, Walk.checkPattern]
    exact pattern _ _ ((checkExpr e).discard.weaken fun _ _ _ => trivial)
  | .property ty subpatterns => by
    rw [Site.ofPattern, Walk.checkPattern]
    exact pattern _ _ (checkSubPatterns (ty.getD inputTy) hv subpatterns)
  | .positional deconstruct subpatterns componentTys => by
    rw [Site.ofPattern, Walk.checkPattern]
    by_cases hlen : subpatterns.length ≤ componentTys.length
    · refine pattern _ _ ((deconstructInput _ _ _ _ hv).nil_bind fun outcome => ?_)
      rw [← List.take_length (l := subpatterns)]
      exact checkComponents span And.right subpatterns subpatterns.length componentTys
        (by rwa [List.take_length])
    · refine of_irregular hlen (ofComponents_take_subset componentTys.length _ _)
        ((deconstructInput _ _ _ _ hv).nil_bind fun outcome => ?_)
      rw [← checkComponents_take]
      exact checkComponents span And.right subpatterns componentTys.length componentTys
        (List.length_take_le _ _)
  | .negated inner => by
    rw [Site.ofPattern, Walk.checkPattern]
    exact pattern _ _ (checkPattern inputTy span hv inner)

theorem checkSubPatterns {a : Point} {pre : Prop} (receiverTy : TypeRef) {input : ScopePair}
    (hv : pre → input.isInvalid = false) : (subs : List SubPattern) →
    Covers I a pre (Site.ofSubPatterns a subs) (fun _ => True)
      (Walk.checkSubPatterns I.env input receiverTy subs)
  | [] => by
    rw [Site.ofSubPatterns, Walk.checkSubPatterns]
    exact .pure fun _ => trivial
  | ⟨access, ty, p, span⟩ :: rest => by
    rw [Site.ofSubPatterns, Walk.checkSubPatterns]
    exact (accessMember access receiverTy ty span hv).nil_bind fun extracted =>
      (checkPattern ty span And.right p).bind fun _ =>
        checkSubPatterns receiverTy (fun h => hv h.1.1) rest

theorem checkComponents {a : Point} {pre : Prop} (span : Span) {outcome : Option Outcome}
    (ho : pre → ∃ out, outcome = some out ∧ out.result.isInvalid = false) :
    (subs : List Pattern) → (n : Nat) → (tys : List TypeRef) →
    (subs.take n).length ≤ tys.length →
    Covers I a pre (Site.ofComponents a tys (subs.take n)) (fun _ => True)
      (Walk.checkComponents I.env outcome span (subs.take n) tys)
  | [], n, tys, _ => by
    rw [List.take_nil, Site.ofComponents, Walk.checkComponents.eq_def]
    exact .pure fun _ => trivial
  | p :: rest, 0, tys, _ => by
    rw [List.take_zero, Site.ofComponents, Walk.checkComponents.eq_def]
    exact .pure fun _ => trivial
  | p :: rest, n + 1, [], h => by simp at h
  | p :: rest, n + 1, ty :: tys, h => by
    rw [List.take_succ_cons, Site.ofComponents, Walk.checkComponents]
    have hrest : (rest.take n).length ≤ tys.length := by
      simpa only [List.take_succ_cons, List.length_cons, Nat.add_le_add_iff_right] using h
    exact (stackOnly ty).nil_bind fun so =>
      (checkPattern ty span (fun h => componentPair_isInvalid _ (ho h.1)) p).bind fun _ =>
        checkComponents span (fun h => ho h.1.1) rest n tys hrest

theorem checkLocal {a : Point} {pre : Prop} (reportAsync : Bool) : (decl : LocalDecl) →
    Covers I a pre (Site.ofLocal a decl) (fun _ => True)
      (Walk.checkLocal I.env reportAsync decl)
  | ⟨name, ty, refKind, isScoped, init, span⟩ => by
    rw [Site.ofLocal, Walk.checkLocal]
    exact (checkShape ty span).nil_bind fun w => (checkInit init).bind_nil fun pair =>
      declareLocal _ _ (fun h => h.1.2) fun h => h.2

theorem checkInit {a : Point} {pre : Prop} : (init : Option Expr) →
    Covers I a pre (Site.ofOptional a init)
      (fun r => ∀ pair, r = some pair → pair.isInvalid = false) (Walk.checkInit I.env init)
  | none => by
    rw [Site.ofOptional, Walk.checkInit]
    exact .pure fun _ => by simp
  | some e => by
    rw [Site.ofOptional, Walk.checkInit]
    refine (checkExpr e).bind_nil fun pair => .pure fun h p hp => ?_
    obtain rfl := Option.some.inj hp
    exact h.2.1

theorem checkStmts {a : Point} {pre : Prop} : (stmts : List Stmt) →
    Covers I a pre (Site.ofStmts a stmts) (fun _ => True) (Walk.checkStmts I.env stmts)
  | [] => by
    rw [Site.ofStmts, Walk.checkStmts]
    exact .pure fun _ => trivial
  | s :: rest => by
    rw [Site.ofStmts, Walk.checkStmts]
    exact (checkStmt s).bind fun _ => checkStmts rest

theorem checkStmt {a : Point} {pre : Prop} : (s : Stmt) →
    Covers I a pre (Site.ofStmt a s) (fun _ => True) (Walk.checkStmt I.env s)
  | ⟨id, .expr e, span⟩ => by
    rw [Site.ofStmt, Walk.checkStmt]
    exact stmt rfl ((checkExpr e).discard.weaken fun _ _ _ _ => trivial)
  | ⟨id, .yieldReturn e, span⟩ => by
    rw [Site.ofStmt, Walk.checkStmt]
    exact stmt rfl ((checkExpr e).discard.weaken fun _ _ _ _ => trivial)
  | ⟨id, .declare decl, span⟩ => by
    rw [Site.ofStmt, Walk.checkStmt]
    exact stmt rfl ((checkLocal true decl).weaken fun _ _ _ _ => trivial)
  | ⟨id, .assign ⟨tid, kind, ty, tspan⟩ value byRef, span⟩ => by
    have ht (pre' : Prop) : Covers I a pre' (Site.ofExpr a ⟨tid, kind, ty, tspan⟩)
        (fun pair => pair.isInvalid = false ∧ I.facts.pair? tid = some pair)
        (Walk.checkExpr I.env ⟨tid, kind, ty, tspan⟩) := checkExpr ⟨tid, kind, ty, tspan⟩
    have hv (pre' : Prop) : Covers I a pre' (Site.ofExpr a value)
        (fun pair => pair.isInvalid = false ∧ I.facts.pair? value.id = some pair)
        (Walk.checkExpr I.env value) := checkExpr value
    cases kind
    case property receiver getter args =>
      cases byRef with
      | true => exact assignment rfl rfl (fun h => h) ht hv
      | false => exact setter (fun _ => checkReceiver receiver) (fun _ => checkArgs args) hv
    all_goals exact assignment rfl rfl (fun h => h) ht hv
  | ⟨id, .ret none, span⟩ => by
    rw [Site.ofStmt, Walk.checkStmt, Site.ofOptional]
    exact stmt rfl (.pure fun _ _ => trivial)
  | ⟨id, .ret (some value), span⟩ => by
    rw [Site.ofStmt, Walk.checkStmt, Site.ofOptional]
    refine stmt rfl ((checkExpr value).bind_nil fun pair => ?_)
    refine (checkReturned value fun h => h.2.1).weaken fun _ h hq hst => ?_
    exact ⟨pair, h.2.2, hq.1, hq.2 hst⟩
  | ⟨id, .block body, span⟩ => by
    rw [Site.ofStmt, Walk.checkStmt]
    exact stmt rfl ((block (checkStmts body)).weaken fun _ _ _ _ => trivial)
  | ⟨id, .ifElse cond thenBranch elseBranch, span⟩ => by
    rw [Site.ofStmt, Walk.checkStmt]
    refine stmt rfl ((checkExpr cond).discard.bind fun _ => (block (checkStmts thenBranch)).bind
      fun _ => (checkElse elseBranch).weaken fun _ _ _ _ => trivial)
  | ⟨id, .whileLoop cond body, span⟩ => by
    rw [Site.ofStmt, Walk.checkStmt]
    exact stmt rfl ((checkExpr cond).discard.bind fun _ =>
      (block (checkStmts body)).weaken fun _ _ _ _ => trivial)
  | ⟨id, .foreach loop, span⟩ => by
    rw [Site.ofStmt, Walk.checkStmt]
    exact stmt rfl ((checkForeach span loop).weaken fun _ _ _ _ => trivial)
  | ⟨id, .using region, span⟩ => by
    rw [Site.ofStmt, Walk.checkStmt]
    exact stmt rfl ((checkUsing span region).weaken fun _ _ _ _ => trivial)
  | ⟨id, .localFunction decl, span⟩ => by
    rw [Site.ofStmt, Walk.checkStmt]
    exact checkLocalFunction id span decl

theorem checkElse {a : Point} {pre : Prop} : (branch : Option (List Stmt)) →
    Covers I a pre (Site.ofElse a branch) (fun _ => True) (Walk.checkElse I.env branch)
  | none => by
    rw [Site.ofElse, Walk.checkElse]
    exact .pure fun _ => trivial
  | some body => by
    rw [Site.ofElse, Walk.checkElse]
    exact block (checkStmts body)

theorem checkForeach {a : Point} {pre : Prop} (span : Span) : (loop : ForeachStmt) →
    Covers I a pre (Site.ofForeach a loop) (fun _ => True) (Walk.checkForeach I.env span loop)
  | ⟨binding, byRef, collection, enumerator, isAwait, body⟩ => by
    have hc : Covers I a pre (Site.ofExpr a collection)
        (fun pair => pair.isInvalid = false ∧ I.facts.pair? collection.id = some pair)
        (Walk.checkExpr I.env collection) := checkExpr collection
    have hm (pre' : Prop) (element : ScopePair) (hv : pre' → element.isInvalid = false) :
        Covers I a pre' (Site.ofPattern a enumerator.elementTy binding) (fun _ => True)
          (Walk.checkPattern I.env element enumerator.elementTy span binding) :=
      checkPattern enumerator.elementTy span hv binding
    have hb : Covers I (a.block body) True (Site.ofStmts (a.block body) body) (fun _ => True)
        (Walk.checkStmts I.env body) := checkStmts body
    rw [Walk.checkForeach]
    -- The sites of the pattern depend on its form.
    cases binding <;> simp only [Site.ofForeach] <;>
      exact hc.bind fun pair => foreachOver ⟨_, byRef, collection, enumerator, isAwait, body⟩ span
        (fun h => h.2.1) hm hb

theorem checkUsing {a : Point} {pre : Prop} (span : Span) : (region : UsingStmt) →
    Covers I a pre (Site.ofUsing a region) (fun _ => True) (Walk.checkUsing I.env span region)
  | ⟨.expr e, dispose, isAwait, body⟩ => by
    rw [Site.ofUsing, Walk.checkUsing]
    refine scope rfl ((checkExpr e).bind fun pair => (stackOnly e.ty).nil_bind fun so => ?_)
    exact usingOver ⟨.expr e, dispose, isAwait, body⟩ e.ty span (fun h => h.1.2.1)
      (checkStmts body)
  | ⟨.declare ⟨name, ty, refKind, isScoped, init, dspan⟩, dispose, isAwait, body⟩ => by
    rw [Site.ofUsing, Walk.checkUsing]
    refine scope rfl ((stackOnly ty).nil_bind fun so => ?_)
    rw [← bind_assoc]
    have hinit : Covers I a True (Site.ofOptional a init)
        (fun r => ∀ pair, r = some pair → pair.isInvalid = false) (Walk.checkInit I.env init) :=
      checkInit init
    refine (thenResource _ (checkLocal (!so) ⟨name, ty, refKind, isScoped, init, dspan⟩)
      fun hsub s hs h => ?_).bind fun op => ?_
    · rw [Site.ofLocal] at hsub
      exact exists_lookup_checkLocal _ _ _ _ _ _ (hinit.proper hsub) hs h
    · exact usingOver
        ⟨.declare ⟨name, ty, refKind, isScoped, init, dspan⟩, dispose, isAwait, body⟩ ty
        span (fun h => h.2) (checkStmts body)

theorem checkLocalFunction {a : Point} {pre : Prop} (id : NodeId) (span : Span) : (decl : FnDecl) →
    Covers I a pre (⟨a, .stmt ⟨id, .localFunction decl, span⟩⟩ :: Site.ofLocalFunction a decl)
      (fun _ => True) (Walk.checkLocalFunction I.env decl)
  | ⟨fid, name, kind, modifiers, typeParams, params, ret, attrs, explicitImpl, overrides, body,
      fspan⟩ => by
    rw [Site.ofLocalFunction, Walk.checkLocalFunction]
    exact localFunctionOver id span ⟨fid, name, kind, modifiers, typeParams, params, ret, attrs,
      explicitImpl, overrides, body, fspan⟩ (checkBody body)

theorem checkBody {a : Point} {pre : Prop} : (body : Option (List Stmt)) →
    Covers I a pre (Site.ofBody a body) (fun _ => True) (Walk.checkBody I.env body)
  | none => by
    rw [Site.ofBody, Walk.checkBody]
    exact .pure fun _ => trivial
  | some body => by
    rw [Site.ofBody, Walk.checkBody]
    exact checkStmts body

end

end Covers

end StackEscape
