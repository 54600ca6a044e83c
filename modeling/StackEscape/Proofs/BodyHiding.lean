import StackEscape.Proofs.Hiding

/-!
# Bodies with something hidden

The walk over an expression, a pattern or a statement cannot tell states apart that differ only in
what is hidden: an induction over the tree, with one case for each form.

## Main definitions

* `StackEscape.Hiding.Reaches` — what the walk over some sites may come to.

## Main results

* `StackEscape.Walk.Beside.checkExpr`, `checkPattern`, `checkStmts` — the walk is blind to what is
  hidden, if it does not come to it.
-/

set_option autoImplicit false

namespace StackEscape

namespace Hiding

variable {H : Hiding} {a : Point}

/-- The local functions that are declared at the sites are among those that the walks may come
to. -/
def Reaches (H : Hiding) (xs : List Site) : Prop :=
  ∀ x ∈ xs, ∀ d, x.localFunction? = some d → d ∈ H.functions

theorem Reaches.tail {x : Site} {xs : List Site} (h : H.Reaches (x :: xs)) : H.Reaches xs :=
  fun y hy => h y (List.mem_cons_of_mem x hy)

theorem Reaches.append {xs ys : List Site} (h : H.Reaches (xs ++ ys)) :
    H.Reaches xs ∧ H.Reaches ys :=
  ⟨fun x hx => h x (List.mem_append_left ys hx), fun y hy => h y (List.mem_append_right xs hy)⟩

/-- The local functions that statements declare directly are declared at their sites. -/
theorem Reaches.directFunctions {stmts : List Stmt} (h : H.Reaches (Site.ofStmts a stmts)) :
    directFunctions stmts ⊆ H.functions := by
  intro d hd
  obtain ⟨x, hx, hxd⟩ := Site.exists_of_mem_directFunctions (a := a) hd
  exact h x hx d hxd

end Hiding

namespace Walk.Beside

variable {H : Hiding} {a : Point}

/-- A block whose statements have been compared. -/
theorem blockOf (hH : H.Sound) {stmts : List Stmt}
    (h : H.Reaches (Site.ofStmts (a.block stmts) stmts))
    (hb : Blind H (Walk.checkStmts H.env stmts)) :
    Blind H (Walk.block stmts (Walk.checkStmts H.env stmts)) :=
  block hH h.directFunctions hb

/-- An expression whose form has been compared. -/
theorem exprOf {id : NodeId} {kind : ExprKind} {ty : TypeRef} {span : Span}
    (hf : Blind H (Walk.checkForm H.env id ty span kind)) :
    Blind H (Walk.checkExpr H.env ⟨id, kind, ty, span⟩) := by
  rw [Walk.checkExpr]
  refine look fun s t h => ?_
  rw [Context.inExpressionTree_congr h.ctx, h.stackOnly_eq]
  refine ite ?_ ?_
  · exact (report _ _ span).bind fun _ => (record id _).bind fun _ => .pure _
  · exact hf.bind fun _ => (record id _).bind fun _ => .pure _

mutual

theorem checkExpr (hH : H.Sound) {a : Point} : (e : Expr) → H.Reaches (Site.ofExpr a e) →
    Blind H (Walk.checkExpr H.env e)
  | ⟨id, kind, ty, span⟩, h => by
    rw [Site.ofExpr] at h
    exact exprOf (checkForm hH id ty span kind h.tail)

theorem checkForm (hH : H.Sound) {a : Point} (id : NodeId) (ty : TypeRef) (span : Span) :
    (kind : ExprKind) → H.Reaches (Site.ofKind a kind) →
    Blind H (Walk.checkForm H.env id ty span kind)
  | .literal _, _ => by
    rw [Walk.checkForm]
    exact .pure _
  | .var name, _ => by
    rw [Walk.checkForm]
    exact readVariable name span
  | .thisRef, _ => by
    rw [Walk.checkForm]
    exact readThis span
  | .field receiver owner name, h => by
    rw [Site.ofKind] at h
    rw [Walk.checkForm]
    refine (checkOptional hH receiver h).bind fun _ => look fun s t hst => ?_
    rw [hst.fieldPair_eq]
    exact .pure _
  | .property receiver getter args, h => by
    rw [Site.ofKind] at h
    obtain ⟨hr, ha⟩ := h.append
    rw [Walk.checkForm]
    exact (checkReceiver hH receiver hr).bind fun _ => (checkArgs hH args ha).bind fun _ =>
      readProperty hH getter _ _ _ _
  | .call receiver method typeArgs args, h => by
    rw [Site.ofKind] at h
    obtain ⟨hr, ha⟩ := h.append
    rw [Walk.checkForm]
    refine (checkReceiver hH receiver hr).bind fun _ => (checkArgs hH args ha).bind fun _ =>
      (resolve hH method span).bind fun callee => ?_
    cases callee with
    | none => exact .pure _
    | some callee =>
      exact (checkTypeArgs callee typeArgs span).bind fun _ =>
        (invoke hH callee.contract _ _ _ _).bind fun _ => .pure _
  | .create ctor args, h => by
    rw [Site.ofKind] at h
    rw [Walk.checkForm]
    refine (checkShape hH ty span).bind fun _ => (checkArgs hH args h).bind fun _ =>
      ite (.pure _) ?_
    cases ctor with
    | none => exact .pure _
    | some ctor => exact invokeRef hH ctor _ _ _ _
  | .stackAlloc _ len, h => by
    rw [Site.ofKind] at h
    rw [Walk.checkForm]
    exact (checkExpr hH len h).discard.bind fun _ => (stackOnly ty).bind fun _ => .pure _
  | .conditional cond thenExpr elseExpr byRef, h => by
    rw [Site.ofKind] at h
    obtain ⟨hc, hbranches⟩ := h.append
    obtain ⟨ht, he⟩ := hbranches.append
    rw [Walk.checkForm]
    exact (checkExpr hH cond hc).discard.bind fun _ => (checkExpr hH thenExpr ht).bind fun _ =>
      (checkExpr hH elseExpr he).bind fun _ => (stackOnly ty).bind fun _ => .pure _
  | .convert operand _, h => by
    rw [Site.ofKind] at h
    rw [Walk.checkForm]
    refine (checkExpr hH operand h).bind fun _ => (checkShape hH ty span).bind fun _ =>
      ite (.pure _) (look fun s t hst => ?_)
    simp only [TypeEnv.conversionError_congr hst.capability_eq, hst.stackOnly_eq]
    exact (passes _ span).bind fun _ => ite (.pure _) (.pure _)
  | .binary op left right, h => by
    rw [Site.ofKind] at h
    obtain ⟨hl, hr⟩ := h.append
    rw [Walk.checkForm]
    refine (checkExpr hH left hl).bind fun _ => (checkExpr hH right hr).bind fun _ =>
      ite (.pure _) (look fun s t hst => ?_)
    simp only [TypeEnv.binaryVerdict_congr hst.capability_eq]
    exact (settle id span _).bind fun _ => .pure _
  | .test operand pattern, h => by
    rw [Site.ofKind] at h
    obtain ⟨ho, hp⟩ := h.append
    rw [Walk.checkForm]
    refine (checkExpr hH operand ho).bind fun input => look fun s t hst => ?_
    simp only [TypeEnv.testVerdict_congr hst.capability_eq]
    refine (settle id span _).bind fun _ => ite ?_ (.pure _)
    exact (checkPattern hH input operand.ty span pattern hp).bind fun _ => .pure _
  | .lambda fn, h => by
    rw [Site.ofKind] at h
    rw [Walk.checkForm]
    exact (checkLambda hH fn h).bind fun _ => .pure _
  | .arrayNew _ elems, h => by
    rw [Site.ofKind] at h
    rw [Walk.checkForm]
    exact (checkShape hH ty span).bind fun _ => (checkAll hH elems h).bind fun _ => .pure _
  | .anonymous members, h => by
    rw [Site.ofKind] at h
    rw [Walk.checkForm]
    exact (checkMembers hH members h).bind fun _ => .pure _
  | .await operand, h => by
    rw [Site.ofKind] at h
    rw [Walk.checkForm]
    exact (checkExpr hH operand h).discard.bind fun _ => .pure _
  | .dynamicInvoke receiver _ args, h => by
    rw [Site.ofKind] at h
    obtain ⟨hr, ha⟩ := h.append
    rw [Walk.checkForm]
    refine (checkExpr hH receiver hr).discard.bind fun _ => (checkValues hH args ha).bind fun _ =>
      look fun s t hst => ?_
    simp only [TypeEnv.dynamicErrors_congr hst.capability_eq]
    exact (reportAll _ _).bind fun _ => .pure _
  | .outVar _, _ => by
    rw [Walk.checkForm]
    exact .pure _

theorem checkOptional (hH : H.Sound) {a : Point} : (receiver : Option Expr) →
    H.Reaches (Site.ofOptional a receiver) → Blind H (Walk.checkOptional H.env receiver)
  | none, _ => by
    rw [Walk.checkOptional]
    exact .pure _
  | some e, h => by
    rw [Site.ofOptional] at h
    rw [Walk.checkOptional]
    exact (checkExpr hH e h).bind fun _ => .pure _

theorem checkReceiver (hH : H.Sound) {a : Point} : (receiver : Option Expr) →
    H.Reaches (Site.ofOptional a receiver) → Blind H (Walk.checkReceiver H.env receiver)
  | none, _ => by
    rw [Walk.checkReceiver]
    exact .pure _
  | some e, h => by
    rw [Site.ofOptional] at h
    rw [Walk.checkReceiver]
    exact (operandOf e .none (checkExpr hH e h)).bind fun _ => .pure _

theorem checkArgs (hH : H.Sound) {a : Point} : (args : List Arg) →
    H.Reaches (Site.ofArgs a args) → Blind H (Walk.checkArgs H.env args)
  | [], _ => by
    rw [Walk.checkArgs]
    exact .pure _
  | ⟨mode, e⟩ :: rest, h => by
    rw [Site.ofArgs] at h
    obtain ⟨he, hrest⟩ := h.append
    rw [Walk.checkArgs]
    exact (operandOf e mode (checkExpr hH e he)).bind fun _ =>
      (checkArgs hH rest hrest).bind fun _ => .pure _

theorem checkValues (hH : H.Sound) {a : Point} : (args : List Arg) →
    H.Reaches (Site.ofArgs a args) → Blind H (Walk.checkValues H.env args)
  | [], _ => by
    rw [Walk.checkValues]
    exact .pure ()
  | ⟨_, e⟩ :: rest, h => by
    rw [Site.ofArgs] at h
    obtain ⟨he, hrest⟩ := h.append
    rw [Walk.checkValues]
    exact (checkExpr hH e he).discard.bind fun _ => checkValues hH rest hrest

theorem checkAll (hH : H.Sound) {a : Point} : (elems : List Expr) →
    H.Reaches (Site.ofExprs a elems) → Blind H (Walk.checkAll H.env elems)
  | [], _ => by
    rw [Walk.checkAll]
    exact .pure ()
  | e :: rest, h => by
    rw [Site.ofExprs] at h
    obtain ⟨he, hrest⟩ := h.append
    rw [Walk.checkAll]
    exact (checkExpr hH e he).discard.bind fun _ => checkAll hH rest hrest

theorem checkMembers (hH : H.Sound) {a : Point} : (members : List NamedExpr) →
    H.Reaches (Site.ofMembers a members) → Blind H (Walk.checkMembers H.env members)
  | [], _ => by
    rw [Walk.checkMembers]
    exact .pure true
  | ⟨name, e⟩ :: rest, h => by
    rw [Site.ofMembers] at h
    obtain ⟨he, hrest⟩ := h.append
    rw [Walk.checkMembers]
    exact (checkExpr hH e he).bind fun _ => (stackOnly e.ty).bind fun _ =>
      (passes _ e.span).bind fun _ => (checkMembers hH rest hrest).bind fun _ => .pure _

theorem checkLambda (hH : H.Sound) {a : Point} : (fn : Lambda) →
    H.Reaches (Site.ofLambda a fn) → Blind H (Walk.checkLambda H.env fn)
  | ⟨params, retTy, body, isExpressionTree, isStatic, isAsync⟩, h => by
    rw [Site.ofLambda] at h
    rw [Walk.checkLambda]
    exact lambdaOver hH _ h.directFunctions (checkStmts hH body h)

theorem checkPattern (hH : H.Sound) {a : Point} (input : ScopePair) (inputTy : TypeRef)
    (span : Span) : (p : Pattern) → H.Reaches (Site.ofPattern a inputTy p) →
    Blind H (Walk.checkPattern H.env input inputTy span p)
  | .discard, _ => by
    rw [Walk.checkPattern]
    exact .pure ()
  | .declaration name ty span, _ => by
    rw [Walk.checkPattern]
    exact bindPattern hH name ty input span
  | .typeTest _, _ => by
    rw [Walk.checkPattern]
    exact .pure ()
  | .constant e, h => by
    rw [Site.ofPattern] at h
    rw [Walk.checkPattern]
    exact (checkExpr hH e h.tail).discard
  | .property ty subpatterns, h => by
    rw [Site.ofPattern] at h
    rw [Walk.checkPattern]
    exact checkSubPatterns hH input (ty.getD inputTy) subpatterns h.tail
  | .positional deconstruct subpatterns componentTys, h => by
    rw [Site.ofPattern] at h
    rw [Walk.checkPattern]
    exact (deconstructInput hH deconstruct componentTys input inputTy span).bind fun outcome =>
      checkComponents hH outcome span subpatterns componentTys h.tail
  | .negated inner, h => by
    rw [Site.ofPattern] at h
    rw [Walk.checkPattern]
    exact checkPattern hH input inputTy span inner h.tail

theorem checkSubPatterns (hH : H.Sound) {a : Point} (input : ScopePair) (receiverTy : TypeRef) :
    (subs : List SubPattern) → H.Reaches (Site.ofSubPatterns a subs) →
    Blind H (Walk.checkSubPatterns H.env input receiverTy subs)
  | [], _ => by
    rw [Walk.checkSubPatterns]
    exact .pure ()
  | ⟨access, ty, p, span⟩ :: rest, h => by
    rw [Site.ofSubPatterns] at h
    obtain ⟨hp, hrest⟩ := h.append
    rw [Walk.checkSubPatterns]
    exact (accessMember hH access input receiverTy ty span).bind fun extracted =>
      (checkPattern hH extracted ty span p hp).bind fun _ =>
        checkSubPatterns hH input receiverTy rest hrest

theorem checkComponents (hH : H.Sound) {a : Point} (outcome : Option Outcome) (span : Span) :
    (subs : List Pattern) → (tys : List TypeRef) → H.Reaches (Site.ofComponents a tys subs) →
    Blind H (Walk.checkComponents H.env outcome span subs tys)
  | [], tys, _ => by
    rw [Walk.checkComponents.eq_def]
    exact .pure ()
  | p :: rest, [], _ => by
    rw [Walk.checkComponents.eq_def]
    exact .pure ()
  | p :: rest, ty :: tys, h => by
    rw [Site.ofComponents] at h
    obtain ⟨hp, hrest⟩ := h.append
    rw [Walk.checkComponents]
    exact (stackOnly ty).bind fun so =>
      (checkPattern hH (Walk.componentPair outcome so) ty span p hp).bind fun _ =>
        checkComponents hH outcome span rest tys hrest

theorem checkLocal (hH : H.Sound) {a : Point} (reportAsync : Bool) : (decl : LocalDecl) →
    H.Reaches (Site.ofLocal a decl) → Blind H (Walk.checkLocal H.env reportAsync decl)
  | ⟨name, ty, refKind, isScoped, init, span⟩, h => by
    rw [Site.ofLocal] at h
    rw [Walk.checkLocal]
    exact (checkShape hH ty span).bind fun _ => (checkInit hH init h).bind fun _ =>
      declareLocal hH _ _ _ _

theorem checkInit (hH : H.Sound) {a : Point} : (init : Option Expr) →
    H.Reaches (Site.ofOptional a init) → Blind H (Walk.checkInit H.env init)
  | none, _ => by
    rw [Walk.checkInit]
    exact .pure none
  | some e, h => by
    rw [Site.ofOptional] at h
    rw [Walk.checkInit]
    exact (checkExpr hH e h).bind fun _ => .pure _

theorem checkStmts (hH : H.Sound) {a : Point} : (stmts : List Stmt) →
    H.Reaches (Site.ofStmts a stmts) → Blind H (Walk.checkStmts H.env stmts)
  | [], _ => by
    rw [Walk.checkStmts]
    exact .pure ()
  | s :: rest, h => by
    rw [Site.ofStmts] at h
    obtain ⟨hs, hrest⟩ := h.append
    rw [Walk.checkStmts]
    exact (checkStmt hH s hs).bind fun _ => checkStmts hH rest hrest

theorem checkStmt (hH : H.Sound) {a : Point} : (s : Stmt) → H.Reaches (Site.ofStmt a s) →
    Blind H (Walk.checkStmt H.env s)
  | ⟨_, .expr e, _⟩, h => by
    rw [Site.ofStmt] at h
    rw [Walk.checkStmt]
    exact (checkExpr hH e h.tail).discard
  | ⟨_, .yieldReturn e, _⟩, h => by
    rw [Site.ofStmt] at h
    rw [Walk.checkStmt]
    exact (checkExpr hH e h.tail).discard
  | ⟨_, .declare decl, _⟩, h => by
    rw [Site.ofStmt] at h
    rw [Walk.checkStmt]
    exact checkLocal hH true decl h.tail
  | ⟨id, .assign ⟨tid, kind, ty, tspan⟩ value byRef, span⟩, h => by
    have main (h : H.Reaches (Site.ofExpr a ⟨tid, kind, ty, tspan⟩ ++ Site.ofExpr a value)) :
        Blind H (Walk.checkExpr H.env ⟨tid, kind, ty, tspan⟩ >>= fun t =>
          Walk.checkExpr H.env value >>= fun v =>
            Walk.checkAssignment H.env ⟨tid, kind, ty, tspan⟩ value byRef t v) := by
      rw [Site.ofExpr] at h
      obtain ⟨ht, hv⟩ := h.append
      exact (exprOf (checkForm hH tid ty tspan kind ht.tail)).bind fun _ =>
        (checkExpr hH value hv).bind fun _ => checkAssignment _ value byRef _ _
    cases kind
    case property receiver getter args =>
      cases byRef with
      | true =>
        rw [Site.ofStmt] at h
        · exact main h.tail
        · simp
      | false =>
        rw [Site.ofStmt] at h
        obtain ⟨hr, hrest⟩ := h.tail.append
        obtain ⟨ha, hv⟩ := hrest.append
        rw [Walk.checkStmt]
        exact (checkReceiver hH receiver hr).bind fun _ => (checkArgs hH args ha).bind fun _ =>
          (operandOf value .none (checkExpr hH value hv)).bind fun _ =>
            (invokeRef hH _ _ _ _ _).discard
    all_goals
      rw [Site.ofStmt] at h
      · exact main h.tail
      · simp
  | ⟨_, .ret none, _⟩, _ => by
    rw [Walk.checkStmt]
    exact .pure ()
  | ⟨_, .ret (some value), _⟩, h => by
    rw [Site.ofStmt, Site.ofOptional] at h
    rw [Walk.checkStmt]
    exact (checkExpr hH value h.tail).bind fun _ => checkReturned value _
  | ⟨_, .block body, _⟩, h => by
    rw [Site.ofStmt] at h
    rw [Walk.checkStmt]
    exact blockOf hH h.tail (checkStmts hH body h.tail)
  | ⟨_, .ifElse cond thenBranch elseBranch, _⟩, h => by
    rw [Site.ofStmt] at h
    obtain ⟨hc, hbranches⟩ := h.tail.append
    obtain ⟨ht, he⟩ := hbranches.append
    rw [Walk.checkStmt]
    exact (checkExpr hH cond hc).discard.bind fun _ =>
      (blockOf hH ht (checkStmts hH thenBranch ht)).bind fun _ => checkElse hH elseBranch he
  | ⟨_, .whileLoop cond body, _⟩, h => by
    rw [Site.ofStmt] at h
    obtain ⟨hc, hb⟩ := h.tail.append
    rw [Walk.checkStmt]
    exact (checkExpr hH cond hc).discard.bind fun _ => blockOf hH hb (checkStmts hH body hb)
  | ⟨_, .foreach loop, span⟩, h => by
    rw [Site.ofStmt] at h
    rw [Walk.checkStmt]
    exact checkForeach hH span loop h.tail
  | ⟨_, .using region, span⟩, h => by
    rw [Site.ofStmt] at h
    rw [Walk.checkStmt]
    exact checkUsing hH span region h.tail
  | ⟨_, .localFunction decl, _⟩, h => by
    have hdecl : decl ∈ H.functions := by
      rw [Site.ofStmt] at h
      exact h _ (List.mem_cons_self ..) decl rfl
    rw [Site.ofStmt] at h
    rw [Walk.checkStmt]
    exact checkLocalFunction hH decl hdecl h.tail

theorem checkElse (hH : H.Sound) {a : Point} : (branch : Option (List Stmt)) →
    H.Reaches (Site.ofElse a branch) → Blind H (Walk.checkElse H.env branch)
  | none, _ => by
    rw [Walk.checkElse]
    exact .pure ()
  | some body, h => by
    rw [Site.ofElse] at h
    rw [Walk.checkElse]
    exact blockOf hH h (checkStmts hH body h)

theorem checkForeach (hH : H.Sound) {a : Point} (span : Span) : (loop : ForeachStmt) →
    H.Reaches (Site.ofForeach a loop) → Blind H (Walk.checkForeach H.env span loop)
  | ⟨binding, byRef, collection, enumerator, isAwait, body⟩, h => by
    -- The sites of the pattern depend on its form.
    have hparts : H.Reaches (Site.ofExpr a collection) ∧
        H.Reaches (Site.ofPattern a enumerator.elementTy binding) ∧
        H.Reaches (Site.ofStmts (a.block body) body) := by
      cases binding
      case declaration name ty span =>
        rw [Site.ofForeach] at h
        refine ⟨h.append.1, fun x hx d hd => ?_, h.append.2⟩
        rw [Site.ofPattern] at hx
        obtain rfl := List.mem_singleton.1 hx
        simp [Site.localFunction?] at hd
      all_goals
        simp only [Site.ofForeach] at h
        exact ⟨h.append.1, h.append.2.append⟩
    obtain ⟨hc, hp, hb⟩ := hparts
    rw [Walk.checkForeach]
    exact (checkExpr hH collection hc).bind fun pair =>
      foreachOver hH _ pair span hb.directFunctions
        (fun element => checkPattern hH element enumerator.elementTy span binding hp)
        (checkStmts hH body hb)

theorem checkUsing (hH : H.Sound) {a : Point} (span : Span) : (region : UsingStmt) →
    H.Reaches (Site.ofUsing a region) → Blind H (Walk.checkUsing H.env span region)
  | ⟨.expr e, dispose, isAwait, body⟩, h => by
    rw [Site.ofUsing] at h
    obtain ⟨he, hb⟩ := h.append
    rw [Walk.checkUsing]
    refine inScope hH .block ((checkExpr hH e he).bind fun _ => (stackOnly e.ty).bind fun _ => ?_)
    exact usingOver hH _ _ _ _ hb.directFunctions (checkStmts hH body hb)
  | ⟨.declare ⟨name, ty, refKind, isScoped, init, dspan⟩, dispose, isAwait, body⟩, h => by
    rw [Site.ofUsing, Site.ofLocal] at h
    obtain ⟨hi, hb⟩ := h.append
    have hinit : Blind H (Walk.checkInit H.env init) := checkInit hH init hi
    rw [Walk.checkUsing]
    refine inScope hH .block ((stackOnly ty).bind fun _ => ?_)
    rw [Walk.checkLocal]
    refine Beside.bind ((checkShape hH ty dspan).bind fun _ => hinit.bind fun _ =>
      declareLocal hH _ _ _ _) fun _ => (declaredResource _).bind fun _ => ?_
    exact usingOver hH _ _ _ _ hb.directFunctions (checkStmts hH body hb)

theorem checkLocalFunction (hH : H.Sound) {a : Point} : (decl : FnDecl) → decl ∈ H.functions →
    H.Reaches (Site.ofLocalFunction a decl) → Blind H (Walk.checkLocalFunction H.env decl)
  | ⟨fid, name, kind, modifiers, typeParams, params, ret, attrs, explicitImpl, overrides, body,
      fspan⟩, hdecl, h => by
    rw [Site.ofLocalFunction] at h
    have hd : directFunctions (body.getD []) ⊆ H.functions := by
      cases body with
      | none => exact List.nil_subset _
      | some body =>
        rw [Site.ofBody] at h
        exact h.directFunctions
    rw [Walk.checkLocalFunction]
    exact localFunctionOver hH hdecl hd (checkBody hH body h)

theorem checkBody (hH : H.Sound) {a : Point} : (body : Option (List Stmt)) →
    H.Reaches (Site.ofBody a body) → Blind H (Walk.checkBody H.env body)
  | none, _ => by
    rw [Walk.checkBody]
    exact .pure ()
  | some body, h => by
    rw [Site.ofBody] at h
    rw [Walk.checkBody]
    exact checkStmts hH body h

end

end Walk.Beside

end StackEscape
