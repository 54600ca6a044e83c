import StackEscape.Proofs.OrdinaryRules

/-!
# Bodies of ordinary programs

The walk over a body of an ordinary program, form by form. Every node of the body mentions only types
that may live on the heap, assigns no reference, and declares ordinary functions only; so the walk stays
among states in which nothing is stack-only.

## Main definitions

* `StackEscape.Site.IsOrdinary` — a node of an ordinary body.

## Main results

* `StackEscape.Program.IsOrdinary.site` — the nodes of an ordinary program are ordinary.
* `StackEscape.Walk.Ordinary.checkExpr`, `checkPattern`, `checkStmts` — the walk.
-/

set_option autoImplicit false

namespace StackEscape

/-! ## Nodes -/

/-- A node of the body of an ordinary program. -/
structure Site.IsOrdinary (p : Program) (x : Site) : Prop where
  /-- What it mentions is declared. -/
  mentions : ∀ ty ∈ x.node.mentioned, p.Declares ty
  /-- It re-points no reference. -/
  assigns : x.node.assignsByRef = false
  /-- If it is a local function, the function is ordinary. -/
  function : ∀ f, x.localFunction? = some f → p.HasOrdinary f

/-- The nodes of an ordinary program are ordinary. -/
theorem Program.IsOrdinary.site {p : Program} (h : p.IsOrdinary) {m : Member} (hm : m ∈ p.members)
    {x : Site} (hx : x ∈ m.sites) : x.IsOrdinary p := by
  have hmentions : ∀ ty ∈ x.node.mentioned, p.Declares ty := fun ty hty =>
    h.mentions ty (List.mem_append_right _ (List.mem_flatMap.2 ⟨m, hm,
      List.mem_flatMap.2 ⟨x, hx, hty⟩⟩))
  refine ⟨hmentions, h.assigns m hm x hx, fun f hf => ?_⟩
  have hfn : f ∈ p.functions := List.mem_flatMap.2
    ⟨m, hm, List.mem_cons_of_mem _ (List.mem_filterMap.2 ⟨x, hx, hf⟩)⟩
  refine ⟨fun ty hty => hmentions ty ?_, fun q hq => h.unmarked q (List.mem_append_right _
    (List.mem_flatMap.2 ⟨f, hfn, hq⟩)), h.returns f hfn⟩
  obtain ⟨a, node⟩ := x
  unfold Site.localFunction? at hf
  split at hf
  · next heq =>
    obtain rfl := Option.some.inj hf
    simp only at heq
    rw [heq]
    exact hty
  · simp at hf

namespace Walk.Ordinary

variable {env : Surroundings} {a : Point}

/-- Local functions that some statements declare are ordinary. -/
theorem direct {stmts : List Stmt}
    (hs : ∀ x ∈ Site.ofStmts a stmts, x.IsOrdinary env.program) :
    ∀ f ∈ directFunctions stmts, env.program.HasOrdinary f := by
  intro f hf
  obtain ⟨x, hx, hxf⟩ := Site.exists_of_mem_directFunctions (a := a) hf
  exact (hs x hx).function f hxf

/-- The type of an expression is mentioned. -/
theorem declares {e : Expr} (hs : ∀ x ∈ Site.ofExpr a e, x.IsOrdinary env.program) :
    env.program.Declares e.ty := by
  obtain ⟨id, kind, ty, span⟩ := e
  exact (hs _ (by rw [Site.ofExpr]; exact List.mem_cons_self ..)).mentions ty (List.mem_cons_self ..)

/-- The types of arguments are mentioned. -/
theorem declaresArgs {args : List Arg} (hs : ∀ x ∈ Site.ofArgs a args, x.IsOrdinary env.program) :
    ∀ e ∈ args.map Arg.expr, env.program.Declares e.ty := by
  induction args with
  | nil => simp
  | cons arg rest ih =>
    obtain ⟨mode, e⟩ := arg
    rw [Site.ofArgs, List.forall_mem_append] at hs
    exact List.forall_mem_cons.2 ⟨declares hs.1, ih hs.2⟩

/-- An expression, given the walk over its form. -/
theorem exprOf (h : env.IsOrdinary) {id : NodeId} {kind : ExprKind} {ty : TypeRef} {span : Span}
    (hty : env.program.Declares ty)
    (hform : Ordinary env (fun _ => True) (Walk.checkForm env id ty span kind)) :
    Ordinary env (fun _ => True) (Walk.checkExpr env ⟨id, kind, ty, span⟩) := by
  rw [Walk.checkExpr]
  refine look fun s hs => ite (fun hc => ?_) fun _ => hform.bind fun _ _ =>
    (record id _).bind fun _ _ => .pure trivial
  simp [hs.stackOnly_eq_false h.program hty] at hc

mutual

theorem checkExpr (h : env.IsOrdinary) {a : Point} : (e : Expr) →
    (∀ x ∈ Site.ofExpr a e, x.IsOrdinary env.program) →
    Ordinary env (fun _ => True) (Walk.checkExpr env e)
  | ⟨id, kind, ty, span⟩, hs => by
    rw [Site.ofExpr, List.forall_mem_cons] at hs
    have hty := hs.1.mentions ty (List.mem_cons_self ..)
    have hkind := fun t ht => hs.1.mentions t (List.mem_cons_of_mem _ ht)
    exact exprOf h hty (checkForm h id span hty kind hkind hs.2)

theorem checkForm (h : env.IsOrdinary) {a : Point} (id : NodeId) {ty : TypeRef} (span : Span)
    (hty : env.program.Declares ty) : (kind : ExprKind) →
    (∀ t ∈ kind.mentioned, env.program.Declares t) →
    (∀ x ∈ Site.ofKind a kind, x.IsOrdinary env.program) →
    Ordinary env (fun _ => True) (Walk.checkForm env id ty span kind)
  | .literal _, _, _ => by
    rw [Walk.checkForm]
    exact .pure trivial
  | .var name, _, _ => by
    rw [Walk.checkForm]
    exact readVariable h name span
  | .thisRef, _, _ => by
    rw [Walk.checkForm]
    exact readThis h span
  | .field receiver owner name, _, hs => by
    rw [Site.ofKind] at hs
    rw [Walk.checkForm]
    exact (checkOptional h receiver hs).bind fun _ _ => look fun _ _ => .pure trivial
  | .property receiver getter args, _, hs => by
    rw [Site.ofKind, List.forall_mem_append] at hs
    rw [Walk.checkForm]
    exact (checkReceiver h receiver hs.1).bind fun _ hr => (checkArgs h args hs.2).bind
      fun _ hargs => readProperty h getter hr hargs hty span
  | .call receiver method typeArgs args, hk, hs => by
    rw [Site.ofKind, List.forall_mem_append] at hs
    rw [Walk.checkForm]
    refine (checkReceiver h receiver hs.1).bind fun _ hr => (checkArgs h args hs.2).bind
      fun _ hargs => (resolve h method span).bind fun callee _ => ?_
    cases callee with
    | none => exact .pure trivial
    | some callee =>
      exact (checkTypeArgs h callee (fun t ht => hk t (List.mem_cons_of_mem _ ht)) span).bind
        fun _ _ => (invoke h callee.contract hr hargs hty span).bind fun _ _ => .pure trivial
  | .create ctor args, _, hs => by
    rw [Site.ofKind] at hs
    rw [Walk.checkForm]
    refine (checkShape h hty span).bind fun _ _ => (checkArgs h args hs).bind fun _ hargs =>
      ite (fun _ => .pure trivial) fun _ => ?_
    cases ctor with
    | none => exact .pure trivial
    | some ctor => exact invokeRef h ctor (fun _ hop => absurd hop (by simp)) hargs hty span
  | .stackAlloc _ len, _, hs => by
    rw [Site.ofKind] at hs
    rw [Walk.checkForm]
    exact (checkExpr h len hs).discard.bind fun _ _ => (stackOnly h hty).bind fun _ _ =>
      .pure trivial
  | .conditional cond thenExpr elseExpr byRef, _, hs => by
    rw [Site.ofKind, List.forall_mem_append, List.forall_mem_append] at hs
    rw [Walk.checkForm]
    exact (checkExpr h cond hs.1).discard.bind fun _ _ => (checkExpr h thenExpr hs.2.1).bind
      fun _ _ => (checkExpr h elseExpr hs.2.2).bind fun _ _ => (stackOnly h hty).bind fun _ _ =>
        .pure trivial
  | .convert operand _, _, hs => by
    rw [Site.ofKind] at hs
    have hoperand : env.program.Declares operand.ty := declares hs
    rw [Walk.checkForm]
    refine (checkExpr h operand hs).bind fun _ _ => (checkShape h hty span).bind fun _ _ =>
      ite (fun _ => .pure trivial) fun _ => look fun s hst => ?_
    simp only [conversionError_eq_none h hst hoperand hty]
    exact (passes_none span).bind fun _ _ => ite (fun _ => .pure trivial) fun _ => .pure trivial
  | .binary op left right, _, hs => by
    rw [Site.ofKind, List.forall_mem_append] at hs
    have hleft : env.program.Declares left.ty := declares hs.1
    have hright : env.program.Declares right.ty := declares hs.2
    rw [Walk.checkForm]
    refine (checkExpr h left hs.1).bind fun _ _ => (checkExpr h right hs.2).bind fun _ _ =>
      ite (fun _ => .pure trivial) fun _ => look fun s hst => ?_
    simp only [binaryVerdict_eq_plain h hst op hleft hright]
    exact (settle_plain id span).bind fun _ _ => .pure trivial
  | .test operand pattern, _, hs => by
    rw [Site.ofKind, List.forall_mem_append] at hs
    have hoperand : env.program.Declares operand.ty := declares hs.1
    rw [Walk.checkForm]
    refine (checkExpr h operand hs.1).bind fun input _ => look fun s hst => ?_
    simp only [testVerdict_eq_plain h hst hoperand pattern]
    exact (settle_plain id span).bind fun _ _ => ite (fun _ =>
      (checkPattern h input hoperand span pattern hs.2).bind fun _ _ => .pure trivial)
      fun _ => .pure trivial
  | .lambda fn, hk, hs => by
    rw [Site.ofKind] at hs
    rw [Walk.checkForm]
    exact (checkLambda h fn hk hs).bind fun _ _ => .pure trivial
  | .arrayNew _ elems, _, hs => by
    rw [Site.ofKind] at hs
    rw [Walk.checkForm]
    exact (checkShape h hty span).bind fun _ _ => (checkAll h elems hs).bind fun _ _ =>
      .pure trivial
  | .anonymous members, _, hs => by
    rw [Site.ofKind] at hs
    rw [Walk.checkForm]
    exact (checkMembers h members hs).bind fun _ _ => .pure trivial
  | .await operand, _, hs => by
    rw [Site.ofKind] at hs
    rw [Walk.checkForm]
    exact (checkExpr h operand hs).discard.bind fun _ _ => .pure trivial
  | .dynamicInvoke receiver name args, _, hs => by
    rw [Site.ofKind, List.forall_mem_append] at hs
    have hoperands : ∀ e ∈ receiver :: args.map Arg.expr, env.program.Declares e.ty :=
      List.forall_mem_cons.2 ⟨declares hs.1, declaresArgs hs.2⟩
    rw [Walk.checkForm]
    refine (checkExpr h receiver hs.1).discard.bind fun _ _ => (checkValues h args hs.2).bind
      fun _ _ => look fun s hst => ?_
    simp only [dynamicErrors_eq_nil h hst hoperands]
    exact (reportAll fun _ he => absurd he List.not_mem_nil).bind fun _ _ => .pure trivial
  | .outVar _, _, _ => by
    rw [Walk.checkForm]
    exact .pure trivial

theorem checkOptional (h : env.IsOrdinary) {a : Point} : (receiver : Option Expr) →
    (∀ x ∈ Site.ofOptional a receiver, x.IsOrdinary env.program) →
    Ordinary env (fun _ => True) (Walk.checkOptional env receiver)
  | none, _ => by
    rw [Walk.checkOptional]
    exact .pure trivial
  | some e, hs => by
    rw [Site.ofOptional] at hs
    rw [Walk.checkOptional]
    exact (checkExpr h e hs).bind fun _ _ => .pure trivial

theorem checkReceiver (h : env.IsOrdinary) {a : Point} : (receiver : Option Expr) →
    (∀ x ∈ Site.ofOptional a receiver, x.IsOrdinary env.program) →
    Ordinary env (fun r => ∀ op ∈ r, op.IsOrdinary env.program) (Walk.checkReceiver env receiver)
  | none, _ => by
    rw [Walk.checkReceiver]
    exact .pure fun _ hop => absurd hop (by simp)
  | some e, hs => by
    rw [Site.ofOptional] at hs
    rw [Walk.checkReceiver]
    exact (operandOf h (declares hs) .none (checkExpr h e hs)).bind fun op hop =>
      .pure fun x hx => Option.some.inj hx ▸ hop

theorem checkArgs (h : env.IsOrdinary) {a : Point} : (args : List Arg) →
    (∀ x ∈ Site.ofArgs a args, x.IsOrdinary env.program) →
    Ordinary env (fun ops => ∀ op ∈ ops, op.IsOrdinary env.program) (Walk.checkArgs env args)
  | [], _ => by
    rw [Walk.checkArgs]
    exact .pure fun _ hop => absurd hop List.not_mem_nil
  | ⟨mode, e⟩ :: rest, hs => by
    rw [Site.ofArgs, List.forall_mem_append] at hs
    rw [Walk.checkArgs]
    exact (operandOf h (declares hs.1) mode (checkExpr h e hs.1)).bind fun _ hop =>
      (checkArgs h rest hs.2).bind fun _ hops => .pure (List.forall_mem_cons.2 ⟨hop, hops⟩)

theorem checkValues (h : env.IsOrdinary) {a : Point} : (args : List Arg) →
    (∀ x ∈ Site.ofArgs a args, x.IsOrdinary env.program) →
    Ordinary env (fun _ => True) (Walk.checkValues env args)
  | [], _ => by
    rw [Walk.checkValues]
    exact .pure trivial
  | ⟨_, e⟩ :: rest, hs => by
    rw [Site.ofArgs, List.forall_mem_append] at hs
    rw [Walk.checkValues]
    exact (checkExpr h e hs.1).discard.bind fun _ _ => checkValues h rest hs.2

theorem checkAll (h : env.IsOrdinary) {a : Point} : (elems : List Expr) →
    (∀ x ∈ Site.ofExprs a elems, x.IsOrdinary env.program) →
    Ordinary env (fun _ => True) (Walk.checkAll env elems)
  | [], _ => by
    rw [Walk.checkAll]
    exact .pure trivial
  | e :: rest, hs => by
    rw [Site.ofExprs, List.forall_mem_append] at hs
    rw [Walk.checkAll]
    exact (checkExpr h e hs.1).discard.bind fun _ _ => checkAll h rest hs.2

theorem checkMembers (h : env.IsOrdinary) {a : Point} : (members : List NamedExpr) →
    (∀ x ∈ Site.ofMembers a members, x.IsOrdinary env.program) →
    Ordinary env (fun _ => True) (Walk.checkMembers env members)
  | [], _ => by
    rw [Walk.checkMembers]
    exact .pure trivial
  | ⟨name, e⟩ :: rest, hs => by
    rw [Site.ofMembers, List.forall_mem_append] at hs
    rw [Walk.checkMembers]
    refine (checkExpr h e hs.1).bind fun pair _ => (stackOnly h (declares hs.1)).bind fun b hb => ?_
    rw [hb, Bool.and_false, if_neg Bool.false_ne_true]
    exact (passes_none _).bind fun _ _ => (checkMembers h rest hs.2).bind fun _ _ => .pure trivial

theorem checkLambda (h : env.IsOrdinary) {a : Point} : (fn : Lambda) →
    (∀ t ∈ (ExprKind.lambda fn).mentioned, env.program.Declares t) →
    (∀ x ∈ Site.ofLambda a fn, x.IsOrdinary env.program) →
    Ordinary env (fun _ => True) (Walk.checkLambda env fn)
  | ⟨params, retTy, body, isExpressionTree, isStatic, isAsync⟩, hk, hs => by
    rw [Site.ofLambda] at hs
    rw [Walk.checkLambda]
    exact lambdaOver h (hk _ (List.mem_cons_self ..))
      (fun q hq => hk _ (List.mem_cons_of_mem _ (List.mem_map_of_mem hq))) (direct hs)
      (checkStmts h body hs)

theorem checkPattern (h : env.IsOrdinary) {a : Point} (input : ScopePair) {inputTy : TypeRef}
    (hinput : env.program.Declares inputTy) (span : Span) : (p : Pattern) →
    (∀ x ∈ Site.ofPattern a inputTy p, x.IsOrdinary env.program) →
    Ordinary env (fun _ => True) (Walk.checkPattern env input inputTy span p)
  | .discard, _ => by
    rw [Walk.checkPattern]
    exact .pure trivial
  | .declaration name ty span, hs => by
    rw [Site.ofPattern, List.forall_mem_singleton] at hs
    rw [Walk.checkPattern]
    exact bindPattern h name (hs.mentions ty (List.mem_cons_self ..)) input span
  | .typeTest _, _ => by
    rw [Walk.checkPattern]
    exact .pure trivial
  | .constant e, hs => by
    rw [Site.ofPattern, List.forall_mem_cons] at hs
    rw [Walk.checkPattern]
    exact (checkExpr h e hs.2).discard
  | .property ty subpatterns, hs => by
    rw [Site.ofPattern, List.forall_mem_cons] at hs
    have hty : env.program.Declares (ty.getD inputTy) := by
      cases ty with
      | none => exact hinput
      | some ty => exact hs.1.mentions ty (List.mem_append_left _ (List.mem_cons_self ..))
    have hsubs : ∀ s ∈ subpatterns, env.program.Declares s.ty := fun s hmem =>
      hs.1.mentions s.ty (List.mem_append_right _ (List.mem_flatMap.2 ⟨s, hmem, by simp⟩))
    rw [Walk.checkPattern]
    exact checkSubPatterns h input hty subpatterns hsubs hs.2
  | .positional deconstruct subpatterns componentTys, hs => by
    rw [Site.ofPattern, List.forall_mem_cons] at hs
    have htys : ∀ ty ∈ componentTys, env.program.Declares ty := fun ty hty =>
      hs.1.mentions ty (List.mem_cons_of_mem _ hty)
    rw [Walk.checkPattern]
    exact (deconstructInput h deconstruct htys input hinput span).bind fun outcome _ =>
      checkComponents h outcome span subpatterns componentTys htys hs.2
  | .negated inner, hs => by
    rw [Site.ofPattern, List.forall_mem_cons] at hs
    rw [Walk.checkPattern]
    exact checkPattern h input hinput span inner hs.2

theorem checkSubPatterns (h : env.IsOrdinary) {a : Point} (input : ScopePair) {receiverTy : TypeRef}
    (hreceiver : env.program.Declares receiverTy) : (subs : List SubPattern) →
    (∀ s ∈ subs, env.program.Declares s.ty) →
    (∀ x ∈ Site.ofSubPatterns a subs, x.IsOrdinary env.program) →
    Ordinary env (fun _ => True) (Walk.checkSubPatterns env input receiverTy subs)
  | [], _, _ => by
    rw [Walk.checkSubPatterns]
    exact .pure trivial
  | ⟨access, ty, p, span⟩ :: rest, hsubs, hs => by
    obtain ⟨hty, hrest⟩ := List.forall_mem_cons.1 hsubs
    rw [Site.ofSubPatterns, List.forall_mem_append] at hs
    rw [Walk.checkSubPatterns]
    exact (accessMember h access input hreceiver hty span).bind fun extracted _ =>
      (checkPattern h extracted hty span p hs.1).bind fun _ _ =>
        checkSubPatterns h input hreceiver rest hrest hs.2

theorem checkComponents (h : env.IsOrdinary) {a : Point} (outcome : Option Outcome) (span : Span) :
    (subs : List Pattern) → (tys : List TypeRef) → (∀ ty ∈ tys, env.program.Declares ty) →
    (∀ x ∈ Site.ofComponents a tys subs, x.IsOrdinary env.program) →
    Ordinary env (fun _ => True) (Walk.checkComponents env outcome span subs tys)
  | [], _, _, _ => by
    rw [Walk.checkComponents.eq_def]
    exact .pure trivial
  | _ :: _, [], _, _ => by
    rw [Walk.checkComponents.eq_def]
    exact .pure trivial
  | p :: rest, ty :: tys, htys, hs => by
    obtain ⟨hty, htys⟩ := List.forall_mem_cons.1 htys
    rw [Site.ofComponents, List.forall_mem_append] at hs
    rw [Walk.checkComponents]
    exact (stackOnly h hty).bind fun so _ =>
      (checkPattern h (Walk.componentPair outcome so) hty span p hs.1).bind fun _ _ =>
        checkComponents h outcome span rest tys htys hs.2

theorem checkLocal (h : env.IsOrdinary) {a : Point} (reportAsync : Bool) : (decl : LocalDecl) →
    env.program.Declares decl.ty → (∀ x ∈ Site.ofLocal a decl, x.IsOrdinary env.program) →
    Ordinary env (fun _ => True) (Walk.checkLocal env reportAsync decl)
  | ⟨name, ty, refKind, isScoped, init, span⟩, hty, hs => by
    rw [Site.ofLocal] at hs
    rw [Walk.checkLocal]
    exact (checkShape h hty span).bind fun _ _ => (checkInit h init hs).bind fun _ _ =>
      declareLocal h hty _ _ _

theorem checkInit (h : env.IsOrdinary) {a : Point} : (init : Option Expr) →
    (∀ x ∈ Site.ofOptional a init, x.IsOrdinary env.program) →
    Ordinary env (fun _ => True) (Walk.checkInit env init)
  | none, _ => by
    rw [Walk.checkInit]
    exact .pure trivial
  | some e, hs => by
    rw [Site.ofOptional] at hs
    rw [Walk.checkInit]
    exact (checkExpr h e hs).bind fun _ _ => .pure trivial

theorem checkStmts (h : env.IsOrdinary) {a : Point} : (stmts : List Stmt) →
    (∀ x ∈ Site.ofStmts a stmts, x.IsOrdinary env.program) →
    Ordinary env (fun _ => True) (Walk.checkStmts env stmts)
  | [], _ => by
    rw [Walk.checkStmts]
    exact .pure trivial
  | s :: rest, hs => by
    rw [Site.ofStmts, List.forall_mem_append] at hs
    rw [Walk.checkStmts]
    exact (checkStmt h s hs.1).bind fun _ _ => checkStmts h rest hs.2

theorem checkStmt (h : env.IsOrdinary) {a : Point} : (s : Stmt) →
    (∀ x ∈ Site.ofStmt a s, x.IsOrdinary env.program) →
    Ordinary env (fun _ => True) (Walk.checkStmt env s)
  | ⟨_, .expr e, _⟩, hs => by
    rw [Site.ofStmt, List.forall_mem_cons] at hs
    rw [Walk.checkStmt]
    exact (checkExpr h e hs.2).discard
  | ⟨_, .yieldReturn e, _⟩, hs => by
    rw [Site.ofStmt, List.forall_mem_cons] at hs
    rw [Walk.checkStmt]
    exact (checkExpr h e hs.2).discard
  | ⟨_, .declare decl, _⟩, hs => by
    rw [Site.ofStmt, List.forall_mem_cons] at hs
    rw [Walk.checkStmt]
    exact checkLocal h true decl (hs.1.mentions _ (List.mem_cons_self ..)) hs.2
  | ⟨id, .assign ⟨tid, kind, ty, tspan⟩ value byRef, span⟩, hs => by
    have main (hs : ∀ x ∈ (⟨a, .stmt ⟨id, .assign ⟨tid, kind, ty, tspan⟩ value byRef, span⟩⟩ :: (
          Site.ofExpr a ⟨tid, kind, ty, tspan⟩ ++ Site.ofExpr a value) : List Site),
          x.IsOrdinary env.program) :
        Ordinary env (fun _ => True) (Walk.checkExpr env ⟨tid, kind, ty, tspan⟩ >>= fun t =>
          Walk.checkExpr env value >>= fun v =>
            Walk.checkAssignment env ⟨tid, kind, ty, tspan⟩ value byRef t v) := by
      rw [List.forall_mem_cons, List.forall_mem_append, Site.ofExpr, List.forall_mem_cons] at hs
      obtain ⟨hstmt, ⟨htarget, hparts⟩, hvalue⟩ := hs
      have hty := htarget.mentions ty (List.mem_cons_self ..)
      have hkind := fun t ht => htarget.mentions t (List.mem_cons_of_mem _ ht)
      obtain rfl : byRef = false := hstmt.assigns
      exact (exprOf h hty (checkForm h tid tspan hty kind hkind hparts)).bind fun t _ =>
        (checkExpr h value hvalue).bind fun v _ => checkAssignment h hty value t v
    cases kind
    case property receiver getter args =>
      cases byRef with
      | true => exact main hs
      | false =>
        rw [Site.ofStmt, List.forall_mem_cons, List.forall_mem_append, List.forall_mem_append] at hs
        obtain ⟨-, hreceiver, hargs, hvalue⟩ := hs
        rw [Walk.checkStmt]
        refine (checkReceiver h receiver hreceiver).bind fun _ hr => (checkArgs h args hargs).bind
          fun _ hops => (operandOf h (declares hvalue) .none (checkExpr h value hvalue)).bind
            fun _ hop => (invokeRef h _ hr ?_ .void span).discard
        exact List.forall_mem_append.2 ⟨hops, List.forall_mem_singleton.2 hop⟩
    all_goals exact main hs
  | ⟨_, .ret none, _⟩, _ => by
    rw [Walk.checkStmt]
    exact .pure trivial
  | ⟨_, .ret (some value), _⟩, hs => by
    rw [Site.ofStmt, List.forall_mem_cons] at hs
    rw [Walk.checkStmt]
    exact (checkExpr h value hs.2).bind fun _ _ => checkReturned value _
  | ⟨_, .block body, _⟩, hs => by
    rw [Site.ofStmt, List.forall_mem_cons] at hs
    rw [Walk.checkStmt]
    exact block (direct hs.2) (checkStmts h body hs.2)
  | ⟨_, .ifElse cond thenBranch elseBranch, _⟩, hs => by
    rw [Site.ofStmt, List.forall_mem_cons, List.forall_mem_append, List.forall_mem_append] at hs
    rw [Walk.checkStmt]
    exact (checkExpr h cond hs.2.1).discard.bind fun _ _ =>
      (block (direct hs.2.2.1) (checkStmts h thenBranch hs.2.2.1)).bind fun _ _ =>
        checkElse h elseBranch hs.2.2.2
  | ⟨_, .whileLoop cond body, _⟩, hs => by
    rw [Site.ofStmt, List.forall_mem_cons, List.forall_mem_append] at hs
    rw [Walk.checkStmt]
    exact (checkExpr h cond hs.2.1).discard.bind fun _ _ =>
      block (direct hs.2.2) (checkStmts h body hs.2.2)
  | ⟨_, .foreach loop, span⟩, hs => by
    rw [Site.ofStmt, List.forall_mem_cons] at hs
    rw [Walk.checkStmt]
    exact checkForeach h span loop hs.1.mentions hs.2
  | ⟨_, .using region, span⟩, hs => by
    rw [Site.ofStmt, List.forall_mem_cons] at hs
    rw [Walk.checkStmt]
    exact checkUsing h span region hs.1.mentions hs.2
  | ⟨_, .localFunction f, _⟩, hs => by
    rw [Site.ofStmt, List.forall_mem_cons] at hs
    rw [Walk.checkStmt]
    exact checkLocalFunction h f (hs.1.function f rfl) hs.2

theorem checkElse (h : env.IsOrdinary) {a : Point} : (branch : Option (List Stmt)) →
    (∀ x ∈ Site.ofElse a branch, x.IsOrdinary env.program) →
    Ordinary env (fun _ => True) (Walk.checkElse env branch)
  | none, _ => by
    rw [Walk.checkElse]
    exact .pure trivial
  | some body, hs => by
    rw [Site.ofElse] at hs
    rw [Walk.checkElse]
    exact block (direct hs) (checkStmts h body hs)

theorem checkForeach (h : env.IsOrdinary) {a : Point} (span : Span) : (loop : ForeachStmt) →
    (∀ t ∈ (StmtKind.foreach loop).mentioned, env.program.Declares t) →
    (∀ x ∈ Site.ofForeach a loop, x.IsOrdinary env.program) →
    Ordinary env (fun _ => True) (Walk.checkForeach env span loop)
  | ⟨binding, byRef, collection, enumerator, isAwait, body⟩, hk, hs => by
    obtain ⟨hmentioned, henumerator⟩ := List.forall_mem_append.1 hk
    have helement : env.program.Declares enumerator.elementTy :=
      henumerator _ (by simp [Enumerator.mentioned])
    have hm (hs : ∀ x ∈ Site.ofPattern a enumerator.elementTy binding, x.IsOrdinary env.program)
        (element : ScopePair) : Ordinary env (fun _ => True)
          (Walk.checkPattern env element enumerator.elementTy span binding) :=
      checkPattern h element helement span binding hs
    have hc (hs : ∀ x ∈ Site.ofExpr a collection, x.IsOrdinary env.program) :=
      checkExpr h collection hs
    have hb (hs : ∀ x ∈ Site.ofStmts (a.block body) body, x.IsOrdinary env.program) :=
      checkStmts h body hs
    -- The sites of the pattern depend on its form; a declaration is none, but is no other pattern.
    have hsites : (∀ x ∈ Site.ofExpr a collection, x.IsOrdinary env.program) ∧
        (∀ x ∈ Site.ofPattern a enumerator.elementTy binding, x.IsOrdinary env.program) ∧
        ∀ x ∈ Site.ofStmts (a.block body) body, x.IsOrdinary env.program := by
      cases binding <;> simp only [Site.ofForeach, List.forall_mem_append, List.nil_append] at hs
      case declaration name ty dspan =>
        refine ⟨hs.1, ?_, hs.2⟩
        rw [Site.ofPattern, List.forall_mem_singleton]
        exact ⟨hmentioned, rfl, fun _ hf => nomatch hf⟩
      all_goals exact hs
    obtain ⟨hcollection, hbinding, hbody⟩ := hsites
    rw [Walk.checkForeach]
    exact (hc hcollection).bind fun pair _ => foreachOver h (declares hcollection) hmentioned
      henumerator (direct hbody) pair span (hm hbinding) (hb hbody)

theorem checkUsing (h : env.IsOrdinary) {a : Point} (span : Span) : (region : UsingStmt) →
    (∀ t ∈ (StmtKind.using region).mentioned, env.program.Declares t) →
    (∀ x ∈ Site.ofUsing a region, x.IsOrdinary env.program) →
    Ordinary env (fun _ => True) (Walk.checkUsing env span region)
  | ⟨.expr e, dispose, isAwait, body⟩, _, hs => by
    rw [Site.ofUsing, List.forall_mem_append] at hs
    have hty : env.program.Declares e.ty := declares hs.1
    rw [Walk.checkUsing]
    refine inScope .block ((checkExpr h e hs.1).bind fun _ _ => (stackOnly h hty).bind fun _ hb => ?_)
    have hop (pair : ScopePair) (b : Bool) (hb : b = false) :
        (Operand.ofExpr e pair b .none false).IsOrdinary env.program :=
      ⟨hb, fun x hx => Option.some.inj hx ▸ hty⟩
    exact usingOver h (hop _ _ hb) (direct hs.2) _ _
      (checkStmts h body hs.2)
  | ⟨.declare ⟨name, ty, refKind, isScoped, init, dspan⟩, dispose, isAwait, body⟩, hk, hs => by
    rw [Site.ofUsing, List.forall_mem_append, Site.ofLocal] at hs
    have hty : env.program.Declares ty := hk ty (List.mem_append_left _ (List.mem_cons_self ..))
    have hinit := checkInit h init hs.1
    rw [Walk.checkUsing]
    refine inScope .block ((stackOnly h hty).bind fun _ _ => ?_)
    rw [Walk.checkLocal]
    refine Ordinary.bind ((checkShape h hty dspan).bind fun _ _ => hinit.bind fun _ _ =>
      declareLocal h hty _ _ _) fun _ _ => (declaredResource h hty).bind fun _ hop => ?_
    exact usingOver h hop (direct hs.2) _ _ (checkStmts h body hs.2)

theorem checkLocalFunction (h : env.IsOrdinary) {a : Point} : (f : FnDecl) → env.program.HasOrdinary f →
    (∀ x ∈ Site.ofLocalFunction a f, x.IsOrdinary env.program) →
    Ordinary env (fun _ => True) (Walk.checkLocalFunction env f)
  | ⟨fid, name, kind, modifiers, typeParams, params, ret, attrs, explicitImpl, overrides, body,
      fspan⟩, hf, hs => by
    rw [Site.ofLocalFunction] at hs
    rw [Walk.checkLocalFunction]
    refine localFunctionOver h hf ?_ (checkBody h body hs)
    cases body with
    | none => exact fun _ hg => absurd hg List.not_mem_nil
    | some body => exact direct (by rwa [Site.ofBody] at hs)

theorem checkBody (h : env.IsOrdinary) {a : Point} : (body : Option (List Stmt)) →
    (∀ x ∈ Site.ofBody a body, x.IsOrdinary env.program) →
    Ordinary env (fun _ => True) (Walk.checkBody env body)
  | none, _ => by
    rw [Walk.checkBody]
    exact .pure trivial
  | some body, hs => by
    rw [Site.ofBody] at hs
    rw [Walk.checkBody]
    exact checkStmts h body hs

end

end Walk.Ordinary

end StackEscape
