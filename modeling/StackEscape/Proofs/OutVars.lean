import StackEscape.Proofs.Accesses

/-!
# Variables that arguments declare

A variable that an argument declares in place is bound where the call is made, after all operands
were looked at: with what the call is derived from, or given up. A call that is given up before it
is made binds nothing, and its variables are unknown afterwards.

## Main definitions

* `StackEscape.LocalInfo.restrict` — a variable as a function declares it that may be suspended.
* `StackEscape.PendingCall`, `StackEscape.Walk.prepareCall` — a call that is about to be made.
* `StackEscape.WalkState.Makes` — the call is made.
* `StackEscape.Parcels.program` — calls that are given up.

## Main results

* `StackEscape.Walk.run_invoke` — what a call changes, in any function.
* `StackEscape.Walk.ctx_checkExpr` — a call, in whatever form it is written, binds the variables of
  its arguments if it is made, and none otherwise.
* `StackEscape.Walk.out_vars_bound_iff` — when the variables of a call are in scope after it.
* `StackEscape.Parcels.out_vars_lost` — calls that are given up with an error, after which a second
  error is reported for their variables.

## Implementation notes

Reads, calls, creations and late-bound calls differ in what is done before the callee is looked up
and in what becomes of its result. Neither of the two concerns the variables of arguments. So the
first part is a walk of its own, and the second part is only looked at for the names in scope.
-/

set_option autoImplicit false

namespace StackEscape

/-! ## Variables of functions that may be suspended -/

namespace LocalInfo

/-- The variable as it is declared in a function: where stack-only locals are forbidden, one that
may be stack-only is given up. -/
def restrict (forbidden : Bool) (info : LocalInfo) : LocalInfo :=
  if forbidden && info.stackOnly && !info.pair.isInvalid then { info with pair := .invalid }
  else info

variable (forbidden : Bool) (info : LocalInfo)

@[simp] theorem name_restrict : (info.restrict forbidden).name = info.name := by
  unfold restrict
  split <;> rfl

@[simp] theorem ty_restrict : (info.restrict forbidden).ty = info.ty := by
  unfold restrict
  split <;> rfl

/-- A variable that was given up stays so. -/
theorem restrict_of_invalid {info : LocalInfo} (h : info.pair.isInvalid = true) :
    info.restrict forbidden = info := by
  simp [restrict, h]

end LocalInfo

/-- Of some more variables of a name, the last one is found. -/
theorem Context.lookup_declareAll_of_mem {c : Context} (hc : c.scopes ≠ [])
    {infos : List LocalInfo} {name : String} (h : ∃ info ∈ infos, info.name = name) :
    ∃ info ∈ infos, info.name = name ∧ (c.declareAll infos).lookup name = some ⟨info, none⟩ := by
  rcases c with ⟨_ | ⟨top, rest⟩, frames⟩
  · exact absurd rfl hc
  · obtain ⟨x, hx, hname⟩ := h
    have hfound : (infos.reverse.find? fun l => decide (l.name = name)).isSome := by
      rw [List.find?_isSome]
      exact ⟨x, List.mem_reverse.2 hx, decide_eq_true hname⟩
    obtain ⟨info, hinfo⟩ := Option.isSome_iff_exists.1 hfound
    refine ⟨info, List.mem_reverse.1 (List.mem_of_find?_eq_some hinfo), ?_, ?_⟩
    · simpa using List.find?_some hinfo
    · simp [declareAll, modifyTop, lookup, lookupIn, lastLocal, List.find?_append, hinfo]

/-- The pair of a variable that an operand declares in place: what the call is derived from, unless
an operand of the call was given up. -/
def Operand.placedPair (op : Operand) (derived : Level) (isInvalid : Bool) : ScopePair :=
  if isInvalid then .invalid
  else if op.stackOnly then ⟨derived, .currentMethod, false⟩
  else .temporary

/-- The state with some more variables, as its function declares them, and with the given errors. -/
def WalkState.binding (s : WalkState) (infos : List LocalInfo) (errors : List EscapeError) :
    WalkState :=
  { s with errors, ctx := s.ctx.declareAll (infos.map (LocalInfo.restrict s.forbidsLocals)) }

namespace WalkState

variable (s : WalkState) (errors : List EscapeError)

theorem binding_nil : s.binding [] s.errors = s := by
  simp only [binding, List.map_nil, Context.declareAll_nil]

@[simp] theorem forbidsLocals_binding (infos : List LocalInfo) :
    (s.binding infos errors).forbidsLocals = s.forbidsLocals := by
  simp only [forbidsLocals, binding, Context.function, Context.frames_declareAll]

theorem binding_binding (xs ys : List LocalInfo) (errors' : List EscapeError) :
    (s.binding xs errors).binding ys errors' = s.binding (xs ++ ys) errors' := by
  have hforbids := s.forbidsLocals_binding errors xs
  simp only [binding] at hforbids ⊢
  rw [hforbids, Context.declareAll_declareAll, List.map_append]

end WalkState

namespace Walk

variable {env : Surroundings} {s : WalkState}

/-! ## What a call changes -/

/-- The variable of a binding is declared; if it is refused, that is reported. -/
theorem run_declareBinding (env : Surroundings) (name : String) (ty : TypeRef) (pair : ScopePair)
    (span : Span) (s : WalkState) :
    ∃ errors, (declareBinding env name ty pair false span).after s =
        s.binding [.ordinary (s.types env) name ty pair] errors ∧
      (pair.isInvalid = true → errors = s.errors) := by
  unfold WalkState.binding LocalInfo.ordinary
  simp only [List.map_cons, List.map_nil, LocalInfo.restrict]
  cases hinvalid : pair.isInvalid with
  | true =>
    refine ⟨s.errors, ?_, fun _ => rfl⟩
    cases hstack : (s.types env).stackOnly ty <;>
      simp [declareBinding, stackOnly, hstack, hinvalid] <;> rfl
  | false =>
    cases hstack : (s.types env).stackOnly ty with
    | false => exact ⟨s.errors, by simp [declareBinding, stackOnly, hstack, hinvalid]; rfl, by simp⟩
    | true =>
      cases hforbids : s.forbidsLocals with
      | false =>
        exact ⟨s.errors, by
          simp [declareBinding, stackOnly, rejectedInAsync, hstack, hinvalid, hforbids]; rfl,
          by simp⟩
      | true =>
        exact ⟨s.errors ++ [⟨.asyncOrIteratorLocal name ty.display, span⟩], by
          simp [declareBinding, stackOnly, rejectedInAsync, hstack, hinvalid, hforbids]; rfl,
          by simp⟩

/-- An operand declares its variable, if it has one. -/
theorem run_bindOutVar (env : Surroundings) (derived : Level) (isInvalid : Bool) (op : Operand)
    (s : WalkState) :
    ∃ errors, (bindOutVar env derived isInvalid op).after s =
        s.binding (outLocal? (s.types env) derived isInvalid op).toList errors ∧
      (isInvalid = true → errors = s.errors) := by
  have hnone : ∃ errors, s = s.binding [] errors ∧ (isInvalid = true → errors = s.errors) :=
    ⟨s.errors, s.binding_nil.symm, fun _ => rfl⟩
  obtain ⟨expr, label, pair, stackOnly, mode, fresh, opSpan⟩ := op
  match fresh, expr with
  | false, _ => exact hnone
  | true, none => exact hnone
  | true, some ⟨id, kind, ty, span⟩ =>
    cases kind with
    | outVar name =>
      obtain ⟨errors, hafter, herrors⟩ := run_declareBinding env name ty
        (if isInvalid then .invalid
          else if stackOnly then ⟨derived, .currentMethod, false⟩ else .temporary) span s
      exact ⟨errors, hafter, fun hi => herrors (by rw [if_pos hi]; rfl)⟩
    | _ => exact hnone

/-- All operands declare their variables, one after the other. -/
theorem run_bindOutVars (env : Surroundings) (derived : Level) (isInvalid : Bool)
    (ops : List Operand) (s : WalkState) :
    ∃ errors, (bindOutVars env derived isInvalid ops).after s =
        s.binding (ops.filterMap (outLocal? (s.types env) derived isInvalid)) errors ∧
      (isInvalid = true → errors = s.errors) := by
  induction ops generalizing s with
  | nil => exact ⟨s.errors, s.binding_nil.symm, fun _ => rfl⟩
  | cons op rest ih =>
    obtain ⟨es, hop, hes⟩ := run_bindOutVar env derived isInvalid op s
    obtain ⟨fs, hrest, hfs⟩ := ih ((bindOutVar env derived isInvalid op).after s)
    refine ⟨fs, ?_, fun hi => ?_⟩
    · change (bindOutVars env derived isInvalid rest).after
        ((bindOutVar env derived isInvalid op).after s) = _
      rw [hrest, hop, WalkState.binding_binding]
      change s.binding (_ ++ rest.filterMap (outLocal? (s.types env) derived isInvalid)) fs = _
      cases h : outLocal? (s.types env) derived isInvalid op with
      | none => rw [List.filterMap_cons_none h]; rfl
      | some info => rw [List.filterMap_cons_some h]; rfl
    · rw [hfs hi, hop]
      exact hes hi

/-- A call reports errors and declares the variables of its operands. If an operand was given up, it
reports nothing. -/
theorem run_invoke (env : Surroundings) (c : Contract) (receiver : Option Operand)
    (args : List Operand) (resultTy : TypeRef) (span : Span) (s : WalkState) :
    ∃ errors, (invoke env c receiver args resultTy span).after s =
        s.binding (outLocals (s.types env) c receiver args) errors ∧
      (((receiver.toList ++ args).any fun op => op.pair.isInvalid) = true → errors = s.errors) := by
  unfold invoke outLocals
  cases hv : c.valid with
  | false => exact ⟨s.errors, s.binding_nil.symm, fun _ => rfl⟩
  | true =>
    cases hany : (receiver.toList ++ args).any fun op => op.pair.isInvalid with
    | true =>
      obtain ⟨errors, hafter, herrors⟩ := run_bindOutVars env .unlimited true args s
      exact ⟨errors, hafter, fun _ => herrors rfl⟩
    | false =>
      obtain ⟨errors, hafter, _⟩ := run_bindOutVars env (c.derivedLevel receiver args) false args
        { s with errors := s.errors ++ mixingErrors s.facts c receiver args span }
      exact ⟨errors, hafter, by simp⟩

/-- The variable of an operand, if it declares one. -/
theorem outLocal?_eq_some_iff {types : TypeEnv} {derived : Level} {isInvalid : Bool} {op : Operand}
    {info : LocalInfo} : outLocal? types derived isInvalid op = some info ↔
      op.fresh = true ∧ ∃ e name, op.expr = some e ∧ e.kind = .outVar name ∧
        info = .ordinary types name e.ty (op.placedPair derived isInvalid) := by
  obtain ⟨expr, label, pair, stackOnly, mode, fresh, opSpan⟩ := op
  constructor
  · intro h
    unfold outLocal? at h
    split at h
    · next name ty span hfresh hexpr =>
      exact ⟨hfresh, _, name, hexpr, rfl, (Option.some.inj h).symm⟩
    · cases h
  · rintro ⟨hfresh, ⟨id, kind, ty, span⟩, name, hexpr, hkind, rfl⟩
    obtain rfl : fresh = true := hfresh
    obtain rfl : expr = _ := hexpr
    obtain rfl : kind = .outVar name := hkind
    rfl

/-- The variables of the operands of a call: they get what the call is derived from, or are given up
together with an operand. -/
theorem mem_outLocals_iff {types : TypeEnv} {c : Contract} {receiver : Option Operand}
    {args : List Operand} {info : LocalInfo} : info ∈ outLocals types c receiver args ↔
      c.valid = true ∧ ∃ op ∈ args, op.fresh = true ∧ ∃ e name, op.expr = some e ∧
        e.kind = .outVar name ∧ info = .ordinary types name e.ty
          (op.placedPair (c.derivedLevel receiver args)
            ((receiver.toList ++ args).any fun op => op.pair.isInvalid)) := by
  have hpair (op : Operand) (isInvalid : Bool) (derived : Level) :
      op.placedPair (if isInvalid then .unlimited else derived) isInvalid =
        op.placedPair derived isInvalid := by
    cases isInvalid <;> rfl
  unfold outLocals
  cases c.valid with
  | false => simp
  | true => simp only [if_true, true_and, List.mem_filterMap, outLocal?_eq_some_iff, hpair]

/-- What a call of a reference changes of the names in scope: the variables of its operands are
declared, if it is made. -/
theorem ctx_resolving {α : Type} (r : MemberRef) (receiver : Option Operand) (args : List Operand)
    (span : Span) {k : Option Callee → Walk α} (hnone : ∀ t, ((k none).after t).ctx = t.ctx)
    (hsome : ∀ callee t, ((k (some callee)).after t).ctx =
      (t.binding (outLocals (t.types env) callee.contract receiver args) t.errors).ctx)
    (s : WalkState) : ((resolve env r span >>= k).after s).ctx =
      (s.binding (callLocals s env r receiver args) s.errors).ctx := by
  have hcontract := answer_resolve env r span s
  obtain ⟨htypes, hctx⟩ := resolve_keeps env r span s
  rw [after_bind]
  unfold callLocals
  rw [← hcontract]
  cases (resolve env r span).answer s with
  | none =>
    rw [hnone, hctx]
    exact (congrArg WalkState.ctx s.binding_nil).symm
  | some callee =>
    rw [hsome, htypes]
    simp only [WalkState.binding, WalkState.forbidsLocals, hctx]
    rfl

theorem ctx_invoke (c : Contract) (receiver : Option Operand) (args : List Operand)
    (resultTy : TypeRef) (span : Span) (s : WalkState) :
    ((invoke env c receiver args resultTy span).after s).ctx =
      (s.binding (outLocals (s.types env) c receiver args) s.errors).ctx := by
  obtain ⟨errors, hafter, _⟩ := run_invoke env c receiver args resultTy span s
  rw [hafter]
  rfl

theorem ctx_invokeRef (r : MemberRef) (receiver : Option Operand) (args : List Operand)
    (ty : TypeRef) (span : Span) (s : WalkState) :
    ((invokeRef env r receiver args ty span).after s).ctx =
      (s.binding (callLocals s env r receiver args) s.errors).ctx :=
  ctx_resolving r receiver args span (fun _ => rfl)
    (fun callee t => ctx_invoke callee.contract receiver args ty span t) s

theorem ctx_callOver (r : MemberRef) (typeArgs : List TypeRef) (receiver : Option Operand)
    (args : List Operand) (ty : TypeRef) (span : Span) (s : WalkState) :
    ((callOver env r typeArgs receiver args ty span).after s).ctx =
      (s.binding (callLocals s env r receiver args) s.errors).ctx :=
  ctx_resolving r receiver args span (fun _ => rfl)
    (fun callee t => ctx_invoke callee.contract receiver args ty span
      ((checkTypeArgs env callee typeArgs span).after t)) s

theorem ctx_readProperty (r : MemberRef) (receiver : Option Operand) (args : List Operand)
    (ty : TypeRef) (span : Span) (s : WalkState) :
    ((readProperty env r receiver args ty span).after s).ctx =
      (s.binding (callLocals s env r receiver args) s.errors).ctx := by
  refine ctx_resolving r receiver args span (fun _ => rfl) (fun callee t => ?_) s
  -- What is noted of a copy is no matter of names.
  let called := invoke env callee.contract receiver args ty span
  have hcopied : ((copied env callee.contract receiver ty span (called.answer t).result).after
      (called.after t)).ctx = (called.after t).ctx := by
    have honward : WalkState.Onward env [] [] (called.after t) _ :=
      onward_copied callee.contract receiver ty span (called.answer t).result
    rw [honward.context, Context.declareAll_nil]
  exact hcopied.trans (ctx_invoke callee.contract receiver args ty span t)

end Walk

/-! ## Calls that are about to be made -/

namespace ExprKind

/-- The arguments of a call, in whatever form it is written. -/
def callArgs : ExprKind → List Arg
  | .property _ _ args | .call _ _ _ args | .create _ args | .dynamicInvoke _ _ args => args
  | _ => []

/-- The receiver of a call. -/
def callReceiver : ExprKind → Option Expr
  | .property receiver _ _ | .call receiver _ _ _ => receiver
  | .dynamicInvoke receiver _ _ => some receiver
  | _ => none

end ExprKind

/-- The names that an operand declares inside of itself. A variable that is declared in place is not
one of them. -/
def Binders.ofOperand (e : Expr) : List String := if e.isOutVar then [] else Binders.ofExpr e

/-- The names that the operands of a call declare inside of themselves. -/
def Binders.ofOperands (kind : ExprKind) : List String :=
  (kind.callReceiver.toList ++ kind.callArgs.map Arg.expr).flatMap Binders.ofOperand

/-- A call whose operands were looked at. -/
structure PendingCall where
  /-- The member that is called. -/
  callee : MemberRef
  /-- The receiver. -/
  receiver : Option Operand
  /-- The arguments. -/
  args : List Operand

namespace Walk

/-- What is done before a callee is looked up. There is nothing to call if the created type is
ill-formed or has no constructor, nor if the call is late-bound. -/
def prepare (env : Surroundings) (ty : TypeRef) (span : Span) : ExprKind → Walk (Option PendingCall)
  | .property receiver getter args => do
    let receiver ← checkReceiver env receiver
    let args ← checkArgs env args
    return some ⟨getter, receiver, args⟩
  | .call receiver method _ args => do
    let receiver ← checkReceiver env receiver
    let args ← checkArgs env args
    return some ⟨method, receiver, args⟩
  | .create ctor args => do
    let wellFormed ← checkShape env ty span
    let args ← checkArgs env args
    return if wellFormed then ctor.map fun r => ⟨r, none, args⟩ else none
  | .dynamicInvoke receiver _ args => do
    discard (checkExpr env receiver)
    checkValues env args
    return none
  | _ => return none

/-- What is done before the callee of an expression is looked up. Something stack-only is given up
at once in an expression tree. -/
def prepareCall (env : Surroundings) (e : Expr) : Walk (Option PendingCall) := do
  let s ← get
  if s.ctx.inExpressionTree && (s.types env).stackOnly e.ty then return none
  else prepare env e.ty e.span e.kind

end Walk

namespace WalkState

/-- The call is made: there is something to call, and it has a contract with well placed
annotations. -/
def Makes (s : WalkState) (env : Surroundings) (call? : Option PendingCall) : Prop :=
  ∃ call c, call? = some call ∧ s.contract? env call.callee = some c ∧ c.valid = true

/-- The variables that a call declares for its arguments. -/
def pendingLocals (s : WalkState) (env : Surroundings) : Option PendingCall → List LocalInfo
  | none => []
  | some call => Walk.callLocals s env call.callee call.receiver call.args

/-- A call that is not made declares none. -/
theorem pendingLocals_of_not_makes {s : WalkState} {env : Surroundings}
    {call? : Option PendingCall} (h : ¬ s.Makes env call?) : s.pendingLocals env call? = [] := by
  cases call? with
  | none => rfl
  | some call =>
    change Walk.callLocals s env call.callee call.receiver call.args = []
    unfold Walk.callLocals
    cases hc : s.contract? env call.callee with
    | none => rfl
    | some c =>
      have hv : ¬ c.valid = true := fun hv => h ⟨call, c, rfl, hc, hv⟩
      exact if_neg hv

end WalkState

namespace Walk

variable {env : Surroundings} {s : WalkState}

/-- A call binds the variables of its arguments where it is made. -/
theorem ctx_checkForm (env : Surroundings) {kind : ExprKind} (hcall : kind.callArgs ≠ [])
    (id : NodeId) (ty : TypeRef) (span : Span) (s : WalkState) :
    let u := (prepare env ty span kind).after s
    ((checkForm env id ty span kind).after s).ctx =
      (u.binding (u.pendingLocals env ((prepare env ty span kind).answer s)) u.errors).ctx := by
  have hnone (u : WalkState) : u.ctx = (u.binding (u.pendingLocals env none) u.errors).ctx :=
    congrArg WalkState.ctx u.binding_nil.symm
  cases kind with
  | property receiver getter args =>
    rw [checkForm, prepare]
    exact ctx_readProperty getter _ _ ty span _
  | call receiver method typeArgs args =>
    rw [checkForm, prepare]
    exact ctx_callOver method typeArgs _ _ ty span _
  | create ctor args =>
    rw [checkForm, prepare]
    simp only [after_bind, answer_bind]
    cases (checkShape env ty span).answer s with
    | false => exact hnone _
    | true =>
      cases ctor with
      | none => exact hnone _
      | some r => exact ctx_invokeRef r none _ ty span _
  | dynamicInvoke receiver name args =>
    rw [checkForm, prepare]
    exact hnone _
  | _ => exact absurd rfl hcall

/-- The same for a whole expression. -/
theorem ctx_checkExpr {e : Expr} (hcall : e.kind.callArgs ≠ []) (s : WalkState) :
    let u := (prepareCall env e).after s
    ((checkExpr env e).after s).ctx =
      (u.binding (u.pendingLocals env ((prepareCall env e).answer s)) u.errors).ctx := by
  obtain ⟨id, kind, ty, span⟩ := e
  have hform := ctx_checkForm env hcall id ty span s
  rw [checkExpr, prepareCall, after_bind, after_bind, answer_bind, answer_get, after_get]
  split
  · change s.ctx = (s.binding [] s.errors).ctx
    rw [s.binding_nil]
  · exact hform

/-! ## Operands -/

/-- An argument is looked at as an operand. -/
theorem run_operandOf (env : Surroundings) (e : Expr) (mode : RefKind) (s : WalkState) :
    let op := (operandOf env e mode (checkExpr env e)).answer s
    op.expr = some e ∧ op.fresh = e.isOutVar := by
  obtain ⟨id, kind, ty, span⟩ := e
  cases kind <;> exact ⟨rfl, rfl⟩

/-- The operands of a call are its arguments, in order. -/
theorem answer_checkArgs (env : Surroundings) (args : List Arg) (s : WalkState) :
    ((checkArgs env args).answer s).map (fun op => (op.expr, op.fresh)) =
      args.map fun a => (some a.expr, a.expr.isOutVar) := by
  induction args generalizing s with
  | nil => rw [checkArgs]; rfl
  | cons a rest ih =>
    obtain ⟨mode, e⟩ := a
    let operand := operandOf env e mode (checkExpr env e)
    obtain ⟨hexpr, hfresh⟩ := run_operandOf env e mode s
    rw [checkArgs, List.map_cons, ← ih (operand.after s), ← hexpr, ← hfresh]
    rfl

/-- An operand declares in place only what stands inside of it. -/
theorem declares_operand {ns : List String} {e : Expr} (h : Binders.ofOperand e ⊆ ns) :
    Declares ns (fun _ => True) (checkExpr env e) := by
  obtain ⟨id, kind, ty, span⟩ := e
  cases kind with
  | outVar name =>
    rw [checkExpr]
    refine .look fun s => .ite ?_ ?_
    · exact (Declares.report _ _).bind fun _ _ => (Declares.record _ _).bind fun _ _ =>
        .pure trivial
    · rw [checkForm]
      exact (Declares.pure (Q := fun _ => True) trivial).bind fun _ _ =>
        (Declares.record _ _).bind fun _ _ => .pure trivial
  | _ => exact Declares.checkExpr _ h

theorem declares_operandOf {ns : List String} {e : Expr} (h : Binders.ofOperand e ⊆ ns)
    (mode : RefKind) : Declares ns (fun _ => True) (operandOf env e mode (checkExpr env e)) := by
  have hchecked : Declares ns (fun _ => True) (checkExpr env e) := declares_operand h
  obtain ⟨id, kind, ty, span⟩ := e
  cases kind with
  | outVar name =>
    exact (Declares.record id .confined).bind fun _ _ =>
      (Declares.pure (Q := fun _ => True) trivial).bind fun _ _ =>
        (Declares.stackOnly env ty).bind fun _ _ => .pure trivial
  | _ => exact hchecked.bind fun _ _ => (Declares.stackOnly env ty).bind fun _ _ => .pure trivial

theorem declares_checkReceiver {ns : List String} {receiver : Option Expr}
    (h : receiver.toList.flatMap Binders.ofOperand ⊆ ns) :
    Declares ns (fun _ => True) (checkReceiver env receiver) := by
  rw [checkReceiver.eq_def]
  cases receiver with
  | none => exact .pure trivial
  | some e => exact (declares_operandOf (by simpa using h) .none).bind fun _ _ => .pure trivial

theorem declares_checkArgs {ns : List String} {args : List Arg}
    (h : (args.map Arg.expr).flatMap Binders.ofOperand ⊆ ns) :
    Declares ns (fun _ => True) (checkArgs env args) := by
  induction args with
  | nil =>
    rw [checkArgs]
    exact .pure trivial
  | cons a rest ih =>
    obtain ⟨mode, e⟩ := a
    rw [List.map_cons, List.flatMap_cons, List.append_subset] at h
    rw [checkArgs]
    exact (declares_operandOf h.1 mode).bind fun _ _ => (ih h.2).bind fun _ _ => .pure trivial

theorem declares_checkValues {ns : List String} {args : List Arg}
    (h : (args.map Arg.expr).flatMap Binders.ofOperand ⊆ ns) :
    Declares ns (fun _ => True) (checkValues env args) := by
  induction args with
  | nil =>
    rw [checkValues]
    exact .pure trivial
  | cons a rest ih =>
    obtain ⟨mode, e⟩ := a
    rw [List.map_cons, List.flatMap_cons, List.append_subset] at h
    rw [checkValues]
    exact (declares_operand h.1).discard.bind fun _ _ => ih h.2

/-- Before a call is made, only what stands inside of its operands is declared. -/
theorem declares_prepareCall (env : Surroundings) (e : Expr) :
    Declares (Binders.ofOperands e.kind) (fun _ => True) (prepareCall env e) := by
  obtain ⟨id, kind, ty, span⟩ := e
  refine .look fun s => .ite (.pure trivial) ?_
  have hparts (receiver : Option Expr) {args : List Arg} {ns : List String}
      (h : (receiver.toList ++ args.map Arg.expr).flatMap Binders.ofOperand ⊆ ns) :
      receiver.toList.flatMap Binders.ofOperand ⊆ ns ∧
        (args.map Arg.expr).flatMap Binders.ofOperand ⊆ ns := by
    rwa [List.flatMap_append, List.append_subset] at h
  cases kind with
  | property receiver getter args =>
    obtain ⟨hreceiver, hargs⟩ := hparts receiver (List.Subset.refl _)
    exact (declares_checkReceiver hreceiver).bind fun _ _ =>
      (declares_checkArgs hargs).bind fun _ _ => .pure trivial
  | call receiver method typeArgs args =>
    obtain ⟨hreceiver, hargs⟩ := hparts receiver (List.Subset.refl _)
    exact (declares_checkReceiver hreceiver).bind fun _ _ =>
      (declares_checkArgs hargs).bind fun _ _ => .pure trivial
  | create ctor args =>
    obtain ⟨_, hargs⟩ := hparts none (List.Subset.refl _)
    exact (Declares.checkShape env ty span).bind fun _ _ =>
      (declares_checkArgs hargs).bind fun _ _ => .pure trivial
  | dynamicInvoke receiver name args =>
    obtain ⟨hreceiver, hargs⟩ := hparts (some receiver) (List.Subset.refl _)
    rw [Option.toList_some, List.flatMap_singleton] at hreceiver
    exact (declares_operand hreceiver).discard.bind fun _ _ =>
      (declares_checkValues hargs).bind fun _ _ => .pure trivial
  | _ => exact .pure trivial

/-- The operands of a call that is about to be made are its arguments. -/
theorem args_prepareCall {e : Expr} {s : WalkState} {call : PendingCall}
    (h : (prepareCall env e).answer s = some call) :
    call.args.map (fun op => (op.expr, op.fresh)) =
      e.kind.callArgs.map fun a => (some a.expr, a.expr.isOutVar) := by
  obtain ⟨id, kind, ty, span⟩ := e
  have hform : (prepare env ty span kind).answer s = some call := by
    rw [prepareCall, answer_bind, answer_get, after_get] at h
    split at h
    · cases h
    · exact h
  cases kind with
  | property receiver getter args =>
    obtain rfl := Option.some.inj hform
    exact answer_checkArgs env args _
  | call receiver method typeArgs args =>
    obtain rfl := Option.some.inj hform
    exact answer_checkArgs env args _
  | create ctor args =>
    rw [prepare, answer_bind] at hform
    cases hshape : (checkShape env ty span).answer s with
    | false =>
      rw [hshape] at hform
      cases hform
    | true =>
      rw [hshape] at hform
      obtain ⟨r, _, rfl⟩ := Option.map_eq_some_iff.1 hform
      exact answer_checkArgs env args _
  | _ => cases hform

/-- A call that is made declares the variables of its arguments, and no others. If an operand was
given up, so are they. -/
theorem mem_pendingLocals {e : Expr} {call? : Option PendingCall}
    (hcall : (prepareCall env e).answer s = call?) {u : WalkState} (hmade : u.Makes env call?) :
    (∀ a ∈ e.kind.callArgs, ∀ name, a.expr.kind = .outVar name →
      ∃ info ∈ u.pendingLocals env call?, info.name = name) ∧
    ∀ info ∈ u.pendingLocals env call?,
      (∃ a ∈ e.kind.callArgs, a.expr.kind = .outVar info.name ∧ info.ty = a.expr.ty) ∧
      ((∃ call ∈ call?, ∃ op ∈ call.receiver.toList ++ call.args, op.pair.isInvalid = true) →
        info.pair = .invalid) := by
  obtain ⟨call, c, rfl, hc, hvalid⟩ := hmade
  have hargs := args_prepareCall hcall
  have hlocals : u.pendingLocals env (some call) =
      outLocals (u.types env) c call.receiver call.args := by
    simp only [WalkState.pendingLocals, callLocals, hc]
    rfl
  rw [hlocals]
  refine ⟨fun a ha name hname => ?_, fun info hinfo => ?_⟩
  · have hmem : (some a.expr, a.expr.isOutVar) ∈ call.args.map fun op => (op.expr, op.fresh) :=
      hargs ▸ List.mem_map_of_mem ha
    obtain ⟨op, hop, hsource⟩ := List.mem_map.1 hmem
    obtain ⟨hexpr, hfresh⟩ := Prod.mk.inj hsource
    have hout : a.expr.isOutVar = true := by simp [Expr.isOutVar, hname]
    exact ⟨_, mem_outLocals_iff.2 ⟨hvalid, op, hop, hfresh.trans hout, a.expr, name, hexpr, hname,
      rfl⟩, rfl⟩
  · obtain ⟨_, op, hop, _, e', name, hexpr, hkind, rfl⟩ := mem_outLocals_iff.1 hinfo
    have hmem : (op.expr, op.fresh) ∈ e.kind.callArgs.map fun a => (some a.expr, a.expr.isOutVar) :=
      hargs ▸ List.mem_map_of_mem hop
    obtain ⟨a, ha, hsource⟩ := List.mem_map.1 hmem
    obtain rfl : a.expr = e' := Option.some.inj ((Prod.mk.inj hsource).1.trans hexpr)
    refine ⟨⟨a, ha, hkind, rfl⟩, ?_⟩
    rintro ⟨call', hsame, op', hop', hinvalid⟩
    obtain rfl := Option.some.inj hsame
    have hany : ((call.receiver.toList ++ call.args).any fun op => op.pair.isInvalid) = true :=
      List.any_eq_true.2 ⟨op', hop', hinvalid⟩
    exact if_pos hany

/-- A variable that is found in the same function is read without an error. -/
theorem run_readVariable {x : LocalInfo} {name : String}
    (h : s.ctx.lookup name = some ⟨x, none⟩) (span : Span) :
    (readVariable env name span).answer s = x.pair ∧ (readVariable env name span).after s = s := by
  unfold readVariable
  rw [answer_bind, after_bind, answer_get, after_get, h]
  exact ⟨rfl, rfl⟩

/-- A name that means nothing is reported. -/
theorem errors_readVariable {name : String} (h : s.ctx.lookup name = none)
    (hparam : ∀ q ∈ env.member.owner.primaryParams, q.name ≠ name) (span : Span) :
    ((readVariable env name span).after s).errors =
      s.errors ++ [⟨.unresolvedMember name, span⟩] := by
  have hnone : env.member.owner.primaryParams.find? (fun q => decide (q.name = name)) = none :=
    List.find?_eq_none.2 fun q hq => by simpa using hparam q hq
  unfold readVariable
  rw [after_bind, answer_get, after_get, h, hnone]
  rfl

/-- **Variables of arguments.** Whatever the state, a variable that an argument declares in place is
in scope after the call if the call is made: it is found in the scope of the call, it is given up if
an operand was, and a later read of it reports nothing. If the call is not made, then the name means
what it meant before, and where that was nothing a later read reports it a second time.

**Proof sketch.** Before the callee is looked up, only what stands inside of operands is declared.
After that, the only step that declares anything is the call, and it declares exactly the variables
of its operands, which are the arguments in order. -/
theorem out_vars_bound_iff (env : Surroundings) (s : WalkState) (hs : s.ctx.scopes ≠ [])
    {e : Expr} {a : Arg} (ha : a ∈ e.kind.callArgs) {name : String}
    (hname : a.expr.kind = .outVar name) :
    let call? := (prepareCall env e).answer s
    let u := (prepareCall env e).after s
    let t := (checkExpr env e).after s
    (u.Makes env call? →
      ∃ x, t.ctx.lookup name = some ⟨x, none⟩ ∧
        (∃ b ∈ e.kind.callArgs, b.expr.kind = .outVar name ∧ x.name = name ∧ x.ty = b.expr.ty) ∧
        ((∃ call ∈ call?, ∃ op ∈ call.receiver.toList ++ call.args, op.pair.isInvalid = true) →
          x.pair = .invalid) ∧
        ∀ span, (readVariable env name span).answer t = x.pair ∧
          (readVariable env name span).after t = t) ∧
    (¬ u.Makes env call? → name ∉ Binders.ofOperands e.kind →
      t.ctx.lookup name = s.ctx.lookup name ∧
        (s.ctx.lookup name = none → (∀ q ∈ env.member.owner.primaryParams, q.name ≠ name) →
          ∀ span, ((readVariable env name span).after t).errors =
            t.errors ++ [⟨.unresolvedMember name, span⟩])) := by
  intro call? u t
  have hextends : s.Extends (Binders.ofOperands e.kind) u := (declares_prepareCall env e).after s
  have hctx : t.ctx = (u.binding (u.pendingLocals env call?) u.errors).ctx :=
    ctx_checkExpr (List.ne_nil_of_mem ha) s
  refine ⟨fun hmade => ?_, fun hnot hinner => ?_⟩
  · obtain ⟨hall, honly⟩ := mem_pendingLocals (s := s) rfl hmade
    have hdeclared : ∃ x ∈ (u.pendingLocals env call?).map (LocalInfo.restrict u.forbidsLocals),
        x.name = name := by
      obtain ⟨info, hinfo, hsame⟩ := hall a ha name hname
      exact ⟨_, List.mem_map_of_mem hinfo, (info.name_restrict _).trans hsame⟩
    obtain ⟨x, hx, hxname, hfound⟩ :=
      Context.lookup_declareAll_of_mem (hextends.scopes_ne_nil hs) hdeclared
    have hlookup : t.ctx.lookup name = some ⟨x, none⟩ := by rw [hctx]; exact hfound
    obtain ⟨info, hinfo, rfl⟩ := List.mem_map.1 hx
    obtain ⟨⟨b, hb, hbname, hty⟩, hinvalid⟩ := honly info hinfo
    rw [LocalInfo.name_restrict] at hxname
    refine ⟨_, hlookup, ⟨b, hb, hxname ▸ hbname, by rw [LocalInfo.name_restrict, hxname], ?_⟩, ?_,
      fun span => run_readVariable hlookup span⟩
    · rw [LocalInfo.ty_restrict, hty]
    · intro hgiven
      have hpair := hinvalid hgiven
      rw [LocalInfo.restrict_of_invalid _ (by rw [hpair]; rfl), hpair]
  · have hsame : t.ctx.lookup name = s.ctx.lookup name := by
      rw [hctx, WalkState.pendingLocals_of_not_makes hnot, u.binding_nil]
      exact hextends.lookup_eq hinner
    exact ⟨hsame, fun hnone hparam span => errors_readVariable (hsame.trans hnone) hparam span⟩

end Walk

/-! ## Calls that are given up -/

namespace Parcels

open Slots

/-- The type of boxes, which cannot hold slots. -/
def boxTy : TypeRef := .named "Box" [slotTy]

/-- The argument that declares a variable. -/
def fresh : Arg := ⟨.out, ⟨6, .outVar "n", .int, .zero⟩⟩

/-- A local function that gives an integer. -/
def give (attrs : List Attribute) : FnDecl :=
  { fn 7 "Give" [⟨"n", .int, .out, false, [], .zero⟩] .nothing [] with attrs }

/-- A call of it. -/
def call : Expr := ⟨5, .call none ⟨.named "Parcels" [], "Give"⟩ [] [fresh], .void, .zero⟩

/-- A call of something that there is not. -/
def lostCall : Expr := ⟨5, .call none ⟨.named "Lost" [], "Give"⟩ [] [fresh], .void, .zero⟩

/-- The creation of an ill-formed box. -/
def creation : Expr := ⟨5, .create (some ⟨boxTy, "Box"⟩) [fresh], boxTy, .zero⟩

/-- A call that is bound when it runs. -/
def lateCall : Expr :=
  ⟨5, .dynamicInvoke ⟨8, .literal .null, .dynamic, .zero⟩ "Give" [fresh], .dynamic, .zero⟩

/-- The variable is read after the expression. -/
def thenRead (e : Expr) : List Stmt :=
  [⟨4, .expr e, .zero⟩, ⟨9, .expr ⟨10, .var "n", .int, .zero⟩, .zero⟩]

/-- A function with the given body. -/
def unpack (body : List Stmt) : FnDecl := fn 3 "Unpack" [] .nothing body

/-- The class of the function. -/
def decl (body : List Stmt) : TypeDecl :=
  ⟨2, "Parcels", .classType, false, false, [], [], [], [], [unpack body], .zero⟩

/-- A program with the function, slots and boxes. -/
def program (body : List Stmt) : Program :=
  ⟨[decl body, ⟨1, "Slot", .refStruct, false, false, [], [], [], [], [], .zero⟩,
    ⟨11, "Box", .classType, false, false, [⟨"T", [], .zero⟩], [], [], [], [], .zero⟩]⟩

/-- The errors of a body. -/
def errors (body : List Stmt) : List EscapeErrorKind :=
  ((program body).analyze {}).escapeErrors.map EscapeError.kind

/-- The surroundings of the body. -/
def env (body : List Stmt) : Surroundings := ⟨program body, ⟨decl body, unpack body⟩, true⟩

/-- The state in which the body is entered. -/
def start (body : List Stmt) : WalkState := (program body).bodyEntry true {} (env body).member body

/-- The local function, declared and called. -/
def giving (attrs : List Attribute) : List Stmt :=
  ⟨12, .localFunction (give attrs), .zero⟩ :: thenRead call

/-- There is no such member. -/
theorem member?_lost (body : List Stmt) :
    (program body).member? ⟨.named "Lost" [], "Give"⟩ = none := by
  cbv

/-- The call is given up. -/
theorem resolve_lost (body : List Stmt) (span : Span) :
    Walk.resolve (env body) ⟨.named "Lost" [], "Give"⟩ span = do
      Walk.report (.unresolvedMember "Lost.Give") span
      return none := by
  funext s
  have htarget : s.target? (env body) ⟨.named "Lost" [], "Give"⟩ = none :=
    congrArg (Option.map Target.member) (member?_lost body)
  unfold Walk.resolve
  simp only [bind, StateT.bind, get, getThe, MonadStateOf.get, StateT.get, pure, htarget]
  rfl

/-- After a call of a local function with an ill-placed annotation, after the creation of an
ill-formed object, after a late-bound call and after a call of what there is not, the variable of
the argument is not known, which is a further error. -/
theorem out_vars_lost :
    errors (giving [⟨.unscopedRef, .zero⟩]) =
        [.unscopedRefNotAllowed "Parcels.Unpack.Give", .unresolvedMember "n"] ∧
      errors (thenRead creation) =
        [.shape (.stackOnlyTypeArgument "Slot" "T" "Box"), .unresolvedMember "n"] ∧
      errors (thenRead lateCall) = [.unresolvedMember "n"] ∧
      ((Walk.checkStmts (env (thenRead lostCall)) (thenRead lostCall)).after
          (start (thenRead lostCall))).errors.map EscapeError.kind =
        [.unresolvedMember "Lost.Give", .unresolvedMember "n"] := by
  refine ⟨by decide +kernel, by decide +kernel, by decide +kernel, ?_⟩
  -- The search for a member cannot be evaluated, so its result is put in first.
  simp only [thenRead, lostCall, Walk.checkStmts, Walk.checkStmt, Walk.checkExpr, Walk.checkForm,
    resolve_lost]
  decide +kernel

/-- The variable of an argument of the local function is in scope after the call, and read without
an error. -/
theorem out_vars_bound_iff_give :
    let body := giving []
    let t := (Walk.checkExpr (env body) call).after (start body)
    (start body).ctx.scopes ≠ [] ∧ fresh ∈ call.kind.callArgs ∧ fresh.expr.kind = .outVar "n" ∧
      ∃ x, t.ctx.lookup "n" = some ⟨x, none⟩ ∧ x.name = "n" ∧
        (Walk.readVariable (env body) "n" .zero).after t = t := by
  intro body t
  have hs : (start body).ctx.scopes ≠ [] := List.cons_ne_nil _ _
  have ha : fresh ∈ call.kind.callArgs := List.mem_singleton.2 rfl
  obtain ⟨hmade, _⟩ := Walk.out_vars_bound_iff (env body) (start body) hs ha rfl
  obtain ⟨x, hfound, ⟨_, _, _, hname, _⟩, _, hread⟩ := hmade ⟨_, _, rfl, rfl, by decide +kernel⟩
  exact ⟨hs, ha, rfl, x, hfound, hname, (hread .zero).2⟩

end Parcels

end StackEscape
