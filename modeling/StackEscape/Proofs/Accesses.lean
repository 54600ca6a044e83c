import StackEscape.Proofs.Binders

/-!
# What calls and accesses yield

What a call yields depends on the contract of its callee, on the pairs of its operands and on the
meaning of types, and on nothing else in the state. A contract that is filed on the way has no
influence on others, as long as different callees are filed under different keys.

## Main definitions

* `StackEscape.Contract.outcome`, `getterPair` — what a call and a read through a getter yield.
* `StackEscape.WalkState.contract?` — the contract with which a reference is called at a point.
* `StackEscape.WalkState.SameCalls` — states in which some references are called alike.
* `StackEscape.WalkState.Onward` — a later such state in the same scope, with some more variables.
* `StackEscape.WalkState.KeepsApart` — different callees of some references have different keys.

## Main results

* `StackEscape.Contract.outcome_congr`, `getterPair_congr` — what calls yield depends on little of
  their operands.
* `StackEscape.Walk.answer_invoke`, `answer_invokeRef`, `answer_readProperty` — calls and reads
  yield what their contracts say.
* `StackEscape.Walk.onward_resolve`, `onward_invokeRef`, `onward_readProperty` — calls and reads
  have no influence on later ones.
* `StackEscape.Walk.run_field`, `run_property`, `run_call`, `run_var` — accesses that are written as
  expressions.
-/

set_option autoImplicit false

namespace StackEscape

/-! ## Variables, operands and contracts -/

/-- An ordinary variable of the given pair. -/
def LocalInfo.ordinary (types : TypeEnv) (name : String) (ty : TypeRef) (pair : ScopePair) :
    LocalInfo :=
  { name, ty, pair, stackOnly := types.stackOnly ty, isRef := false, isScoped := false
    kind := .declared }

namespace Operand

/-- What counts of an operand for the result of a call. -/
def core (op : Operand) : ScopePair × Bool × Bool := (op.pair, op.stackOnly, op.fresh)

theorem core_eq_iff {a b : Operand} :
    a.core = b.core ↔ a.pair = b.pair ∧ a.stackOnly = b.stackOnly ∧ a.fresh = b.fresh := by
  simp [core]

end Operand

namespace Contract

variable {receiver receiver' : Option Operand} {args args' : List Operand}

/-- What a source contributes depends on little of its operand. -/
theorem sourceLevel_congr (hr : receiver.map Operand.core = receiver'.map Operand.core)
    (ha : args.map Operand.core = args'.map Operand.core) :
    sourceLevel receiver args = sourceLevel receiver' args' := by
  have hop (input : Input) : (operand? receiver args input).map Operand.core =
      (operand? receiver' args' input).map Operand.core := by
    cases input with
    | receiver => exact hr
    | param i =>
      have hi := congrArg (fun l : List _ => l[i]?) ha
      simp only [List.getElem?_map] at hi
      exact hi
  funext source
  have hsource := hop source.input
  unfold sourceLevel
  cases h : operand? receiver args source.input with
  | none =>
    rw [h] at hsource
    rw [Option.map_eq_none_iff.1 hsource.symm]
  | some op =>
    rw [h, Option.map_some] at hsource
    obtain ⟨op', hop', hcore⟩ := Option.map_eq_some_iff.1 hsource.symm
    obtain ⟨hpair, hstack, hfresh⟩ := Operand.core_eq_iff.1 hcore
    rw [hop']
    simp only [hpair, hstack, hfresh]

/-- What a call yields. It is given up if annotations are ill placed or an operand was given up. -/
def outcome (c : Contract) (receiver : Option Operand) (args : List Operand) (stackOnly : Bool) :
    Outcome :=
  if c.valid && !((receiver.toList ++ args).any fun op => op.pair.isInvalid) then
    ⟨c.resultPair stackOnly (c.derivedLevel receiver args), c.derivedLevel receiver args⟩
  else .invalid

/-- It depends on little of its operands. -/
theorem outcome_congr (c : Contract) (stackOnly : Bool)
    (hr : receiver.map Operand.core = receiver'.map Operand.core)
    (ha : args.map Operand.core = args'.map Operand.core) :
    c.outcome receiver args stackOnly = c.outcome receiver' args' stackOnly := by
  have hall : (receiver.toList ++ args).map Operand.core =
      (receiver'.toList ++ args').map Operand.core := by
    rw [List.map_append, List.map_append, ha, ← Option.toList_map, ← Option.toList_map, hr]
  have hany : ((receiver.toList ++ args).any fun op => op.pair.isInvalid) =
      ((receiver'.toList ++ args').any fun op => op.pair.isInvalid) := by
    have h := congrArg (fun l : List (ScopePair × Bool × Bool) => l.any fun x => x.1.isInvalid) hall
    simp only [List.any_map] at h
    exact h
  unfold outcome derivedLevel
  rw [hany, sourceLevel_congr hr ha]

/-- Nothing comes out of a receiver that was given up. -/
theorem outcome_of_invalid (c : Contract) {op : Operand} (h : op.pair.isInvalid = true)
    (args : List Operand) (stackOnly : Bool) : c.outcome (some op) args stackOnly = .invalid := by
  simp [outcome, h]

/-- What a read through a getter yields, with the copy that it may need. -/
def getterPair (c : Contract) (op : Operand) (stackOnly : Bool) : ScopePair :=
  let pair := (c.outcome (some op) [] stackOnly).result
  if !pair.isInvalid && Walk.needsCopy c (some op) stackOnly then pair.withValue .currentMethod
  else pair

/-- It depends on little of its receiver. -/
theorem getterPair_congr (c : Contract) (stackOnly : Bool) {op op' : Operand}
    (h : op.core = op'.core) : c.getterPair op stackOnly = c.getterPair op' stackOnly := by
  have houtcome : c.outcome (some op) [] stackOnly = c.outcome (some op') [] stackOnly :=
    c.outcome_congr stackOnly (congrArg some h) rfl
  unfold getterPair Walk.needsCopy
  rw [houtcome]
  simp only [Option.any_some, (Operand.core_eq_iff.1 h).2.1]

end Contract

/-! ## Callees -/

/-- The key under which the contract of a callee is filed. -/
def Target.key (env : Surroundings) : Target → String
  | .localFunction decl => env.localKey decl
  | .member m => m.key

namespace WalkState

/-- The contract of a callee by its declaration. -/
def declared (s : WalkState) (env : Surroundings) : Target → Contract
  | .localFunction decl => s.localContract env decl
  | .member m => Contract.ofMember s.tables.caps env.program m

/-- The contract with which a reference is called: the one that is filed, or else that of the
declaration. -/
def contract? (s : WalkState) (env : Surroundings) (r : MemberRef) : Option Contract :=
  (s.target? env r).map fun x => (s.tables.contracts.obtain (x.key env) (s.declared env x)).1

/-- Different callees of some references have different keys. -/
def KeepsApart (s : WalkState) (env : Surroundings) (rs : List MemberRef) : Prop :=
  ∀ r ∈ rs, ∀ r' ∈ rs, ∀ x ∈ s.target? env r, ∀ y ∈ s.target? env r', x.key env = y.key env → x = y

/-- It is enough that the keys of the references are different. -/
theorem KeepsApart.of_nodup {s : WalkState} {env : Surroundings} {rs : List MemberRef}
    (h : (rs.map fun r => (s.target? env r).map (Target.key env)).Nodup) : s.KeepsApart env rs := by
  intro r hr r' hr' x hx y hy hkey
  have hsame : (s.target? env r).map (Target.key env) =
      (s.target? env r').map (Target.key env) := by
    rw [hx, hy, Option.map_some, Option.map_some, hkey]
  obtain rfl := List.inj_on_of_nodup_map h hr hr' hsame
  exact Option.some_inj.1 (hx.symm.trans hy)

/-- Types mean the same and some references are called alike. -/
structure SameCalls (env : Surroundings) (rs : List MemberRef) (s t : WalkState) : Prop where
  /-- The type parameters in scope are the same. -/
  generics : t.generics = s.generics
  /-- Their capabilities are the same. -/
  caps : t.tables.caps = s.tables.caps
  /-- The references mean the same. -/
  targets : ∀ r ∈ rs, t.target? env r = s.target? env r
  /-- They have the same contracts. -/
  contracts : ∀ r ∈ rs, t.contract? env r = s.contract? env r

namespace SameCalls

variable {env : Surroundings} {rs : List MemberRef} {s t u : WalkState}

theorem refl (env : Surroundings) (rs : List MemberRef) (s : WalkState) : SameCalls env rs s s :=
  ⟨rfl, rfl, fun _ _ => rfl, fun _ _ => rfl⟩

theorem trans (h : SameCalls env rs s t) (h' : SameCalls env rs t u) : SameCalls env rs s u :=
  ⟨h'.generics.trans h.generics, h'.caps.trans h.caps,
    fun r hr => (h'.targets r hr).trans (h.targets r hr),
    fun r hr => (h'.contracts r hr).trans (h.contracts r hr)⟩

/-- Types mean the same. -/
theorem types_eq (h : SameCalls env rs s t) : t.types env = s.types env := by
  rw [types, types, h.generics, h.caps]

/-- Callees are kept apart alike. -/
theorem keepsApart (h : SameCalls env rs s t) (hs : s.KeepsApart env rs) : t.KeepsApart env rs := by
  intro r hr r' hr' x hx y hy
  rw [h.targets r hr] at hx
  rw [h.targets r' hr'] at hy
  exact hs r hr r' hr' x hx y hy

/-- So it is in states that differ in other things only. -/
theorem of_tables (hg : t.generics = s.generics) (ht : t.tables = s.tables)
    (hc : ∀ name, t.ctx.localFunction name = s.ctx.localFunction name) : SameCalls env rs s t := by
  have htarget (r : MemberRef) : t.target? env r = s.target? env r := by
    unfold target?
    rw [hc]
  have hdeclared : t.declared env = s.declared env := by
    funext x
    cases x with
    | localFunction decl => simp only [declared, localContract, localScope, hg, ht]
    | member m => simp only [declared, ht]
  refine ⟨hg, by rw [ht], fun r _ => htarget r, fun r _ => ?_⟩
  rw [contract?, contract?, htarget, hdeclared, ht]

end SameCalls

/-- A state in the same scope that calls some references alike, with some more variables. -/
structure Onward (env : Surroundings) (rs : List MemberRef) (infos : List LocalInfo)
    (s t : WalkState) : Prop extends SameCalls env rs s t where
  /-- The variables are declared. -/
  context : t.ctx = s.ctx.declareAll infos

namespace Onward

variable {env : Surroundings} {rs : List MemberRef} {xs ys : List LocalInfo} {s t u : WalkState}

theorem refl (env : Surroundings) (rs : List MemberRef) (s : WalkState) : Onward env rs [] s s :=
  ⟨.refl env rs s, (Context.declareAll_nil _).symm⟩

theorem trans (h : Onward env rs xs s t) (h' : Onward env rs ys t u) :
    Onward env rs (xs ++ ys) s u :=
  ⟨h.toSameCalls.trans h'.toSameCalls, by
    rw [h'.context, h.context, Context.declareAll_declareAll]⟩

/-- Only variables are declared. -/
theorem of_tables (hg : t.generics = s.generics) (ht : t.tables = s.tables)
    (hc : t.ctx = s.ctx.declareAll xs) : Onward env rs xs s t :=
  ⟨.of_tables hg ht fun name => by rw [hc, Context.localFunction_declareAll], hc⟩

/-- The same is forbidden to local variables. -/
theorem forbidsLocals_eq (h : Onward env rs xs s t) : t.forbidsLocals = s.forbidsLocals := by
  unfold forbidsLocals Context.function
  rw [h.context, Context.frames_declareAll]

/-- The place is part of an expression tree only if it was. -/
theorem inExpressionTree_eq (h : Onward env rs xs s t) :
    t.ctx.inExpressionTree = s.ctx.inExpressionTree := by
  rw [h.context, Context.inExpressionTree_declareAll]

end Onward

end WalkState

namespace Walk

variable {env : Surroundings} {rs : List MemberRef} {s : WalkState}

/-! ## Callees are looked up -/

/-- A reference is called with its contract. -/
theorem answer_resolve (env : Surroundings) (r : MemberRef) (span : Span) (s : WalkState) :
    ((resolve env r span).answer s).map Callee.contract = s.contract? env r := by
  unfold resolve WalkState.contract?
  rw [answer_bind, answer_get, after_get]
  rcases s.target? env r with _ | decl | m <;> rfl

/-- If the reference means something, the contract of that is filed. -/
theorem after_resolve_of_target {r : MemberRef} {x : Target} (hx : s.target? env r = some x)
    (span : Span) : (resolve env r span).after s = { s with tables := { s.tables with
      contracts := (s.tables.contracts.obtain (x.key env) (s.declared env x)).2 } } := by
  unfold resolve
  rw [after_bind, answer_get, after_get, hx]
  cases x <;> rfl

/-- If it means nothing, that is reported. -/
theorem after_resolve_of_none {r : MemberRef} (hx : s.target? env r = none) (span : Span) :
    (resolve env r span).after s = (report (.unresolvedMember r.display) span).after s := by
  unfold resolve
  rw [after_bind, answer_get, after_get, hx]
  rfl

/-- A reference to a member of another type than the walked one is looked up as that member. -/
theorem resolve_of_otherType (env : Surroundings) {r : MemberRef} {m : Member} {owner : String}
    (howner : r.owner.declName = some owner) (hother : owner ≠ env.member.owner.name)
    (hm : env.program.member? r = some m) (span : Span) :
    resolve env r span = do return some ⟨← memberContract env m, m.decl, m.key⟩ := by
  funext s
  have htarget : s.target? env r = some (.member m) := by
    unfold WalkState.target?
    rw [howner, if_neg fun h => hother (Option.some_inj.1 h)]
    split
    · next h => rw [h] at howner; cases howner
    · rw [hm]; rfl
  have hanswer : (resolve env r span).answer s =
      some ⟨(memberContract env m).answer s, m.decl, m.key⟩ := by
    unfold resolve
    rw [answer_bind, answer_get, after_get, htarget]
    rfl
  exact Prod.ext hanswer (after_resolve_of_target htarget span)

/-- What is filed for one callee has no influence on the others. -/
theorem onward_resolve {r : MemberRef} (hr : r ∈ rs) (hs : s.KeepsApart env rs) (span : Span) :
    s.Onward env rs [] ((resolve env r span).after s) := by
  cases hx : s.target? env r with
  | none =>
    rw [after_resolve_of_none hx]
    exact .of_tables rfl rfl (Context.declareAll_nil _).symm
  | some x =>
    rw [after_resolve_of_target hx]
    refine ⟨⟨rfl, rfl, fun _ _ => rfl, fun r' hr' => ?_⟩, (Context.declareAll_nil _).symm⟩
    unfold WalkState.contract?
    change (s.target? env r').map _ = (s.target? env r').map _
    cases hy : s.target? env r' with
    | none => rfl
    | some y =>
      rw [Option.map_some, Option.map_some, Option.some_inj, Contracts.obtain_fst,
        Contracts.obtain_fst, Contracts.get?_obtain]
      change ((if _ then _ else _ : Option Contract)).getD (s.declared env y) = _
      split
      · next hk =>
        obtain rfl := hs r hr r' hr' x hx y hy hk.symm
        rfl
      · rfl

/-- Looking up a callee changes neither the variables nor the meaning of types. -/
theorem resolve_keeps (env : Surroundings) (r : MemberRef) (span : Span) (s : WalkState) :
    ((resolve env r span).after s).types env = s.types env ∧
      ((resolve env r span).after s).ctx = s.ctx := by
  cases hx : s.target? env r with
  | none =>
    rw [after_resolve_of_none hx]
    exact ⟨rfl, rfl⟩
  | some x =>
    rw [after_resolve_of_target hx]
    exact ⟨rfl, rfl⟩

/-! ## Calls -/

/-- A call yields what its contract says. -/
theorem answer_invoke (env : Surroundings) (c : Contract) (receiver : Option Operand)
    (args : List Operand) (resultTy : TypeRef) (span : Span) (s : WalkState) :
    (invoke env c receiver args resultTy span).answer s =
      c.outcome receiver args ((s.types env).stackOnly resultTy) := by
  unfold invoke Contract.outcome
  cases hv : c.valid with
  | false => rfl
  | true =>
    cases hany : (receiver.toList ++ args).any fun op => op.pair.isInvalid with
    | true => rfl
    | false => rfl

/-- Where locals are not forbidden, the variable of a binding gets the pair of the binding. -/
theorem after_declareBinding (hfree : s.forbidsLocals = false) (name : String) (ty : TypeRef)
    (pair : ScopePair) (span : Span) : (declareBinding env name ty pair false span).after s =
      s.declaring (.ordinary (s.types env) name ty pair) := by
  unfold LocalInfo.ordinary
  cases hstack : (s.types env).stackOnly ty <;> cases hinvalid : pair.isInvalid <;>
    simp [declareBinding, stackOnly, rejectedInAsync, hstack, hinvalid, hfree] <;> rfl

/-- The variable that an operand declares in place, by what the call is derived from. -/
def outLocal? (types : TypeEnv) (derived : Level) (isInvalid : Bool) (op : Operand) :
    Option LocalInfo :=
  match op.fresh, op.expr with
  | true, some ⟨_, .outVar name, ty, _⟩ => some (.ordinary types name ty
      (if isInvalid then .invalid
        else if op.stackOnly then ⟨derived, .currentMethod, false⟩
        else .temporary))
  | _, _ => none

/-- The variables that operands declare in place. A call that cannot be made declares none. -/
def outLocals (types : TypeEnv) (c : Contract) (receiver : Option Operand) (args : List Operand) :
    List LocalInfo :=
  let isInvalid := (receiver.toList ++ args).any fun op => op.pair.isInvalid
  if c.valid then
    args.filterMap (outLocal? types (if isInvalid then .unlimited else c.derivedLevel receiver args)
      isInvalid)
  else []

theorem after_bindOutVar (hfree : s.forbidsLocals = false) (derived : Level) (isInvalid : Bool)
    (op : Operand) : (bindOutVar env derived isInvalid op).after s =
      { s with ctx := s.ctx.declareAll (outLocal? (s.types env) derived isInvalid op).toList } := by
  have hnone : { s with ctx := s.ctx.declareAll [] } = s := by rw [Context.declareAll_nil]
  obtain ⟨expr, label, pair, stackOnly, mode, fresh, opSpan⟩ := op
  match fresh, expr with
  | false, _ => exact hnone.symm
  | true, none => exact hnone.symm
  | true, some ⟨id, kind, ty, span⟩ =>
    cases kind with
    | outVar name => exact after_declareBinding hfree name ty _ span
    | _ => exact hnone.symm

/-- All operands declare their variables, one after the other. -/
theorem after_bindOutVars (hfree : s.forbidsLocals = false) (derived : Level) (isInvalid : Bool)
    (ops : List Operand) : (bindOutVars env derived isInvalid ops).after s =
      { s with
        ctx := s.ctx.declareAll (ops.filterMap (outLocal? (s.types env) derived isInvalid)) } := by
  induction ops generalizing s with
  | nil =>
    rw [List.filterMap_nil, Context.declareAll_nil]
    rfl
  | cons op rest ih =>
    change (bindOutVars env derived isInvalid rest).after
      ((bindOutVar env derived isInvalid op).after s) = _
    have hframes := s.ctx.frames_declareAll (outLocal? (s.types env) derived isInvalid op).toList
    rw [after_bindOutVar hfree, ih]
    · change ({ s with ctx := (s.ctx.declareAll _).declareAll _ } : WalkState) = _
      rw [Context.declareAll_declareAll]
      cases h : outLocal? (s.types env) derived isInvalid op with
      | none => rw [List.filterMap_cons_none h]; rfl
      | some info => rw [List.filterMap_cons_some h]; rfl
    · simpa only [WalkState.forbidsLocals, Context.function, hframes] using hfree

/-- A call reports errors and declares the variables of its operands. -/
theorem after_invoke (env : Surroundings) (hfree : s.forbidsLocals = false) (c : Contract)
    (receiver : Option Operand) (args : List Operand) (resultTy : TypeRef) (span : Span) :
    ∃ errors, (invoke env c receiver args resultTy span).after s =
      { s with errors, ctx := s.ctx.declareAll (outLocals (s.types env) c receiver args) } := by
  unfold invoke outLocals
  cases hv : c.valid with
  | false => exact ⟨s.errors, by simp [Context.declareAll_nil]⟩
  | true =>
    cases hany : (receiver.toList ++ args).any fun op => op.pair.isInvalid with
    | true =>
      refine ⟨s.errors, ?_⟩
      change (bindOutVars env .unlimited true args).after s = _
      rw [after_bindOutVars hfree]
      simp
    | false =>
      refine ⟨s.errors ++ mixingErrors s.facts c receiver args span, ?_⟩
      change (bindOutVars env (c.derivedLevel receiver args) false args).after
        { s with errors := s.errors ++ mixingErrors s.facts c receiver args span } = _
      rw [after_bindOutVars (by exact hfree)]
      simp
      rfl

/-- A call has no influence on later ones. -/
theorem onward_invoke (env : Surroundings) (rs : List MemberRef) (hfree : s.forbidsLocals = false)
    (c : Contract) (receiver : Option Operand) (args : List Operand) (resultTy : TypeRef)
    (span : Span) : s.Onward env rs (outLocals (s.types env) c receiver args)
      ((invoke env c receiver args resultTy span).after s) := by
  obtain ⟨errors, hafter⟩ := after_invoke env hfree c receiver args resultTy span
  rw [hafter]
  exact .of_tables rfl rfl rfl

/-- Without arguments, nothing is declared in place. -/
theorem outLocals_nil (types : TypeEnv) (c : Contract) (receiver : Option Operand) :
    outLocals types c receiver [] = [] := by
  simp [outLocals]

/-- What a call of a reference declares in place. -/
def callLocals (s : WalkState) (env : Surroundings) (r : MemberRef) (receiver : Option Operand)
    (args : List Operand) : List LocalInfo :=
  ((s.contract? env r).map fun c => outLocals (s.types env) c receiver args).getD []

theorem callLocals_nil (r : MemberRef) (receiver : Option Operand) :
    callLocals s env r receiver [] = [] := by
  unfold callLocals
  cases s.contract? env r with
  | none => rfl
  | some c => exact outLocals_nil _ _ _

/-! ## Calls of references -/

/-- A call of what a reference means, as an expression makes it. -/
def callOver (env : Surroundings) (method : MemberRef) (typeArgs : List TypeRef)
    (receiver : Option Operand) (args : List Operand) (ty : TypeRef) (span : Span) :
    Walk ScopePair := do
  match ← resolve env method span with
  | none => return .invalid
  | some callee =>
    checkTypeArgs env callee typeArgs span
    return (← invoke env callee.contract receiver args ty span).result

/-- What a call of a reference yields. -/
def callPair (s : WalkState) (env : Surroundings) (r : MemberRef) (receiver : Option Operand)
    (args : List Operand) (ty : TypeRef) : ScopePair :=
  ((s.contract? env r).map fun c =>
    (c.outcome receiver args ((s.types env).stackOnly ty)).result).getD .invalid

theorem answer_invokeRef (env : Surroundings) (r : MemberRef) (receiver : Option Operand)
    (args : List Operand) (ty : TypeRef) (span : Span) (s : WalkState) :
    (invokeRef env r receiver args ty span).answer s = callPair s env r receiver args ty := by
  have hcontract := answer_resolve env r span s
  have htypes := (resolve_keeps env r span s).1
  unfold invokeRef callPair
  rw [answer_bind, ← hcontract]
  cases (resolve env r span).answer s with
  | none => rfl
  | some callee =>
    change ((invoke env callee.contract receiver args ty span).answer _).result = _
    rw [answer_invoke, htypes]
    rfl

theorem answer_callOver (env : Surroundings) (r : MemberRef) (typeArgs : List TypeRef)
    (receiver : Option Operand) (args : List Operand) (ty : TypeRef) (span : Span)
    (s : WalkState) : (callOver env r typeArgs receiver args ty span).answer s =
      callPair s env r receiver args ty := by
  have hcontract := answer_resolve env r span s
  have htypes := (resolve_keeps env r span s).1
  unfold callOver callPair
  rw [answer_bind, ← hcontract]
  cases (resolve env r span).answer s with
  | none => rfl
  | some callee =>
    change ((invoke env callee.contract receiver args ty span).answer _).result = _
    rw [answer_invoke]
    change (callee.contract.outcome receiver args
      ((((resolve env r span).after s).types env).stackOnly ty)).result = _
    rw [htypes]
    rfl

/-- The end of a read through a getter: the receiver may have been copied. -/
def copied (env : Surroundings) (c : Contract) (receiver : Option Operand) (ty : TypeRef)
    (span : Span) (pair : ScopePair) : Walk ScopePair := do
  let stackOnly ← stackOnly env ty
  if !pair.isInvalid && needsCopy c receiver stackOnly then
    noteCopy span
    return pair.withValue .currentMethod
  else return pair

theorem answer_copied (c : Contract) (receiver : Option Operand) (ty : TypeRef) (span : Span)
    (pair : ScopePair) : (copied env c receiver ty span pair).answer s =
      if !pair.isInvalid && needsCopy c receiver ((s.types env).stackOnly ty) then
        pair.withValue .currentMethod
      else pair := by
  unfold copied stackOnly
  rw [answer_bind]
  change (if (!pair.isInvalid && needsCopy c receiver ((s.types env).stackOnly ty)) = true then _
    else _ : Walk ScopePair).answer _ = _
  split <;> rfl

theorem onward_copied (c : Contract) (receiver : Option Operand) (ty : TypeRef) (span : Span)
    (pair : ScopePair) : s.Onward env rs [] ((copied env c receiver ty span pair).after s) := by
  unfold copied stackOnly
  rw [after_bind]
  change s.Onward env rs [] ((if (!pair.isInvalid &&
    needsCopy c receiver ((s.types env).stackOnly ty)) = true then _ else _ : Walk _).after _)
  split
  · exact .of_tables rfl rfl (Context.declareAll_nil _).symm
  · exact .refl env rs s

/-- What a read through a getter yields. -/
def readPair (s : WalkState) (env : Surroundings) (getter : MemberRef) (op : Operand)
    (ty : TypeRef) : ScopePair :=
  ((s.contract? env getter).map fun c => c.getterPair op ((s.types env).stackOnly ty)).getD .invalid

theorem answer_readProperty (hfree : s.forbidsLocals = false) (getter : MemberRef) (op : Operand)
    (ty : TypeRef) (span : Span) : (readProperty env getter (some op) [] ty span).answer s =
      readPair s env getter op ty := by
  have hcontract := answer_resolve env getter span s
  obtain ⟨htypes, hctx⟩ := resolve_keeps env getter span s
  have hfree' : ((resolve env getter span).after s).forbidsLocals = false := by
    simpa only [WalkState.forbidsLocals, hctx] using hfree
  unfold readProperty readPair
  rw [answer_bind, ← hcontract]
  cases (resolve env getter span).answer s with
  | none => rfl
  | some callee =>
    have hlater := (onward_invoke env [] hfree' callee.contract (some op) [] ty
      span).types_eq
    let call := invoke env callee.contract (some op) [] ty span
    change (copied env callee.contract (some op) ty span (call.answer _).result).answer
      (call.after _) = _
    rw [answer_copied, answer_invoke, hlater, htypes]
    rfl

/-- Neither has any influence on later calls. -/
theorem onward_callOver {r : MemberRef} (hr : r ∈ rs) (hs : s.KeepsApart env rs)
    (hfree : s.forbidsLocals = false) (typeArgs : List TypeRef) (receiver : Option Operand)
    (args : List Operand) (ty : TypeRef) (span : Span) :
    s.Onward env rs (callLocals s env r receiver args)
      ((callOver env r typeArgs receiver args ty span).after s) := by
  have hresolve := onward_resolve hr hs span
  have hcontract := answer_resolve env r span s
  unfold callOver callLocals
  rw [after_bind, ← hcontract]
  cases (resolve env r span).answer s with
  | none => exact hresolve
  | some callee =>
    have hchecked : ((resolve env r span).after s).Onward env rs []
        ((checkTypeArgs env callee typeArgs span).after ((resolve env r span).after s)) :=
      .of_tables rfl rfl (Context.declareAll_nil _).symm
    have hboth := hresolve.trans hchecked
    have hinvoke := onward_invoke env rs (hboth.forbidsLocals_eq.trans hfree)
      callee.contract receiver args ty span
    rw [hboth.types_eq] at hinvoke
    exact hboth.trans hinvoke

theorem onward_invokeRef {r : MemberRef} (hr : r ∈ rs) (hs : s.KeepsApart env rs)
    (hfree : s.forbidsLocals = false) (receiver : Option Operand) (ty : TypeRef) (span : Span) :
    s.Onward env rs [] ((invokeRef env r receiver [] ty span).after s) := by
  have hresolve := onward_resolve hr hs span
  unfold invokeRef
  rw [after_bind]
  cases (resolve env r span).answer s with
  | none => exact hresolve
  | some callee =>
    have hinvoke := onward_invoke env rs (hresolve.forbidsLocals_eq.trans hfree)
      callee.contract receiver [] ty span
    rw [outLocals_nil] at hinvoke
    exact hresolve.trans hinvoke

theorem onward_readProperty {r : MemberRef} (hr : r ∈ rs) (hs : s.KeepsApart env rs)
    (hfree : s.forbidsLocals = false) (receiver : Option Operand) (ty : TypeRef) (span : Span) :
    s.Onward env rs [] ((readProperty env r receiver [] ty span).after s) := by
  have hresolve := onward_resolve hr hs span
  unfold readProperty
  rw [after_bind]
  cases (resolve env r span).answer s with
  | none => exact hresolve
  | some callee =>
    have hinvoke := onward_invoke env rs (hresolve.forbidsLocals_eq.trans hfree)
      callee.contract receiver [] ty span
    rw [outLocals_nil] at hinvoke
    exact hresolve.trans (hinvoke.trans (onward_copied callee.contract receiver ty span _))

end Walk

namespace WalkState.SameCalls

variable {env : Surroundings} {rs : List MemberRef} {s t : WalkState}

/-- Calls of the references yield the same. -/
theorem callPair_eq (h : SameCalls env rs s t) {r : MemberRef} (hr : r ∈ rs)
    (receiver : Option Operand) (args : List Operand) (ty : TypeRef) :
    Walk.callPair t env r receiver args ty = Walk.callPair s env r receiver args ty := by
  rw [Walk.callPair, Walk.callPair, h.contracts r hr, h.types_eq]

/-- They declare the same in place. -/
theorem callLocals_eq (h : SameCalls env rs s t) {r : MemberRef} (hr : r ∈ rs)
    (receiver : Option Operand) (args : List Operand) :
    Walk.callLocals t env r receiver args = Walk.callLocals s env r receiver args := by
  rw [Walk.callLocals, Walk.callLocals, h.contracts r hr, h.types_eq]

/-- Reads through them yield the same. -/
theorem readPair_eq (h : SameCalls env rs s t) {r : MemberRef} (hr : r ∈ rs) {op op' : Operand}
    (hop : op.core = op'.core) (ty : TypeRef) :
    Walk.readPair t env r op ty = Walk.readPair s env r op' ty := by
  rw [Walk.readPair, Walk.readPair, h.contracts r hr, h.types_eq]
  simp only [Contract.getterPair_congr _ _ hop]

end WalkState.SameCalls

namespace Walk

variable {env : Surroundings} {rs : List MemberRef} {s : WalkState}

/-! ## Expressions -/

/-- Outside of expression trees, an expression yields what its form does. -/
theorem answer_checkExpr (htree : s.ctx.inExpressionTree = false) (id : NodeId) (kind : ExprKind)
    (ty : TypeRef) (span : Span) :
    (checkExpr env ⟨id, kind, ty, span⟩).answer s = (checkForm env id ty span kind).answer s := by
  rw [checkExpr, answer_bind, answer_get, after_get]
  simp only [htree, Bool.false_and]
  rfl

/-- And then it is recorded. -/
theorem onward_record (env : Surroundings) (rs : List MemberRef)
    (htree : s.ctx.inExpressionTree = false) (id : NodeId) (kind : ExprKind)
    (ty : TypeRef) (span : Span) : ((checkForm env id ty span kind).after s).Onward env rs []
      ((checkExpr env ⟨id, kind, ty, span⟩).after s) := by
  rw [checkExpr, after_bind, answer_get, after_get]
  simp only [htree, Bool.false_and]
  exact .of_tables rfl rfl (Context.declareAll_nil _).symm

/-- An expression as the receiver of a call. -/
def receiverOf (env : Surroundings) (e : Expr) : Walk Operand :=
  operandOf env e .none (checkExpr env e)

/-- What an expression yields as a receiver, unless it is a variable that is declared in place. -/
theorem run_receiverOf (env : Surroundings) (s : WalkState) {e : Expr} (he : e.isOutVar = false) :
    (receiverOf env e).answer s = .ofExpr e ((checkExpr env e).answer s)
        ((((checkExpr env e).after s).types env).stackOnly e.ty) .none false ∧
      (receiverOf env e).after s = (checkExpr env e).after s := by
  obtain ⟨id, kind, ty, span⟩ := e
  cases kind with
  | outVar name => simp [Expr.isOutVar] at he
  | _ => exact ⟨rfl, rfl⟩

/-- A read of a field. -/
theorem run_field (env : Surroundings) (rs : List MemberRef)
    (htree : s.ctx.inExpressionTree = false) (e : Expr) (id : NodeId)
    (owner : TypeRef) (name : String) (ty : TypeRef) (span : Span) :
    (checkExpr env ⟨id, .field (some e) owner name, ty, span⟩).answer s =
        (((checkExpr env e).after s).types env).fieldPair
          (some ((checkExpr env e).answer s, e.ty)) owner name ty ∧
      ((checkExpr env e).after s).Onward env rs []
        ((checkExpr env ⟨id, .field (some e) owner name, ty, span⟩).after s) := by
  have hform : checkForm env id ty span (.field (some e) owner name) =
      checkExpr env e >>= fun pair => get >>= fun s : WalkState =>
        pure ((s.types env).fieldPair (some (pair, e.ty)) owner name ty) := by
    rw [checkForm, checkOptional]
    rfl
  have hrecord := onward_record env rs htree id (.field (some e) owner name) ty span
  rw [answer_checkExpr htree, hform]
  rw [hform] at hrecord
  exact ⟨rfl, hrecord⟩

/-- A read of a property. -/
theorem run_property (htree : s.ctx.inExpressionTree = false) {e : Expr} {getter : MemberRef}
    (hr : getter ∈ rs) (hs : ((receiverOf env e).after s).KeepsApart env rs)
    (hfree : ((receiverOf env e).after s).forbidsLocals = false) (id : NodeId) (ty : TypeRef)
    (span : Span) :
    let t := (receiverOf env e).after s
    (checkExpr env ⟨id, .property (some e) getter [], ty, span⟩).answer s =
        readPair t env getter ((receiverOf env e).answer s) ty ∧
      t.Onward env rs []
        ((checkExpr env ⟨id, .property (some e) getter [], ty, span⟩).after s) := by
  have hform : checkForm env id ty span (.property (some e) getter []) =
      receiverOf env e >>= fun op => readProperty env getter (some op) [] ty span := by
    rw [checkForm, checkReceiver, checkArgs]
    rfl
  have hrecord := onward_record env rs htree id (.property (some e) getter []) ty
    span
  rw [answer_checkExpr htree, hform, answer_bind]
  rw [hform, after_bind] at hrecord
  exact ⟨answer_readProperty hfree _ _ _ _, (onward_readProperty hr hs hfree _ _ _).trans hrecord⟩

/-- No arguments yield no operands. -/
theorem run_checkArgs_nil (env : Surroundings) (rs : List MemberRef) (s : WalkState) :
    (checkArgs env []).answer s = [] ∧ s.Onward env rs [] ((checkArgs env []).after s) := by
  rw [checkArgs]
  exact ⟨rfl, .refl env rs s⟩

/-- The call of a method on a receiver, as an expression. -/
theorem run_call (htree : s.ctx.inExpressionTree = false) {e : Expr} {method : MemberRef}
    (hr : method ∈ rs) (hs : ((receiverOf env e).after s).KeepsApart env rs)
    (hfree : ((receiverOf env e).after s).forbidsLocals = false)
    {args : List Arg} {ops : List Operand}
    (hargs : (checkArgs env args).answer ((receiverOf env e).after s) = ops ∧
      ((receiverOf env e).after s).Onward env rs []
        ((checkArgs env args).after ((receiverOf env e).after s)))
    (id : NodeId) (typeArgs : List TypeRef) (ty : TypeRef) (span : Span) :
    let t := (receiverOf env e).after s
    let op := (receiverOf env e).answer s
    (checkExpr env ⟨id, .call (some e) method typeArgs args, ty, span⟩).answer s =
        callPair t env method (some op) ops ty ∧
      t.Onward env rs (callLocals t env method (some op) ops)
        ((checkExpr env ⟨id, .call (some e) method typeArgs args, ty, span⟩).after s) := by
  intro t op
  obtain ⟨hops, hargs⟩ := hargs
  have hform : checkForm env id ty span (.call (some e) method typeArgs args) =
      receiverOf env e >>= fun op => checkArgs env args >>= fun ops =>
        callOver env method typeArgs (some op) ops ty span := by
    rw [checkForm, checkReceiver]
    rfl
  have hrecord := onward_record env rs htree id (.call (some e) method typeArgs args)
    ty span
  rw [hform, after_bind, after_bind] at hrecord
  rw [answer_checkExpr htree, hform, answer_bind, answer_bind, answer_callOver]
  have hcall := onward_callOver hr (hargs.keepsApart hs) (hargs.forbidsLocals_eq.trans hfree)
    typeArgs (some op) ops ty span
  rw [hargs.callLocals_eq hr] at hcall
  rw [hops]
  rw [hops] at hrecord
  have hall := hargs.trans (hcall.trans hrecord)
  rw [List.nil_append, List.append_nil] at hall
  exact ⟨hargs.callPair_eq hr (some op) ops ty, hall⟩

/-- A variable that is declared in the same function has the pair of its declaration. -/
theorem run_var (env : Surroundings) (rs : List MemberRef)
    (htree : s.ctx.inExpressionTree = false) {name : String} {info : LocalInfo}
    (h : s.ctx.lookup name = some ⟨info, none⟩) (id : NodeId) (ty : TypeRef) (span : Span) :
    (checkExpr env ⟨id, .var name, ty, span⟩).answer s = info.pair ∧
      s.Onward env rs [] ((checkExpr env ⟨id, .var name, ty, span⟩).after s) := by
  have hread : (readVariable env name span).answer s = info.pair ∧
      (readVariable env name span).after s = s := by
    unfold readVariable
    rw [answer_bind, after_bind, answer_get, after_get, h]
    exact ⟨rfl, rfl⟩
  have hrecord := onward_record env rs htree id (.var name) ty span
  rw [checkForm, hread.2] at hrecord
  rw [answer_checkExpr htree, checkForm]
  exact ⟨hread.1, hrecord⟩

/-- What is no variable is given up. -/
theorem run_unknown (rs : List MemberRef) (htree : s.ctx.inExpressionTree = false) {name : String}
    (h : s.ctx.lookup name = none)
    (hparam : ∀ q ∈ env.member.owner.primaryParams, q.name ≠ name) (id : NodeId) (ty : TypeRef)
    (span : Span) : (checkExpr env ⟨id, .var name, ty, span⟩).answer s = .invalid ∧
      s.Onward env rs [] ((checkExpr env ⟨id, .var name, ty, span⟩).after s) := by
  have hnone : env.member.owner.primaryParams.find? (fun q => decide (q.name = name)) = none :=
    List.find?_eq_none.2 fun q hq => by simpa using hparam q hq
  have hread : (readVariable env name span).answer s = .invalid ∧
      s.Onward env rs [] ((readVariable env name span).after s) := by
    unfold readVariable
    rw [answer_bind, after_bind, answer_get, after_get, h, hnone]
    exact ⟨rfl, .of_tables rfl rfl (Context.declareAll_nil _).symm⟩
  have hrecord := onward_record env rs htree id (.var name) ty span
  rw [checkForm] at hrecord
  rw [answer_checkExpr htree, checkForm]
  exact ⟨hread.1, hread.2.trans hrecord⟩

/-- The pair of an ordinary variable with an initial value of the given pair. -/
def ordinaryPair (stackOnly : Bool) (pair : ScopePair) : ScopePair :=
  if pair.isInvalid then .invalid
  else ⟨if stackOnly then pair.value else .unlimited, .currentMethod, false⟩

theorem localPair_ordinary (name : String) (ty : TypeRef) (init : Option Expr) (span : Span)
    (stackOnly : Bool) (pair : ScopePair) :
    localPair ⟨name, ty, .none, false, init, span⟩ stackOnly (some pair) =
      ordinaryPair stackOnly pair := by
  cases stackOnly <;> rfl

/-- A variable is given up if its initial value was. -/
theorem ordinaryPair_of_invalid {stackOnly : Bool} {pair : ScopePair}
    (h : pair.isInvalid = true) : ordinaryPair stackOnly pair = .invalid :=
  if_pos h

/-- A variable takes over the level of its initial value, and references to it stay in the
method. -/
theorem ordinaryPair_eq_withRef {stackOnly : Bool} {pair : ScopePair}
    (hvalid : pair.isInvalid = false) (hvalue : stackOnly = false → pair.value = .unlimited) :
    ordinaryPair stackOnly pair = pair.withRef .currentMethod := by
  obtain ⟨value, ref, isInvalid⟩ := pair
  obtain rfl : isInvalid = false := hvalid
  cases stackOnly with
  | false =>
    obtain rfl : value = .unlimited := hvalue rfl
    rfl
  | true => rfl

/-- The declaration of an ordinary variable with an initial value. -/
theorem after_declare {name : String} {ty : TypeRef} {e : Expr} {declSpan : Span}
    (hshape : (s.types env).typeErrors declSpan ty = []) (hfree : s.forbidsLocals = false)
    (id : NodeId) (span : Span) :
    let types := ((checkExpr env e).after s).types env
    (checkStmt env ⟨id, .declare ⟨name, ty, .none, false, some e, declSpan⟩, span⟩).after s =
      ((checkExpr env e).after s).declaring (.ordinary types name ty
        (ordinaryPair (types.stackOnly ty) ((checkExpr env e).answer s))) := by
  intro types
  have hlocal := after_checkLocal ⟨name, ty, .none, false, some e, declSpan⟩ hshape fun _ => hfree
  rw [checkInit] at hlocal
  rw [checkStmt, ← localPair_ordinary name ty (some e) declSpan]
  exact hlocal

end Walk

end StackEscape
