import StackEscape.Proofs.MemberWalk

/-!
# Both sides of a contract

What a body may return is decided by the levels of its parameters; what a call may assume is decided
by the sources of its result. If a body may return what some reads of fields lead to, then a call is
no wider than the same reads from its operand.

## Main definitions

* `StackEscape.FieldRead`, `Expr.reads`, `TypeEnv.readPair` — access paths and their pairs.
* `StackEscape.WalkState.Binds` — a state in the body of a declaration with a contract.
* `StackEscape.ScopePair.Forwards` — a level is no wider than what may be returned.
* `StackEscape.Contract.Fits` — the operands of a call.

## Main results

* `StackEscape.ScopePair.Forwards.readPair` — reads of fields keep what may be returned.
* `StackEscape.Contract.Fits.forwards` — what a call is derived from is no wider than its
  operands.
* `StackEscape.Program.binds_bodyEntry`, `StackEscape.Walk.binds_localFunction` — bodies are walked
  with everything bound as the contract says.
* `StackEscape.Walk.invoke_le_readPair` — a call is no wider than what its body returns.

## Implementation notes

No type on a path is a type parameter, as is the case in declarations that are not generic. So the
types mean the same in the body and at the call.
-/

set_option autoImplicit false

namespace StackEscape

/-! ## Access paths -/

/-- A read of an instance field. -/
structure FieldRead where
  /-- The identifier of the expression. -/
  id : NodeId
  /-- The type that declares the field. -/
  owner : TypeRef
  /-- The field's name. -/
  name : String
  /-- Its type. -/
  ty : TypeRef
  /-- Where it stands. -/
  span : Span

/-- The expression that reads some fields, one after the other. -/
def Expr.reads (root : Expr) : List FieldRead → Expr
  | [] => root
  | f :: rest => Expr.reads ⟨f.id, .field (some root) f.owner f.name, f.ty, f.span⟩ rest

/-- The pair that some reads of fields lead to. -/
def TypeEnv.readPair (types : TypeEnv) (pair : ScopePair) (ty : TypeRef) :
    List FieldRead → ScopePair
  | [] => pair
  | f :: rest => types.readPair (types.fieldPair (some (pair, ty)) f.owner f.name f.ty) f.ty rest

/-- Does the type mean the same wherever it stands? Type parameters do not. -/
def TypeRef.isFixed : TypeRef → Bool
  | .param _ => false
  | _ => true

/-- A type that is no type parameter has the same capability everywhere in a program. -/
theorem TypeEnv.capability_of_isFixed {e f : TypeEnv} (hp : e.program = f.program) {ty : TypeRef}
    (h : ty.isFixed = true) : e.capability ty = f.capability ty := by
  cases ty with
  | param name => simp [TypeRef.isFixed] at h
  | _ => simp [capability, Capabilities.of, hp]

/-! ## What may be returned -/

/-- As far as the one pair may be returned, the level is no wider than the other pair. -/
structure ScopePair.Forwards (level : Level) (inside outside : ScopePair) : Prop where
  /-- Neither of them was given up. -/
  inside_valid : inside.isInvalid = false
  /-- Neither of them was given up. -/
  outside_valid : outside.isInvalid = false
  /-- So it is for references. -/
  ref : .returnOnly ≤ inside.ref → level ≤ outside.ref
  /-- So it is for values. -/
  value : .returnOnly ≤ inside.value → level ≤ outside.value

namespace ScopePair.Forwards

variable {level : Level} {inside outside : ScopePair} {e f : TypeEnv}

/-- A read of a field keeps what may be returned. -/
theorem fieldPair (h : Forwards level inside outside) (hp : e.program = f.program) {ty : TypeRef}
    (hty : ty.isFixed = true) {fieldTy : TypeRef} (hfield : fieldTy.isFixed = true)
    (owner : TypeRef) (name : String) :
    Forwards level (e.fieldPair (some (inside, ty)) owner name fieldTy)
      (f.fieldPair (some (outside, ty)) owner name fieldTy) := by
  have hheap : e.isHeapType ty = f.isHeapType ty := by
    simp only [TypeEnv.isHeapType, TypeEnv.capability_of_isFixed hp hty]
  have hstack : e.stackOnly fieldTy = f.stackOnly fieldTy := by
    simp only [TypeEnv.stackOnly, TypeEnv.capability_of_isFixed hp hfield]
  simp only [TypeEnv.fieldPair, h.inside_valid, h.outside_valid, hheap, hstack, hp]
  cases f.isHeapType ty with
  | true => exact ⟨rfl, rfl, fun _ => Level.le_unlimited _, fun _ => Level.le_unlimited _⟩
  | false =>
    refine ⟨rfl, rfl, ?_, ?_⟩
    · -- A reference field lives as long as the value that holds it.
      cases f.program.field? owner name with
      | none => exact h.ref
      | some field =>
        cases hr : field.decl.isRef with
        | true => simpa [hr] using h.value
        | false => simpa [hr] using h.ref
    · cases f.stackOnly fieldTy with
      | true => exact h.value
      | false => exact fun _ => Level.le_unlimited _

/-- Reads of fields keep what may be returned. -/
theorem readPair (hp : e.program = f.program) (fs : List FieldRead)
    (hfs : ∀ r ∈ fs, r.ty.isFixed = true) :
    ∀ {inside outside : ScopePair} {ty : TypeRef}, ty.isFixed = true →
      Forwards level inside outside →
        Forwards level (e.readPair inside ty fs) (f.readPair outside ty fs) := by
  induction fs with
  | nil => exact fun _ h => h
  | cons r rest ih =>
    intro inside outside ty hty h
    have hr := hfs r (List.mem_cons_self ..)
    exact ih (fun r' hr' => hfs r' (List.mem_cons_of_mem _ hr')) hr
      (h.fieldPair hp hty hr r.owner r.name)

end ScopePair.Forwards

/-! ## Sources -/

namespace ParamContract

/-- A parameter that may be returned by reference is a source by reference, unless it is `out`. -/
theorem ref_mem_vias {param : Param} {stackOnly : Bool} (hout : param.refKind ≠ .out)
    (h : .returnOnly ≤ (ofParam param stackOnly).ref) :
    Via.ref ∈ (ofParam param stackOnly).vias := by
  obtain ⟨name, ty, refKind, isScoped, attrs, span⟩ := param
  change .returnOnly ≤ (levels ⟨name, ty, refKind, isScoped, attrs, span⟩ stackOnly).2 at h
  cases refKind with
  | none =>
    -- A reference to a parameter that is passed by value never leaves.
    have hconfined : (levels ⟨name, ty, .none, isScoped, attrs, span⟩ stackOnly).2 =
        .currentMethod := by
      simp only [levels]
      split <;> rfl
    rw [hconfined] at h
    exact absurd h (by decide)
  | out => exact absurd rfl hout
  | ref | inRef | refReadonly =>
    cases isScoped with
    | true => exact absurd h (by simp [levels]; decide)
    | false => simp [vias, ofParam, RefKind.isByRef]

/-- A stack-only parameter of which the value may be returned is a source by value, unless it is
`out`. -/
theorem value_mem_vias {param : Param} (hout : param.refKind ≠ .out)
    (h : .returnOnly ≤ (ofParam param true).value) : Via.value ∈ (ofParam param true).vias := by
  obtain ⟨name, ty, refKind, isScoped, attrs, span⟩ := param
  change .returnOnly ≤ (levels ⟨name, ty, refKind, isScoped, attrs, span⟩ true).1 at h
  cases refKind with
  | none =>
    cases isScoped with
    | true => exact absurd h (by simp [levels]; decide)
    | false => simp [vias, ofParam]
  | out => exact absurd rfl hout
  | ref | inRef | refReadonly => simp [vias, ofParam]

end ParamContract

namespace Contract

/-- What is promised of an input. -/
def input? (c : Contract) : Input → Option ParamContract
  | .receiver => c.receiver
  | .param i => c.params[i]?

/-- The operands are those of a call of what the contract is about. How they are passed does not
matter here. -/
structure Fits (c : Contract) (receiver : Option Operand) (args : List Operand) : Prop where
  /-- None of them was given up. -/
  valid : ∀ op ∈ receiver.toList ++ args, op.pair.isInvalid = false
  /-- None of them is a variable declared in place. -/
  settled : ∀ op ∈ receiver.toList ++ args, op.fresh = false
  /-- Values that are not stack-only may go anywhere. -/
  free : ∀ op ∈ receiver.toList ++ args, op.stackOnly = false → op.pair.value = .unlimited
  /-- They are stack-only where the contract says so. -/
  stackOnly : ∀ input q op, c.input? input = some q → operand? receiver args input = some op →
    op.stackOnly = q.stackOnly

/-- The operand of an input is one of the operands. -/
theorem mem_of_operand? {receiver : Option Operand} {args : List Operand} {input : Input}
    {op : Operand} (h : operand? receiver args input = some op) : op ∈ receiver.toList ++ args := by
  cases input with
  | receiver => exact List.mem_append_left _ (Option.mem_toList.2 h)
  | param i => exact List.mem_append_right _ (List.mem_of_getElem? h)

/-- What a parameter contributes. -/
theorem mem_paramSources {params : List ParamContract} {i : Nat} {q : ParamContract}
    (hq : params[i]? = some q) {via : Via} (h : via ∈ q.vias) :
    (⟨.param i, via⟩ : ReturnSource) ∈ paramSources params := by
  refine List.mem_flatMap.2 ⟨(q, i), List.mem_zipIdx_iff_getElem?.2 hq, ?_⟩
  exact List.mem_map.2 ⟨via, h, rfl⟩

/-- What a call is derived from is no wider than any of its sources. -/
theorem derivedLevel_le {c : Contract} {receiver : Option Operand} {args : List Operand}
    {source : ReturnSource} (hs : source ∈ c.returnSources) {level : Level}
    (hl : sourceLevel receiver args source = some level) :
    c.derivedLevel receiver args ≤ level := by
  have main (levels : List Level) : ∀ start : Level,
      levels.foldl Level.narrower start ≤ start ∧
        ∀ l ∈ levels, levels.foldl Level.narrower start ≤ l := by
    induction levels with
    | nil => exact fun start => ⟨Level.le_refl _, by simp⟩
    | cons l rest ih =>
      intro start
      obtain ⟨hstart, hrest⟩ := ih (start.narrower l)
      refine ⟨Level.le_trans hstart (Level.narrower_le_left _ _), fun l' hl' => ?_⟩
      rcases List.mem_cons.1 hl' with rfl | hl'
      · exact Level.le_trans hstart (Level.narrower_le_right _ _)
      · exact hrest l' hl'
  exact (main _ .unlimited).2 level (List.mem_filterMap.2 ⟨source, hs, hl⟩)

/-- A reference that is returned has the level of what it is derived from. -/
theorem ref_resultPair {c : Contract} (h : c.returnsByRef = true) (stackOnly : Bool)
    (derived : Level) : (c.resultPair stackOnly derived).ref = derived := by
  simp [resultPair, h]

/-- A stack-only value that is returned has the level of what it is derived from. -/
theorem value_resultPair (c : Contract) (derived : Level) :
    (c.resultPair true derived).value = derived := by
  cases h : c.returnsByRef <;> simp [resultPair, h]

section Build

variable {caps : Capabilities} {p : Program} {owner : TypeDecl} {decl : FnDecl} {key : String}
  {scope : GenericScope} {isLocal : Bool} {q : ParamContract}

/-- The declaration of a parameter of a contract. -/
theorem exists_param_of_getElem? {i : Nat}
    (hq : (build caps p owner decl key scope isLocal).params[i]? = some q) :
    ∃ param stackOnly, q = ParamContract.ofParam param stackOnly := by
  obtain ⟨param, _, rfl⟩ := List.mem_map.1 (List.mem_of_getElem? hq)
  exact ⟨param, _, rfl⟩

/-- The receiver of a contract is that of an instance member. -/
theorem receiver_of_build (hq : (build caps p owner decl key scope isLocal).receiver = some q) :
    q = ParamContract.receiver owner decl ∧
      (build caps p owner decl key scope isLocal).returnSources =
        receiverSources decl ++
          paramSources (build caps p owner decl key scope isLocal).params := by
  simp only [build] at hq ⊢
  split at hq
  · next h => exact ⟨(Option.some.inj hq).symm, by rw [if_pos h]⟩
  · simp at hq

/-- An input that may be returned by reference is a source by reference. -/
theorem ref_mem_returnSources {input : Input}
    (hq : (build caps p owner decl key scope isLocal).input? input = some q)
    (hout : q.refKind ≠ .out) (h : .returnOnly ≤ q.ref) :
    (⟨input, .ref⟩ : ReturnSource) ∈
      (build caps p owner decl key scope isLocal).returnSources := by
  cases input with
  | receiver =>
    obtain ⟨rfl, hsources⟩ := receiver_of_build hq
    have hunscoped : decl.isUnscoped = true := by
      by_contra hnot
      have hconfined : (ParamContract.receiver owner decl).ref = .currentMethod := by
        simp [ParamContract.receiver, ParamContract.receiverRef, hnot]
      rw [hconfined] at h
      exact absurd h (by decide)
    rw [hsources]
    exact List.mem_append_left _ (by simp [receiverSources, hunscoped])
  | param i =>
    obtain ⟨param, stackOnly, rfl⟩ := exists_param_of_getElem? hq
    exact List.mem_append_right _ (mem_paramSources hq (ParamContract.ref_mem_vias hout h))

/-- A stack-only input of which the value may be returned is a source by value. -/
theorem value_mem_returnSources {input : Input}
    (hq : (build caps p owner decl key scope isLocal).input? input = some q)
    (hout : q.refKind ≠ .out) (hstack : q.stackOnly = true) (h : .returnOnly ≤ q.value) :
    (⟨input, .value⟩ : ReturnSource) ∈
      (build caps p owner decl key scope isLocal).returnSources := by
  cases input with
  | receiver =>
    obtain ⟨_, hsources⟩ := receiver_of_build hq
    rw [hsources]
    exact List.mem_append_left _ (by simp [receiverSources])
  | param i =>
    obtain ⟨param, stackOnly, rfl⟩ := exists_param_of_getElem? hq
    obtain rfl : stackOnly = true := hstack
    exact List.mem_append_right _ (mem_paramSources hq (ParamContract.value_mem_vias hout h))

/-- What a call is derived from is no wider than its operands, as far as the body may return
them. -/
theorem Fits.forwards {receiver : Option Operand} {args : List Operand}
    (h : (build caps p owner decl key scope isLocal).Fits receiver args) {input : Input}
    (hq : (build caps p owner decl key scope isLocal).input? input = some q)
    (hout : q.refKind ≠ .out) {op : Operand} (hop : operand? receiver args input = some op) :
    ScopePair.Forwards ((build caps p owner decl key scope isLocal).derivedLevel receiver args)
      q.pair op.pair := by
  have hmem : op ∈ receiver.toList ++ args := mem_of_operand? hop
  have hfresh : op.fresh = false := h.settled op hmem
  refine ⟨rfl, h.valid op hmem, fun href => ?_, fun hvalue => ?_⟩
  · exact derivedLevel_le (ref_mem_returnSources hq hout href) (by simp [sourceLevel, hop])
  · cases hs : op.stackOnly with
    | false =>
      rw [h.free op hmem hs]
      exact Level.le_unlimited _
    | true =>
      have hstack : q.stackOnly = true := (h.stackOnly input q op hq hop).symm.trans hs
      exact derivedLevel_le (value_mem_returnSources hq hout hstack hvalue)
        (by simp [sourceLevel, hop, hfresh, hs])

end Build

end Contract

/-! ## The body -/

/-- The expression form that reads an input. -/
def Input.read (q : ParamContract) : Input → ExprKind
  | .receiver => .thisRef
  | .param _ => .var q.name

/-- The state is one in the body of a declaration with the contract: the declaration's function is
the innermost one, and its receiver and parameters are bound as the contract says. -/
structure WalkState.Binds (s : WalkState) (c : Contract) : Prop where
  /-- The innermost function returns as the contract says, and has its receiver. -/
  function : ∃ f, s.ctx.function = some f ∧ f.returnsByRef = c.returnsByRef ∧
    f.returnsStackOnly = c.returnsStackOnly ∧
    ∀ q, c.receiver = some q → f.thisPair = some q.pair
  /-- All parameters are bound. -/
  params : ∀ q ∈ c.params, ∃ found, s.ctx.lookup q.name = some found ∧ found.info.pair = q.pair

namespace Walk

variable {env : Surroundings} {s : WalkState} {c : Contract} {pair : ScopePair}

/-- The walk reports an error, or it yields the pair and does no more than record. -/
def Finds (m : Walk ScopePair) (s : WalkState) (pair : ScopePair) : Prop :=
  (∃ error errors, (m.after s).errors = s.errors ++ error :: errors) ∨
    (m.answer s = pair ∧ ∃ facts, m.after s = { s with facts })

theorem Finds.look {k : WalkState → Walk ScopePair} (h : (k s).Finds s pair) :
    (get >>= k).Finds s pair := h

theorem Finds.ite {p : Prop} [Decidable p] {m n : Walk ScopePair} (hm : p → m.Finds s pair)
    (hn : ¬ p → n.Finds s pair) : (if p then m else n).Finds s pair := by
  split
  · next h => exact hm h
  · next h => exact hn h

/-- The walk over an expression finds what the walk over its form finds. -/
theorem Finds.expr {id : NodeId} {kind : ExprKind} {ty : TypeRef} {span : Span}
    (h : (checkForm env id ty span kind).Finds s pair) :
    (checkExpr env ⟨id, kind, ty, span⟩).Finds s pair := by
  rw [checkExpr]
  refine Finds.look (Finds.ite (fun _ => ?_) fun _ => ?_)
  · exact Or.inl ⟨⟨.expressionTree ty.display, span⟩, [], rfl⟩
  · rcases h with ⟨error, errors, he⟩ | ⟨hanswer, facts, hafter⟩
    · exact Or.inl ⟨error, errors, he⟩
    · refine Or.inr ⟨hanswer, facts.record id pair, ?_⟩
      change { (checkForm env id ty span kind).after s with
        facts := ((checkForm env id ty span kind).after s).facts.record id
          ((checkForm env id ty span kind).answer s) } = _
      rw [hafter, hanswer]

/-- A read of a field finds what the field's pair is. -/
theorem Finds.field {e : Expr} (h : (checkExpr env e).Finds s pair) (r : FieldRead) :
    (checkExpr env ⟨r.id, .field (some e) r.owner r.name, r.ty, r.span⟩).Finds s
      ((s.types env).fieldPair (some (pair, e.ty)) r.owner r.name r.ty) := by
  refine Finds.expr ?_
  rw [checkForm, checkOptional]
  rcases h with ⟨error, errors, he⟩ | ⟨hanswer, facts, hafter⟩
  · exact Or.inl ⟨error, errors, he⟩
  · refine Or.inr ⟨?_, facts, hafter⟩
    change (((checkExpr env e).after s).types env).fieldPair
      (some ((checkExpr env e).answer s, e.ty)) r.owner r.name r.ty = _
    rw [hafter, hanswer]
    rfl

/-- Reads of fields find what they lead to. -/
theorem Finds.reads {e : Expr} (h : (checkExpr env e).Finds s pair) (fs : List FieldRead) :
    (checkExpr env (e.reads fs)).Finds s ((s.types env).readPair pair e.ty fs) := by
  induction fs generalizing e pair with
  | nil => exact h
  | cons r rest ih => exact ih (h.field r)

/-- A read of a variable finds the pair that the variable was bound with, also in a nested
function. -/
theorem Finds.variable {name : String} {found : Lookup} (h : s.ctx.lookup name = some found)
    (id : NodeId) (ty : TypeRef) (span : Span) :
    (checkForm env id ty span (.var name)).Finds s found.info.pair := by
  rw [checkForm]
  unfold readVariable
  refine Finds.look ?_
  simp only [h]
  refine Finds.ite (fun _ => ?_) fun _ => Or.inr ⟨rfl, s.facts, rfl⟩
  exact Or.inl ⟨⟨.closureCapture found.info.name found.info.ty.display, span⟩, [], rfl⟩

/-- The walk over an input finds the pair that its contract says. -/
theorem Finds.input (hs : s.Binds c) {input : Input} {q : ParamContract}
    (hq : c.input? input = some q) (id : NodeId) (ty : TypeRef) (span : Span) :
    (checkExpr env ⟨id, input.read q, ty, span⟩).Finds s q.pair := by
  refine Finds.expr ?_
  cases input with
  | receiver =>
    obtain ⟨f, hf, _, _, hthis⟩ := hs.function
    have hpair : s.thisPair = some q.pair := by
      rw [WalkState.thisPair, hf]
      exact hthis q hq
    rw [Input.read, checkForm]
    unfold readThis
    refine Finds.look ?_
    simp only [hpair]
    refine Finds.ite (fun _ => ?_) fun _ => Or.inr ⟨rfl, s.facts, rfl⟩
    exact Or.inl ⟨⟨.closureCapture "this" env.member.owner.name, span⟩, [], rfl⟩
  | param i =>
    obtain ⟨found, hfound, hpair⟩ := hs.params q (List.mem_of_getElem? hq)
    have hread : (checkForm env id ty span (.var q.name)).Finds s found.info.pair :=
      Finds.variable hfound id ty span
    rwa [hpair] at hread

/-- What a return adds to the errors. -/
theorem errors_checkReturned (value : Expr) (pair : ScopePair) (s : WalkState) :
    ((checkReturned value pair).after s).errors = s.errors ++
      ((s.ctx.function.bind fun f => returnError s.facts f value pair).toList.map
        fun kind => ⟨kind, value.span⟩) := by
  unfold checkReturned
  simp only [after_bind, answer_get, after_get]
  cases s.ctx.function with
  | none => exact (List.append_nil _).symm
  | some f =>
    change (after (Functor.discard (passes (returnError s.facts f value pair) _)) s).errors =
      s.errors ++ (returnError s.facts f value pair).toList.map _
    cases returnError s.facts f value pair with
    | none => exact (List.append_nil _).symm
    | some kind => rfl

/-- If the body that returns an expression is accepted, then the pair that is found for the
expression lives as long as the caller may look at it. -/
theorem returnable_of_accepted {e : Expr} (h : (checkExpr env e).Finds s pair)
    (hv : pair.isInvalid = false) {f : FunctionFrame} (hf : s.ctx.function = some f) {id : NodeId}
    {span : Span} (he : ((checkStmt env ⟨id, .ret (some e), span⟩).after s).errors = s.errors) :
    (f.returnsByRef = true → .returnOnly ≤ pair.ref) ∧
      (f.returnsStackOnly = true → .returnOnly ≤ pair.value) := by
  rw [checkStmt, after_bind, errors_checkReturned] at he
  rcases h with ⟨error, errors, herrors⟩ | ⟨hanswer, facts, hafter⟩
  · rw [herrors, List.append_assoc, List.append_right_eq_self] at he
    simp at he
  · rw [hanswer, hafter, List.append_right_eq_self] at he
    have hnone : returnError facts f e pair = none := by simpa [hf] using he
    exact returnable_of_returnError hv hnone

/-- A call of a valid contract with valid operands yields what its sources say. -/
theorem result_invoke {receiver : Option Operand} {args : List Operand} (hc : c.valid = true)
    (hv : ∀ op ∈ receiver.toList ++ args, op.pair.isInvalid = false) (ty : TypeRef) (span : Span) :
    ((invoke env c receiver args ty span).answer s).result =
      c.resultPair ((s.types env).stackOnly ty) (c.derivedLevel receiver args) := by
  have hany : ((receiver.toList ++ args).any fun op => op.pair.isInvalid) = false :=
    List.any_eq_false.2 fun op hop => by simp [hv op hop]
  simp only [invoke, hc, hany]
  rfl

end Walk

/-! ## Bound parameters -/

/-- Variables with distinct names are all found. -/
theorem Context.lookup_of_nodup {c : Context} (hs : c.scopes ≠ []) {infos : List LocalInfo}
    (hnd : (infos.map LocalInfo.name).Nodup) {info : LocalInfo} (h : info ∈ infos) :
    (c.declareAll infos).lookup info.name = some ⟨info, none⟩ := by
  obtain ⟨top, rest, htop⟩ := List.exists_cons_of_ne_nil hs
  have hsome : (infos.reverse.find? fun l => decide (l.name = info.name)).isSome :=
    List.find?_isSome.2 ⟨info, List.mem_reverse.2 h, by simp⟩
  obtain ⟨found, hfound⟩ := Option.isSome_iff_exists.1 hsome
  have hname : found.name = info.name := by simpa using List.find?_some hfound
  have hmem : found ∈ infos := List.mem_reverse.1 (List.mem_of_find?_eq_some hfound)
  obtain rfl : found = info := List.inj_on_of_nodup_map hnd hmem h hname
  have hscope : (c.declareAll infos).scopes =
      { top with locals := top.locals ++ infos } :: rest := by
    rw [declareAll, modifyTop, htop]
  rw [lookup, hscope, lookupIn, lastLocal, List.reverse_append, List.find?_append, hfound]
  rfl

namespace Walk

variable {env : Surroundings} {s : WalkState} {checkShapes : Bool}

/-- A parameter as it is bound. -/
def boundParam (param : Param) (contract : ParamContract) : LocalInfo :=
  { name := param.name, ty := param.ty, pair := contract.pair, stackOnly := contract.stackOnly
    isRef := param.refKind.isByRef, isScoped := param.isScoped, kind := .param }

/-- A well-formed type passes. -/
theorem run_checkShape {ty : TypeRef} {span : Span} (h : (s.types env).typeErrors span ty = []) :
    (checkShape env ty span).answer s = true ∧ (checkShape env ty span).after s = s := by
  unfold checkShape
  simp only [answer_bind, after_bind, answer_get, after_get, h]
  refine ⟨rfl, ?_⟩
  change { s with errors := s.errors ++ [] } = s
  rw [List.append_nil]

/-- Where nothing forbids it, a parameter of a well-formed type is bound as its contract says. -/
theorem after_bindParam (htree : s.ctx.inExpressionTree = false) (hfree : s.forbidsLocals = false)
    {param : Param}
    (hshape : checkShapes = true → (s.types env).typeErrors param.span param.ty = [])
    (contract : ParamContract) :
    (bindParam env checkShapes param contract).after s =
      { s with ctx := s.ctx.declareAll [boundParam param contract] } := by
  unfold bindParam
  cases checkShapes with
  | false =>
    simp [htree, hfree]
    rfl
  | true =>
    obtain ⟨hanswer, hafter⟩ := run_checkShape (hshape rfl)
    simp only [if_true, after_bind, hanswer, hafter]
    simp [htree, hfree]
    rfl

/-- Where nothing forbids it, all parameters are bound as their contracts say. -/
theorem after_bindParams (htree : s.ctx.inExpressionTree = false)
    (hfree : s.forbidsLocals = false) {params : List Param}
    (hshape : checkShapes = true →
      ∀ param ∈ params, (s.types env).typeErrors param.span param.ty = [])
    (f : Param → ParamContract) :
    (bindParams env checkShapes params (params.map f)).after s =
      { s with ctx := s.ctx.declareAll (params.map fun param => boundParam param (f param)) } := by
  induction params generalizing s with
  | nil =>
    rw [List.map_nil, List.map_nil, Context.declareAll_nil]
    rfl
  | cons param rest ih =>
    change (bindParam env checkShapes param (f param) >>= fun _ =>
      bindParams env checkShapes rest (rest.map f)).after s = _
    rw [after_bind, after_bindParam htree hfree fun h => hshape h param (List.mem_cons_self ..), ih]
    · simp
    · simpa using htree
    · simpa [WalkState.forbidsLocals, Context.function] using hfree
    · exact fun h q hq => hshape h q (List.mem_cons_of_mem _ hq)

end Walk

/-- With the parameters of a function bound, everything is bound as its contract says. -/
theorem WalkState.binds_of_ctx {s : WalkState} {c : Contract} {outer : Context} {kind : ScopeKind}
    {frame : FunctionFrame} {params : List Param} {stackOnly : Param → Bool} {decls : List FnDecl}
    (hctx : s.ctx = ((outer.pushFunction kind frame).declareAll (params.map fun param =>
      Walk.boundParam param (.ofParam param (stackOnly param)))).declareFunctions decls)
    (hparams : c.params = params.map fun param => .ofParam param (stackOnly param))
    (hnames : (params.map Param.name).Nodup) (href : frame.returnsByRef = c.returnsByRef)
    (hstack : frame.returnsStackOnly = c.returnsStackOnly)
    (hthis : ∀ q, c.receiver = some q → frame.thisPair = some q.pair) : s.Binds c := by
  refine ⟨⟨frame, ?_, href, hstack, hthis⟩, fun q hq => ?_⟩
  · rw [Context.function, hctx, Context.frames_declareFunctions, Context.frames_declareAll]
    rfl
  · rw [hparams] at hq
    obtain ⟨param, hparam, rfl⟩ := List.mem_map.1 hq
    refine ⟨⟨Walk.boundParam param _, none⟩, ?_, rfl⟩
    rw [hctx, Context.lookup_declareFunctions]
    refine Context.lookup_of_nodup (List.cons_ne_nil _ _) ?_ (List.mem_map_of_mem hparam)
    rwa [List.map_map]

/-- The walk over the body of a member starts in a state with everything bound, unless the member
may be suspended. -/
theorem Program.binds_bodyEntry {p : Program} {runtime : Bool} {T : Tables} {m : Member}
    {body : List Stmt} (hnames : (m.decl.params.map Param.name).Nodup)
    (hasync : m.decl.modifiers.isAsync = false) (hiterator : m.decl.modifiers.isIterator = false)
    (hcontract : p.entryContract T m = Contract.ofMember T.caps p m) :
    (p.bodyEntry runtime T m body).Binds (Contract.ofMember T.caps p m) := by
  have hfree : (p.entry T m).forbidsLocals = false := by
    simp [entry, WalkState.forbidsLocals, Context.ofFrame, Context.pushFunction, Context.pushScope,
      Context.function, FunctionFrame.forbidsStackOnlyLocals, Member.frame, hasync, hiterator]
  have hctx : ((p.bindMember runtime T m).after (p.entry T m)).ctx =
      (Context.ofFrame (m.frame (Contract.ofMember T.caps p m))).declareAll
        (m.decl.params.map fun param => Walk.boundParam param
          (.ofParam param (T.caps.stackOnly p m.innerScope param.ty))) := by
    have hafter : (Walk.bindParams ⟨p, m, runtime⟩ false m.decl.params
        (Contract.ofMember T.caps p m).params).after (p.entry T m) = _ :=
      Walk.after_bindParams rfl hfree (by simp) _
    rw [bindMember, hcontract, hafter, entry, hcontract]
  exact WalkState.binds_of_ctx
    (congrArg (fun ctx => ctx.declareFunctions (directFunctions body)) hctx) rfl hnames rfl rfl
    fun q hq => congrArg (Option.map ParamContract.pair) hq

/-- So does the walk over the body of a local function. -/
theorem Walk.binds_localFunction {env : Surroundings} {s : WalkState} {decl : FnDecl}
    {stmts : List Stmt} (hnames : (decl.params.map Param.name).Nodup)
    (hasync : decl.modifiers.isAsync = false) (hiterator : decl.modifiers.isIterator = false)
    (htree : s.ctx.inExpressionTree = false)
    (hshape : ∀ param ∈ decl.params,
      (WalkState.types { s with generics := s.localScope env decl } env).typeErrors param.span
        param.ty = []) :
    (((bindParams env true decl.params (s.localContract env decl).params).after
      (WalkState.inFunction { s with generics := s.localScope env decl } .localFunction
        (localFrame s decl (s.localContract env decl)))).withFunctions stmts).Binds
          (s.localContract env decl) := by
  let entry : WalkState := WalkState.inFunction { s with generics := s.localScope env decl }
    .localFunction (localFrame s decl (s.localContract env decl))
  have hfree : entry.forbidsLocals = false := by
    simp [entry, WalkState.inFunction, WalkState.forbidsLocals, Context.pushFunction,
      Context.pushScope, Context.function, FunctionFrame.forbidsStackOnlyLocals, localFrame, hasync,
      hiterator]
  have htree' : entry.ctx.inExpressionTree = false := by
    simpa [entry, WalkState.inFunction, Context.inExpressionTree, Context.pushFunction,
      Context.pushScope] using htree
  have hafter : (bindParams env true decl.params (s.localContract env decl).params).after entry =
      _ := after_bindParams htree' hfree (fun _ => hshape) _
  refine WalkState.binds_of_ctx
    (congrArg (fun t : WalkState => t.ctx.declareFunctions (directFunctions stmts)) hafter)
    rfl hnames rfl rfl fun q hq => ?_
  simp [WalkState.localContract, Contract.build] at hq

/-! ## Both sides -/

namespace Walk

variable {env : Surroundings} {s : WalkState} {c : Contract}

/-- If a body that returns what some reads of fields lead to is accepted, then a call is no wider
than the same reads from its operand. -/
theorem invoke_le_readPair {caps : Capabilities} {owner : TypeDecl} {decl : FnDecl} {key : String}
    {scope : GenericScope} {isLocal : Bool}
    (hc : c = Contract.build caps env.program owner decl key scope isLocal)
    (hvalid : c.valid = true) (hret : decl.ret.ty.isFixed = true)
    -- An access path from a parameter or from the receiver.
    {input : Input} {q : ParamContract} (hq : c.input? input = some q) (hout : q.refKind ≠ .out)
    {rootId : NodeId} {rootTy : TypeRef} {rootSpan : Span} (hroot : rootTy.isFixed = true)
    {fs : List FieldRead} (hfs : ∀ r ∈ fs, r.ty.isFixed = true)
    -- The body that returns it is accepted.
    (hs : s.Binds c) {retId : NodeId} {retSpan : Span}
    (haccepted : ((checkStmt env ⟨retId, .ret (some (Expr.reads
      ⟨rootId, input.read q, rootTy, rootSpan⟩ fs)), retSpan⟩).after s).errors = s.errors)
    -- A call somewhere in the same program.
    {caller : Surroundings} (hp : caller.program = env.program) {t : WalkState}
    {receiver : Option Operand} {args : List Operand} (hfits : c.Fits receiver args)
    {op : Operand} (hop : Contract.operand? receiver args input = some op) (span : Span) :
    let result := ((invoke caller c receiver args decl.ret.ty span).answer t).result
    let path := (t.types caller).readPair op.pair rootTy fs
    result.isInvalid = false ∧ (c.returnsByRef = true → result.ref ≤ path.ref) ∧
      (c.returnsStackOnly = true → result.value ≤ path.value) := by
  intro result path
  -- The level that the call is derived from forwards what the body returns.
  have hforwards : ScopePair.Forwards (c.derivedLevel receiver args)
      ((s.types env).readPair q.pair rootTy fs) path := by
    refine .readPair hp.symm fs hfs hroot ?_
    subst hc
    exact hfits.forwards hq hout hop
  obtain ⟨f, hf, href, hstack, _⟩ := hs.function
  obtain ⟨hbyRef, hvalue⟩ := returnable_of_accepted
    ((Finds.input hs hq rootId rootTy rootSpan).reads fs) hforwards.inside_valid hf haccepted
  rw [href] at hbyRef
  rw [hstack] at hvalue
  have hstackOnly : (t.types caller).stackOnly decl.ret.ty = c.returnsStackOnly := by
    subst hc
    have hcap : (t.types caller).capability decl.ret.ty =
        TypeEnv.capability ⟨env.program, caps, scope, env.runtime⟩ decl.ret.ty :=
      TypeEnv.capability_of_isFixed hp hret
    exact congrArg Capability.isStackOnly hcap
  have hresult : result = c.resultPair c.returnsStackOnly (c.derivedLevel receiver args) := by
    rw [← hstackOnly]
    exact result_invoke hvalid hfits.valid _ _
  rw [hresult]
  refine ⟨Contract.resultPair_isInvalid _ _ _, fun hr => ?_, fun hs => ?_⟩
  · rw [Contract.ref_resultPair hr]
    exact hforwards.ref (hbyRef hr)
  · rw [hs, Contract.value_resultPair]
    exact hforwards.value (hvalue hs)

/-- What `content` returns of a slot. -/
theorem invoke_le_readPair_slots :
    let m : Member := ⟨Slots.decl, Slots.content⟩
    let env : Surroundings := ⟨Slots.program, m, true⟩
    let s := Slots.program.bodyEntry true {} m Slots.contentBody
    let op : Operand :=
      ⟨none, "slot", ⟨.callingMethod, .currentMethod, false⟩, true, .ref, false, .zero⟩
    let result :=
      ((invoke env (.ofMember .empty Slots.program m) none [op] .int .zero).answer s).result
    let path := (s.types env).readPair op.pair Slots.slotTy
      [⟨5, Slots.slotTy, "value", .int, .zero⟩]
    ((checkStmts env Slots.contentBody).after s).errors = [] ∧ result.isInvalid = false ∧
      result.ref ≤ path.ref := by
  intro m env s op result path
  have hs : s.Binds (.ofMember .empty Slots.program m) :=
    Program.binds_bodyEntry (by decide) rfl rfl rfl
  have hq : (Contract.ofMember .empty Slots.program m).input? (.param 0) =
      some (.ofParam (Slots.slotParam "slot" .ref false) true) := rfl
  have haccepted : ((checkStmt env ⟨4, .ret (some (Expr.reads
      ⟨6, Input.read (.ofParam (Slots.slotParam "slot" .ref false) true) (.param 0),
        Slots.slotTy, .zero⟩ [⟨5, Slots.slotTy, "value", .int, .zero⟩])), .zero⟩).after s).errors =
      s.errors := rfl
  have hfits : (Contract.ofMember .empty Slots.program m).Fits none [op] := by
    refine ⟨by simp [op], by simp [op], by simp [op], ?_⟩
    rintro (_ | _ | i) q o hr ho
    · simp [Contract.operand?] at ho
    · obtain rfl : op = o := by simpa [Contract.operand?] using ho
      obtain rfl := Option.some.inj (hq.symm.trans hr)
      rfl
    · simp [Contract.operand?] at ho
  have hbuild : Contract.ofMember .empty Slots.program m =
      Contract.build .empty env.program m.owner m.decl m.key m.innerScope false := rfl
  obtain ⟨hvalid, href, _⟩ := invoke_le_readPair hbuild rfl rfl hq (by decide) rfl
    (by simp [TypeRef.isFixed, TypeRef.int]) hs haccepted rfl hfits rfl .zero
  exact ⟨rfl, hvalid, href rfl⟩

end Walk

end StackEscape
