import StackEscape.Proofs.Shapes
import StackEscape.Proofs.Walks

/-!
# Ordinary programs

A program is ordinary if it has nothing to do with the stack: it declares no stack-only type and
mentions none, admits none as a type argument, and never returns or re-points a reference. Then every
type that it mentions may live on the heap, and so may every variable and everything that a contract
speaks of while its bodies are walked.

## Main definitions

* `StackEscape.Program.mentioned` — the types that a program mentions.
* `StackEscape.Program.IsOrdinary` — an ordinary program.
* `StackEscape.Capabilities.HeapOnly` — no type parameter may be stack-only.
* `StackEscape.WalkState.IsOrdinary` — nothing that the walk knows of is stack-only.

## Main results

* `StackEscape.TypeEnv.stackOnly_eq_false`, `typeErrors_eq_nil` — types that are mentioned are not
  stack-only, and nothing is wrong with them.
* `StackEscape.Contract.IsOrdinary.build` — neither is anything that a contract speaks of.
* `StackEscape.WalkState.IsOrdinary.declare`, `obtain`, `popScope` and the others — changes of the state.
-/

set_option autoImplicit false

namespace StackEscape

/-! ## What a program mentions -/

/-- The types that the signature of a function mentions. -/
def FnDecl.mentioned (f : FnDecl) : List TypeRef :=
  f.typeParams.flatMap TypeParam.bounds ++ (f.params.map Param.ty ++ (f.ret.ty ::
    (f.explicitImpl.toList ++ f.overrides.toList).map MemberRef.owner))

/-- The types that a type part mentions, bodies apart. -/
def TypeDecl.mentioned (t : TypeDecl) : List TypeRef :=
  t.typeParams.flatMap TypeParam.bounds ++ (t.interfaces ++ (t.primaryParams.map Param.ty ++
    (t.fields.map FieldDecl.ty ++ t.members.flatMap FnDecl.mentioned)))

/-- The type on which the member of a property pattern is found. -/
def MemberAccess.owner : MemberAccess → TypeRef
  | .field owner _ => owner
  | .property getter => getter.owner

/-- The types that the members of an enumerator mention. -/
def Enumerator.mentioned (e : Enumerator) : List TypeRef :=
  [e.ty, e.elementTy, e.getEnumerator.owner, e.moveNext.owner, e.current.owner] ++
    e.dispose.toList.map MemberRef.owner

/-- The types that an expression mentions beside its own and those of its parts. -/
def ExprKind.mentioned : ExprKind → List TypeRef
  | .field _ owner _ => [owner]
  | .property _ getter _ => [getter.owner]
  | .call _ method typeArgs _ => method.owner :: typeArgs
  | .create ctor _ => ctor.toList.map MemberRef.owner
  | .stackAlloc elem _ | .arrayNew elem _ => [elem]
  | .lambda fn => fn.retTy :: fn.params.map Param.ty
  | _ => []

/-- The types that a pattern mentions, its parts apart. -/
def Pattern.mentioned : Pattern → List TypeRef
  | .declaration _ ty _ | .typeTest ty => [ty]
  | .property ty subpatterns =>
    ty.toList ++ subpatterns.flatMap fun s => [s.member.owner, s.ty]
  | .positional deconstruct _ componentTys => deconstruct.owner :: componentTys
  | .discard | .constant _ | .negated _ => []

/-- The types that a statement mentions, its parts apart; the target of an assignment may be no part. -/
def StmtKind.mentioned : StmtKind → List TypeRef
  | .declare decl => [decl.ty]
  | .assign target _ _ => target.ty :: target.kind.mentioned
  | .foreach loop => loop.binding.mentioned ++ loop.enumerator.mentioned
  | .using region =>
    (match region.resource with
      | .expr _ => []
      | .declare decl => [decl.ty]) ++ region.dispose.toList.map MemberRef.owner
  | .localFunction decl => decl.mentioned
  | _ => []

/-- The types that a node of a body mentions, its parts apart. -/
def Node.mentioned : Node → List TypeRef
  | .expr e => e.ty :: e.kind.mentioned
  | .pattern p _ => p.mentioned
  | .stmt s => s.kind.mentioned

/-- Is the node an assignment by reference? -/
def Node.assignsByRef : Node → Bool
  | .stmt ⟨_, .assign _ _ byRef, _⟩ => byRef
  | _ => false

namespace Program

/-- The types that a program mentions. -/
def mentioned (p : Program) : List TypeRef :=
  p.types.flatMap TypeDecl.mentioned ++
    p.members.flatMap fun m => m.sites.flatMap fun x => x.node.mentioned

/-- The members and local functions of a program. -/
def functions (p : Program) : List FnDecl :=
  p.members.flatMap fun m => m.decl :: m.localFunctions

/-- The type parameters of a program. -/
def typeParams (p : Program) : List TypeParam :=
  p.types.flatMap TypeDecl.typeParams ++ p.functions.flatMap FnDecl.typeParams

/-- What occurs in the type is declared, or is not one of the stack-only types that the runtime
provides. -/
def Declares (p : Program) (ty : TypeRef) : Prop :=
  ∀ t ∈ ty.occurring, ∀ name ∈ t.declName, name ∈ wellKnownStackOnly → name ∈ p.typeNames

instance (p : Program) (ty : TypeRef) : Decidable (p.Declares ty) :=
  inferInstanceAs (Decidable (∀ t ∈ ty.occurring, ∀ name ∈ t.declName,
    name ∈ wellKnownStackOnly → name ∈ p.typeNames))

/-- The program has nothing to do with the stack. -/
structure IsOrdinary (p : Program) : Prop where
  /-- It declares no stack-only type. -/
  kinds : ∀ t ∈ p.types, t.kind ≠ .refStruct
  /-- It mentions none that is not declared. -/
  mentions : ∀ ty ∈ p.mentioned, p.Declares ty
  /-- No type parameter admits one. -/
  unmarked : ∀ q ∈ p.typeParams, q.hasAllowsMarker = false
  /-- No function returns a reference. -/
  returns : ∀ f ∈ p.functions, f.ret.isByRef = false
  /-- No reference is re-pointed. -/
  assigns : ∀ m ∈ p.members, ∀ x ∈ m.sites, x.node.assignsByRef = false

instance (p : Program) : Decidable p.IsOrdinary :=
  decidable_of_iff ((∀ t ∈ p.types, t.kind ≠ .refStruct) ∧ (∀ ty ∈ p.mentioned, p.Declares ty) ∧
      (∀ q ∈ p.typeParams, q.hasAllowsMarker = false) ∧
      (∀ f ∈ p.functions, f.ret.isByRef = false) ∧
      ∀ m ∈ p.members, ∀ x ∈ m.sites, x.node.assignsByRef = false)
    ⟨fun ⟨h₁, h₂, h₃, h₄, h₅⟩ => ⟨h₁, h₂, h₃, h₄, h₅⟩, fun ⟨h₁, h₂, h₃, h₄, h₅⟩ => ⟨h₁, h₂, h₃, h₄, h₅⟩⟩

end Program

/-! ## Types that occur in types -/

/-- What occurs in some types occurs in one of them. -/
theorem TypeRef.mem_occurringAll {t : TypeRef} {tys : List TypeRef} :
    t ∈ occurringAll tys ↔ ∃ ty ∈ tys, t ∈ ty.occurring := by
  induction tys with
  | nil => simp [occurringAll]
  | cons ty tys ih => simp [occurringAll, ih]

namespace Program.Declares

variable {p : Program}

theorem elem {ty : TypeRef} (h : p.Declares (.array ty)) : p.Declares ty :=
  fun t ht => h t (by rw [TypeRef.occurring]; exact List.mem_cons_of_mem _ ht)

theorem arg {name : String} {args : List TypeRef} (h : p.Declares (.named name args)) :
    ∀ ty ∈ args, p.Declares ty := by
  refine fun ty hty t ht => h t ?_
  rw [TypeRef.occurring]
  exact List.mem_cons_of_mem _ (TypeRef.mem_occurringAll.2 ⟨ty, hty, ht⟩)

theorem void : p.Declares .void := by
  simp [Declares, TypeRef.occurring, TypeRef.declName]

theorem bool : p.Declares .bool := by
  simp [Declares, TypeRef.bool, TypeRef.occurring, TypeRef.declName]

end Program.Declares

/-! ## Capabilities -/

/-- No type parameter that is filed may be stack-only. -/
def Capabilities.HeapOnly (c : Capabilities) : Prop :=
  ∀ k v, c.get? k = some v → v.isStackOnly = false

namespace Capabilities.HeapOnly

variable {p : Program} {c : Capabilities}

theorem empty : HeapOnly (.empty : Capabilities) := fun _ _ h => absurd h (by simp)

theorem keep (h : c.HeapOnly) (k : TypeParamKey) {v : Capability} (hv : v.isStackOnly = false) :
    Capabilities.HeapOnly (c.keep k v) := by
  intro k' v' hk'
  rw [Table.get?_keep] at hk'
  split at hk'
  · obtain rfl := Option.some.inj hk'
    cases hk : c.get? k with
    | none => exact hv
    | some w => exact h k w hk
  · exact h k' v' hk'

/-- A clause without the marker admits no stack-only type. -/
theorem isStackOnly_capability (clause : Clause) {q : TypeParam} (hq : q.hasAllowsMarker = false) :
    (clause.capability q).isStackOnly = false := by
  simp [Clause.capability, Capability.isStackOnly, hq]

theorem fillOwn (h : c.HeapOnly) (p : Program) (owner : String) {siblings : List TypeParam}
    (hq : ∀ q ∈ siblings, q.hasAllowsMarker = false) (outer : GenericScope) :
    (c.fillOwn p owner siblings outer).HeapOnly :=
  List.foldlRecOn siblings _ h fun _ hc q hmem => hc.keep _ (isStackOnly_capability _ (hq q hmem))

end Capabilities.HeapOnly

/-! ## Types -/

namespace TypeEnv

variable {env : TypeEnv}

/-- A type that an ordinary program mentions is not stack-only. -/
theorem stackOnly_eq_false (hp : env.program.IsOrdinary) (hc : env.caps.HeapOnly) {ty : TypeRef}
    (hty : env.program.Declares ty) : env.stackOnly ty = false := by
  unfold stackOnly capability
  cases ty with
  | named name args =>
    have hdecl := hty (.named name args) (by simp [TypeRef.occurring]) name rfl
    simp only [Capabilities.of, Capabilities.ofNamed]
    cases hfirst : env.program.typeDecl? name with
    | some t =>
      have hkind := hp.kinds t (List.mem_of_find?_eq_some hfirst)
      cases hk : t.kind <;> simp_all [Capability.isStackOnly, Capability.value, Capability.reference]
    | none =>
      have hnot : name ∉ wellKnownStackOnly := fun hmem => by
        obtain ⟨t, ht, rfl⟩ := List.mem_map.1 (hdecl hmem)
        simpa using List.find?_eq_none.1 hfirst t ht
      simp [hnot, Capability.isStackOnly, Capability.reference]
  | param name =>
    simp only [Capabilities.of, Capabilities.ofParam]
    cases hfound : (env.scope.resolve name).bind env.caps.get? with
    | none => rfl
    | some v =>
      obtain ⟨k, -, hk⟩ := Option.bind_eq_some_iff.1 hfound
      exact hc k v hk
  | _ => rfl

/-- Type arguments that are not stack-only need not be admitted. -/
theorem argErrors_eq_nil (hp : env.program.IsOrdinary) (hc : env.caps.HeapOnly) {args : List TypeRef}
    (hargs : ∀ ty ∈ args, env.program.Declares ty) (generic owner : String)
    (params : List TypeParam) (span : Span) :
    env.argErrors generic owner params args span = [] :=
  argErrors_eq_nil_iff.2 fun _ hx hstack =>
    absurd (stackOnly_eq_false hp hc (hargs _ (List.of_mem_zip hx).2)) (by simp [hstack])

mutual

/-- Nothing is wrong with the types that an ordinary program mentions. -/
theorem typeErrors_eq_nil (hp : env.program.IsOrdinary) (hc : env.caps.HeapOnly) (span : Span) :
    (ty : TypeRef) → env.program.Declares ty → env.typeErrors span ty = []
  | .array elem, hty => by
    simp [typeErrors, stackOnly_eq_false hp hc hty.elem, typeErrors_eq_nil hp hc span elem hty.elem]
  | .named name args, hty => by
    simp only [typeErrors, allTypeErrors_eq_nil hp hc span args hty.arg, List.append_nil]
    split
    · exact argErrors_eq_nil hp hc hty.arg _ _ _ _
    · rfl
  | .void, _ | .primitive _, _ | .object, _ | .dynamic, _ | .param _, _ => rfl

theorem allTypeErrors_eq_nil (hp : env.program.IsOrdinary) (hc : env.caps.HeapOnly) (span : Span) :
    (tys : List TypeRef) → (∀ ty ∈ tys, env.program.Declares ty) → env.allTypeErrors span tys = []
  | [], _ => rfl
  | ty :: tys, htys => by
    obtain ⟨hty, htys⟩ := List.forall_mem_cons.1 htys
    rw [allTypeErrors, typeErrors_eq_nil hp hc span ty hty,
      allTypeErrors_eq_nil hp hc span tys htys, List.append_nil]

end

end TypeEnv

/-! ## Malformed declarations -/

/-- An annotation that is misplaced is a malformed declaration. -/
theorem errorClass_of_mem_placementErrors {owner : TypeDecl} {f : FnDecl} {key : String}
    {isLocal : Bool} {e : EscapeError} (he : e ∈ placementErrors owner f key isLocal) :
    e.errorClass = .declarationContract := by
  rcases List.mem_append.1 he with he | he
  · rw [Option.mem_toList, memberPlacementError] at he
    split at he
    · simp at he
    · split at he
      · simp at he
      · exact Option.some.inj he ▸ rfl
  · obtain ⟨q, -, hq⟩ := List.mem_filterMap.1 he
    unfold paramPlacementError at hq
    split at hq
    · simp at hq
    · split at hq
      · exact Option.some.inj hq ▸ rfl
      · split at hq
        · exact Option.some.inj hq ▸ rfl
        · simp at hq

/-- A circle of type parameters is a malformed declaration. -/
theorem errorClass_of_mem_cycleErrors {params : List TypeParam} {e : TypeError}
    (he : e ∈ cycleErrors params) : e.errorClass = .declarationContract := by
  obtain ⟨edge, -, hedge⟩ := List.mem_filterMap.1 he
  unfold cycleError at hedge
  split at hedge
  · exact Option.some.inj hedge ▸ rfl
  · simp at hedge

/-- Nothing is wrong with a clause without the marker. -/
theorem TypeParam.clauseErrors_eq_nil {q : TypeParam} (hq : q.hasAllowsMarker = false)
    (runtime : Bool) : q.clauseErrors runtime = [] := by
  have hnone : q.marker? = none := by
    rw [marker?, Option.map_eq_none_iff, List.find?_eq_none]
    intro x hx hmarker
    have hhas : q.hasAllowsMarker = true :=
      List.any_eq_true.2 ⟨x.1, List.fst_mem_of_mem_zipIdx hx, hmarker⟩
    exact absurd hhas (by simp [hq])
  rw [clauseErrors, hnone]

/-! ## Contracts, variables and functions -/

namespace Program

/-- A function of the program: what it mentions is declared, its type parameters admit no stack-only
type, and it returns no reference. -/
structure HasOrdinary (p : Program) (f : FnDecl) : Prop where
  /-- What it mentions. -/
  mentions : ∀ ty ∈ f.mentioned, p.Declares ty
  /-- Its type parameters. -/
  unmarked : ∀ q ∈ f.typeParams, q.hasAllowsMarker = false
  /-- How it returns. -/
  returns : f.ret.isByRef = false

namespace HasOrdinary

variable {p : Program} {f : FnDecl}

theorem param (h : p.HasOrdinary f) {q : Param} (hq : q ∈ f.params) : p.Declares q.ty :=
  h.mentions _ (List.mem_append_right _ (List.mem_append_left _ (List.mem_map_of_mem hq)))

theorem ret (h : p.HasOrdinary f) : p.Declares f.ret.ty :=
  h.mentions _ (List.mem_append_right _ (List.mem_append_right _ (List.mem_cons_self ..)))

end HasOrdinary

namespace IsOrdinary

variable {p : Program} {m : Member}

/-- Members are ordinary functions. -/
theorem member (h : p.IsOrdinary) (hm : m ∈ p.members) : p.HasOrdinary m.decl := by
  have hfn : m.decl ∈ p.functions := List.mem_flatMap.2 ⟨m, hm, List.mem_cons_self ..⟩
  obtain ⟨t, ht, hmem⟩ := List.mem_flatMap.1 hm
  obtain ⟨d, hd, rfl⟩ := List.mem_map.1 hmem
  refine ⟨fun ty hty => h.mentions ty (List.mem_append_left _ (List.mem_flatMap.2 ⟨t, ht, ?_⟩)),
    fun q hq => h.unmarked q (List.mem_append_right _ (List.mem_flatMap.2 ⟨d, hfn, hq⟩)),
    h.returns d hfn⟩
  simp only [TypeDecl.mentioned, List.mem_append]
  exact .inr (.inr (.inr (.inr (List.mem_flatMap.2 ⟨d, hd, hty⟩))))

/-- The types of primary constructor parameters are mentioned. -/
theorem primaryParam (h : p.IsOrdinary) (hm : m ∈ p.members) {q : Param}
    (hq : q ∈ m.owner.primaryParams) : p.Declares q.ty := by
  obtain ⟨t, ht, hmem⟩ := List.mem_flatMap.1 hm
  obtain ⟨d, hd, rfl⟩ := List.mem_map.1 hmem
  refine h.mentions _ (List.mem_append_left _ (List.mem_flatMap.2 ⟨t, ht, ?_⟩))
  simp only [TypeDecl.mentioned, List.mem_append]
  exact .inr (.inr (.inl (List.mem_map_of_mem hq)))

end IsOrdinary

end Program

/-- No parameter and no result may be stack-only. -/
structure Contract.IsOrdinary (c : Contract) : Prop where
  /-- The parameters. -/
  params : ∀ q ∈ c.params, q.stackOnly = false
  /-- The result. -/
  result : c.returnsStackOnly = false

/-- The contract of an ordinary function is ordinary. -/
theorem Contract.IsOrdinary.build {p : Program} {caps : Capabilities} (hp : p.IsOrdinary)
    (hc : caps.HeapOnly) {f : FnDecl} (hf : p.HasOrdinary f) (owner : TypeDecl) (key : String)
    (scope : GenericScope) (isLocal : Bool) :
    (Contract.build caps p owner f key scope isLocal).IsOrdinary := by
  have hstack {ty : TypeRef} (hty : p.Declares ty) : caps.stackOnly p scope ty = false :=
    (TypeEnv.mk p caps scope true).stackOnly_eq_false hp hc hty
  refine ⟨fun q hq => ?_, hstack hf.ret⟩
  obtain ⟨x, hx, rfl⟩ := List.mem_map.1 hq
  exact hstack (hf.param hx)

/-- An operand that is not stack-only, of a type that is mentioned. -/
structure Operand.IsOrdinary (p : Program) (op : Operand) : Prop where
  /-- It is not stack-only. -/
  heap : op.stackOnly = false
  /-- The type of its expression. -/
  declares : ∀ e ∈ op.expr, p.Declares e.ty

/-! ## States -/

/-- Nothing that the walk knows of is stack-only, and only malformed declarations were reported. -/
structure WalkState.IsOrdinary (p : Program) (s : WalkState) : Prop where
  /-- The type parameters that are filed. -/
  caps : s.tables.caps.HeapOnly
  /-- The contracts that are filed. -/
  contracts : ∀ k c, s.tables.contracts.get? k = some c → c.IsOrdinary
  /-- The variables. -/
  locals : ∀ scope ∈ s.ctx.scopes, ∀ info ∈ scope.locals, info.stackOnly = false
  /-- The local functions. -/
  functions : ∀ scope ∈ s.ctx.scopes, ∀ name f, scope.functions.get? name = some f →
    p.HasOrdinary f
  /-- The functions entered. -/
  frames : ∀ frame ∈ s.ctx.frames, frame.returnsByRef = false ∧ frame.returnsStackOnly = false
  /-- The errors. -/
  errors : ∀ e ∈ s.errors, e.errorClass = .declarationContract

namespace WalkState.IsOrdinary

variable {p : Program} {s : WalkState}

/-- Facts and the type parameters in scope do not matter, and neither do further malformed
declarations. -/
theorem congr {t : WalkState} (h : s.IsOrdinary p) (hctx : t.ctx = s.ctx)
    (htables : t.tables = s.tables)
    (herrors : ∀ e ∈ t.errors, e ∈ s.errors ∨ e.errorClass = .declarationContract) :
    t.IsOrdinary p := by
  refine ⟨htables ▸ h.caps, htables ▸ h.contracts, hctx ▸ h.locals, hctx ▸ h.functions,
    hctx ▸ h.frames, fun e he => ?_⟩
  rcases herrors e he with he | hclass
  · exact h.errors e he
  · exact hclass

/-- A change of the names in scope. -/
theorem withContext (h : s.IsOrdinary p) {c : Context}
    (hvars : ∀ scope ∈ c.scopes, ∀ info ∈ scope.locals, info.stackOnly = false)
    (hfns : ∀ scope ∈ c.scopes, ∀ name f, scope.functions.get? name = some f → p.HasOrdinary f)
    (hframes : ∀ frame ∈ c.frames, frame.returnsByRef = false ∧ frame.returnsStackOnly = false) :
    ({ s with ctx := c } : WalkState).IsOrdinary p :=
  ⟨h.caps, h.contracts, hvars, hfns, hframes, h.errors⟩

/-- One scope more, or one function more. -/
theorem pushScope (h : s.IsOrdinary p) (kind : ScopeKind) {frames : List FunctionFrame}
    (hframes : ∀ f ∈ frames, f.returnsByRef = false ∧ f.returnsStackOnly = false) :
    ({ s with ctx := { s.ctx with frames }.pushScope kind } : WalkState).IsOrdinary p := by
  refine h.withContext (fun scope hmem info hinfo => ?_) (fun scope hmem name f hf => ?_) hframes
  · rcases List.mem_cons.1 hmem with rfl | hmem
    · exact absurd hinfo List.not_mem_nil
    · exact h.locals scope hmem info hinfo
  · rcases List.mem_cons.1 hmem with rfl | hmem
    · simp at hf
    · exact h.functions scope hmem name f hf

/-- One scope less. -/
theorem popScope (h : s.IsOrdinary p) :
    ({ s with ctx := s.ctx.popScope } : WalkState).IsOrdinary p := by
  have hscopes : s.ctx.popScope.scopes ⊆ s.ctx.scopes :=
    Context.scopes_popScope s.ctx ▸ (List.tail_sublist _).subset
  have hframes : s.ctx.popScope.frames ⊆ s.ctx.frames := by
    rcases hctx : s.ctx with ⟨_ | ⟨top, rest⟩, frames⟩
    · exact List.Subset.refl _
    · simp only [Context.popScope]
      split
      · exact (List.tail_sublist _).subset
      · exact List.Subset.refl _
  exact h.withContext (fun scope hmem => h.locals scope (hscopes hmem))
    (fun scope hmem => h.functions scope (hscopes hmem)) fun f hf => h.frames f (hframes hf)

theorem frames_modifyTop (c : Context) (f : Scope → Scope) : (c.modifyTop f).frames = c.frames := by
  rcases c with ⟨_ | ⟨top, rest⟩, frames⟩ <;> rfl

/-- One variable more. -/
theorem declare (h : s.IsOrdinary p) {info : LocalInfo} (hinfo : info.stackOnly = false) :
    ({ s with ctx := s.ctx.declare info } : WalkState).IsOrdinary p := by
  refine h.withContext (fun scope hmem x hx => ?_) (fun scope hmem name f hf => ?_) ?_
  · rcases Context.mem_scopes_modifyTop hmem with ⟨top, htop, rfl⟩ | hmem
    · rcases List.mem_append.1 hx with hx | hx
      · exact h.locals top htop x hx
      · exact List.mem_singleton.1 hx ▸ hinfo
    · exact h.locals scope hmem x hx
  · rcases Context.mem_scopes_modifyTop hmem with ⟨top, htop, rfl⟩ | hmem
    · exact h.functions top htop name f hf
    · exact h.functions scope hmem name f hf
  · exact (frames_modifyTop _ _).symm ▸ h.frames

/-- One local function more. -/
theorem declareFunction (h : s.IsOrdinary p) {f : FnDecl} (hf : p.HasOrdinary f) :
    ({ s with ctx := s.ctx.declareFunction f } : WalkState).IsOrdinary p := by
  refine h.withContext (fun scope hmem x hx => ?_) (fun scope hmem name g hg => ?_) ?_
  · rcases Context.mem_scopes_modifyTop hmem with ⟨top, htop, rfl⟩ | hmem
    · exact h.locals top htop x hx
    · exact h.locals scope hmem x hx
  · rcases Context.mem_scopes_modifyTop hmem with ⟨top, htop, rfl⟩ | hmem
    · simp only [Table.get?_set] at hg
      split at hg
      · exact Option.some.inj hg ▸ hf
      · exact h.functions top htop name g hg
    · exact h.functions scope hmem name g hg
  · exact (frames_modifyTop _ _).symm ▸ h.frames

/-- A contract that is obtained is ordinary, whether it was filed or is filed now. -/
theorem obtain (h : s.IsOrdinary p) (key : String) {c : Contract} (hc : c.IsOrdinary) :
    (s.tables.contracts.obtain key c).1.IsOrdinary ∧ ({ s with tables := { s.tables with
      contracts := (s.tables.contracts.obtain key c).2 } } : WalkState).IsOrdinary p := by
  unfold Contracts.obtain
  cases hkey : s.tables.contracts.get? key with
  | some found => exact ⟨h.contracts key found hkey, h⟩
  | none =>
    refine ⟨hc, h.caps, fun k d hd => ?_, h.locals, h.functions, h.frames, h.errors⟩
    simp only [Table.get?_keep] at hd
    split at hd
    · simp only [hkey, Option.getD_none, Option.some.injEq] at hd
      exact hd ▸ hc
    · exact h.contracts k d hd

/-- A variable that is found is not stack-only. -/
theorem lookup (h : s.IsOrdinary p) {name : String} {found : Lookup}
    (hfound : s.ctx.lookup name = some found) : found.info.stackOnly = false := by
  obtain ⟨scope, hmem, hinfo⟩ := Covers.exists_scope_of_lookupIn hfound
  exact h.locals scope hmem _ hinfo

/-- What types mean at the point. -/
theorem stackOnly_eq_false {env : Surroundings} (h : s.IsOrdinary env.program)
    (hp : env.program.IsOrdinary) {ty : TypeRef} (hty : env.program.Declares ty) :
    (s.types env).stackOnly ty = false := TypeEnv.stackOnly_eq_false hp h.caps hty

end WalkState.IsOrdinary

end StackEscape
