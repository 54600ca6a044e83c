import StackEscape.Proofs.Bracketing
import StackEscape.Proofs.Chains
import StackEscape.Proofs.Visits

/-!
# The discipline of pairs

What the pair of an expression may promise. The value of anything that cannot be stack-only escapes
everywhere, so its level is never narrow; and a reference leaves the method only if there is storage
for it to refer to. A variable keeps what is promised when it is declared.

## Main definitions

* `StackEscape.ScopePair.Disciplined` — a free value unless it may be stack-only, and a reference
  that stays in the method unless there is storage.
* `StackEscape.Expr.DenotesStorage` — an expression that names storage which outlives it.
* `StackEscape.WalkState.Disciplined` — a state of the walk in which all variables, and `this`, keep
  the discipline.
* `StackEscape.Visit.IsRegular`, `Disciplined` — what is assumed of an expression where it is looked
  at, and what is concluded.

## Main results

* `StackEscape.WalkState.Exact.disciplined_callPair`, `disciplined_readProperty` — calls keep the
  discipline, with storage only where the callee returns a reference.
* `StackEscape.Visit.disciplined_of_parts` — an expression keeps it if its parts do.
-/

set_option autoImplicit false

namespace StackEscape

/-! ## Disciplined pairs -/

namespace ScopePair

/-- The value of the pair escapes everywhere, unless it may be stack-only or was given up. -/
def FreeUnless (stackOnly : Bool) (pair : ScopePair) : Prop :=
  stackOnly = false → pair.isInvalid = false → pair.value = .unlimited

/-- The value is free unless it may be stack-only, and a reference stays in the method unless there
is storage. -/
structure Disciplined (stackOnly : Bool) (storage : Prop) (pair : ScopePair) : Prop where
  /-- The value is free. -/
  value : pair.FreeUnless stackOnly
  /-- A reference that leaves the method refers to storage. -/
  ref : pair.isInvalid = false → pair.ref ≠ .currentMethod → storage

variable {pair : ScopePair} {stackOnly : Bool} {storage storage' : Prop}

/-- Nothing is promised of what was given up. -/
theorem disciplined_of_invalid (h : pair.isInvalid = true) :
    pair.Disciplined stackOnly storage :=
  ⟨fun _ hvalid => absurd (h.symm.trans hvalid) (by decide),
    fun hvalid => absurd (h.symm.trans hvalid) (by decide)⟩

/-- A reference that stays in the method needs no storage. -/
theorem disciplined_of_ref (hvalue : pair.FreeUnless stackOnly) (href : pair.ref = .currentMethod) :
    pair.Disciplined stackOnly storage :=
  ⟨hvalue, fun _ hne => absurd href hne⟩

/-- A temporary may be copied anywhere, but not referred to. -/
theorem disciplined_temporary : temporary.Disciplined stackOnly storage :=
  disciplined_of_ref (fun _ _ => rfl) rfl

theorem Disciplined.imp (h : pair.Disciplined stackOnly storage) (himp : storage → storage') :
    pair.Disciplined stackOnly storage' :=
  ⟨h.value, fun hvalid hne => himp (h.ref hvalid hne)⟩

end ScopePair

/-- If the narrower one of two levels leaves the method, then both do. -/
theorem Level.ne_currentMethod_of_narrower {x y : Level} (h : x.narrower y ≠ .currentMethod) :
    x ≠ .currentMethod ∧ y ≠ .currentMethod := by
  cases x <;> cases y <;> first | exact ⟨by decide, by decide⟩ | exact absurd rfl h

/-- What a check leaves is a temporary, or it is given up. -/
theorem Walk.disciplined_temporaryIf {stackOnly : Bool} {storage : Prop} (ok : Bool) :
    (temporaryIf ok).Disciplined stackOnly storage := by
  cases ok with
  | true => exact ScopePair.disciplined_temporary
  | false => exact ScopePair.disciplined_of_invalid rfl

/-! ## Variables -/

/-- The value of the variable is free unless its type may be stack-only. -/
def LocalInfo.IsFree (info : LocalInfo) : Prop := info.pair.FreeUnless info.stackOnly

namespace LocalInfo.IsFree

variable {info : LocalInfo}

/-- A variable that was given up promises nothing. -/
theorem of_invalid (h : info.pair.isInvalid = true) : info.IsFree :=
  fun _ hvalid => absurd (h.symm.trans hvalid) (by decide)

theorem restrict (h : info.IsFree) (forbidden : Bool) : (info.restrict forbidden).IsFree := by
  unfold LocalInfo.restrict
  split
  · exact of_invalid rfl
  · exact h

end LocalInfo.IsFree

/-- All variables in scope are free unless their types may be stack-only. -/
def Context.IsFree (c : Context) : Prop :=
  ∀ scope ∈ c.scopes, ∀ info ∈ scope.locals, info.IsFree

/-- The functions entered outside of a scope were entered inside of it. -/
theorem Context.mem_frames_of_popScope {c : Context} {f : FunctionFrame}
    (h : f ∈ c.popScope.frames) : f ∈ c.frames := by
  rcases c with ⟨_ | ⟨top, rest⟩, frames⟩
  · exact h
  · simp only [popScope] at h
    split at h
    · exact List.mem_of_mem_tail h
    · exact h

namespace Context.IsFree

variable {c : Context}

theorem declareAll (h : c.IsFree) {infos : List LocalInfo} (hinfos : ∀ info ∈ infos, info.IsFree) :
    (c.declareAll infos).IsFree := by
  intro scope hmem info hinfo
  rcases mem_scopes_modifyTop hmem with ⟨top, htop, rfl⟩ | hmem
  · exact (List.mem_append.1 hinfo).elim (h top htop info) (hinfos info)
  · exact h scope hmem info hinfo

theorem declare (h : c.IsFree) {info : LocalInfo} (hinfo : info.IsFree) :
    (c.declare info).IsFree :=
  h.declareAll fun _ hmem => List.mem_singleton.1 hmem ▸ hinfo

theorem declareFunctions (h : c.IsFree) (decls : List FnDecl) :
    (c.declareFunctions decls).IsFree := by
  intro scope hmem info hinfo
  rw [declareFunctions_eq] at hmem
  rcases mem_scopes_modifyTop hmem with ⟨top, htop, rfl⟩ | hmem
  · exact h top htop info hinfo
  · exact h scope hmem info hinfo

theorem pushScope (h : c.IsFree) (kind : ScopeKind) : (c.pushScope kind).IsFree := by
  intro scope hmem info hinfo
  rcases List.mem_cons.1 hmem with rfl | hmem
  · exact absurd hinfo List.not_mem_nil
  · exact h scope hmem info hinfo

theorem popScope (h : c.IsFree) : c.popScope.IsFree := by
  intro scope hmem
  rw [scopes_popScope] at hmem
  exact h scope (List.mem_of_mem_tail hmem)

/-- A variable that is found is one of those in scope. -/
theorem of_lookup (h : c.IsFree) {name : String} {found : Lookup}
    (hfound : c.lookup name = some found) : found.info.IsFree := by
  obtain ⟨scope, hmem, hinfo⟩ := Covers.exists_scope_of_lookupIn hfound
  exact h scope hmem _ hinfo

end Context.IsFree

/-! ## States with the tables of the declarations -/

/-- Types have the same capabilities where names of type parameters mean the same. -/
theorem Capabilities.of_congr_resolve (caps : Capabilities) (p : Program) {g g' : GenericScope}
    (h : g.resolve = g'.resolve) : caps.of p g = caps.of p g' := by
  funext ty
  cases ty <;> simp only [Capabilities.of, Capabilities.ofParam, h]

/-- Does what a reference means return a reference? -/
def Target.returnsByRef : Target → Bool
  | .localFunction decl => decl.ret.isByRef
  | .member m => m.decl.ret.isByRef

/-- The contract of a declaration says whether it returns a reference. -/
theorem Target.returnsByRef_contract (env : Surroundings) (caps : Capabilities) (t : Target) :
    (t.contract env caps).returnsByRef = t.returnsByRef := by
  cases t <;> rfl

/-- The variable that an iteration declares is stack-only if the elements are. -/
def ForeachStmt.IsRegular (types : TypeEnv) (loop : ForeachStmt) : Prop :=
  match loop.binding with
  | .declaration _ ty _ => types.stackOnly ty = types.stackOnly loop.enumerator.elementTy
  | _ => True

instance (types : TypeEnv) (loop : ForeachStmt) : Decidable (loop.IsRegular types) :=
  match loop with
  | ⟨.declaration _ ty _, _, _, enumerator, _, _⟩ =>
    inferInstanceAs (Decidable (types.stackOnly ty = types.stackOnly enumerator.elementTy))
  | ⟨.discard, _, _, _, _, _⟩ | ⟨.typeTest _, _, _, _, _, _⟩ | ⟨.constant _, _, _, _, _, _⟩
  | ⟨.property .., _, _, _, _, _⟩ | ⟨.positional .., _, _, _, _, _⟩
  | ⟨.negated _, _, _, _, _, _⟩ => isTrue trivial

/-- The iteration at a site. -/
def Site.loop? (x : Site) : Option ForeachStmt :=
  match x.node with
  | .stmt ⟨_, .foreach loop, _⟩ => some loop
  | _ => none

/-- The iterations of the walked member are regular. -/
def Surroundings.RegularLoops (env : Surroundings) (caps : Capabilities) : Prop :=
  ∀ x ∈ env.member.sites, ∀ loop ∈ x.loop?, loop.IsRegular (env.types caps)

instance (env : Surroundings) (caps : Capabilities) : Decidable (env.RegularLoops caps) :=
  inferInstanceAs (Decidable
    (∀ x ∈ env.member.sites, ∀ loop ∈ x.loop?, loop.IsRegular (env.types caps)))

/-- What is assumed of the walked member: it is one of a program with distinct keys, its local
functions have no type parameters, and its iterations are regular. -/
structure Surroundings.Regular (env : Surroundings) (caps : Capabilities) : Prop where
  /-- The member is one of the program. -/
  mem : env.member ∈ env.program.members
  /-- Keys are distinct. -/
  keys : env.program.DistinctKeys
  /-- Local functions have no type parameters. -/
  plain : ∀ d ∈ env.member.localFunctions, d.typeParams = []
  /-- A variable of an iteration is stack-only if the elements are. -/
  loops : env.RegularLoops caps

/-- The state is one within the body, and everything that is filed is as the declarations say. -/
structure WalkState.Exact (env : Surroundings) (caps : Capabilities) (s : WalkState) : Prop where
  /-- It is within the body. -/
  placed : s.Placed env
  /-- What is filed is as the declarations say. -/
  tables : s.tables.Exact env.program caps

/-- At the same depth references mean the same. -/
theorem WalkState.Progress.target?_eq {env : Surroundings} {s t : WalkState}
    (h : s.Progress env t) : t.target? env = s.target? env := by
  obtain ⟨infos, hctx⟩ := h.context
  funext r
  simp only [WalkState.target?, hctx, Context.localFunction_declareAll]

namespace WalkState.Exact

variable {env : Surroundings} {caps : Capabilities} {s t : WalkState}

theorem later (hr : env.Regular caps) (hs : s.Exact env caps) (h : s.Progress env t) :
    t.Exact env caps :=
  ⟨h.placed hs.placed, hs.tables.steps hr.keys hr.mem hr.plain h.tables⟩

/-- What a walk over some of the sites leads to is exact again, and references mean the same. -/
theorem after {a : Point} {ws : List Site} {α : Type} {Q : α → Prop} {m : Walk α}
    (hr : env.Regular caps) (hs : s.Exact env caps) (hm : Covers env.inspection a False ws Q m)
    (hsub : ws ⊆ env.member.sites) :
    (m.after s).Exact env caps ∧ (m.after s).target? env = s.target? env :=
  have h := (hm.proper hsub).progress s hs.placed
  ⟨hs.later hr h, h.target?_eq⟩

/-- So it is after an expression. -/
theorem after_checkExpr {a : Point} (hr : env.Regular caps) (hs : s.Exact env caps) {e : Expr}
    (hsub : Site.ofExpr a e ⊆ env.member.sites) :
    ((Walk.checkExpr env e).after s).Exact env caps ∧
      ((Walk.checkExpr env e).after s).target? env = s.target? env :=
  hs.after hr (Covers.checkExpr e) hsub

/-- So it is after the check of a written type. -/
theorem after_checkShape (hr : env.Regular caps) (hs : s.Exact env caps) (ty : TypeRef)
    (span : Span) : ((Walk.checkShape env ty span).after s).Exact env caps ∧
      ((Walk.checkShape env ty span).after s).target? env = s.target? env :=
  hs.after hr (Covers.checkShape (a := ⟨[], false, .void⟩) ty span) (List.nil_subset _)

/-- So it is after the operands of a call. -/
theorem after_operands {a : Point} (hr : env.Regular caps) (hs : s.Exact env caps)
    {receiver : Option Expr} {args : List Arg}
    (hsub : Site.ofOptional a receiver ++ Site.ofArgs a args ⊆ env.member.sites) :
    let u := (Walk.checkArgs env args).after ((Walk.checkReceiver env receiver).after s)
    u.Exact env caps ∧ u.target? env = s.target? env := by
  obtain ⟨hreceiver, hargs⟩ := List.append_subset.1 hsub
  obtain ⟨hexact, htarget⟩ := hs.after hr (Covers.checkReceiver receiver) hreceiver
  obtain ⟨hexact', htarget'⟩ := hexact.after hr (Covers.checkArgs args) hargs
  exact ⟨hexact', htarget'.trans htarget⟩

/-- Types mean in the state what they mean in the member. -/
theorem capability_eq (hr : env.Regular caps) (hs : s.Exact env caps) :
    (s.types env).capability = (env.types caps).capability := by
  have hresolve := hs.placed.generics.resolve_eq hr.plain
  funext ty
  change s.tables.caps.of env.program s.generics ty = _
  rw [hs.tables.caps_eq, Capabilities.of_congr_resolve caps env.program hresolve]
  rfl

theorem stackOnly_eq (hr : env.Regular caps) (hs : s.Exact env caps) :
    (s.types env).stackOnly = (env.types caps).stackOnly :=
  TypeEnv.stackOnly_congr (hs.capability_eq hr)

theorem fieldPair_eq (hr : env.Regular caps) (hs : s.Exact env caps) :
    (s.types env).fieldPair = (env.types caps).fieldPair :=
  TypeEnv.fieldPair_congr rfl (hs.capability_eq hr)

/-- A local function is called with its own contract. -/
theorem obtain_localContract (hr : env.Regular caps) (hs : s.Exact env caps) {d : FnDecl}
    (hd : d ∈ env.member.localFunctions) :
    (s.tables.contracts.obtain (env.localKey d) (s.localContract env d)).1 =
      env.member.localContract caps env.program d := by
  have hbuilt : s.localContract env d = env.member.localContract caps env.program d := by
    rw [WalkState.localContract, hs.tables.caps_eq]
    exact hs.placed.generics.build_eq hr.plain caps hd
  exact (hs.tables.obtainLocal hr.keys hr.mem hd hbuilt).1

/-- A reference is called with the contract of the declaration that it means. -/
theorem contract?_eq (hr : env.Regular caps) (hs : s.Exact env caps) (r : MemberRef) :
    s.contract? env r = (s.target? env r).map (Target.contract env caps) := by
  unfold WalkState.contract?
  cases ht : s.target? env r with
  | none => rfl
  | some target =>
    rw [Option.map_some, Option.map_some, Option.some_inj]
    cases target with
    | localFunction d =>
      exact hs.obtain_localContract hr (Covers.mem_localFunctions_of_target? hs.placed ht)
    | member m => exact (hs.tables.obtainMember hr.keys (Covers.mem_members_of_target? ht)).1

end WalkState.Exact

/-! ## Calls and fields -/

namespace Contract

variable {c : Contract} {receiver : Option Operand} {args : List Operand} {stackOnly : Bool}

/-- A call yields a free value or something stack-only, and a reference only if it returns one. -/
theorem disciplined_outcome :
    (c.outcome receiver args stackOnly).result.Disciplined stackOnly (c.returnsByRef = true) := by
  unfold outcome
  split
  · refine ⟨fun hstack _ => ?_, fun _ hne => ?_⟩
    · subst hstack
      unfold resultPair
      cases c.returnsByRef <;> rfl
    · by_contra hbyRef
      refine hne ?_
      unfold resultPair
      rw [if_neg hbyRef]
      cases stackOnly <;> rfl
  · exact ScopePair.disciplined_of_invalid rfl

/-- Only what may be stack-only is read from a copy. -/
theorem disciplined_copied {pair : ScopePair} {storage : Prop}
    (h : pair.Disciplined stackOnly storage) :
    ScopePair.Disciplined stackOnly storage
      (if !pair.isInvalid && Walk.needsCopy c receiver stackOnly then
        pair.withValue .currentMethod
      else pair) := by
  split
  · next hcopy =>
    refine ⟨fun hstack => ?_, h.ref⟩
    simp [Walk.needsCopy, hstack] at hcopy
  · exact h

end Contract

/-- What a reference means nothing for is read as something that was given up. -/
theorem Walk.answer_readProperty_of_none {env : Surroundings} {s : WalkState} {r : MemberRef}
    (h : s.contract? env r = none) (receiver : Option Operand) (args : List Operand) (ty : TypeRef)
    (span : Span) : (readProperty env r receiver args ty span).answer s = .invalid := by
  have hresolve := answer_resolve env r span s
  rw [h, Option.map_eq_none_iff] at hresolve
  unfold readProperty
  rw [answer_bind, hresolve]
  rfl

namespace WalkState.Exact

variable {env : Surroundings} {caps : Capabilities} {s : WalkState}

/-- A call of a reference yields a reference only if what it means returns one. -/
theorem disciplined_callPair (hr : env.Regular caps) (hs : s.Exact env caps) (r : MemberRef)
    (receiver : Option Operand) (args : List Operand) (ty : TypeRef) :
    (Walk.callPair s env r receiver args ty).Disciplined ((env.types caps).stackOnly ty)
      (∃ t ∈ s.target? env r, t.returnsByRef = true) := by
  unfold Walk.callPair
  rw [hs.contract?_eq hr, hs.stackOnly_eq hr]
  cases ht : s.target? env r with
  | none => exact ScopePair.disciplined_of_invalid rfl
  | some t =>
    exact Contract.disciplined_outcome.imp fun hbyRef =>
      ⟨t, rfl, (t.returnsByRef_contract env caps).symm.trans hbyRef⟩

/-- So does a read through a getter. -/
theorem disciplined_readProperty (hr : env.Regular caps) (hs : s.Exact env caps) (r : MemberRef)
    (receiver : Option Operand) (args : List Operand) (ty : TypeRef) (span : Span) :
    ((Walk.readProperty env r receiver args ty span).answer s).Disciplined
      ((env.types caps).stackOnly ty) (∃ t ∈ s.target? env r, t.returnsByRef = true) := by
  cases hc : s.contract? env r with
  | none =>
    rw [Walk.answer_readProperty_of_none hc]
    exact ScopePair.disciplined_of_invalid rfl
  | some c =>
    obtain ⟨t, ht, rfl⟩ := Option.map_eq_some_iff.1 ((hs.contract?_eq hr r).symm.trans hc)
    rw [Walk.answer_readProperty_of_contract? hc, hs.stackOnly_eq hr]
    exact Contract.disciplined_copied (Contract.disciplined_outcome.imp fun hbyRef =>
      ⟨t, ht, (t.returnsByRef_contract env caps).symm.trans hbyRef⟩)

end WalkState.Exact

/-- A field has storage if its receiver lives on the heap, if it is a reference itself, or if its
receiver has. -/
theorem TypeEnv.disciplined_fieldPair (types : TypeEnv) (pair : ScopePair) (receiverTy : TypeRef)
    (owner : TypeRef) (name : String) (ty : TypeRef) {storage : Prop}
    (hheap : types.isHeapType receiverTy = true → storage)
    (href : ∀ f ∈ types.program.field? owner name, f.decl.isRef = true → storage)
    (hreceiver : pair.isInvalid = false → pair.ref ≠ .currentMethod → storage) :
    (types.fieldPair (some (pair, receiverTy)) owner name ty).Disciplined (types.stackOnly ty)
      storage := by
  unfold fieldPair
  dsimp only
  split
  · exact ScopePair.disciplined_of_invalid rfl
  · next hvalid =>
    split
    · next hty => exact ⟨fun _ _ => rfl, fun _ _ => hheap hty⟩
    · refine ⟨fun hstack _ => if_neg (ne_true_of_eq_false hstack), fun _ hne => ?_⟩
      cases hf : types.program.field? owner name with
      | none =>
        rw [hf] at hne
        exact hreceiver (Bool.eq_false_iff.2 hvalid) hne
      | some f =>
        rw [hf] at hne
        cases hisRef : f.decl.isRef with
        | true => exact href f hf hisRef
        | false =>
          simp only [hisRef] at hne
          exact hreceiver (Bool.eq_false_iff.2 hvalid) hne

/-! ## Storage -/

/-- The expression denotes storage which is there before it is evaluated and after: a variable or
`this`, a field that is static, on the heap or a reference, a field of something that denotes
storage, one of two of them, or what a callee returns by reference. -/
inductive Expr.DenotesStorage (types : TypeEnv) (means : MemberRef → Option Target) : Expr → Prop
  /-- A variable. -/
  | var {id : NodeId} {name : String} {ty : TypeRef} {span : Span} :
    DenotesStorage types means ⟨id, .var name, ty, span⟩
  /-- The receiver. -/
  | thisRef {id : NodeId} {ty : TypeRef} {span : Span} :
    DenotesStorage types means ⟨id, .thisRef, ty, span⟩
  /-- A static field. -/
  | staticField {id : NodeId} {owner : TypeRef} {name : String} {ty : TypeRef} {span : Span} :
    DenotesStorage types means ⟨id, .field none owner name, ty, span⟩
  /-- A field of something on the heap. -/
  | heapField {id : NodeId} {receiver : Expr} {owner : TypeRef} {name : String} {ty : TypeRef}
      {span : Span} (h : types.isHeapType receiver.ty = true) :
    DenotesStorage types means ⟨id, .field (some receiver) owner name, ty, span⟩
  /-- A field that is a reference. -/
  | refField {id : NodeId} {receiver : Expr} {owner : TypeRef} {name : String} {ty : TypeRef}
      {span : Span} {f : Field} (hf : types.program.field? owner name = some f)
      (h : f.decl.isRef = true) :
    DenotesStorage types means ⟨id, .field (some receiver) owner name, ty, span⟩
  /-- A field of something that denotes storage. -/
  | field {id : NodeId} {receiver : Expr} {owner : TypeRef} {name : String} {ty : TypeRef}
      {span : Span} (h : DenotesStorage types means receiver) :
    DenotesStorage types means ⟨id, .field (some receiver) owner name, ty, span⟩
  /-- One of two references. -/
  | conditional {id : NodeId} {cond thenExpr elseExpr : Expr} {ty : TypeRef} {span : Span}
      (ht : DenotesStorage types means thenExpr) (he : DenotesStorage types means elseExpr) :
    DenotesStorage types means ⟨id, .conditional cond thenExpr elseExpr true, ty, span⟩
  /-- What a method returns by reference. -/
  | call {id : NodeId} {receiver : Option Expr} {method : MemberRef} {typeArgs : List TypeRef}
      {args : List Arg} {ty : TypeRef} {span : Span} {t : Target} (ht : t ∈ means method)
      (h : t.returnsByRef = true) :
    DenotesStorage types means ⟨id, .call receiver method typeArgs args, ty, span⟩
  /-- What a getter returns by reference. -/
  | property {id : NodeId} {receiver : Option Expr} {getter : MemberRef} {args : List Arg}
      {ty : TypeRef} {span : Span} {t : Target} (ht : t ∈ means getter)
      (h : t.returnsByRef = true) :
    DenotesStorage types means ⟨id, .property receiver getter args, ty, span⟩

/-! ## States that keep the discipline -/

/-- The state is exact, its variables are free unless they may be stack-only, and so is `this` in
every function entered. -/
structure WalkState.Disciplined (env : Surroundings) (caps : Capabilities) (s : WalkState) : Prop
    extends WalkState.Exact env caps s where
  /-- Variables are free. -/
  locals : s.ctx.IsFree
  /-- Receivers are free, except in stack-only types. -/
  receivers : ∀ f ∈ s.ctx.frames, ∀ pair ∈ f.thisPair,
    pair.FreeUnless (decide (env.member.owner.kind = .refStruct))

namespace WalkState

/-- May the variable be stack-only that a name means? It is one in scope, or else a parameter of the
primary constructor. -/
def variableStackOnly? (s : WalkState) (env : Surroundings) (types : TypeEnv) (name : String) :
    Option Bool :=
  match s.ctx.lookup name with
  | some found => some found.info.stackOnly
  | none => (env.member.owner.primaryParams.find? fun q => decide (q.name = name)).map fun q =>
      types.stackOnly q.ty

end WalkState

/-- What a parameter is bound with is free unless it may be stack-only. -/
theorem ParamContract.freeUnless_pair (q : Param) (stackOnly : Bool) :
    (ofParam q stackOnly).pair.FreeUnless stackOnly := by
  intro hstack _
  subst hstack
  unfold pair ofParam levels freeValue
  cases q.refKind <;> rfl

/-- What a receiver is bound with is free, except in stack-only types. -/
theorem ParamContract.freeUnless_receiver (owner : TypeDecl) (decl : FnDecl) :
    (receiver owner decl).pair.FreeUnless (decide (owner.kind = .refStruct)) := by
  intro hkind _
  simp [pair, receiver, freeValue, hkind]

namespace WalkState.Disciplined

variable {env : Surroundings} {caps : Capabilities} {s t : WalkState}

/-- At the same depth, it is enough that the variables are still free. -/
theorem later (hr : env.Regular caps) (hs : s.Disciplined env caps) (h : s.Progress env t)
    (hfree : t.ctx.IsFree) : t.Disciplined env caps := by
  obtain ⟨infos, hctx⟩ := h.context
  refine ⟨hs.toExact.later hr h, hfree, ?_⟩
  rw [hctx, Context.frames_declareAll]
  exact hs.receivers

/-- Whatever is recorded and reported. -/
theorem recording (hs : s.Disciplined env caps) (facts : Facts) (errors : List EscapeError) :
    WalkState.Disciplined env caps { s with facts := facts, errors := errors } :=
  ⟨⟨⟨hs.placed.generics, hs.placed.functions⟩, hs.tables⟩, hs.locals, hs.receivers⟩

/-- Inside of a scope with local functions of its own. -/
theorem inBlock (hs : s.Disciplined env caps) (kind : ScopeKind) {stmts : List Stmt}
    (hd : ∀ d ∈ directFunctions stmts, d ∈ env.member.localFunctions) :
    (s.inBlock kind stmts).Disciplined env caps := by
  refine ⟨⟨(hs.placed.pushScope kind s.ctx.frames).declareFunctions hd, hs.tables⟩,
    (hs.locals.pushScope kind).declareFunctions _, ?_⟩
  rw [WalkState.inBlock, Context.frames_declareFunctions]
  exact hs.receivers

/-- Inside of a nested function, whose receiver is free. -/
theorem inFunction (hs : s.Disciplined env caps) (kind : ScopeKind) {frame : FunctionFrame}
    (hthis : ∀ pair ∈ frame.thisPair,
      pair.FreeUnless (decide (env.member.owner.kind = .refStruct))) :
    (s.inFunction kind frame).Disciplined env caps := by
  refine ⟨⟨hs.placed.pushScope kind (frame :: s.ctx.frames), hs.tables⟩,
    Context.IsFree.pushScope hs.locals kind, fun f hf => ?_⟩
  rcases List.mem_cons.1 hf with rfl | hf
  · exact hthis
  · exact hs.receivers f hf

/-- With the local functions of some statements. -/
theorem withFunctions (hs : s.Disciplined env caps) {stmts : List Stmt}
    (hd : ∀ d ∈ directFunctions stmts, d ∈ env.member.localFunctions) :
    (s.withFunctions stmts).Disciplined env caps := by
  refine ⟨⟨hs.placed.declareFunctions hd, hs.tables⟩, hs.locals.declareFunctions _, ?_⟩
  rw [WalkState.withFunctions, Context.frames_declareFunctions]
  exact hs.receivers

/-- Outside of the innermost scope. -/
theorem leave (hs : s.Disciplined env caps) : s.leave.Disciplined env caps := by
  refine ⟨⟨⟨hs.placed.generics, fun scope hscope => ?_⟩, hs.tables⟩, hs.locals.popScope,
    fun f hf => hs.receivers f (Context.mem_frames_of_popScope hf)⟩
  rw [WalkState.leave, Context.scopes_popScope] at hscope
  exact hs.placed.functions scope (List.mem_of_mem_tail hscope)

/-- The receiver of the current function is free. -/
theorem freeUnless_thisPair (hs : s.Disciplined env caps) {pair : ScopePair}
    (h : s.thisPair = some pair) :
    pair.FreeUnless (decide (env.member.owner.kind = .refStruct)) := by
  obtain ⟨f, hf, hpair⟩ := Option.bind_eq_some_iff.1 h
  exact hs.receivers f (List.mem_of_head? hf) pair hpair

/-- What a variable is read as is free unless the variable may be stack-only. -/
theorem freeUnless_readVariable (hr : env.Regular caps) (hs : s.Disciplined env caps)
    {name : String} {stackOnly : Bool} (span : Span)
    (h : ∀ b ∈ s.variableStackOnly? env (env.types caps) name, stackOnly = b) :
    ((Walk.readVariable env name span).answer s).FreeUnless stackOnly := by
  have hinvalid : ScopePair.invalid.FreeUnless stackOnly := fun _ _ => rfl
  unfold Walk.readVariable
  unfold WalkState.variableStackOnly? at h
  rw [Walk.answer_bind, Walk.answer_get, Walk.after_get]
  cases hfound : s.ctx.lookup name with
  | some found =>
    rw [hfound] at h
    obtain rfl := h _ rfl
    dsimp only
    split
    · exact hinvalid
    · exact hs.locals.of_lookup hfound
  | none =>
    rw [hfound] at h
    dsimp only at h ⊢
    cases hparam : env.member.owner.primaryParams.find? fun q => decide (q.name = name) with
    | none => exact hinvalid
    | some q =>
      rw [hparam] at h
      obtain rfl := h _ rfl
      have hstack : (Walk.stackOnly env q.ty).answer s = (env.types caps).stackOnly q.ty :=
        congrFun (hs.toExact.stackOnly_eq hr) q.ty
      dsimp only
      unfold Walk.readPrimaryParam
      rw [Walk.answer_bind, hstack]
      split
      · exact hinvalid
      · exact ParamContract.freeUnless_pair q _

/-- What `this` is read as is free, except in stack-only types. -/
theorem freeUnless_readThis (hs : s.Disciplined env caps) {stackOnly : Bool} (span : Span)
    (h : s.thisPair.isSome → stackOnly = decide (env.member.owner.kind = .refStruct)) :
    ((Walk.readThis env span).answer s).FreeUnless stackOnly := by
  unfold Walk.readThis
  rw [Walk.answer_bind, Walk.answer_get, Walk.after_get]
  cases hthis : s.thisPair with
  | none => exact fun _ _ => rfl
  | some pair =>
    obtain rfl := h (by rw [hthis]; rfl)
    dsimp only
    split
    · exact fun _ _ => rfl
    · exact hs.freeUnless_thisPair hthis

end WalkState.Disciplined

/-! ## Visits -/

namespace Visit

/-- What is assumed of an expression where it is looked at: it is stack-only if the variable is that
it names, or if the type is whose member refers to itself; and what creates an object returns no
reference. -/
def IsRegular (env : Surroundings) (types : TypeEnv) (v : Visit) : Prop :=
  match v.expr.kind with
  | .var name => ∀ b ∈ v.spot.state.variableStackOnly? env types name, types.stackOnly v.expr.ty = b
  | .thisRef => v.spot.state.thisPair.isSome →
      types.stackOnly v.expr.ty = decide (env.member.owner.kind = .refStruct)
  | .create (some ctor) _ => ∀ t ∈ v.spot.state.target? env ctor, t.returnsByRef = false
  | _ => True

instance (env : Surroundings) (types : TypeEnv) (v : Visit) : Decidable (v.IsRegular env types) :=
  match v with
  | ⟨spot, ⟨_, .var name, ty, _⟩⟩ =>
    inferInstanceAs (Decidable
      (∀ b ∈ spot.state.variableStackOnly? env types name, types.stackOnly ty = b))
  | ⟨spot, ⟨_, .thisRef, ty, _⟩⟩ =>
    inferInstanceAs (Decidable (spot.state.thisPair.isSome →
      types.stackOnly ty = decide (env.member.owner.kind = .refStruct)))
  | ⟨spot, ⟨_, .create (some ctor) _, _, _⟩⟩ =>
    inferInstanceAs (Decidable (∀ t ∈ spot.state.target? env ctor, t.returnsByRef = false))
  | ⟨_, ⟨_, .create none _, _, _⟩⟩ | ⟨_, ⟨_, .literal _, _, _⟩⟩ | ⟨_, ⟨_, .field .., _, _⟩⟩
  | ⟨_, ⟨_, .property .., _, _⟩⟩ | ⟨_, ⟨_, .call .., _, _⟩⟩ | ⟨_, ⟨_, .stackAlloc .., _, _⟩⟩
  | ⟨_, ⟨_, .conditional .., _, _⟩⟩ | ⟨_, ⟨_, .convert .., _, _⟩⟩ | ⟨_, ⟨_, .binary .., _, _⟩⟩
  | ⟨_, ⟨_, .test .., _, _⟩⟩ | ⟨_, ⟨_, .lambda _, _, _⟩⟩ | ⟨_, ⟨_, .arrayNew .., _, _⟩⟩
  | ⟨_, ⟨_, .anonymous _, _, _⟩⟩ | ⟨_, ⟨_, .await _, _, _⟩⟩ | ⟨_, ⟨_, .dynamicInvoke .., _, _⟩⟩
  | ⟨_, ⟨_, .outVar _, _, _⟩⟩ => isTrue trivial

/-- The expression keeps the discipline. A variable declared in place has no value yet. -/
structure Disciplined (env : Surroundings) (types : TypeEnv) (v : Visit) : Prop where
  /-- Its value is free unless it may be stack-only. -/
  value : v.expr.isOutVar = false → (v.pair env).FreeUnless (types.stackOnly v.expr.ty)
  /-- A reference to it that leaves the method refers to storage. -/
  ref : (v.pair env).isInvalid = false → (v.pair env).ref ≠ .currentMethod →
    v.expr.DenotesStorage types (v.spot.state.target? env)

variable {env : Surroundings} {caps : Capabilities} {p : Spot} {a : Point} {id : NodeId}
  {ty : TypeRef} {span : Span}

theorem Disciplined.of_pair {types : TypeEnv} {v : Visit}
    (h : (v.pair env).Disciplined (types.stackOnly v.expr.ty)
      (v.expr.DenotesStorage types (v.spot.state.target? env))) : v.Disciplined env types :=
  ⟨fun _ => h.value, h.ref⟩

/-- The first visit of the walk over an expression is the expression itself. -/
theorem self_mem_ofExpr (env : Surroundings) (e : Expr) (p : Spot) : ⟨p, e⟩ ∈ ofExpr env e p := by
  obtain ⟨id, kind, ty, span⟩ := e
  rw [ofExpr]
  exact List.mem_cons_self ..

/-! ### Forms -/

/-- A field of something that was looked at before. -/
theorem disciplined_field (hr : env.Regular caps) (hp : p.state.Exact env caps)
    (receiver : Option Expr) (owner : TypeRef) (name : String)
    (hsub : Site.ofOptional a receiver ⊆ env.member.sites)
    (hparts : ∀ v ∈ ofOptional env receiver p, v.Disciplined env (env.types caps)) :
    ((Walk.checkForm env id ty span (.field receiver owner name)).answer p.state).Disciplined
      ((env.types caps).stackOnly ty) (Expr.DenotesStorage (env.types caps) (p.state.target? env)
        ⟨id, .field receiver owner name, ty, span⟩) := by
  have hexact : ((Walk.checkOptional env receiver).after p.state).Exact env caps :=
    (hp.after hr (Covers.checkOptional receiver) hsub).1
  rw [Walk.checkForm_field, Walk.answer_bind]
  change ScopePair.Disciplined _ _
    ((((Walk.checkOptional env receiver).after p.state).types env).fieldPair _ _ _ _)
  rw [hexact.fieldPair_eq hr]
  cases receiver with
  | none =>
    have hanswer : (Walk.checkOptional env none).answer p.state = none := by
      rw [Walk.checkOptional]
      rfl
    rw [hanswer]
    exact ⟨fun _ _ => rfl, fun _ _ => .staticField⟩
  | some e =>
    have hself : Visit.Disciplined env (env.types caps) ⟨p, e⟩ :=
      hparts _ (by rw [ofOptional]; exact self_mem_ofExpr env e p)
    have hanswer : (Walk.checkOptional env (some e)).answer p.state =
        some ((Walk.checkExpr env e).answer p.state, e.ty) := by
      rw [Walk.checkOptional]
      rfl
    rw [hanswer]
    exact TypeEnv.disciplined_fieldPair _ _ _ _ _ _ .heapField (fun _ hf => .refField hf)
      fun hvalid hne => .field (hself.ref hvalid hne)

/-- A read through a getter, or of an indexer. -/
theorem disciplined_property (hr : env.Regular caps) (hp : p.state.Exact env caps)
    (receiver : Option Expr) (getter : MemberRef) (args : List Arg)
    (hsub : Site.ofOptional a receiver ++ Site.ofArgs a args ⊆ env.member.sites) :
    ((Walk.checkForm env id ty span (.property receiver getter args)).answer p.state).Disciplined
      ((env.types caps).stackOnly ty) (Expr.DenotesStorage (env.types caps) (p.state.target? env)
        ⟨id, .property receiver getter args, ty, span⟩) := by
  obtain ⟨hexact, htarget⟩ := hp.after_operands hr hsub
  rw [Walk.checkForm]
  refine (hexact.disciplined_readProperty hr getter _ _ ty span).imp ?_
  rintro ⟨t, ht, hbyRef⟩
  exact .property (htarget ▸ ht) hbyRef

/-- A call of a method. -/
theorem disciplined_call (hr : env.Regular caps) (hp : p.state.Exact env caps)
    (receiver : Option Expr) (method : MemberRef) (typeArgs : List TypeRef) (args : List Arg)
    (hsub : Site.ofOptional a receiver ++ Site.ofArgs a args ⊆ env.member.sites) :
    ((Walk.checkForm env id ty span (.call receiver method typeArgs args)).answer
      p.state).Disciplined ((env.types caps).stackOnly ty)
      (Expr.DenotesStorage (env.types caps) (p.state.target? env)
        ⟨id, .call receiver method typeArgs args, ty, span⟩) := by
  obtain ⟨hexact, htarget⟩ := hp.after_operands hr hsub
  rw [Walk.checkForm_call, Walk.answer_bind, Walk.answer_bind]
  change ((Walk.callOver env method typeArgs _ _ ty span).answer _).Disciplined _ _
  rw [Walk.answer_callOver]
  refine (hexact.disciplined_callPair hr method _ _ ty).imp ?_
  rintro ⟨t, ht, hbyRef⟩
  exact .call (htarget ▸ ht) hbyRef

/-- A new object, which no constructor returns a reference to. -/
theorem disciplined_create (hr : env.Regular caps) (hp : p.state.Exact env caps)
    (ctor : Option MemberRef) (args : List Arg) (hsub : Site.ofArgs a args ⊆ env.member.sites)
    (hctor : ∀ r ∈ ctor, ∀ t ∈ p.state.target? env r, t.returnsByRef = false) {storage : Prop} :
    ((Walk.checkForm env id ty span (.create ctor args)).answer p.state).Disciplined
      ((env.types caps).stackOnly ty) storage := by
  obtain ⟨hexact, htarget⟩ := hp.after_checkShape hr ty span
  obtain ⟨hexact', htarget'⟩ := hexact.after hr (Covers.checkArgs args) hsub
  rw [Walk.checkForm_create, Walk.answer_bind, Walk.answer_bind]
  unfold Walk.construct
  split
  · exact ScopePair.disciplined_of_invalid rfl
  · cases ctor with
    | none => exact ScopePair.disciplined_temporary
    | some ctor =>
      dsimp only
      rw [Walk.answer_invokeRef]
      refine (hexact'.disciplined_callPair hr ctor _ _ ty).imp ?_
      rintro ⟨t, ht, hbyRef⟩
      rw [htarget', htarget] at ht
      exact absurd (hbyRef.symm.trans (hctor ctor rfl t ht)) (by decide)

/-- One of two values, or of two references. -/
theorem disciplined_conditional (hr : env.Regular caps) (hp : p.state.Exact env caps)
    (cond thenExpr elseExpr : Expr) (byRef : Bool)
    (hsub : Site.ofExpr a cond ++ (Site.ofExpr a thenExpr ++ Site.ofExpr a elseExpr) ⊆
      env.member.sites)
    (hparts : ∀ v ∈ ofKind env id ty span (.conditional cond thenExpr elseExpr byRef) p,
      v.Disciplined env (env.types caps)) :
    ((Walk.checkForm env id ty span (.conditional cond thenExpr elseExpr byRef)).answer
      p.state).Disciplined ((env.types caps).stackOnly ty)
      (Expr.DenotesStorage (env.types caps) (p.state.target? env)
        ⟨id, .conditional cond thenExpr elseExpr byRef, ty, span⟩) := by
  obtain ⟨hcond, hrest⟩ := List.append_subset.1 hsub
  obtain ⟨hthen, helse⟩ := List.append_subset.1 hrest
  let q : Spot := p.after (Walk.checkExpr env cond)
  let r : Spot := q.after (Walk.checkExpr env thenExpr)
  obtain ⟨hq, hmeansq⟩ : q.state.Exact env caps ∧ q.state.target? env = p.state.target? env :=
    hp.after_checkExpr hr hcond
  obtain ⟨hr', hmeansr⟩ : r.state.Exact env caps ∧ r.state.target? env = q.state.target? env :=
    hq.after_checkExpr hr hthen
  obtain ⟨hlast, _⟩ := hr'.after_checkExpr hr helse
  rw [ofKind] at hparts
  have hthenVisit : Visit.Disciplined env (env.types caps) ⟨q, thenExpr⟩ :=
    hparts _ (List.mem_append_right _ (List.mem_append_left _ (self_mem_ofExpr env thenExpr q)))
  have helseVisit : Visit.Disciplined env (env.types caps) ⟨r, elseExpr⟩ :=
    hparts _ (List.mem_append_right _ (List.mem_append_right _ (self_mem_ofExpr env elseExpr r)))
  have hstack : (Walk.stackOnly env ty).answer (r.after (Walk.checkExpr env elseExpr)).state =
      (env.types caps).stackOnly ty := congrFun (hlast.stackOnly_eq hr) ty
  let x : ScopePair := Visit.pair env ⟨q, thenExpr⟩
  let y : ScopePair := Visit.pair env ⟨r, elseExpr⟩
  have hanswer : (Walk.checkForm env id ty span
      (.conditional cond thenExpr elseExpr byRef)).answer p.state =
        ⟨if (env.types caps).stackOnly ty then (x.narrower y).value else .unlimited,
          if byRef then (x.narrower y).ref else .currentMethod, (x.narrower y).isInvalid⟩ := by
    rw [Walk.checkForm, ← hstack]
    rfl
  rw [hanswer]
  refine ⟨fun hfree _ => if_neg (ne_true_of_eq_false hfree), fun hvalid hne => ?_⟩
  cases byRef with
  | false => exact absurd rfl hne
  | true =>
    obtain ⟨hx, hy⟩ := Bool.or_eq_false_iff.1 hvalid
    obtain ⟨hxref, hyref⟩ := Level.ne_currentMethod_of_narrower hne
    have hthenStorage := hthenVisit.ref hx hxref
    have helseStorage := helseVisit.ref hy hyref
    dsimp only at hthenStorage helseStorage
    rw [hmeansq] at hthenStorage
    rw [hmeansr, hmeansq] at helseStorage
    exact .conditional hthenStorage helseStorage

/-- A conversion gives a temporary, or what is converted as a value. -/
theorem disciplined_convert (hr : env.Regular caps) (hp : p.state.Exact env caps)
    (operand : Expr) (explicit : Bool) (hsub : Site.ofExpr a operand ⊆ env.member.sites)
    {storage : Prop} :
    ((Walk.checkForm env id ty span (.convert operand explicit)).answer p.state).Disciplined
      ((env.types caps).stackOnly ty) storage := by
  obtain ⟨hexact, _⟩ := hp.after_checkExpr hr hsub
  obtain ⟨hexact', _⟩ := hexact.after_checkShape hr ty span
  rw [Walk.checkForm_convert, Walk.answer_bind]
  unfold Walk.convertTo
  rw [Walk.answer_bind]
  split
  · exact ScopePair.disciplined_of_invalid rfl
  · unfold Walk.convertChecked
    rw [Walk.answer_bind, Walk.answer_get, Walk.after_get, Walk.answer_bind]
    split
    · rw [hexact'.stackOnly_eq hr]
      cases (env.types caps).stackOnly ty with
      | true => exact ScopePair.disciplined_of_ref (fun h => absurd h (by decide)) rfl
      | false => exact ScopePair.disciplined_temporary
    · exact ScopePair.disciplined_of_invalid rfl

/-- An array on the stack, or on the heap. -/
theorem disciplined_stackAlloc (hr : env.Regular caps) (hp : p.state.Exact env caps)
    (elem : TypeRef) (len : Expr) (hsub : Site.ofExpr a len ⊆ env.member.sites) {storage : Prop} :
    ((Walk.checkForm env id ty span (.stackAlloc elem len)).answer p.state).Disciplined
      ((env.types caps).stackOnly ty) storage := by
  obtain ⟨hexact, _⟩ := hp.after_checkExpr hr hsub
  have hanswer : (Walk.checkForm env id ty span (.stackAlloc elem len)).answer p.state =
      if (env.types caps).stackOnly ty then .confined else .temporary := by
    rw [Walk.checkForm, ← hexact.stackOnly_eq hr]
    rfl
  rw [hanswer]
  cases (env.types caps).stackOnly ty with
  | true => exact ScopePair.disciplined_of_ref (fun h => absurd h (by decide)) rfl
  | false => exact ScopePair.disciplined_temporary

/-- A comparison gives a temporary, or it is given up. -/
theorem disciplined_binary (op : BinOp) (left right : Expr) {stackOnly : Bool} {storage : Prop} :
    ((Walk.checkForm env id ty span (.binary op left right)).answer p.state).Disciplined stackOnly
      storage := by
  rw [Walk.checkForm_binary, Walk.answer_bind, Walk.answer_bind]
  unfold Walk.compare
  split
  · exact ScopePair.disciplined_of_invalid rfl
  · exact Walk.disciplined_temporaryIf _

/-- A pattern test gives a temporary, or it is given up. -/
theorem disciplined_test (operand : Expr) (pattern : Pattern) {stackOnly : Bool} {storage : Prop} :
    ((Walk.checkForm env id ty span (.test operand pattern)).answer p.state).Disciplined stackOnly
      storage := by
  rw [Walk.checkForm_test, Walk.answer_bind, Walk.answer_bind]
  split
  · exact ScopePair.disciplined_temporary
  · exact ScopePair.disciplined_of_invalid rfl

/-- An expression keeps the discipline if its parts do. -/
theorem disciplined_form (hr : env.Regular caps) (hp : p.state.Disciplined env caps)
    {kind : ExprKind} (hsub : Site.ofKind a kind ⊆ env.member.sites)
    (hreg : IsRegular env (env.types caps) ⟨p, ⟨id, kind, ty, span⟩⟩)
    (hparts : ∀ v ∈ ofKind env id ty span kind p, v.Disciplined env (env.types caps))
    (hkind : Expr.isOutVar ⟨id, kind, ty, span⟩ = false) :
    ((Walk.checkForm env id ty span kind).answer p.state).Disciplined
      ((env.types caps).stackOnly ty)
      (Expr.DenotesStorage (env.types caps) (p.state.target? env) ⟨id, kind, ty, span⟩) := by
  have hexact : p.state.Exact env caps := hp.toExact
  cases kind with
  | literal l =>
    rw [Walk.checkForm]
    exact ScopePair.disciplined_temporary
  | var name =>
    rw [Walk.checkForm]
    exact ⟨hp.freeUnless_readVariable hr span hreg, fun _ _ => .var⟩
  | thisRef =>
    rw [Walk.checkForm]
    exact ⟨hp.freeUnless_readThis span hreg, fun _ _ => .thisRef⟩
  | field receiver owner name =>
    rw [Site.ofKind] at hsub
    rw [ofKind] at hparts
    exact disciplined_field hr hexact receiver owner name hsub hparts
  | property receiver getter args =>
    rw [Site.ofKind] at hsub
    exact disciplined_property hr hexact receiver getter args hsub
  | call receiver method typeArgs args =>
    rw [Site.ofKind] at hsub
    exact disciplined_call hr hexact receiver method typeArgs args hsub
  | create ctor args =>
    rw [Site.ofKind] at hsub
    refine disciplined_create hr hexact ctor args hsub fun r hctor => ?_
    obtain rfl : ctor = some r := hctor
    exact hreg
  | stackAlloc elem len =>
    rw [Site.ofKind] at hsub
    exact disciplined_stackAlloc hr hexact elem len hsub
  | conditional cond thenExpr elseExpr byRef =>
    rw [Site.ofKind] at hsub
    exact disciplined_conditional hr hexact cond thenExpr elseExpr byRef hsub hparts
  | convert operand explicit =>
    rw [Site.ofKind] at hsub
    exact disciplined_convert hr hexact operand explicit hsub
  | binary op left right => exact disciplined_binary op left right
  | test operand pattern => exact disciplined_test operand pattern
  | lambda fn =>
    rw [Walk.checkForm]
    exact ScopePair.disciplined_temporary
  | arrayNew elem elems =>
    rw [Walk.checkForm]
    exact Walk.disciplined_temporaryIf _
  | anonymous members =>
    rw [Walk.checkForm]
    exact Walk.disciplined_temporaryIf _
  | await operand =>
    rw [Walk.checkForm]
    exact ScopePair.disciplined_temporary
  | dynamicInvoke receiver name args =>
    rw [Walk.checkForm_dynamicInvoke]
    exact Walk.disciplined_temporaryIf _
  | outVar name => exact absurd hkind.symm Bool.false_ne_true

/-- An expression keeps the discipline if its parts do, which are not looked at if it is refused. -/
theorem disciplined_of_parts (hr : env.Regular caps) (hp : p.state.Disciplined env caps)
    {kind : ExprKind} (hsub : Site.ofKind a kind ⊆ env.member.sites)
    (hreg : IsRegular env (env.types caps) ⟨p, ⟨id, kind, ty, span⟩⟩)
    (hparts : p.state.refusesValue env ty = false →
      ∀ v ∈ ofKind env id ty span kind p, v.Disciplined env (env.types caps)) :
    Disciplined env (env.types caps) ⟨p, ⟨id, kind, ty, span⟩⟩ := by
  cases hrefused : p.state.refusesValue env ty with
  | true =>
    refine .of_pair ?_
    rw [pair, (Walk.run_checkExpr_refused hrefused id kind span).1]
    exact ScopePair.disciplined_of_invalid rfl
  | false =>
    have hpair : Visit.pair env ⟨p, ⟨id, kind, ty, span⟩⟩ =
        (Walk.checkForm env id ty span kind).answer p.state :=
      (Walk.run_checkExpr_form hrefused id kind span).1
    cases hout : Expr.isOutVar ⟨id, kind, ty, span⟩ with
    | false =>
      refine .of_pair ?_
      rw [hpair]
      exact disciplined_form hr hp hsub hreg (hparts hrefused) hout
    | true =>
      cases kind with
      | outVar name =>
        rw [Walk.checkForm] at hpair
        refine ⟨fun h => absurd (hout.symm.trans h) (by decide), fun _ hne => ?_⟩
        exact absurd (congrArg ScopePair.ref hpair) hne
      | _ => exact absurd hout Bool.false_ne_true

end Visit

end StackEscape
