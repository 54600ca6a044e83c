import Mathlib.Data.List.Forall2
import StackEscape.Proofs.Rescoping
import StackEscape.Proofs.Walks

/-!
# Two runs side by side

A run over a program, and the run over the same program with other `scoped` modifiers. The second run
follows the first one: what it knows of names, callees and types is the same, and it gives up the
same expressions. If only local variables became `scoped`, its levels are no wider either.

## Main definitions

* `StackEscape.ScopePair.Follows`, `Facts.Follows` — pairs and facts of the second run.
* `StackEscape.Contract.outline` — a contract as far as modifiers of parameters have no influence.
* `StackEscape.withoutViolations` — the errors that are no matter of levels.
* `StackEscape.Surroundings.Follows`, `WalkState.Follows` — what is around the second run, and its
  states.

## Main results

* `StackEscape.Contract.outline_build` — the outline of a contract depends on outlines.
* `StackEscape.Contract.derivedLevel_mono` — narrower operands, narrower result.
* `StackEscape.Context.Follows.lookup` — names mean the same.

## Implementation notes

In a `tight` comparison only local variables become `scoped`, and levels are compared. Without that,
modifiers of parameters may change as well, and nothing is said about levels.
-/

set_option autoImplicit false

namespace StackEscape

/-! ## Related lists -/

section Lists

variable {α β : Type} {R : α → β → Prop}

/-- What related lists have at a position is related. -/
theorem rel_getElem? {xs : List α} {ys : List β} (h : List.Forall₂ R xs ys) (i : Nat) :
    Option.Rel R xs[i]? ys[i]? := by
  induction h generalizing i with
  | nil => exact .none
  | cons hxy _ ih =>
    cases i with
    | zero => exact .some hxy
    | succ i => simpa using ih i

/-- What is found in related lists is related. -/
theorem rel_find? {xs : List α} {ys : List β} {p : α → Bool} {q : β → Bool}
    (h : List.Forall₂ R xs ys) (hpq : ∀ x y, R x y → p x = q y) :
    Option.Rel R (xs.find? p) (ys.find? q) := by
  induction h with
  | nil => exact .none
  | @cons x y _ _ hxy _ ih =>
    rw [List.find?_cons, List.find?_cons, ← hpq x y hxy]
    cases p x with
    | true => exact .some hxy
    | false => exact ih

/-- Some entry of a list passes a test if and only if one of the related list does. -/
theorem any_eq_of_forall₂ {xs : List α} {ys : List β} {p : α → Bool} {q : β → Bool}
    (h : List.Forall₂ R xs ys) (hpq : ∀ x y, R x y → p x = q y) : xs.any p = ys.any q := by
  induction h with
  | nil => rfl
  | cons hxy _ ih => rw [List.any_cons, List.any_cons, hpq _ _ hxy, ih]

end Lists

/-! ## Pairs -/

/-- The smaller levels, the smaller the narrower one of them. -/
theorem Level.narrower_mono {a a' b b' : Level} (ha : a' ≤ a) (hb : b' ≤ b) :
    a'.narrower b' ≤ a.narrower b :=
  Level.le_narrower_iff.2 ⟨Level.le_trans (Level.narrower_le_left _ _) ha,
    Level.le_trans (Level.narrower_le_right _ _) hb⟩

/-- A choice between narrower levels is narrower. -/
theorem Level.ite_mono (c : Prop) [Decidable c] {a a' b b' : Level} (ha : a' ≤ a) (hb : b' ≤ b) :
    (if c then a' else b') ≤ if c then a else b := by
  by_cases h : c
  · rw [if_pos h, if_pos h]
    exact ha
  · rw [if_neg h, if_neg h]
    exact hb

/-- The second pair is given up if and only if the first one is, and in a tight comparison it is no
wider. -/
structure ScopePair.Follows (tight : Bool) (a b : ScopePair) : Prop where
  /-- Both are given up, or none of them. -/
  isInvalid : b.isInvalid = a.isInvalid
  /-- The value is no wider. -/
  value : tight = true → b.value ≤ a.value
  /-- The reference is no wider. -/
  ref : tight = true → b.ref ≤ a.ref

namespace ScopePair.Follows

variable {tight : Bool} {a a' b b' : ScopePair}

@[refl] theorem refl (tight : Bool) (a : ScopePair) : Follows tight a a :=
  ⟨rfl, fun _ => Level.le_refl _, fun _ => Level.le_refl _⟩

theorem withRef (h : Follows tight a a') (level : Level) :
    Follows tight (a.withRef level) (a'.withRef level) :=
  ⟨h.isInvalid, h.value, fun _ => Level.le_refl _⟩

theorem withValue (h : Follows tight a a') (level : Level) :
    Follows tight (a.withValue level) (a'.withValue level) :=
  ⟨h.isInvalid, fun _ => Level.le_refl _, h.ref⟩

theorem narrower (ha : Follows tight a a') (hb : Follows tight b b') :
    Follows tight (a.narrower b) (a'.narrower b') := by
  refine ⟨?_, fun ht => Level.narrower_mono (ha.value ht) (hb.value ht),
    fun ht => Level.narrower_mono (ha.ref ht) (hb.ref ht)⟩
  simp only [ScopePair.narrower, ha.isInvalid, hb.isInvalid]

end ScopePair.Follows

/-- A field of a narrower receiver is narrower. -/
theorem TypeEnv.fieldPair_follows {tight : Bool} (env : TypeEnv)
    {receiver receiver' : Option (ScopePair × TypeRef)}
    (h : Option.Rel (fun x y => x.1.Follows tight y.1 ∧ y.2 = x.2) receiver receiver')
    (owner : TypeRef) (name : String) (ty : TypeRef) :
    (env.fieldPair receiver owner name ty).Follows tight
      (env.fieldPair receiver' owner name ty) := by
  cases h with
  | none => exact .refl tight _
  | @some x y hxy =>
    obtain ⟨pair, receiverTy⟩ := x
    obtain ⟨pair', receiverTy'⟩ := y
    have hpair : pair.Follows tight pair' := hxy.1
    obtain rfl : receiverTy' = receiverTy := hxy.2
    simp only [fieldPair, hpair.isInvalid]
    split
    · exact .refl tight _
    · split
      · exact .refl tight _
      · refine ⟨rfl, fun ht => Level.ite_mono _ (hpair.value ht) (Level.le_refl _), fun ht => ?_⟩
        cases env.program.field? owner name with
        | none => exact hpair.ref ht
        | some f => exact Level.ite_mono _ (hpair.value ht) (hpair.ref ht)

namespace Walk

/-- A local variable with a narrower initial value, or one that became `scoped`, is narrower. -/
theorem localPair_follows {tight : Bool} {decl decl' : LocalDecl} (stackOnly : Bool)
    {init init' : Option ScopePair} (hkind : decl'.refKind = decl.refKind)
    (hscoped : tight = true → decl.isScoped = true → decl'.isScoped = true)
    (h : Option.Rel (ScopePair.Follows tight) init init') :
    (localPair decl stackOnly init).Follows tight (localPair decl' stackOnly init') := by
  have hgiven : init'.any ScopePair.isInvalid = init.any ScopePair.isInvalid := by
    cases h with
    | none => rfl
    | some hxy => exact hxy.isInvalid
  have hvalue (ht : tight = true) : (init'.map ScopePair.value).getD .callingMethod ≤
      (init.map ScopePair.value).getD .callingMethod := by
    cases h with
    | none => exact Level.le_refl _
    | some hxy => exact hxy.value ht
  have href (ht : tight = true) : (init'.map ScopePair.ref).getD .currentMethod ≤
      (init.map ScopePair.ref).getD .currentMethod := by
    cases h with
    | none => exact Level.le_refl _
    | some hxy => exact hxy.ref ht
  simp only [localPair, hgiven, hkind]
  split
  · exact .refl tight _
  · refine ⟨rfl, fun ht => ?_, fun ht => ?_⟩
    · dsimp only
      cases hs : decl.isScoped with
      | true => simp [hscoped ht hs, Level.le_refl]
      | false =>
        cases stackOnly <;> cases decl'.isScoped <;>
          simp [Level.le_refl, Level.currentMethod_le, hvalue ht]
    · dsimp only
      cases hs : decl.isScoped with
      | true => simp [hscoped ht hs, Level.le_refl]
      | false =>
        cases decl.refKind.isByRef <;> cases decl'.isScoped <;>
          simp [Level.le_refl, Level.currentMethod_le, href ht]

end Walk

/-! ## Contracts -/

/-- What is promised of a parameter; unless modifiers are kept, without what depends on them. -/
def ParamContract.outline (keep : Bool) (c : ParamContract) : ParamContract :=
  if keep then c else { c with value := .unlimited, ref := .unlimited, isScoped := false }

/-- A contract; unless modifiers are kept, without what depends on them. -/
def Contract.outline (keep : Bool) (c : Contract) : Contract :=
  if keep then c
  else { c with params := c.params.map (ParamContract.outline false), returnSources := [] }

namespace ParamContract

/-- What is promised of a parameter, as far as modifiers have no influence, depends on its
outline. -/
theorem outline_ofParam (keep : Bool) (q : Param) (stackOnly : Bool) :
    (ofParam (q.outline keep) stackOnly).outline keep = (ofParam q stackOnly).outline keep := by
  cases keep <;> simp [outline, ofParam]

/-- Parameters with the same outlines have contracts with the same outlines. -/
theorem outline_ofParam_congr {keep : Bool} {qs qs' : List Param}
    (h : qs'.map (Param.outline keep) = qs.map (Param.outline keep)) (stackOnly : TypeRef → Bool) :
    (qs'.map fun q => ofParam q (stackOnly q.ty)).map (ParamContract.outline keep) =
      (qs.map fun q => ofParam q (stackOnly q.ty)).map (ParamContract.outline keep) := by
  have houtline (xs : List Param) :
      (xs.map fun q => ofParam q (stackOnly q.ty)).map (ParamContract.outline keep) =
        (xs.map (Param.outline keep)).map fun q => (ofParam q (stackOnly q.ty)).outline keep := by
    simp [Function.comp_def, outline_ofParam]
  rw [houtline, houtline, h]

end ParamContract

namespace Contract

variable {tight : Bool} {c c' : Contract}

/-- Contracts with modifiers kept are the same. -/
theorem eq_of_outline (h : c'.outline tight = c.outline tight) (ht : tight = true) : c' = c := by
  subst ht
  exact h

theorem valid_eq (h : c'.outline tight = c.outline tight) : c'.valid = c.valid := by
  have := congrArg Contract.valid h
  cases tight <;> exact this

theorem receiver_eq (h : c'.outline tight = c.outline tight) : c'.receiver = c.receiver := by
  have := congrArg Contract.receiver h
  cases tight <;> exact this

theorem returnsByRef_eq (h : c'.outline tight = c.outline tight) :
    c'.returnsByRef = c.returnsByRef := by
  have := congrArg Contract.returnsByRef h
  cases tight <;> exact this

theorem returnsStackOnly_eq (h : c'.outline tight = c.outline tight) :
    c'.returnsStackOnly = c.returnsStackOnly := by
  have := congrArg Contract.returnsStackOnly h
  cases tight <;> exact this

theorem isUnscoped_eq (h : c'.outline tight = c.outline tight) : c'.isUnscoped = c.isUnscoped := by
  have := congrArg Contract.isUnscoped h
  cases tight <;> exact this

theorem params_outline (h : c'.outline tight = c.outline tight) :
    c'.params.map (ParamContract.outline tight) = c.params.map (ParamContract.outline tight) := by
  cases tight with
  | true => rw [eq_of_outline h rfl]
  | false => exact congrArg Contract.params h

/-- The outline of a contract depends on outlines. -/
theorem outline_build (caps : Capabilities) (p : Program) (owner : TypeDecl) (decl : FnDecl)
    (key : String) (scope : GenericScope) (isLocal keep : Bool) :
    (build caps (p.outline keep) (owner.outline keep) (decl.outline keep) key scope
        isLocal).outline keep =
      (build caps p owner decl key scope isLocal).outline keep := by
  have hreceiver : ParamContract.receiver (owner.outline keep) (decl.outline keep) =
      ParamContract.receiver owner decl := rfl
  have hsources : receiverSources (decl.outline keep) = receiverSources decl := rfl
  cases keep with
  | true => simp [build, hreceiver, hsources, Function.comp_def]
  | false => simp [build, outline, hreceiver, Function.comp_def, ParamContract.outline_ofParam]

/-- Declarations with the same outlines have contracts with the same outline. -/
theorem build_outline_congr (caps : Capabilities) {p p' : Program} {owner owner' : TypeDecl}
    {decl decl' : FnDecl} {keep : Bool} (hp : p'.outline keep = p.outline keep)
    (ho : owner'.outline keep = owner.outline keep) (hd : decl'.outline keep = decl.outline keep)
    (key : String) (scope : GenericScope) (isLocal : Bool) :
    (build caps p' owner' decl' key scope isLocal).outline keep =
      (build caps p owner decl key scope isLocal).outline keep := by
  rw [← outline_build, ← outline_build caps p, hp, ho, hd]

end Contract

/-! ## Operands -/

/-- The second operand comes from the same place, and its pair follows the first one's. -/
structure Operand.Follows (tight : Bool) (a b : Operand) : Prop where
  /-- It is the same expression, up to modifiers. -/
  expr : ∃ σ : Rescoping, b.expr = a.expr.map σ.expr
  /-- The pair follows. -/
  pair : a.pair.Follows tight b.pair
  /-- Both may be stack-only, or none of them. -/
  stackOnly : b.stackOnly = a.stackOnly
  /-- Both are variables declared in place, or none of them. -/
  fresh : b.fresh = a.fresh
  /-- They stand in the same place. -/
  span : b.span = a.span

namespace Operand.Follows

variable {tight : Bool} {a b : ScopePair}

/-- Temporaries of the compiler. -/
theorem temporary (h : a.Follows tight b) (label : String) (stackOnly : Bool) (span : Span) :
    Follows tight (.temporary label a stackOnly span) (.temporary label b stackOnly span) :=
  ⟨⟨.marking fun _ => false, rfl⟩, h, rfl, rfl, rfl⟩

/-- The values of an expression. -/
theorem ofExpr (h : a.Follows tight b) (σ : Rescoping) (e : Expr) (stackOnly : Bool)
    (mode : RefKind) (fresh : Bool) :
    Follows tight (.ofExpr e a stackOnly mode fresh) (.ofExpr (σ.expr e) b stackOnly mode fresh) :=
  ⟨⟨σ, rfl⟩, h, rfl, rfl, σ.expr_span e⟩

end Operand.Follows

namespace Contract

variable {tight : Bool} {receiver receiver' : Option Operand} {args args' : List Operand}

/-- Operands of the same input are related. -/
theorem rel_operand? (hr : Option.Rel (Operand.Follows tight) receiver receiver')
    (ha : List.Forall₂ (Operand.Follows tight) args args') (i : Input) :
    Option.Rel (Operand.Follows tight) (operand? receiver args i) (operand? receiver' args' i) := by
  cases i with
  | receiver => exact hr
  | param i => exact rel_getElem? ha i

/-- Both operands contribute to the result, or none of them, and the second one does not widen
it. -/
theorem rel_sourceLevel (hr : Option.Rel (Operand.Follows true) receiver receiver')
    (ha : List.Forall₂ (Operand.Follows true) args args') (source : ReturnSource) :
    Option.Rel (fun l l' => l' ≤ l) (sourceLevel receiver args source)
      (sourceLevel receiver' args' source) := by
  have hop := rel_operand? hr ha source.input
  unfold sourceLevel
  revert hop
  generalize operand? receiver args source.input = x
  generalize operand? receiver' args' source.input = y
  intro hop
  cases hop with
  | none => exact .none
  | some hop =>
    cases source.via with
    | ref => exact .some (hop.pair.ref rfl)
    | value =>
      simp only [hop.fresh, hop.stackOnly]
      split
      · exact .some (hop.pair.value rfl)
      · exact .none

/-- What is derived from narrower operands is narrower. -/
theorem derivedLevel_mono (c : Contract) (hr : Option.Rel (Operand.Follows true) receiver receiver')
    (ha : List.Forall₂ (Operand.Follows true) args args') :
    c.derivedLevel receiver' args' ≤ c.derivedLevel receiver args := by
  unfold derivedLevel
  suffices h : ∀ (sources : List ReturnSource) (l l' : Level), l' ≤ l →
      (sources.filterMap (sourceLevel receiver' args')).foldl Level.narrower l' ≤
        (sources.filterMap (sourceLevel receiver args)).foldl Level.narrower l from
    h _ _ _ (Level.le_refl _)
  intro sources
  induction sources with
  | nil => exact fun _ _ h => h
  | cons source rest ih =>
    intro l l' h
    have hsource := rel_sourceLevel hr ha source
    rw [List.filterMap_cons, List.filterMap_cons]
    revert hsource
    generalize sourceLevel receiver args source = x
    generalize sourceLevel receiver' args' source = y
    intro hsource
    cases hsource with
    | none => exact ih l l' h
    | some hxy => exact ih _ _ (Level.narrower_mono h hxy)

/-- A result that is derived from something narrower is narrower. -/
theorem resultPair_follows {c c' : Contract} (hc : c'.outline tight = c.outline tight)
    (stackOnly : Bool) {derived derived' : Level} (h : tight = true → derived' ≤ derived) :
    (c.resultPair stackOnly derived).Follows tight (c'.resultPair stackOnly derived') := by
  simp only [resultPair, returnsByRef_eq hc]
  split
  · exact ⟨rfl, fun ht => Level.ite_mono _ (h ht) (Level.le_refl _), h⟩
  · split
    · exact ⟨rfl, h, fun _ => Level.le_refl _⟩
    · exact .refl tight _

end Contract

/-- The second outcome follows the first one. -/
structure Outcome.Follows (tight : Bool) (a b : Outcome) : Prop where
  /-- The pair of the result follows. -/
  result : a.result.Follows tight b.result
  /-- What outputs are derived from is no wider. -/
  derived : tight = true → b.derived ≤ a.derived

/-- A component of what was taken out follows. -/
theorem Walk.componentPair_follows {tight : Bool} {outcome outcome' : Option Outcome}
    (h : Option.Rel (Outcome.Follows tight) outcome outcome') (stackOnly : Bool) :
    (componentPair outcome stackOnly).Follows tight (componentPair outcome' stackOnly) := by
  cases h with
  | none => exact .refl tight _
  | some ho =>
    simp only [componentPair, ho.result.isInvalid]
    split
    · exact .refl tight _
    · split
      · exact ⟨rfl, ho.derived, fun _ => Level.le_refl _⟩
      · exact .refl tight _

/-! ## Names -/

/-- The second variable is declared alike, and its pair follows the first one's. -/
structure LocalInfo.Follows (tight : Bool) (a b : LocalInfo) : Prop where
  /-- They have the same name. -/
  name : b.name = a.name
  /-- They have the same type. -/
  ty : b.ty = a.ty
  /-- Both may be stack-only, or none of them. -/
  stackOnly : b.stackOnly = a.stackOnly
  /-- The pair follows. -/
  pair : a.pair.Follows tight b.pair

/-- The second scope has the same names. -/
structure Scope.Follows (tight : Bool) (s t : Scope) : Prop where
  /-- The scopes belong to the same thing. -/
  kind : t.kind = s.kind
  /-- The variables follow. -/
  locals : List.Forall₂ (LocalInfo.Follows tight) s.locals t.locals
  /-- The local functions are the same, up to their bodies. -/
  functions : ∀ name, (t.functions.get? name).map (FnDecl.outline tight) =
    (s.functions.get? name).map (FnDecl.outline tight)

/-- In the second context the same names are visible. -/
structure Context.Follows (tight : Bool) (c d : Context) : Prop where
  /-- The scopes follow. -/
  scopes : List.Forall₂ (Scope.Follows tight) c.scopes d.scopes
  /-- The same functions were entered. -/
  frames : d.frames = c.frames

namespace Context.Follows

variable {tight : Bool} {c d : Context}

theorem function (h : c.Follows tight d) : d.function = c.function := by
  rw [Context.function, h.frames, Context.function]

theorem inNestedFunction (h : c.Follows tight d) : d.inNestedFunction = c.inNestedFunction := by
  rw [Context.inNestedFunction, h.frames, Context.inNestedFunction]

theorem inExpressionTree (h : c.Follows tight d) : d.inExpressionTree = c.inExpressionTree :=
  (any_eq_of_forall₂ h.scopes fun _ _ hs => by rw [hs.kind]).symm

/-- The same local function is found, up to its body. -/
theorem localFunction (h : c.Follows tight d) (name : String) :
    (d.localFunction name).map (FnDecl.outline tight) =
      (c.localFunction name).map (FnDecl.outline tight) := by
  rcases c with ⟨scopes, frames⟩
  rcases d with ⟨scopes', frames'⟩
  have hscopes : List.Forall₂ (Scope.Follows tight) scopes scopes' := h.scopes
  simp only [Context.localFunction]
  clear h
  induction hscopes with
  | nil => rfl
  | @cons s t _ _ hs _ ih =>
    have hfound := hs.functions name
    rw [List.findSome?_cons, List.findSome?_cons]
    cases hf : s.functions.get? name <;> cases hg : t.functions.get? name <;>
      simp_all

/-- The variable of a name follows, and the same nested functions lie between. -/
theorem lookup (h : c.Follows tight d) (name : String) :
    Option.Rel (fun x y => x.info.Follows tight y.info ∧ y.crossed = x.crossed)
      (c.lookup name) (d.lookup name) := by
  suffices hin : ∀ {scopes scopes' : List Scope},
      List.Forall₂ (Scope.Follows tight) scopes scopes' → ∀ crossed,
        Option.Rel (fun x y => x.info.Follows tight y.info ∧ y.crossed = x.crossed)
          (Context.lookupIn name crossed scopes) (Context.lookupIn name crossed scopes') from
    hin h.scopes none
  intro scopes scopes' hscopes
  induction hscopes with
  | nil => exact fun _ => .none
  | @cons s t _ _ hs _ ih =>
    intro crossed
    have hlast : Option.Rel (LocalInfo.Follows tight) (Context.lastLocal s name)
        (Context.lastLocal t name) :=
      rel_find? (List.rel_reverse hs.locals) fun _ _ hinfo => by rw [hinfo.name]
    rw [Context.lookupIn, Context.lookupIn, hs.kind]
    revert hlast
    generalize Context.lastLocal s name = x
    generalize Context.lastLocal t name = y
    intro hlast
    cases hlast with
    | none => exact ih _
    | some hinfo => exact .some ⟨hinfo, rfl⟩

theorem pushScope (h : c.Follows tight d) (kind : ScopeKind) :
    (c.pushScope kind).Follows tight (d.pushScope kind) :=
  ⟨.cons ⟨rfl, .nil, fun _ => rfl⟩ h.scopes, h.frames⟩

theorem pushFunction (h : c.Follows tight d) (kind : ScopeKind) (frame : FunctionFrame) :
    (c.pushFunction kind frame).Follows tight (d.pushFunction kind frame) :=
  ⟨.cons ⟨rfl, .nil, fun _ => rfl⟩ h.scopes, congrArg (frame :: ·) h.frames⟩

theorem popScope (h : c.Follows tight d) : c.popScope.Follows tight d.popScope := by
  rcases c with ⟨scopes, frames⟩
  rcases d with ⟨scopes', frames'⟩
  obtain ⟨hscopes, rfl⟩ := h
  cases hscopes with
  | nil => exact ⟨.nil, rfl⟩
  | cons hs hrest =>
    refine ⟨hrest, ?_⟩
    simp only [Context.popScope, hs.kind]

/-- Changing the innermost scopes in the same way. -/
theorem modifyTop (h : c.Follows tight d) {f g : Scope → Scope}
    (hfg : ∀ s t : Scope, s.Follows tight t → (f s).Follows tight (g t)) :
    (c.modifyTop f).Follows tight (d.modifyTop g) := by
  rcases c with ⟨scopes, frames⟩
  rcases d with ⟨scopes', frames'⟩
  obtain ⟨hscopes, rfl⟩ := h
  cases hscopes with
  | nil => exact ⟨.nil, rfl⟩
  | cons hs hrest => exact ⟨.cons (hfg _ _ hs) hrest, rfl⟩

theorem declare (h : c.Follows tight d) {info info' : LocalInfo}
    (hinfo : info.Follows tight info') : (c.declare info).Follows tight (d.declare info') :=
  h.modifyTop fun _ _ hs =>
    ⟨hs.kind, List.rel_append hs.locals (.cons hinfo .nil), hs.functions⟩

theorem declareFunctions (h : c.Follows tight d) {decls decls' : List FnDecl}
    (hd : decls'.map (FnDecl.outline tight) = decls.map (FnDecl.outline tight)) :
    (c.declareFunctions decls).Follows tight (d.declareFunctions decls') := by
  have hfind (name : String) : ∀ xs ys : List FnDecl,
      ys.map (FnDecl.outline tight) = xs.map (FnDecl.outline tight) →
      (ys.find? fun d => decide (d.name = name)).map (FnDecl.outline tight) =
        (xs.find? fun d => decide (d.name = name)).map (FnDecl.outline tight) := by
    intro xs ys hxy
    have hmap (zs : List FnDecl) : (zs.find? fun d => decide (d.name = name)).map
        (FnDecl.outline tight) =
          (zs.map (FnDecl.outline tight)).find? fun d => decide (d.name = name) := by
      rw [List.find?_map]
      rfl
    rw [hmap, hmap, hxy]
  rw [Context.declareFunctions_eq, Context.declareFunctions_eq]
  refine h.modifyTop fun s t hs => ⟨hs.kind, hs.locals, fun name => ?_⟩
  have hlast := hfind name decls.reverse decls'.reverse (by
    rw [List.map_reverse, List.map_reverse, hd])
  simp only [Context.get?_functionTable, Option.map_or, hlast, hs.functions name]

end Context.Follows

/-! ## Facts, errors and tables -/

/-- The facts of the second run: its pairs follow, null tests and copies are the same. -/
structure Facts.Follows (tight : Bool) (f g : Facts) : Prop where
  /-- The same expressions are recorded, and their pairs follow. -/
  pairs : ∀ id, Option.Rel (ScopePair.Follows tight) (f.pair? id) (g.pair? id)
  /-- Null tests are carried out in the same way. -/
  nullTests : g.nullTests = f.nullTests
  /-- The same reads go through a copy. -/
  defensiveCopies : g.defensiveCopies = f.defensiveCopies

namespace Facts.Follows

variable {tight : Bool} {f g f' g' : Facts}

theorem refl (tight : Bool) (f : Facts) : Follows tight f f := by
  refine ⟨fun id => ?_, rfl, rfl⟩
  cases f.pair? id with
  | none => exact .none
  | some pair => exact .some (.refl tight pair)

theorem record (h : f.Follows tight g) (id : NodeId) {a b : ScopePair} (hab : a.Follows tight b) :
    (f.record id a).Follows tight (g.record id b) := by
  refine ⟨fun id' => ?_, h.nullTests, h.defensiveCopies⟩
  simp only [Facts.record, Facts.pair?, Table.get?_set]
  split
  · exact .some hab
  · exact h.pairs id'

theorem recordNullTest (h : f.Follows tight g) (id : NodeId) (test : NullTest) :
    (f.recordNullTest id test).Follows tight (g.recordNullTest id test) :=
  ⟨h.pairs, congrArg (fun t => t.set id test) h.nullTests, h.defensiveCopies⟩

theorem noteCopy (h : f.Follows tight g) (span : Span) :
    (f.noteCopy span).Follows tight (g.noteCopy span) :=
  ⟨h.pairs, h.nullTests, congrArg (· ++ [span]) h.defensiveCopies⟩

/-- The facts of several bodies follow, if those of each of them do. -/
theorem extend (h : f.Follows tight g) (h' : f'.Follows tight g') :
    (f.extend f').Follows tight (g.extend g') := by
  refine ⟨fun id => ?_, ?_, ?_⟩
  · simp only [Facts.extend, Facts.pair?, Table.get?_merge]
    have hfirst := h.pairs id
    have hsecond := h'.pairs id
    simp only [Facts.pair?] at hfirst hsecond
    revert hsecond
    generalize f'.pairs.get? id = x
    generalize g'.pairs.get? id = y
    intro hsecond
    cases hsecond with
    | none => exact hfirst
    | some hxy => exact .some hxy
  · simp only [Facts.extend, h.nullTests, h'.nullTests]
  · simp only [Facts.extend, h.defensiveCopies, h'.defensiveCopies]

end Facts.Follows

/-- The errors that are no matter of levels. -/
def withoutViolations (errors : List EscapeError) : List EscapeError :=
  errors.filter fun e => decide (e.errorClass ≠ .escapeViolation)

@[simp] theorem withoutViolations_append (xs ys : List EscapeError) :
    withoutViolations (xs ++ ys) = withoutViolations xs ++ withoutViolations ys :=
  List.filter_append ..

/-- Errors that are all a matter of levels. -/
theorem withoutViolations_eq_nil {errors : List EscapeError}
    (h : ∀ e ∈ errors, e.errorClass = .escapeViolation) : withoutViolations errors = [] :=
  List.filter_eq_nil_iff.2 fun e he => by simp [h e he]

/-- The second tables hold the same capabilities and the same contracts, up to modifiers. -/
structure Tables.Follows (tight : Bool) (T U : Tables) : Prop where
  /-- The same capabilities are filed. -/
  caps : U.caps = T.caps
  /-- The same contracts are filed. -/
  contracts : ∀ key, (U.contracts.get? key).map (Contract.outline tight) =
    (T.contracts.get? key).map (Contract.outline tight)

theorem Tables.Follows.refl (tight : Bool) (T : Tables) : T.Follows tight T := ⟨rfl, fun _ => rfl⟩

/-- Obtaining a contract in both tables. -/
theorem Tables.Follows.obtain {tight : Bool} {T U : Tables} (h : T.Follows tight U) (key : String)
    {c c' : Contract} (hc : c'.outline tight = c.outline tight) :
    (U.contracts.obtain key c').1.outline tight = (T.contracts.obtain key c).1.outline tight ∧
      Tables.Follows tight { T with contracts := (T.contracts.obtain key c).2 }
        { U with contracts := (U.contracts.obtain key c').2 } := by
  have hfirst : ((U.contracts.get? key).getD c').outline tight =
      ((T.contracts.get? key).getD c).outline tight := by
    have hfound := h.contracts key
    cases hT : T.contracts.get? key <;> cases hU : U.contracts.get? key <;> simp_all
  refine ⟨by rw [Contracts.obtain_fst, Contracts.obtain_fst, hfirst], h.caps, fun k => ?_⟩
  simp only [Contracts.get?_obtain]
  split
  · exact congrArg some hfirst
  · exact h.contracts k

/-! ## Surroundings and states -/

/-- The second surroundings are those of the same member, up to modifiers and bodies. -/
structure Surroundings.Follows (tight : Bool) (env env' : Surroundings) : Prop where
  /-- The programs have the same outline. -/
  program : env'.program.outline tight = env.program.outline tight
  /-- The members have the same outline. -/
  member : env'.member.outline tight = env.member.outline tight
  /-- The runtimes are the same. -/
  runtime : env'.runtime = env.runtime

/-- The second state follows the first one. -/
structure WalkState.Follows (tight : Bool) (s t : WalkState) : Prop where
  /-- The same names are in scope. -/
  ctx : s.ctx.Follows tight t.ctx
  /-- The same type parameters are in scope. -/
  generics : t.generics = s.generics
  /-- The facts follow. -/
  facts : s.facts.Follows tight t.facts
  /-- The same errors were found that are no matter of levels. -/
  errors : withoutViolations t.errors = withoutViolations s.errors
  /-- The tables follow. -/
  tables : s.tables.Follows tight t.tables

end StackEscape
