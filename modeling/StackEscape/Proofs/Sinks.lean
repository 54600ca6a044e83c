import StackEscape.Proofs.Sites
import StackEscape.Body.Walk

/-!
# Sinks

What must hold at the places of a body where something flows out: returns, assignments and calls.
Said with the facts recorded for expressions and with what declarations say, and not with the walk
that finds them.

## Main definitions

* `StackEscape.Point.target?` — what a member reference means at a point of a body.
* `StackEscape.Target.contract` — the contract of a local function or member, from its declaration.
* `StackEscape.Contract.KeepsApart` — no operand lets anything into a call that does not live as
  long as what another operand could store it in.
* `StackEscape.Site.Respects` — nothing flows out at a site that does not live long enough.

## Main results

* `StackEscape.Contract.keepsApart_of_mixingErrors` — operands without errors are kept apart.
* `StackEscape.Walk.returnable_of_returnError` — what is returned without an error lives long
  enough.
-/

set_option autoImplicit false

namespace StackEscape

/-! ## Operands by their records -/

/-- Does the expression declare a variable in argument position? -/
def Expr.isOutVar (e : Expr) : Bool :=
  match e.kind with
  | .outVar _ => true
  | _ => false

/-- The expression has a record, and its analysis was not given up. -/
def Facts.Sure (facts : Facts) (e : Expr) : Prop :=
  ∃ pair, facts.pair? e.id = some pair ∧ pair.isInvalid = false

/-- An expression as an operand, with the pair recorded for it. -/
def TypeEnv.operand (types : TypeEnv) (facts : Facts) (mode : RefKind) (e : Expr) : Operand :=
  .ofExpr e ((facts.pair? e.id).getD .invalid) (types.stackOnly e.ty) mode e.isOutVar

/-! ## Callees by their declarations -/

namespace Member

/-- The contract of a local function without type parameters, from its declaration: types mean in it
what they mean in the member. -/
def localContract (m : Member) (caps : Capabilities) (p : Program) (decl : FnDecl) : Contract :=
  Contract.build caps p m.owner decl (m.localKey decl) m.innerScope true

end Member

/-- What a reference means at a point of a body. -/
def Point.target? (a : Point) (env : Surroundings) (r : MemberRef) : Option Target :=
  let localFunction :=
    if r.owner.declName = some env.member.owner.name then a.localFunction? r.name else none
  match localFunction with
  | some decl => some (.localFunction decl)
  | none =>
    match r.owner with
    | .param param => (env.boundMember? param r.name).map .member
    | _ => (env.program.member? r).map .member

/-- The contract of what a reference means, from its declaration. -/
def Target.contract (env : Surroundings) (caps : Capabilities) : Target → Contract
  | .localFunction decl => env.member.localContract caps env.program decl
  | .member m => Contract.ofMember caps env.program m

/-! ## Operands that are passed together -/

namespace Contract

/-- What one operand lets into a call lives as long as what any other operand could store it in
demands. -/
def KeepsApart (c : Contract) (receiver : Option Operand) (args : List Operand) : Prop :=
  ∀ (i j : Nat) (source sink : MixingArg) (level required : Level),
    (c.mixingArgs receiver args)[i]? = some source →
    (c.mixingArgs receiver args)[j]? = some sink → j ≠ i →
    source.sourceLevel = some level → sink.sinkLevel = some required → required ≤ level

end Contract

/-- Adding a violation to a report loses no error. -/
theorem MixingReport.errors_add_ne_nil {callee : String} {args : List MixingArg}
    {operands : List Operand} {facts : Facts} {span : Span} {r : MixingReport}
    (h : r.errors ≠ []) (v : Mixing.Violation) :
    (r.add callee args operands facts span v).errors ≠ [] := by
  intro h0
  simp only [MixingReport.add, List.append_assoc, List.append_eq_nil_iff] at h0
  exact h h0.1

/-- Every violation that is found leads to an error. -/
theorem violations_eq_nil_of_mixingErrors {facts : Facts} {c : Contract}
    {receiver : Option Operand} {args : List Operand} {span : Span}
    (h : mixingErrors facts c receiver args span = []) :
    Mixing.violations (c.mixingArgs receiver args) = [] := by
  -- Once there is an error, further violations do not take it away.
  have keeps (vs : List Mixing.Violation) : ∀ r : MixingReport, r.errors ≠ [] →
      (vs.foldl (MixingReport.add c.member (c.mixingArgs receiver args) (receiver.toList ++ args)
        facts span) r).errors ≠ [] := by
    induction vs with
    | nil => exact fun r hr => hr
    | cons v rest ih => exact fun r hr => ih _ (MixingReport.errors_add_ne_nil hr v)
  cases hvs : Mixing.violations (c.mixingArgs receiver args) with
  | nil => rfl
  | cons v rest =>
    have hv : (⟨v.source, v.sink⟩ : Mixing.Violation) ∈
        Mixing.violations (c.mixingArgs receiver args) := hvs ▸ List.mem_cons_self ..
    obtain ⟨_, _, _, hsink, _⟩ := Mixing.mem_violations_iff.1 hv
    obtain ⟨a, ha, _⟩ := Mixing.mem_sinks_iff.1 hsink
    have hfirst : (MixingReport.add c.member (c.mixingArgs receiver args)
        (receiver.toList ++ args) facts span {} v).errors ≠ [] := by
      simp [MixingReport.add, sinkError, ha]
    simp only [mixingErrors, hvs, List.foldl_cons] at h
    exact absurd h (keeps rest _ hfirst)

namespace Contract

/-- What the mixing rule looks at has the pair of an operand. -/
theorem exists_operand_of_mixingArgs {c : Contract} {receiver : Option Operand}
    {args : List Operand} {a : MixingArg} (h : a ∈ c.mixingArgs receiver args) :
    ∃ op ∈ receiver.toList ++ args, op.pair = a.pair := by
  simp only [mixingArgs, List.mem_append, List.mem_map, Prod.exists] at h ⊢
  rcases h with ⟨op, hop, rfl⟩ | ⟨op, i, hop, rfl⟩
  · exact ⟨op, Or.inl hop, rfl⟩
  · exact ⟨op, Or.inr (List.mem_of_getElem? (List.mem_zipIdx_iff_getElem?.1 hop)), rfl⟩

/-- Operands of a call without errors are kept apart. -/
theorem keepsApart_of_mixingErrors {facts : Facts} {c : Contract} {receiver : Option Operand}
    {args : List Operand} {span : Span}
    (hv : ∀ op ∈ receiver.toList ++ args, op.pair.isInvalid = false)
    (h : mixingErrors facts c receiver args span = []) : c.KeepsApart receiver args := by
  intro i j source sink level required hi hj hne hl hr
  by_contra hle
  obtain ⟨op, hop, hpair⟩ := exists_operand_of_mixingArgs (List.mem_of_getElem? hi)
  have hsource : (i, level) ∈ Mixing.sources (c.mixingArgs receiver args) :=
    Mixing.mem_sources_iff.2 ⟨source, hi, hpair ▸ hv op hop, hl⟩
  have hsink : (j, required) ∈ Mixing.sinks (c.mixingArgs receiver args) :=
    Mixing.mem_sinks_iff.2 ⟨sink, hj, hr⟩
  have hmem := Mixing.mem_violations_iff.2 ⟨level, required, hsource, hsink, hne, hle⟩
  rw [violations_eq_nil_of_mixingErrors h] at hmem
  exact absurd hmem (List.not_mem_nil)

end Contract

/-! ## Returns -/

/-- What may be returned lives as long as the caller may look at it. -/
theorem Walk.returnable_of_returnError {facts : Facts} {frame : FunctionFrame} {value : Expr}
    {pair : ScopePair} (hv : pair.isInvalid = false)
    (h : returnError facts frame value pair = none) :
    (frame.returnsByRef = true → .returnOnly ≤ pair.ref) ∧
      (frame.returnsStackOnly = true → .returnOnly ≤ pair.value) := by
  simp only [returnError, hv, Bool.false_eq_true, if_false] at h
  split at h
  · simp at h
  · next hr =>
    split at h
    · simp at h
    · next hvalue => exact ⟨fun hb => by simpa [hb] using hr, fun hb => by simpa [hb] using hvalue⟩

/-! ## Sites -/

/-- What types mean in a member, whose local functions have no type parameters of their own. -/
def Surroundings.types (env : Surroundings) (caps : Capabilities) : TypeEnv :=
  ⟨env.program, caps, env.member.innerScope, env.runtime⟩

/-- A call of what a reference means keeps its operands apart. -/
def Surroundings.CallRespects (env : Surroundings) (caps : Capabilities) (facts : Facts) (a : Point)
    (r : MemberRef) (receiver : Option Expr) (args : List Arg) : Prop :=
  (∀ e ∈ receiver.toList ++ args.map Arg.expr, facts.Sure e) ∧
    ∃ t, a.target? env r = some t ∧ (t.contract env caps).KeepsApart
      (receiver.map ((env.types caps).operand facts .none))
      (args.map fun x => (env.types caps).operand facts x.mode x.expr)

namespace Site

/-- What is returned lives as long as the caller may look at it. -/
def RespectsReturn (env : Surroundings) (caps : Capabilities) (facts : Facts) (a : Point)
    (e : Expr) : Prop :=
  ∃ pair, facts.pair? e.id = some pair ∧
    (a.returnsByRef = true → .returnOnly ≤ pair.ref) ∧
    ((env.types caps).stackOnly a.retTy = true → .returnOnly ≤ pair.value)

/-- What is assigned lives as long as what it is assigned to. -/
def RespectsAssignment (env : Surroundings) (caps : Capabilities) (facts : Facts)
    (target value : Expr) (byRef : Bool) : Prop :=
  ∃ t v, facts.pair? target.id = some t ∧ facts.pair? value.id = some v ∧
    (byRef = true → t.ref ≤ v.ref) ∧
    ((env.types caps).stackOnly target.ty = true → t.value ≤ v.value)

/-- Whatever flows out at the site lives long enough. A by-value assignment to a property is a call
of its setter. -/
def Respects (env : Surroundings) (caps : Capabilities) (facts : Facts) (x : Site) : Prop :=
  match x.node with
  | .stmt ⟨_, .ret (some e), _⟩ => RespectsReturn env caps facts x.point e
  | .stmt ⟨_, .assign ⟨_, .property receiver getter args, _, _⟩ value false, _⟩ =>
    env.CallRespects caps facts x.point ⟨getter.owner, "set_" ++ propertyName getter.name⟩ receiver
      (args ++ [⟨.none, value⟩])
  | .stmt ⟨_, .assign target value byRef, _⟩ => RespectsAssignment env caps facts target value byRef
  | .expr ⟨_, .property receiver getter args, _, _⟩ =>
    env.CallRespects caps facts x.point getter receiver args
  | .expr ⟨_, .call receiver method _ args, _, _⟩ =>
    env.CallRespects caps facts x.point method receiver args
  | .expr ⟨_, .create (some ctor) args, _, _⟩ => env.CallRespects caps facts x.point ctor none args
  | _ => True

end Site

end StackEscape
