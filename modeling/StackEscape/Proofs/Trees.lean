import StackEscape.Proofs.BodyHeeding

/-!
# Expression trees

An expression tree is data that lives on the heap, so nothing in it may be stack-only: wherever the walk
comes to a lambda that becomes one, every value inside of it is looked at, at any depth of calls, lambdas
and local functions, and so is every parameter of a well-shaped type. A stack-only one is reported. But
variables that are declared in it are not looked at, so a tree with a stack-only variable is accepted.

## Main definitions

* `StackEscape.TypedPart.IsLooked` — the parts that an expression tree looks at.
* `StackEscape.Visit.Reports` — a visit reports something in an expression tree.

## Main results

* `StackEscape.Spot.Leads.sees` — the type parameters in scope at a visit are filed.
* `StackEscape.Program.reports_of_stackOnly` — what is stack-only in an expression tree is reported.
* `StackEscape.Saplings.variables_unreported` — unless it is a variable.
-/

set_option autoImplicit false

namespace StackEscape

/-! ## What a visit sees -/

/-- What is seen in a state is seen with the type parameters in scope there. -/
theorem Inspection.Sees.own {I : Inspection} {r : Regard} {g : GenericScope} {s : WalkState}
    (h : I.Sees r g s) : I.Sees r s.generics s := by
  obtain rfl := h.generics
  exact h

/-- The type parameters in scope stay filed on the way to a spot. -/
theorem Spot.Leads.sees {I : Inspection} {p q : Spot} (hI : I.Orderly) (h : p.Leads I.env q)
    (hp : I.Sees .anything p.state.generics p.state) :
    I.Sees .anything q.state.generics q.state := by
  induction h with
  | here => exact hp
  | later _ ht ih => exact (ih.later hI ht).own
  | block _ _ hd ih =>
    exact ih.withContext ((ih.placed.pushScope _ _).declareFunctions hd) fun h => nomatch h
  | enter _ _ _ ih => exact ih.withContext (ih.placed.pushScope _ _) fun h => nomatch h
  | functions _ hd ih => exact ih.withContext (ih.placed.declareFunctions hd) fun h => nomatch h
  | typeParams _ hd hfiled ih =>
    exact ⟨ih.placed.localScope hd, rfl, ih.filed.push hfiled, ih.entered, ih.exact,
      fun h => nomatch h⟩

/-- The setting of what stands in the expression. -/
def Visit.setting (v : Visit) : Setting := ⟨v.spot.state.generics, v.spot.state.forbidsLocals⟩

/-- The visit reports something in an expression tree. -/
def Visit.Reports (env : Surroundings) (v : Visit) (errors : List EscapeError) : Prop :=
  (v.done env).errors = v.spot.state.errors ++ errors ∧
    ∃ ty span, ⟨.expressionTree ty, span⟩ ∈ errors

/-- An expression tree looks at the part: it is a value, or a parameter of a well-shaped type. The
parameters of local functions are bound by the contracts that are filed under their keys. -/
def TypedPart.IsLooked (p : Program) (m : Member) (x : TypedPart) : Prop :=
  match x.role with
  | .value => True
  | .param byContract => (byContract = true → p.DistinctKeys ∧ p.PlainLocalFunctions) ∧
      (p.typesIn m x.setting).WellShaped x.ty
  | .written | .result | .binding => False

namespace Program

variable {p : Program} {m : Member} {v : Visit} {fn : Lambda} {x : TypedPart} {strict : Prop}

/-- The type parameters in scope at a visit are filed. -/
theorem sees_visits (hparts : p.AlignedParts) (hreg : p.RegularPatterns)
    (hkeys : strict → p.DistinctKeys) (hplain : strict → p.PlainLocalFunctions)
    (hv : (m, v) ∈ p.visits) :
    (p.bodyInspection m strict).Sees .anything v.spot.state.generics v.spot.state := by
  obtain ⟨hm, before, hbefore, body, hbody, hleads⟩ := leads_visits hv
  exact hleads.sees (I := p.bodyInspection m strict) (orderly_bodyInspection hreg hkeys hplain hm)
    (sees_bodyEntry hparts hkeys hplain hm hbefore hbody).own

/-- If the visit of an expression tree reports no value in it, all of its parts are heeded. -/
theorem heeded_visits (hparts : p.AlignedParts) (hreg : p.RegularPatterns)
    (hkeys : strict → p.DistinctKeys) (hplain : strict → p.PlainLocalFunctions)
    (hv : (m, v) ∈ p.visits) (hfn : v.expr.kind = .lambda fn) (htree : fn.isExpressionTree = true)
    (hq : v.spot.state.Quiet .trees (v.done ⟨p, m, true⟩)) :
    ∀ x ∈ TypedPart.ofLambda m v.setting fn,
      x.Heeded (p.bodyInspection m strict) .trees (p.analyze {}).tables.caps := by
  have hI := orderly_bodyInspection hreg hkeys hplain (leads_visits hv).1
  have hsees := sees_visits hparts hreg hkeys hplain hv
  have hcaps := within_visits hv
  obtain ⟨a, hsites⟩ := sites_visits hv
  obtain ⟨spot, ⟨id, kind, ty, span⟩⟩ := v
  obtain rfl : kind = .lambda fn := hfn
  obtain ⟨params, retTy, body, isTree, isStatic, isAsync⟩ := fn
  rw [Visit.done] at hq hcaps
  cases hrefused : spot.state.refusesValue ⟨p, m, true⟩ ty with
  | true =>
    -- Refusing the value of the lambda is an error in another expression tree.
    dsimp only at hq
    rw [(Walk.run_checkExpr_refused hrefused id _ span).2] at hq
    exact absurd (hq.counts rfl _ (List.mem_singleton_self _)) (by simp [Regard.counts])
  | false =>
    dsimp only at hq hcaps
    rw [(Walk.run_checkExpr_form hrefused id _ span).2, Walk.checkForm, Walk.checkLambda] at hq hcaps
    rw [Site.ofExpr, Site.ofKind, Site.ofLambda] at hsites
    have hbody : Site.ofStmts (a.lambda retTy body) body ⊆ m.sites :=
      (List.cons_subset.1 hsites).2
    rw [TypedPart.ofLambda]
    refine List.forall_mem_cons.2 ⟨TypedPart.heeded_result .., ?_⟩
    exact Walk.Heeds.heeded_lambdaOver ⟨params, retTy, body, isTree, isStatic, isAsync⟩
      (Walk.Heeds.checkStmts body) hbody (Covers.mem_localFunctions_of_direct hbody) hI hsees
      (fun _ => .inl htree) hq hcaps

/-- **Expression trees.** Wherever a run comes to a lambda that becomes an expression tree, it reports
an error in it if any value inside of it is stack-only, or any parameter of a well-shaped type, at any
depth of nested lambdas and local functions. -/
theorem reports_of_stackOnly (hparts : p.AlignedParts) (hreg : p.RegularPatterns)
    (hv : (m, v) ∈ p.visits) (hfn : v.expr.kind = .lambda fn) (htree : fn.isExpressionTree = true)
    (hx : x ∈ TypedPart.ofLambda m v.setting fn) (hlooked : x.IsLooked p m)
    (hso : (p.typesIn m x.setting).stackOnly x.ty = true) :
    ∃ errors, v.Reports ⟨p, m, true⟩ errors ∧ errors ⊆ (p.analyze {}).escapeErrors := by
  obtain ⟨a, hsites⟩ := sites_visits hv
  have hproper : (Walk.checkExpr ⟨p, m, true⟩ v.expr).Proper ⟨p, m, true⟩ :=
    (Walk.Traces.checkExpr (a := a) v.expr).proper hsites
  have hsees := sees_visits hparts hreg And.left And.right hv
  obtain ⟨errors, herrors⟩ := (hproper.progress v.spot.state hsees.placed).errors
  have hkept : errors ⊆ (p.analyze {}).escapeErrors := by
    intro e he
    refine errors_visits hv ?_
    rw [Visit.done, herrors]
    exact List.mem_append_right _ he
  refine ⟨errors, ⟨herrors, ?_⟩, hkept⟩
  by_contra hnone
  have hquiet : v.spot.state.Quiet .trees (v.done ⟨p, m, true⟩) := by
    refine ⟨errors, herrors, fun e he => ?_⟩
    obtain ⟨kind, span⟩ := e
    cases kind with
    | expressionTree ty => exact absurd ⟨ty, span, he⟩ hnone
    | _ => rfl
  have hheeded := heeded_visits hparts hreg And.left And.right hv hfn htree hquiet
    x hx
  obtain ⟨c, role, ty⟩ := x
  have hfree : (p.typesIn m c).stackOnly ty = false := by
    cases role with
    | value => exact hheeded
    | param byContract => exact hheeded hlooked.1 hlooked.2
    | written => exact hlooked.elim
    | result => exact hlooked.elim
    | binding => exact hlooked.elim
  exact absurd (hso.symm.trans hfree) (by decide)

end Program

/-! ## Variables in expression trees -/

namespace Saplings

open Slots

/-- A local function that yields a slot. -/
def give : FnDecl := fn 8 "Give" [slotParam "s" .out false] .nothing []

/-- A local function that makes a slot. -/
def next : FnDecl := fn 3 "Next" [] (.byValue slotTy) []

/-- A lambda that becomes an expression tree. -/
def tree (params : List Param) (body : List Stmt) : Lambda := ⟨params, .void, body, true, false, false⟩

/-- A function that makes an expression tree. -/
def run (params : List Param) (body : List Stmt) : FnDecl :=
  fn 7 "Run" [⟨"o", .object, .none, false, [], .zero⟩] .nothing
    [⟨9, .localFunction give, .zero⟩, ⟨4, .localFunction next, .zero⟩,
      ⟨10, .expr ⟨11, .lambda (tree params body), .object, .zero⟩, .zero⟩]

/-- The class of the function. -/
def decl (params : List Param) (body : List Stmt) : TypeDecl :=
  ⟨6, "Saplings", .classType, false, false, [], [], [], [], [run params body], .zero⟩

/-- A program with slots and the function. -/
def programOf (params : List Param) (body : List Stmt) : Program :=
  ⟨[⟨1, "Slot", .refStruct, false, false, [], [], [], [], [], .zero⟩, decl params body]⟩

/-- The function in its class. -/
def member (params : List Param) (body : List Stmt) : Member := ⟨decl params body, run params body⟩

/-- The visit of the expression tree. -/
def visit (params : List Param) (body : List Stmt) : Visit :=
  let env : Surroundings := ⟨programOf params body, member params body, true⟩
  let start : Spot := (programOf params body).bodySpot true
    ((programOf params body).declaredTables true) (member params body)
    ((run params body).body.getD [])
  ⟨(start.after (Walk.checkStmt env ⟨9, .localFunction give, .zero⟩)).after
      (Walk.checkStmt env ⟨4, .localFunction next, .zero⟩),
    ⟨11, .lambda (tree params body), .object, .zero⟩⟩

/-- A declaration of a slot. -/
def declared : Stmt := ⟨12, .declare ⟨"s", slotTy, .none, false, none, .zero⟩, .zero⟩

/-- A pattern that declares a slot. -/
def matched : Stmt :=
  ⟨12, .expr ⟨13, .test ⟨14, .var "o", .object, .zero⟩ (.declaration "s" slotTy .zero), .bool, .zero⟩,
    .zero⟩

/-- A call that declares a slot. -/
def given : Stmt :=
  ⟨12, .expr ⟨13, .call none ⟨.named "Saplings" [], "Give"⟩ []
    [⟨.out, ⟨14, .outVar "s", slotTy, .zero⟩⟩], .void, .zero⟩, .zero⟩

/-- An iteration over slots. -/
def iterated : Stmt :=
  let next : MemberRef := ⟨.named "Saplings" [], "Next"⟩
  ⟨12, .foreach ⟨.declaration "s" slotTy .zero, false, ⟨13, .var "o", .object, .zero⟩,
    ⟨.object, slotTy, next, next, next, none⟩, false, []⟩, .zero⟩

/-- A lambda that makes a slot. -/
def built : Stmt :=
  ⟨12, .expr ⟨13, .lambda ⟨[], .void, [⟨14, .expr ⟨15, .create none [], slotTy, .zero⟩, .zero⟩], false,
    false, false⟩, .object, .zero⟩, .zero⟩

/-- The run comes to the expression tree. -/
theorem visit_mem (params : List Param) (body : List Stmt) :
    (member params body, visit params body) ∈ (programOf params body).visits :=
  List.mem_cons_self ..

/-- The run comes to the tree of a statement that declares a slot, and finds no error. -/
def Unreported (stmt : Stmt) : Prop :=
  let p := programOf [] [stmt]
  let m := member [] [stmt]
  let v := visit [] [stmt]
  (m, v) ∈ p.visits ∧ (p.analyze {}).isOk = true ∧
    ∃ x ∈ TypedPart.ofLambda m v.setting (tree [] [stmt]), x.role = .binding ∧
      (p.typesIn m x.setting).stackOnly x.ty = true

/-- A slot that is declared in an expression tree is not reported, whether by a declaration, by a
pattern, in a call or by an iteration. -/
theorem variables_unreported :
    Unreported declared ∧ Unreported matched ∧ Unreported given ∧ Unreported iterated :=
  ⟨⟨visit_mem [] [declared], by decide +kernel, by decide +kernel⟩,
    ⟨visit_mem [] [matched], by decide +kernel, by decide +kernel⟩,
    ⟨visit_mem [] [given], by decide +kernel, by decide +kernel⟩,
    ⟨visit_mem [] [iterated], by decide +kernel, by decide +kernel⟩⟩

/-- A parameter is reported. -/
example : ((programOf [slotParam "s" .none false] []).analyze {}).escapeErrors =
    [⟨.expressionTree "Slot", .zero⟩] := by
  decide +kernel

/-- A slot that is made in a lambda within an expression tree is reported. -/
theorem reports_of_stackOnly_built :
    let p := programOf [] [built]
    let m := member [] [built]
    let v := visit [] [built]
    let x : TypedPart := ⟨v.setting.lambda false, .value, slotTy⟩
    p.AlignedParts ∧ p.RegularPatterns ∧ (m, v) ∈ p.visits ∧
      v.expr.kind = .lambda (tree [] [built]) ∧ (tree [] [built]).isExpressionTree = true ∧
      x ∈ TypedPart.ofLambda m v.setting (tree [] [built]) ∧ x.IsLooked p m ∧
      (p.typesIn m x.setting).stackOnly x.ty = true ∧
      ∃ errors, v.Reports ⟨p, m, true⟩ errors ∧ errors ⊆ (p.analyze {}).escapeErrors := by
  intro p m v x
  have hparts : p.AlignedParts := by decide +kernel
  have hreg : p.RegularPatterns := by decide +kernel
  have hv : (m, v) ∈ p.visits := visit_mem [] [built]
  have hx : x ∈ TypedPart.ofLambda m v.setting (tree [] [built]) :=
    List.mem_of_getElem? (i := 3) rfl
  have hso : (p.typesIn m x.setting).stackOnly x.ty = true := by decide +kernel
  exact ⟨hparts, hreg, hv, rfl, rfl, hx, trivial, hso,
    Program.reports_of_stackOnly hparts hreg hv rfl rfl hx trivial hso⟩

end Saplings

end StackEscape
