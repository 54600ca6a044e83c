import StackEscape.Proofs.Accepted
import StackEscape.Proofs.FiledParams

/-!
# Changes of type

A value gets another static type by a conversion, as the variable of a declaration pattern, or as
the variable of an iteration. Only conversions are checked: if a run finds no error, then none of
them boxes or unboxes. Patterns and iterations do both, and nothing is reported.

## Main definitions

* `StackEscape.Retyping` — a point of a body where a value gets another type.
* `StackEscape.Member.retypings` — all of them, at every depth.
* `StackEscape.TypeEnv.boxes`, `unboxes` — what no value may be subjected to.
* `StackEscape.Walk.Examines` — walks that check the conversions among some points.

## Main results

* `StackEscape.TypeEnv.conversionError_eq_none_iff` — what the check of a conversion refuses.
* `StackEscape.Walk.Examines.checkStmts` — every walk checks the conversions on its way.
* `StackEscape.Program.conversions_of_isOk` — no accepted conversion boxes or unboxes.
* `StackEscape.Crates.boxed_unchecked` — accepted patterns that do.

## Implementation notes

A point knows the type parameters in scope there and not what is filed of them. When it is reached
they are all filed, and what is filed stays (`StackEscape.TypeEnv.capability_of_filed`), so the
types of a point are looked up in the table at the end of the run.
-/

set_option autoImplicit false

namespace StackEscape

/-! ## Boxing and unboxing -/

namespace TypeEnv

/-- Is a stack-only value put where a value of the target type is expected, which is not? -/
def boxes (types : TypeEnv) (source target : TypeRef) : Bool :=
  types.stackOnly source && !types.stackOnly target

/-- Is a stack-only value taken out of a value that lives on the heap? -/
def unboxes (types : TypeEnv) (source target : TypeRef) : Bool :=
  types.stackOnly target && !types.stackOnly source &&
    (decide (source = .object) || decide (source = .dynamic) ||
      (types.capability source).isReference)

/-- The check of a conversion passes exactly if it neither boxes nor unboxes. -/
theorem conversionError_eq_none_iff {types : TypeEnv} {source target : TypeRef} :
    types.conversionError source target = none ↔
      types.boxes source target = false ∧ types.unboxes source target = false := by
  by_cases heq : source = target
  · subst heq
    simp [conversionError, boxes, unboxes]
  · cases hs : types.stackOnly source <;> cases ht : types.stackOnly target <;>
      simp [conversionError, boxes, unboxes, hs, ht, heq, and_assoc]

/-- Conversions mean the same in later tables. -/
theorem conversionError_of_filed {p : Program} {g : GenericScope} {c d : Capabilities}
    (runtime : Bool) (h : g.Filed c) (hcd : c.Within d) :
    conversionError ⟨p, c, g, runtime⟩ = conversionError ⟨p, d, g, runtime⟩ := by
  have hcap : capability ⟨p, c, g, runtime⟩ = capability ⟨p, d, g, runtime⟩ :=
    capability_of_filed runtime h hcd
  have hstack : stackOnly ⟨p, c, g, runtime⟩ = stackOnly ⟨p, d, g, runtime⟩ := by
    funext ty
    exact congrArg (fun cap => (cap ty).isStackOnly) hcap
  funext source target
  rw [conversionError, conversionError, hcap, hstack]

end TypeEnv

/-! ## Points where a value gets another type -/

/-- How a value gets another type. -/
inductive Retyping.Route where
  /-- By a conversion. -/
  | conversion
  /-- As the variable of a declaration pattern. -/
  | pattern
  /-- As the variable of an iteration. -/
  | iteration
  deriving DecidableEq, Repr

/-- A point of a body where a value gets another type. -/
structure Retyping where
  /-- The type parameters in scope. -/
  scope : GenericScope
  /-- How the value gets its type. -/
  route : Retyping.Route
  /-- The type that it has. -/
  source : TypeRef
  /-- The type that it gets. -/
  target : TypeRef
  deriving DecidableEq, Repr

namespace Retyping

mutual

/-- The points of an expression. -/
def ofExpr (m : Member) (g : GenericScope) : Expr → List Retyping
  | ⟨_, kind, ty, _⟩ => ofKind m g ty kind

/-- The points of an expression of some form and type. -/
def ofKind (m : Member) (g : GenericScope) (ty : TypeRef) : ExprKind → List Retyping
  | .literal _ | .var _ | .thisRef | .outVar _ => []
  | .field receiver _ _ => ofOptional m g receiver
  | .property receiver _ args => ofOptional m g receiver ++ ofArgs m g args
  | .call receiver _ _ args => ofOptional m g receiver ++ ofArgs m g args
  | .create _ args => ofArgs m g args
  | .stackAlloc _ len => ofExpr m g len
  | .conditional cond thenExpr elseExpr _ =>
    ofExpr m g cond ++ (ofExpr m g thenExpr ++ ofExpr m g elseExpr)
  | .convert operand _ => ofExpr m g operand ++ [⟨g, .conversion, operand.ty, ty⟩]
  | .binary _ left right => ofExpr m g left ++ ofExpr m g right
  | .test operand pattern => ofExpr m g operand ++ ofPattern m g .pattern operand.ty pattern
  | .lambda fn => ofLambda m g fn
  | .arrayNew _ elems => ofExprs m g elems
  | .anonymous members => ofMembers m g members
  | .await operand => ofExpr m g operand
  | .dynamicInvoke receiver _ args => ofExpr m g receiver ++ ofArgs m g args

/-- The points of a receiver or an initial value. -/
def ofOptional (m : Member) (g : GenericScope) : Option Expr → List Retyping
  | none => []
  | some e => ofExpr m g e

/-- The points of arguments. -/
def ofArgs (m : Member) (g : GenericScope) : List Arg → List Retyping
  | [] => []
  | ⟨_, e⟩ :: rest => ofExpr m g e ++ ofArgs m g rest

/-- The points of array elements. -/
def ofExprs (m : Member) (g : GenericScope) : List Expr → List Retyping
  | [] => []
  | e :: rest => ofExpr m g e ++ ofExprs m g rest

/-- The points of the members of an anonymous object. -/
def ofMembers (m : Member) (g : GenericScope) : List NamedExpr → List Retyping
  | [] => []
  | ⟨_, e⟩ :: rest => ofExpr m g e ++ ofMembers m g rest

/-- The points of a lambda. -/
def ofLambda (m : Member) (g : GenericScope) : Lambda → List Retyping
  | ⟨_, _, body, _, _, _⟩ => ofStmts m g body

/-- The points of a pattern that is matched with a value of some type. -/
def ofPattern (m : Member) (g : GenericScope) (route : Route) (input : TypeRef) :
    Pattern → List Retyping
  | .discard | .typeTest _ => []
  | .declaration _ ty _ => [⟨g, route, input, ty⟩]
  | .constant e => ofExpr m g e
  | .property _ subpatterns => ofSubPatterns m g subpatterns
  | .positional _ subpatterns componentTys => ofComponents m g subpatterns componentTys
  | .negated inner => ofPattern m g .pattern input inner

/-- The points of the entries of a property pattern. -/
def ofSubPatterns (m : Member) (g : GenericScope) : List SubPattern → List Retyping
  | [] => []
  | ⟨_, ty, pattern, _⟩ :: rest => ofPattern m g .pattern ty pattern ++ ofSubPatterns m g rest

/-- The points of the parts of a positional pattern; a part too many is matched with nothing. -/
def ofComponents (m : Member) (g : GenericScope) : List Pattern → List TypeRef → List Retyping
  | pattern :: rest, ty :: tys => ofPattern m g .pattern ty pattern ++ ofComponents m g rest tys
  | _, _ => []

/-- The points of a local variable's declaration. -/
def ofLocal (m : Member) (g : GenericScope) : LocalDecl → List Retyping
  | ⟨_, _, _, _, init, _⟩ => ofOptional m g init

/-- The points of some statements. -/
def ofStmts (m : Member) (g : GenericScope) : List Stmt → List Retyping
  | [] => []
  | s :: rest => ofStmt m g s ++ ofStmts m g rest

/-- The points of a statement. -/
def ofStmt (m : Member) (g : GenericScope) : Stmt → List Retyping
  | ⟨_, .expr e, _⟩ | ⟨_, .yieldReturn e, _⟩ | ⟨_, .ret (some e), _⟩ => ofExpr m g e
  | ⟨_, .declare decl, _⟩ => ofLocal m g decl
  | ⟨_, .assign target value _, _⟩ => ofExpr m g target ++ ofExpr m g value
  | ⟨_, .ret none, _⟩ => []
  | ⟨_, .block body, _⟩ => ofStmts m g body
  | ⟨_, .ifElse cond thenBranch elseBranch, _⟩ =>
    ofExpr m g cond ++ (ofStmts m g thenBranch ++ ofBody m g elseBranch)
  | ⟨_, .whileLoop cond body, _⟩ => ofExpr m g cond ++ ofStmts m g body
  | ⟨_, .foreach loop, _⟩ => ofForeach m g loop
  | ⟨_, .using region, _⟩ => ofUsing m g region
  | ⟨_, .localFunction decl, _⟩ => ofLocalFunction m g decl

/-- The points of an iteration. -/
def ofForeach (m : Member) (g : GenericScope) : ForeachStmt → List Retyping
  | ⟨binding, _, collection, enumerator, _, body⟩ =>
    ofExpr m g collection ++
      (ofPattern m g .iteration enumerator.elementTy binding ++ ofStmts m g body)

/-- The points of a region with a resource. -/
def ofUsing (m : Member) (g : GenericScope) : UsingStmt → List Retyping
  | ⟨.expr e, _, _, body⟩ => ofExpr m g e ++ ofStmts m g body
  | ⟨.declare decl, _, _, body⟩ => ofLocal m g decl ++ ofStmts m g body

/-- The points of a local function; its type parameters are in scope there. -/
def ofLocalFunction (m : Member) (g : GenericScope) : FnDecl → List Retyping
  | ⟨id, name, kind, modifiers, typeParams, params, ret, attrs, explicitImpl, overrides, body,
      span⟩ =>
    ofBody m (g.push (m.localKey ⟨id, name, kind, modifiers, typeParams, params, ret, attrs,
      explicitImpl, overrides, body, span⟩) typeParams) body

/-- The points of statements that may be missing. -/
def ofBody (m : Member) (g : GenericScope) : Option (List Stmt) → List Retyping
  | none => []
  | some body => ofStmts m g body

end

/-- If the point is a conversion, its check passes, by the given table and by all later ones. -/
def Passes (x : Retyping) (env : Surroundings) (caps : Capabilities) : Prop :=
  x.route = .conversion → ∀ d : Capabilities, caps.Within d →
    TypeEnv.conversionError ⟨env.program, d, x.scope, env.runtime⟩ x.source x.target = none

/-- It passes by later tables too. -/
theorem Passes.within {x : Retyping} {env : Surroundings} {c d : Capabilities}
    (h : x.Passes env c) (hcd : c.Within d) : x.Passes env d :=
  fun hroute e he => h hroute e (hcd.trans he)

end Retyping

/-- The points of a member where a value gets another type. -/
def Member.retypings (m : Member) : List Retyping := Retyping.ofBody m m.innerScope m.decl.body

/-! ## Conversions -/

namespace Walk

variable {env : Surroundings} {ns : List String}

/-- A conversion to a well-formed type of a value that has the given pair. -/
def convertChecked (env : Surroundings) (source target : TypeRef) (span : Span)
    (inner : ScopePair) : Walk ScopePair := do
  let types := (← get).types env
  if ← passes (types.conversionError source target) span then
    return if types.stackOnly target then inner.withRef .currentMethod else .temporary
  else return .invalid

/-- A conversion of a value that has the given pair. -/
def convertTo (env : Surroundings) (source target : TypeRef) (span : Span) (inner : ScopePair) :
    Walk ScopePair := do
  let wellFormed ← checkShape env target span
  if !wellFormed then return .invalid
  else convertChecked env source target span inner

theorem checkForm_convert (env : Surroundings) (id : NodeId) (ty : TypeRef) (span : Span)
    (operand : Expr) (explicit : Bool) :
    checkForm env id ty span (.convert operand explicit) =
      checkExpr env operand >>= convertTo env operand.ty ty span := by
  rw [checkForm]
  rfl

theorem Declares.convertChecked (env : Surroundings) (source target : TypeRef) (span : Span)
    (inner : ScopePair) :
    Declares ns (fun _ => True) (Walk.convertChecked env source target span inner) :=
  .look fun _ => (Declares.passes _ _).bind fun _ _ => .ite (.pure trivial) (.pure trivial)

theorem Declares.convertTo (env : Surroundings) (source target : TypeRef) (span : Span)
    (inner : ScopePair) :
    Declares ns (fun _ => True) (Walk.convertTo env source target span inner) :=
  (Declares.checkShape _ _ _).bind fun _ _ => .ite (.pure trivial)
    (Declares.convertChecked env source target span inner)

/-- Between well-formed types, a conversion is accepted only if it has no error. -/
theorem conversionError_of_accepted {source target : TypeRef} {span : Span} {inner : ScopePair}
    {s : WalkState} (h : (convertTo env source target span inner).Accepted s) :
    (s.types env).conversionError source target = none := by
  have hcheck : Declares [] (fun _ => True) (checkShape env target span) := .checkShape env _ _
  have hlater (wellFormed : Bool) : Declares [] (fun _ => True)
      (if !wellFormed then Pure.pure .invalid else convertChecked env source target span inner) :=
    .ite (.pure trivial) (.convertChecked env source target span inner)
  obtain ⟨hshape, hlast⟩ := h.of_bind hcheck fun wellFormed => hlater wellFormed
  obtain ⟨hwell, hsame⟩ := run_checkShape (typeErrors_of_accepted hshape)
  rw [hwell, hsame] at hlast
  have hpass : (passes ((s.types env).conversionError source target) span >>= fun ok =>
      if ok then Pure.pure (if (s.types env).stackOnly target then inner.withRef .currentMethod
        else .temporary) else Pure.pure .invalid).Accepted s := hlast
  have htest : Declares [] (fun _ => True)
      (passes ((s.types env).conversionError source target) span) := .passes _ _
  have hrest (x y : ScopePair) (ok : Bool) :
      Declares [] (fun _ => True) (if ok then Pure.pure x else Pure.pure y : Walk ScopePair) :=
    .ite (.pure trivial) (.pure trivial)
  exact eq_none_of_accepted_passes (hpass.of_bind htest fun ok => hrest _ _ ok).1

end Walk

/-! ## Walks that check conversions -/

/-- The walk keeps what is around it, and if there is no error at its end, then the conversions
among the points passed their checks. -/
structure Walk.Examines (env : Surroundings) (g : GenericScope) (xs : List Retyping) {α : Type}
    (m : Walk α) : Prop where
  /-- It keeps what was reported and filed. -/
  keeps : ∀ s : WalkState, s.Keeps (m.after s)
  /-- The conversions passed. -/
  passes : ∀ s : WalkState, s.generics = g → g.Filed s.tables.caps → (m.after s).errors = [] →
    ∀ x ∈ xs, x.Passes env (m.after s).tables.caps

namespace Walk.Examines

variable {env : Surroundings} {g : GenericScope} {xs ys : List Retyping} {α β : Type}

/-- Where nothing is converted, nothing has to be checked. -/
theorem of_route {ns : List String} {Q : α → Prop} {m : Walk α} (h : Declares ns Q m)
    (hxs : ∀ x ∈ xs, x.route ≠ .conversion) : Examines env g xs m :=
  ⟨fun s => (h.after s).toKeeps, fun _ _ _ _ x hx hroute => absurd hroute (hxs x hx)⟩

theorem of_binders {ns : List String} {Q : α → Prop} {m : Walk α} (h : Declares ns Q m) :
    Examines env g [] m := of_route h (by simp)

theorem of_declares {Q : α → Prop} {m : Walk α} (h : Declares [] Q m) :
    Examines env g [] m := of_binders h

/-- One walk after the other checks the points of both. -/
theorem bind {m : Walk α} {f : α → Walk β} (hm : Examines env g xs m)
    (hf : ∀ x, Examines env g ys (f x)) : Examines env g (xs ++ ys) (m >>= f) where
  keeps s := (hm.keeps s).trans ((hf _).keeps _)
  passes s hg hfiled he x hx := by
    have hfirst := hm.keeps s
    have hlast := (hf (m.answer s)).keeps (m.after s)
    rw [after_bind] at he ⊢
    rcases List.mem_append.1 hx with hx | hx
    · exact (hm.passes s hg hfiled (hlast.errors_eq_nil he) x hx).within hlast.caps
    · exact (hf _).passes _ (hfirst.generics.trans hg) (hfiled.within hfirst.caps) he x hx

/-- A walk and then one without points. -/
theorem bind_nil {m : Walk α} {f : α → Walk β} (hm : Examines env g xs m)
    (hf : ∀ x, Examines env g [] (f x)) : Examines env g xs (m >>= f) := by
  have h := hm.bind hf
  rwa [List.append_nil] at h

/-- A walk without points and then another one. -/
theorem after_step {Q : α → Prop} {m : Walk α} {f : α → Walk β}
    (hm : Declares [] Q m) (hf : ∀ x, Examines env g xs (f x)) : Examines env g xs (m >>= f) :=
  (of_declares hm).bind hf

theorem pure (x : α) : Examines env g [] (Pure.pure x : Walk α) :=
  of_declares (Q := fun _ => True) (.pure trivial)

theorem look {k : WalkState → Walk α} (hk : ∀ s, Examines env g xs (k s)) :
    Examines env g xs (get >>= k) :=
  ⟨fun s => (hk s).keeps s, fun s => (hk s).passes s⟩

theorem discard {m : Walk α} (hm : Examines env g xs m) :
    Examines env g xs (Functor.discard m) :=
  ⟨hm.keeps, hm.passes⟩

theorem ite {c : Prop} [Decidable c] {m n : Walk α} (hm : Examines env g xs m)
    (hn : Examines env g xs n) : Examines env g xs (if c then m else n) := by
  split
  · exact hm
  · exact hn

/-- A walk that reports an error has nothing to answer for. -/
theorem reported {kind : EscapeErrorKind} {span : Span} {f : Unit → Walk α}
    (hf : ∀ x, Examines env g [] (f x)) : Examines env g xs (report kind span >>= f) where
  keeps s :=
    have hreport : Declares [] (fun _ => True) (report kind span) := .report kind span
    (hreport.after s).toKeeps.trans ((hf _).keeps _)
  passes s _ _ he := by
    have hnil : s.errors ++ [⟨kind, span⟩] = [] :=
      ((hf ()).keeps ((report kind span).after s)).errors_eq_nil he
    exact absurd hnil (by simp)

/-- The check of a conversion. -/
theorem convertTo (env : Surroundings) (g : GenericScope) (source target : TypeRef) (span : Span)
    (inner : ScopePair) :
    Examines env g [⟨g, .conversion, source, target⟩]
      (Walk.convertTo env source target span inner) := by
  have hwalk : Declares [] (fun _ => True) (Walk.convertTo env source target span inner) :=
    .convertTo env source target span inner
  have hall (s : WalkState) : s.Keeps ((Walk.convertTo env source target span inner).after s) :=
    (hwalk.after s).toKeeps
  refine ⟨hall, fun s hg hfiled he x hx _ d hd => ?_⟩
  obtain rfl := List.mem_singleton.1 hx
  have hnone := conversionError_of_accepted (he.trans ((hall s).errors_eq_nil he).symm)
  rw [WalkState.types, hg] at hnone
  rwa [← TypeEnv.conversionError_of_filed env.runtime hfiled ((hall s).caps.trans hd)]

/-! ### Scopes of their own -/

/-- The points of a block are those of its statements. -/
theorem inBlock (kind : ScopeKind) (stmts : List Stmt) {body : Walk Unit}
    (hb : Examines env g xs body) :
    Examines env g xs (Walk.inScope kind (Walk.declareFunctions stmts >>= fun _ => body)) where
  keeps s := by
    rw [Walk.after_inScope]
    have h := hb.keeps (s.inBlock kind stmts)
    exact ⟨h.generics, h.errors, h.caps⟩
  passes s hg hfiled he := by
    rw [Walk.after_inScope] at he ⊢
    exact hb.passes (s.inBlock kind stmts) hg hfiled he

theorem inScope (kind : ScopeKind) {body : Walk Unit} (hb : Examines env g xs body) :
    Examines env g xs (Walk.inScope kind body) :=
  inBlock kind [] hb

/-- A block, given the walk over its statements. -/
theorem block (stmts : List Stmt) {body : Walk Unit} (hb : Examines env g xs body) :
    Examines env g xs (Walk.block stmts body) :=
  inBlock .block stmts hb

/-- The points of a nested function are those of its statements. -/
theorem inFunction {kind : ScopeKind} (frame : FunctionFrame) (stmts : List Stmt)
    {params body : Walk Unit} {names : List String} (hp : Declares names (fun _ => True) params)
    (hb : Examines env g xs body) :
    Examines env g xs (Walk.inFunction kind frame
      (params >>= fun _ => Walk.declareFunctions stmts >>= fun _ => body)) where
  keeps s := by
    rw [Walk.after_inFunction]
    have h := hp.after (s.inFunction kind frame)
    have h' := hb.keeps ((params.after (s.inFunction kind frame)).withFunctions stmts)
    exact ⟨h'.generics.trans h.generics, h.errors.trans h'.errors, h.caps.trans h'.caps⟩
  passes s hg hfiled he := by
    rw [Walk.after_inFunction] at he ⊢
    have h := hp.after (s.inFunction kind frame)
    exact hb.passes _ (h.generics.trans hg) (hfiled.within h.caps) he

theorem lambdaOver (env : Surroundings) (fn : Lambda) {body : Walk Unit}
    (hb : Examines env g xs body) : Examines env g xs (Walk.lambdaOver env fn body) :=
  .look fun _ => inFunction _ fn.body (Declares.bindParams env true fn.params _) hb

/-- A local function files the capabilities of its type parameters before its body is looked at. -/
theorem localFunctionOver (env : Surroundings) (decl : FnDecl) {body : Walk Unit}
    (hb : Examines env (g.push (env.localKey decl) decl.typeParams) xs body) :
    Examines env g xs (Walk.localFunctionOver env decl body) := by
  have hbody (v : WalkState) (c : Contract) :
      Examines env (g.push (env.localKey decl) decl.typeParams) xs
        (Walk.inFunction .localFunction (localFrame v decl c)
          (bindParams env true decl.params c.params >>= fun _ =>
            declareFunctions (decl.body.getD []) >>= fun _ => body)) :=
    inFunction _ _ (Declares.bindParams env true decl.params c.params) hb
  have hentry : Declares [] (fun _ => True) (enterLocalFunction env decl) :=
    .enterLocalFunction env decl
  have henter (s : WalkState) : s.Keeps ((enterLocalFunction env decl).after s) :=
    (hentry.after s).toKeeps
  rw [Walk.localFunctionOver_eq]
  refine ⟨fun s => ?_, fun s hg hfiled he => ?_⟩
  · have h := (hbody ((enterLocalFunction env decl).after s)
      ((enterLocalFunction env decl).answer s)).keeps
        { (enterLocalFunction env decl).after s with
          generics := ((enterLocalFunction env decl).after s).localScope env decl }
    exact ⟨(henter s).generics, (henter s).errors.trans h.errors, (henter s).caps.trans h.caps⟩
  · have hparams (q : TypeParam) (hq : q ∈ decl.typeParams) :
        (((enterLocalFunction env decl).after s).tables.caps.get?
          ⟨env.localKey decl, q.name⟩).isSome :=
      Capabilities.isSome_fillOwn s.tables.caps env.program (env.localKey decl) decl.typeParams
        s.generics hq
    refine (hbody _ _).passes _ ?_ ((hfiled.within (henter s).caps).push hparams) he
    change ((enterLocalFunction env decl).after s).localScope env decl = _
    rw [WalkState.localScope, (henter s).generics, hg]

/-! ### Parts of the walk -/

/-- Calls have no points. -/
theorem invoke (env : Surroundings) (c : Contract) (receiver : Option Operand)
    (args : List Operand) (resultTy : TypeRef) (span : Span) :
    Examines env g [] (Walk.invoke env c receiver args resultTy span) :=
  of_binders (Declares.invoke env c receiver (Operand.binds_filterMap args) resultTy span)

theorem invokeRef (env : Surroundings) (r : MemberRef) (receiver : Option Operand)
    (args : List Operand) (resultTy : TypeRef) (span : Span) :
    Examines env g [] (Walk.invokeRef env r receiver args resultTy span) :=
  of_binders (Declares.invokeRef env r receiver (Operand.binds_filterMap args) resultTy span)

theorem readProperty (env : Surroundings) (getter : MemberRef) (receiver : Option Operand)
    (args : List Operand) (resultTy : TypeRef) (span : Span) :
    Examines env g [] (Walk.readProperty env getter receiver args resultTy span) :=
  of_binders (Declares.readProperty env getter receiver (Operand.binds_filterMap args) resultTy
    span)

/-- Where a test is refused, its pattern is not looked at. -/
theorem settling (id : NodeId) (span : Span) (verdict : Verdict) {m n : Walk α}
    (hm : Examines env g xs m) (hn : Examines env g [] n) :
    Examines env g xs (Walk.settle id span verdict >>= fun ok => if ok then m else n) := by
  cases verdict with
  | plain =>
    have hform : (Walk.settle id span .plain >>= fun ok => if ok then m else n) = m := rfl
    rwa [hform]
  | lowered test =>
    have hform : (Walk.settle id span (.lowered test) >>= fun ok => if ok then m else n) =
        Walk.recordNullTest id test >>= fun _ => m := rfl
    rw [hform]
    exact after_step (Declares.recordNullTest id test) fun _ => hm
  | refused error =>
    have hform : (Walk.settle id span (.refused error) >>= fun ok => if ok then m else n) =
        Walk.report error span >>= fun _ => n := rfl
    rw [hform]
    exact reported fun _ => hn

/-- The points of an operand are those of its expression. -/
theorem operandOf (env : Surroundings) (e : Expr) (mode : RefKind) {check : Walk ScopePair}
    (hc : Examines env g (Retyping.ofExpr env.member g e) check) :
    Examines env g (Retyping.ofExpr env.member g e) (Walk.operandOf env e mode check) := by
  have main {pts : List Retyping} (fresh : Bool) {w : Walk ScopePair} (hw : Examines env g pts w) :
      Examines env g pts (w >>= fun pair => Walk.stackOnly env e.ty >>= fun stackOnly =>
        Pure.pure (Operand.ofExpr e pair stackOnly mode fresh)) :=
    hw.bind_nil fun _ => after_step (Declares.stackOnly env e.ty) fun _ => .pure _
  obtain ⟨id, kind, ty, span⟩ := e
  cases kind with
  | outVar name =>
    rw [Retyping.ofExpr, Retyping.ofKind]
    exact main true (after_step (Declares.record id .confined) fun _ => .pure _)
  | _ => exact main false hc

theorem usingOver (env : Surroundings) (region : UsingStmt) (op : Operand) (ty : TypeRef)
    (span : Span) {body : Walk Unit} (hb : Examines env g xs body) :
    Examines env g xs (Walk.usingOver env region op ty span body) := by
  refine after_step (Declares.refusesStackOnly _) fun _ => ite ?_ ?_
  · exact after_step (Declares.report _ _) fun _ => block region.body hb
  · exact (block region.body hb).bind_nil fun _ =>
      of_declares (Declares.disposeOf env region.dispose op span)

/-- The points of an iteration are those of its pattern and of its statements. -/
theorem foreachOver (env : Surroundings) (loop : ForeachStmt) (collection : ScopePair)
    (span : Span) {matchElement : ScopePair → Walk Unit} {body : Walk Unit}
    (hm : ∀ element, Examines env g xs (Walk.bindIteration env loop matchElement element))
    (hb : Examines env g ys body) :
    Examines env g (xs ++ ys) (Walk.foreachOver env loop collection span matchElement body) := by
  refine after_step (Declares.stackOnly _ _) fun _ =>
    after_step (Declares.refusesStackOnly _) fun _ => inScope .block (ite ?_ ?_)
  · exact after_step (Declares.report _ _) fun _ => (hm _).bind fun _ =>
      block loop.body hb
  · refine after_step (Declares.stackOnly _ _) fun _ =>
      after_step (Declares.invokeRef env _ _ (by simp) _ _) fun _ =>
      after_step (Declares.invokeRef env _ _ (by simp) _ _).discard fun _ =>
      after_step (Declares.readProperty env _ _ (by simp) _ _) fun _ => ?_
    exact (hm _).bind fun _ => (block loop.body hb).bind_nil fun _ =>
      of_declares (Declares.disposeOf env _ _ _)

/-! ### The walk -/

mutual

theorem checkExpr {g : GenericScope} : (e : Expr) →
    Examines env g (Retyping.ofExpr env.member g e) (Walk.checkExpr env e)
  | ⟨id, kind, ty, span⟩ => by
    rw [Retyping.ofExpr, Walk.checkExpr]
    refine look fun s => ite ?_ ?_
    · exact reported fun _ => after_step (Declares.record _ _) fun _ => .pure _
    · exact (checkForm id ty span kind).bind_nil fun _ =>
        after_step (Declares.record _ _) fun _ => .pure _

theorem checkForm {g : GenericScope} (id : NodeId) (ty : TypeRef) (span : Span) :
    (kind : ExprKind) →
    Examines env g (Retyping.ofKind env.member g ty kind) (Walk.checkForm env id ty span kind)
  | .literal _ => by
    rw [Retyping.ofKind, Walk.checkForm]
    exact .pure _
  | .var name => by
    rw [Retyping.ofKind, Walk.checkForm]
    exact of_declares (Declares.readVariable env name span)
  | .thisRef => by
    rw [Retyping.ofKind, Walk.checkForm]
    exact of_declares (Declares.readThis env span)
  | .field receiver owner name => by
    rw [Retyping.ofKind, Walk.checkForm]
    exact (checkOptional receiver).bind_nil fun _ => look fun _ => .pure _
  | .property receiver getter args => by
    rw [Retyping.ofKind, Walk.checkForm]
    exact (checkReceiver receiver).bind fun op => (checkArgs args).bind_nil fun ops =>
      readProperty env getter op ops ty span
  | .call receiver method typeArgs args => by
    rw [Retyping.ofKind, Walk.checkForm]
    refine (checkReceiver receiver).bind fun op => (checkArgs args).bind_nil fun ops =>
      after_step (Declares.resolve env method span) fun callee => ?_
    cases callee with
    | none => exact .pure _
    | some callee =>
      exact after_step (Declares.checkTypeArgs env callee _ _) fun _ =>
        (invoke env callee.contract op ops ty span).bind_nil fun _ => .pure _
  | .create ctor args => by
    rw [Retyping.ofKind, Walk.checkForm]
    refine after_step (Declares.checkShape env ty span) fun _ =>
      (checkArgs args).bind_nil fun ops => ite (.pure _) ?_
    cases ctor with
    | none => exact .pure _
    | some ctor => exact invokeRef env ctor none ops ty span
  | .stackAlloc _ len => by
    rw [Retyping.ofKind, Walk.checkForm]
    exact (checkExpr len).discard.bind_nil fun _ =>
      after_step (Declares.stackOnly env ty) fun _ => .pure _
  | .conditional cond thenExpr elseExpr byRef => by
    rw [Retyping.ofKind, Walk.checkForm]
    exact (checkExpr cond).discard.bind fun _ => (checkExpr thenExpr).bind fun _ =>
      (checkExpr elseExpr).bind_nil fun _ =>
        after_step (Declares.stackOnly env ty) fun _ => .pure _
  | .convert operand explicit => by
    rw [Retyping.ofKind, checkForm_convert]
    exact (checkExpr operand).bind fun pair => convertTo env g operand.ty ty span pair
  | .binary op left right => by
    rw [Retyping.ofKind, Walk.checkForm]
    exact (checkExpr left).bind fun _ => (checkExpr right).bind_nil fun _ =>
      ite (.pure _) (look fun _ => after_step (Declares.settle _ _ _) fun _ => .pure _)
  | .test operand pattern => by
    rw [Retyping.ofKind, Walk.checkForm]
    exact (checkExpr operand).bind fun input => look fun _ => settling id span _
      ((checkPattern input (by decide) operand.ty span pattern).bind_nil fun _ => .pure _) (.pure _)
  | .lambda fn => by
    rw [Retyping.ofKind, Walk.checkForm]
    exact (checkLambda fn).bind_nil fun _ => .pure _
  | .arrayNew _ elems => by
    rw [Retyping.ofKind, Walk.checkForm]
    exact after_step (Declares.checkShape env ty span) fun _ =>
      (checkAll elems).bind_nil fun _ => .pure _
  | .anonymous members => by
    rw [Retyping.ofKind, Walk.checkForm]
    exact (checkMembers members).bind_nil fun _ => .pure _
  | .await operand => by
    rw [Retyping.ofKind, Walk.checkForm]
    exact (checkExpr operand).discard.bind_nil fun _ => .pure _
  | .dynamicInvoke receiver _ args => by
    rw [Retyping.ofKind, Walk.checkForm]
    exact (checkExpr receiver).discard.bind fun _ => (checkValues args).bind_nil fun _ =>
      look fun _ => after_step (Declares.reportAll _) fun _ => .pure _
  | .outVar _ => by
    rw [Retyping.ofKind, Walk.checkForm]
    exact .pure _

theorem checkOptional {g : GenericScope} : (receiver : Option Expr) →
    Examines env g (Retyping.ofOptional env.member g receiver) (Walk.checkOptional env receiver)
  | none => by
    rw [Retyping.ofOptional, Walk.checkOptional]
    exact .pure _
  | some e => by
    rw [Retyping.ofOptional, Walk.checkOptional]
    exact (checkExpr e).bind_nil fun _ => .pure _

theorem checkReceiver {g : GenericScope} : (receiver : Option Expr) →
    Examines env g (Retyping.ofOptional env.member g receiver) (Walk.checkReceiver env receiver)
  | none => by
    rw [Retyping.ofOptional, Walk.checkReceiver]
    exact .pure _
  | some e => by
    rw [Retyping.ofOptional, Walk.checkReceiver]
    exact (operandOf env e .none (checkExpr e)).bind_nil fun _ => .pure _

theorem checkArgs {g : GenericScope} : (args : List Arg) →
    Examines env g (Retyping.ofArgs env.member g args) (Walk.checkArgs env args)
  | [] => by
    rw [Retyping.ofArgs, Walk.checkArgs]
    exact .pure _
  | ⟨mode, e⟩ :: rest => by
    rw [Retyping.ofArgs, Walk.checkArgs]
    exact (operandOf env e mode (checkExpr e)).bind fun _ => (checkArgs rest).bind_nil fun _ =>
      .pure _

theorem checkValues {g : GenericScope} : (args : List Arg) →
    Examines env g (Retyping.ofArgs env.member g args) (Walk.checkValues env args)
  | [] => by
    rw [Retyping.ofArgs, Walk.checkValues]
    exact .pure _
  | ⟨_, e⟩ :: rest => by
    rw [Retyping.ofArgs, Walk.checkValues]
    exact (checkExpr e).discard.bind fun _ => checkValues rest

theorem checkAll {g : GenericScope} : (elems : List Expr) →
    Examines env g (Retyping.ofExprs env.member g elems) (Walk.checkAll env elems)
  | [] => by
    rw [Retyping.ofExprs, Walk.checkAll]
    exact .pure _
  | e :: rest => by
    rw [Retyping.ofExprs, Walk.checkAll]
    exact (checkExpr e).discard.bind fun _ => checkAll rest

theorem checkMembers {g : GenericScope} : (members : List NamedExpr) →
    Examines env g (Retyping.ofMembers env.member g members) (Walk.checkMembers env members)
  | [] => by
    rw [Retyping.ofMembers, Walk.checkMembers]
    exact .pure _
  | ⟨name, e⟩ :: rest => by
    rw [Retyping.ofMembers, Walk.checkMembers]
    exact (checkExpr e).bind fun _ => after_step (Declares.stackOnly env e.ty) fun _ =>
      after_step (Declares.passes _ _) fun _ => (checkMembers rest).bind_nil fun _ =>
        .pure _

theorem checkLambda {g : GenericScope} : (fn : Lambda) →
    Examines env g (Retyping.ofLambda env.member g fn) (Walk.checkLambda env fn)
  | ⟨params, retTy, body, isExpressionTree, isStatic, isAsync⟩ => by
    rw [Retyping.ofLambda, Walk.checkLambda]
    exact lambdaOver env _ (checkStmts body)

theorem checkPattern {g : GenericScope} (input : ScopePair) {route : Retyping.Route}
    (hroute : route ≠ .conversion) (inputTy : TypeRef) (span : Span) : (p : Pattern) →
    Examines env g (Retyping.ofPattern env.member g route inputTy p)
      (Walk.checkPattern env input inputTy span p)
  | .discard => by
    rw [Retyping.ofPattern, Walk.checkPattern]
    exact .pure _
  | .typeTest _ => by
    rw [Retyping.ofPattern, Walk.checkPattern]
    exact .pure _
  | .declaration name ty span => by
    rw [Retyping.ofPattern, Walk.checkPattern]
    refine of_route (Declares.bindPattern env (List.mem_singleton_self name) ty input span) ?_
    simpa using hroute
  | .constant e => by
    rw [Retyping.ofPattern, Walk.checkPattern]
    exact (checkExpr e).discard
  | .property ty subpatterns => by
    rw [Retyping.ofPattern, Walk.checkPattern]
    exact checkSubPatterns input (ty.getD inputTy) subpatterns
  | .positional deconstruct subpatterns componentTys => by
    rw [Retyping.ofPattern, Walk.checkPattern]
    have hinput : Declares [] (fun _ => True)
        (deconstructInput env deconstruct componentTys input inputTy span) :=
      .deconstructInput env deconstruct componentTys input inputTy span
    exact after_step hinput fun outcome => checkComponents outcome span subpatterns componentTys
  | .negated inner => by
    rw [Retyping.ofPattern, Walk.checkPattern]
    exact checkPattern input (by decide) inputTy span inner

theorem checkSubPatterns {g : GenericScope} (input : ScopePair) (receiverTy : TypeRef) :
    (subs : List SubPattern) →
    Examines env g (Retyping.ofSubPatterns env.member g subs)
      (Walk.checkSubPatterns env input receiverTy subs)
  | [] => by
    rw [Retyping.ofSubPatterns, Walk.checkSubPatterns]
    exact .pure _
  | ⟨access, ty, p, span⟩ :: rest => by
    rw [Retyping.ofSubPatterns, Walk.checkSubPatterns]
    exact after_step (Declares.accessMember env access input receiverTy ty span)
      fun extracted => (checkPattern extracted (by decide) ty span p).bind fun _ =>
        checkSubPatterns input receiverTy rest

theorem checkComponents {g : GenericScope} (outcome : Option Outcome) (span : Span) :
    (subs : List Pattern) → (tys : List TypeRef) →
    Examines env g (Retyping.ofComponents env.member g subs tys)
      (Walk.checkComponents env outcome span subs tys)
  | [], tys => by
    rw [Retyping.ofComponents.eq_def, Walk.checkComponents.eq_def]
    exact .pure _
  | p :: rest, [] => by
    rw [Retyping.ofComponents.eq_def, Walk.checkComponents.eq_def]
    exact .pure _
  | p :: rest, ty :: tys => by
    rw [Retyping.ofComponents, Walk.checkComponents]
    exact after_step (Declares.stackOnly env ty) fun so =>
      (checkPattern (Walk.componentPair outcome so) (by decide) ty span p).bind fun _ =>
        checkComponents outcome span rest tys

theorem checkLocal {g : GenericScope} (reportAsync : Bool) : (decl : LocalDecl) →
    Examines env g (Retyping.ofLocal env.member g decl) (Walk.checkLocal env reportAsync decl)
  | ⟨name, ty, refKind, isScoped, init, span⟩ => by
    rw [Retyping.ofLocal, Walk.checkLocal]
    exact after_step (Declares.checkShape env ty span) fun _ =>
      (checkInit init).bind_nil fun _ => of_binders
        (Declares.declareLocal env (List.mem_singleton_self name) _ _ _)

theorem checkInit {g : GenericScope} : (init : Option Expr) →
    Examines env g (Retyping.ofOptional env.member g init) (Walk.checkInit env init)
  | none => by
    rw [Retyping.ofOptional, Walk.checkInit]
    exact .pure _
  | some e => by
    rw [Retyping.ofOptional, Walk.checkInit]
    exact (checkExpr e).bind_nil fun _ => .pure _

theorem checkStmts {g : GenericScope} : (stmts : List Stmt) →
    Examines env g (Retyping.ofStmts env.member g stmts) (Walk.checkStmts env stmts)
  | [] => by
    rw [Retyping.ofStmts, Walk.checkStmts]
    exact .pure _
  | s :: rest => by
    rw [Retyping.ofStmts, Walk.checkStmts]
    exact (checkStmt s).bind fun _ => checkStmts rest

theorem checkStmt {g : GenericScope} : (s : Stmt) →
    Examines env g (Retyping.ofStmt env.member g s) (Walk.checkStmt env s)
  | ⟨_, .expr e, _⟩ => by
    rw [Retyping.ofStmt, Walk.checkStmt]
    exact (checkExpr e).discard
  | ⟨_, .yieldReturn e, _⟩ => by
    rw [Retyping.ofStmt, Walk.checkStmt]
    exact (checkExpr e).discard
  | ⟨_, .declare decl, _⟩ => by
    rw [Retyping.ofStmt, Walk.checkStmt]
    exact checkLocal true decl
  | ⟨id, .assign ⟨tid, kind, ty, tspan⟩ value byRef, span⟩ => by
    rw [Retyping.ofStmt]
    have main : Examines env g (Retyping.ofExpr env.member g ⟨tid, kind, ty, tspan⟩ ++
          Retyping.ofExpr env.member g value)
        (Walk.checkExpr env ⟨tid, kind, ty, tspan⟩ >>= fun t => Walk.checkExpr env value >>=
          fun v => Walk.checkAssignment env ⟨tid, kind, ty, tspan⟩ value byRef t v) := by
      rw [Retyping.ofExpr, Walk.checkExpr]
      refine bind (look fun s => ite ?_ ?_) fun _ => (checkExpr value).bind_nil fun _ =>
        of_declares (Declares.checkAssignment env _ _ _ _ _)
      · exact reported fun _ => after_step (Declares.record _ _) fun _ => .pure _
      · exact (checkForm tid ty tspan kind).bind_nil fun _ =>
          after_step (Declares.record _ _) fun _ => .pure _
    cases kind
    case property receiver getter args =>
      cases byRef with
      | true => exact main
      | false =>
        -- The target itself is not looked at, but it has no points besides those of its parts.
        rw [Retyping.ofExpr, Retyping.ofKind, Walk.checkStmt, List.append_assoc]
        exact (checkReceiver receiver).bind fun op => (checkArgs args).bind fun ops =>
          (operandOf env value .none (checkExpr value)).bind_nil fun _ =>
            (invokeRef env _ op _ _ _).discard
    all_goals exact main
  | ⟨_, .ret none, _⟩ => by
    rw [Retyping.ofStmt, Walk.checkStmt]
    exact .pure _
  | ⟨_, .ret (some value), _⟩ => by
    rw [Retyping.ofStmt, Walk.checkStmt]
    exact (checkExpr value).bind_nil fun _ =>
      of_declares (Declares.checkReturned value _)
  | ⟨_, .block body, _⟩ => by
    rw [Retyping.ofStmt, Walk.checkStmt]
    exact block body (checkStmts body)
  | ⟨_, .ifElse cond thenBranch elseBranch, _⟩ => by
    rw [Retyping.ofStmt, Walk.checkStmt]
    exact (checkExpr cond).discard.bind fun _ => (block thenBranch (checkStmts thenBranch)).bind
      fun _ => checkElse elseBranch
  | ⟨_, .whileLoop cond body, _⟩ => by
    rw [Retyping.ofStmt, Walk.checkStmt]
    exact (checkExpr cond).discard.bind fun _ => block body (checkStmts body)
  | ⟨_, .foreach loop, span⟩ => by
    rw [Retyping.ofStmt, Walk.checkStmt]
    exact checkForeach span loop
  | ⟨_, .using region, span⟩ => by
    rw [Retyping.ofStmt, Walk.checkStmt]
    exact checkUsing span region
  | ⟨_, .localFunction decl, _⟩ => by
    rw [Retyping.ofStmt, Walk.checkStmt]
    exact checkLocalFunction decl

theorem checkElse {g : GenericScope} : (branch : Option (List Stmt)) →
    Examines env g (Retyping.ofBody env.member g branch) (Walk.checkElse env branch)
  | none => by
    rw [Retyping.ofBody, Walk.checkElse]
    exact .pure _
  | some body => by
    rw [Retyping.ofBody, Walk.checkElse]
    exact block body (checkStmts body)

theorem checkForeach {g : GenericScope} (span : Span) : (loop : ForeachStmt) →
    Examines env g (Retyping.ofForeach env.member g loop) (Walk.checkForeach env span loop)
  | ⟨binding, byRef, collection, enumerator, isAwait, body⟩ => by
    have hm (element : ScopePair) : Examines env g
        (Retyping.ofPattern env.member g .iteration enumerator.elementTy binding)
        (Walk.checkPattern env element enumerator.elementTy span binding) :=
      checkPattern element (by decide) enumerator.elementTy span binding
    rw [Retyping.ofForeach, Walk.checkForeach]
    refine (checkExpr collection).bind fun pair => foreachOver env
      ⟨binding, byRef, collection, enumerator, isAwait, body⟩ pair span (fun element => ?_)
      (checkStmts body)
    cases binding with
    | declaration name ty dspan =>
      rw [Retyping.ofPattern]
      exact of_route (Declares.declareBinding env (List.mem_singleton_self name) ty element byRef
        dspan) (by simp)
    | _ => exact hm element

theorem checkUsing {g : GenericScope} (span : Span) : (region : UsingStmt) →
    Examines env g (Retyping.ofUsing env.member g region) (Walk.checkUsing env span region)
  | ⟨.expr e, dispose, isAwait, body⟩ => by
    rw [Retyping.ofUsing, Walk.checkUsing]
    refine inScope .block ((checkExpr e).bind fun _ =>
      after_step (Declares.stackOnly env e.ty) fun _ => ?_)
    exact usingOver env _ _ _ _ (checkStmts body)
  | ⟨.declare ⟨name, ty, refKind, isScoped, init, dspan⟩, dispose, isAwait, body⟩ => by
    rw [Retyping.ofUsing, Retyping.ofLocal, Walk.checkUsing]
    refine inScope .block (after_step (Declares.stackOnly env ty) fun _ => ?_)
    rw [Walk.checkLocal]
    refine (after_step (Declares.checkShape env ty dspan) fun _ =>
      (checkInit init).bind_nil fun _ => of_binders
        (Declares.declareLocal env (List.mem_singleton_self name) _ _ _)).bind fun _ => ?_
    exact look fun _ => usingOver env _ _ _ _ (checkStmts body)

theorem checkLocalFunction {g : GenericScope} : (decl : FnDecl) →
    Examines env g (Retyping.ofLocalFunction env.member g decl) (Walk.checkLocalFunction env decl)
  | ⟨fid, name, kind, modifiers, typeParams, params, ret, attrs, explicitImpl, overrides, body,
      fspan⟩ => by
    rw [Retyping.ofLocalFunction, Walk.checkLocalFunction]
    exact localFunctionOver env _ (checkBody body)

theorem checkBody {g : GenericScope} : (body : Option (List Stmt)) →
    Examines env g (Retyping.ofBody env.member g body) (Walk.checkBody env body)
  | none => by
    rw [Retyping.ofBody, Walk.checkBody]
    exact .pure _
  | some body => by
    rw [Retyping.ofBody, Walk.checkBody]
    exact checkStmts body

end

end Walk.Examines
/-! ## Programs -/

namespace Program

variable {p : Program} {runtime : Bool} {T : Tables} {m : Member} {body : List Stmt}

/-- The walk over the statements of a member starts with what was filed before. -/
theorem keeps_bodyEntry (p : Program) (runtime : Bool) (T : Tables) (m : Member)
    (body : List Stmt) : (p.entry T m).Keeps (p.bodyEntry runtime T m body) := by
  have h := (Walk.Declares.bindParams ⟨p, m, runtime⟩ false m.decl.params
    (p.entryContract T m).params).after (p.entry T m)
  exact ⟨h.generics, h.errors, h.caps⟩

/-- The walk over a member keeps what is filed. If there is no error at its end, the conversions of
the member passed. -/
theorem passes_walkMember (hbody : m.decl.body = some body) :
    T.caps.Within (p.walkMember runtime T m body).tables.caps ∧
      (m.innerScope.Filed T.caps → (p.walkMember runtime T m body).errors = [] →
        ∀ x ∈ m.retypings,
          x.Passes ⟨p, m, runtime⟩ (p.walkMember runtime T m body).tables.caps) := by
  have hentry := keeps_bodyEntry p runtime T m body
  have hwalk : Walk.Examines ⟨p, m, runtime⟩ m.innerScope m.retypings
      (Walk.checkStmts ⟨p, m, runtime⟩ body) := by
    rw [Member.retypings, hbody, Retyping.ofBody]
    exact Walk.Examines.checkStmts body
  rw [walkMember_eq]
  refine ⟨hentry.caps.trans (hwalk.keeps _).caps, fun hfiled he => ?_⟩
  exact hwalk.passes _ hentry.generics (hfiled.within hentry.caps) he

/-- The same for a member that may have no body. -/
theorem passes_checkMember (p : Program) (runtime : Bool) (T : Tables) (m : Member) :
    T.caps.Within (p.checkMember runtime T m).2.caps ∧
      (m.innerScope.Filed T.caps → (p.checkMember runtime T m).1.errors = [] →
        ∀ x ∈ m.retypings, x.Passes ⟨p, m, runtime⟩ (p.checkMember runtime T m).2.caps) := by
  cases hbody : m.decl.body with
  | none =>
    rw [checkMember_of_none hbody, Member.retypings, hbody, Retyping.ofBody]
    exact ⟨.refl _, by simp⟩
  | some body =>
    rw [checkMember_of_some hbody]
    exact passes_walkMember hbody

/-- The same for some members, one after the other. -/
theorem passes_checkMembers (p : Program) (runtime : Bool) (T : Tables) (ms : List Member) :
    T.caps.Within (p.checkMembers runtime T ms).2.caps ∧
      ((∀ m ∈ ms, m.innerScope.Filed T.caps) → (p.checkMembers runtime T ms).1.errors = [] →
        ∀ m ∈ ms, ∀ x ∈ m.retypings,
          x.Passes ⟨p, m, runtime⟩ (p.checkMembers runtime T ms).2.caps) := by
  induction ms using List.reverseRecOn with
  | nil => exact ⟨.refl _, by simp⟩
  | append_singleton ms m ih =>
    obtain ⟨hwithin, hpasses⟩ := ih
    obtain ⟨hlast, hpass⟩ := passes_checkMember p runtime (p.checkMembers runtime T ms).2 m
    rw [checkMembers_append_singleton]
    refine ⟨hwithin.trans hlast, fun hfiled he m' hm' x hx => ?_⟩
    obtain ⟨he₁, he₂⟩ := List.append_eq_nil_iff.1 he
    rcases List.mem_append.1 hm' with hms | hm'
    · exact (hpasses (fun m hm => hfiled m (List.mem_append_left _ hm)) he₁ m' hms x hx).within
        hlast
    · obtain rfl := List.mem_singleton.1 hm'
      have hlast := hfiled m' (List.mem_append_right _ (List.mem_singleton_self m'))
      exact hpass (hlast.within hwithin) he₂ x hx

/-- **Conversions.** If a run finds no error, no conversion of any body boxes or unboxes, at any
depth and in any local function, whatever the types are there. -/
theorem conversions_of_isOk (hparts : p.AlignedParts) (hok : (p.analyze {}).isOk = true)
    (hm : m ∈ p.members) {x : Retyping} (hx : x ∈ m.retypings) (hroute : x.route = .conversion) :
    let types : TypeEnv := ⟨p, (p.analyze {}).tables.caps, x.scope, true⟩
    types.boxes x.source x.target = false ∧ types.unboxes x.source x.target = false := by
  rw [analyze_default] at hok ⊢
  simp only [Analysis.isOk, Bool.and_eq_true, List.isEmpty_iff, List.append_eq_nil_iff] at hok
  obtain ⟨_, _, he⟩ := hok
  have hfiled (n : Member) (hn : n ∈ p.bodies) :
      n.innerScope.Filed (p.checkDeclarations true .empty).1 :=
    filed_innerScope hparts true (List.mem_of_mem_filter hn)
  have hbody : m ∈ p.bodies := by
    refine List.mem_filter.2 ⟨hm, ?_⟩
    by_contra hnone
    rw [Member.retypings, Option.not_isSome_iff_eq_none.1 hnone, Retyping.ofBody] at hx
    exact absurd hx List.not_mem_nil
  refine TypeEnv.conversionError_eq_none_iff.1 ?_
  exact (passes_checkMembers p true _ p.bodies).2 hfiled he m hbody x hx hroute _ (.refl _)

end Program

/-! ## Types that change without a check -/

namespace Crates

open Slots

/-- Matches a variable with a declaration pattern. -/
def matching (id : NodeId) (name : String) (ty : TypeRef) (binder : String) (target : TypeRef) :
    Stmt :=
  let operand : Expr := ⟨id + 2, .var name, ty, .zero⟩
  ⟨id, .expr ⟨id + 1, .test operand (.declaration binder target .zero), .bool, .zero⟩, .zero⟩

/-- Puts a slot into an object, by a pattern. -/
def box : FnDecl :=
  fn 7 "Box" [slotParam "s" .none false] .nothing [matching 8 "s" slotTy "o" .object]

/-- Takes a slot out of an object, by a pattern. -/
def unbox : FnDecl :=
  fn 11 "Unbox" [⟨"o", .object, .none, false, [], .zero⟩] .nothing
    [matching 12 "o" .object "s" slotTy]

/-- Converts a variable. -/
def converting (name : String) (ty target : TypeRef) : FnDecl :=
  fn 18 "Convert" [⟨name, ty, .none, false, [], .zero⟩] .nothing
    [⟨19, .expr ⟨20, .convert ⟨21, .var name, ty, .zero⟩ true, target, .zero⟩, .zero⟩]

/-- A class with some functions. -/
def decl (members : List FnDecl) : TypeDecl :=
  ⟨6, "Crates", .classType, false, false, [], [], [], [], members, .zero⟩

/-- A program with slots and some functions. -/
def programOf (members : List FnDecl) : Program :=
  ⟨[⟨1, "Slot", .refStruct, false, false, [], [], [], [], [], .zero⟩, decl members]⟩

/-- Two patterns are accepted, of which one boxes and the other unboxes. -/
theorem boxed_unchecked :
    let p := programOf [box, unbox]
    let types (x : Retyping) : TypeEnv := ⟨p, (p.analyze {}).tables.caps, x.scope, true⟩
    (p.analyze {}).isOk = true ∧ p.AlignedParts ∧
      (∃ m ∈ p.members, ∃ x ∈ m.retypings, x.route = .pattern ∧
        (types x).boxes x.source x.target = true) ∧
      ∃ m ∈ p.members, ∃ x ∈ m.retypings, x.route = .pattern ∧
        (types x).unboxes x.source x.target = true := by
  decide +kernel

/-- Conversions between the same types are refused. -/
example : ((programOf [converting "s" slotTy .object]).analyze {}).escapeErrors =
      [⟨.boxing "Slot" "object", .zero⟩] ∧
    ((programOf [converting "o" .object slotTy]).analyze {}).escapeErrors =
      [⟨.unboxing "object" "Slot", .zero⟩] := by
  decide +kernel

/-- A number is no slot, so it may be converted to an object. -/
theorem conversions_of_isOk_crates :
    let f := converting "n" .int .object
    let p := programOf [f]
    let m : Member := ⟨decl [f], f⟩
    let x : Retyping := ⟨m.innerScope, .conversion, .int, .object⟩
    let types : TypeEnv := ⟨p, (p.analyze {}).tables.caps, x.scope, true⟩
    p.AlignedParts ∧ (p.analyze {}).isOk = true ∧ m ∈ p.members ∧ x ∈ m.retypings ∧
      x.route = .conversion ∧
      types.boxes x.source x.target = false ∧ types.unboxes x.source x.target = false := by
  intro f p m x types
  have hparts : p.AlignedParts := by decide +kernel
  have hok : (p.analyze {}).isOk = true := by decide +kernel
  have hm : m ∈ p.members := List.mem_singleton_self m
  have hx : x ∈ m.retypings := by decide +kernel
  exact ⟨hparts, hok, hm, hx, rfl, Program.conversions_of_isOk hparts hok hm hx rfl⟩

end Crates

end StackEscape
