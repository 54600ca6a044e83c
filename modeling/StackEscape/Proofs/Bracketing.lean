import StackEscape.Proofs.Binders
import StackEscape.Proofs.Growth

/-!
# The walk is well bracketed

Scopes and functions are entered and left in pairs. After the walk over an expression, a pattern or
some statements, the stack of scopes has its old height and is as before below its top; the top has
gained variables, and local functions only from the statements themselves. What was reported,
recorded and noted is still there.

## Main definitions

* `StackEscape.WalkState.Brackets` — a later state in the same scope, with some more local
  functions.

## Main results

* `StackEscape.WalkState.Extends.brackets` — only variables were declared.
* `StackEscape.Walk.bracketed` — the walk is well bracketed and takes nothing back; nothing that is
  declared in a region of its own is visible after it.
-/

set_option autoImplicit false

namespace StackEscape

/-- A later state in the same scope `top` with the same scopes `rest` around it, in which some local
functions were declared. Nothing that was found before is lost. -/
structure WalkState.Brackets (top : Scope) (rest : List Scope) (functions : List FnDecl)
    (s t : WalkState) : Prop where
  /-- The functions entered are the same. -/
  frames : t.ctx.frames = s.ctx.frames
  /-- The type parameters in scope are the same. -/
  generics : t.generics = s.generics
  /-- The scope has some more variables, and the local functions, of which the last one of a name
  counts; the scopes around it are the same. -/
  scopes : ∃ top', t.ctx.scopes = top' :: rest ∧ top'.kind = top.kind ∧
    top.locals <+: top'.locals ∧ ∀ name, top'.functions.get? name =
      (functions.reverse.find? fun d => decide (d.name = name)).or (top.functions.get? name)
  /-- No error is forgotten. -/
  errors : s.errors <+: t.errors
  /-- No note of a copy is lost. -/
  copies : s.facts.defensiveCopies <+: t.facts.defensiveCopies
  /-- No expression loses its record. -/
  pairs : ∀ id, (s.facts.pair? id).isSome → (t.facts.pair? id).isSome

namespace WalkState

variable {ns : List String} {s t : WalkState} {top : Scope} {rest : List Scope}

/-- Variables that are declared stand behind the others of their scope. -/
theorem Extends.exists_locals (h : s.Extends ns t) (hs : s.ctx.scopes = top :: rest) :
    ∃ infos, t.ctx.scopes = { top with locals := top.locals ++ infos } :: rest := by
  obtain ⟨infos, _, hc⟩ := h.context
  refine ⟨infos, ?_⟩
  rw [hc, Context.declareAll, Context.modifyTop, hs]

/-- If only variables are declared and the facts grow, the scope is the same but for these. -/
theorem Extends.brackets (h : s.Extends ns t) (hgrows : s.facts.Grows t.facts)
    (hs : s.ctx.scopes = top :: rest) : Brackets top rest [] s t := by
  obtain ⟨infos, hscopes⟩ := h.exists_locals hs
  exact ⟨h.frames_eq, h.generics, ⟨_, hscopes, rfl, List.prefix_append _ _, fun _ => rfl⟩,
    h.errors, hgrows.defensiveCopies, fun _ hid => hgrows.pairs hid⟩

/-- If there are no names to declare, the names in scope are the same. -/
theorem Extends.ctx_eq (h : s.Extends [] t) : t.ctx = s.ctx := by
  obtain ⟨infos, hinfos, hc⟩ := h.context
  obtain rfl : infos = [] := List.eq_nil_iff_forall_not_mem.2 fun info hinfo => by
    simpa using hinfos info hinfo
  rw [hc, Context.declareAll_nil]

/-- Local functions of some statements are declared before the statements are walked over. -/
theorem Brackets.functions (stmts : List Stmt)
    (h : Brackets
      { top with functions := Context.functionTable top.functions (directFunctions stmts) }
      rest [] (s.withFunctions stmts) t) :
    Brackets top rest (directFunctions stmts) s t := by
  have hframes : (s.withFunctions stmts).ctx.frames = s.ctx.frames :=
    s.ctx.frames_declareFunctions (directFunctions stmts)
  obtain ⟨top', hscopes, hkind, hlocals, hfunctions⟩ := h.scopes
  refine ⟨h.frames.trans hframes, h.generics, ⟨top', hscopes, hkind, hlocals, fun name => ?_⟩,
    h.errors, h.copies, h.pairs⟩
  rw [hfunctions]
  exact Context.get?_functionTable ..

end WalkState

namespace Walk

variable {env : Surroundings} {s : WalkState} {top : Scope} {rest : List Scope}

/-- Statements, with the local functions among them. -/
theorem brackets_stmts (hs : s.ctx.scopes = top :: rest) (stmts : List Stmt) :
    s.Brackets top rest (directFunctions stmts)
      ((declareFunctions stmts >>= fun _ => checkStmts env stmts).after s) := by
  have hafter : (declareFunctions stmts >>= fun _ => checkStmts env stmts).after s =
      (checkStmts env stmts).after (s.withFunctions stmts) := by
    rw [after_bind, after_declareFunctions]
    rfl
  have hscopes : (s.withFunctions stmts).ctx.scopes = { top with
      functions := Context.functionTable top.functions (directFunctions stmts) } :: rest := by
    rw [WalkState.withFunctions, Context.declareFunctions_eq, Context.modifyTop, hs]
  have hdeclares : Declares (Binders.ofStmts stmts) _ (checkStmts env stmts) :=
    Declares.checkStmts stmts (List.Subset.refl _)
  rw [hafter]
  exact ((hdeclares.after _).brackets (Grows.checkStmts stmts _) hscopes).functions stmts

/-- An iteration leaves only the variables that the expression of its collection declares. -/
theorem ctx_checkForeach (span : Span) (loop : ForeachStmt) (s : WalkState) :
    ((checkForeach env span loop).after s).ctx =
      ((checkExpr env loop.collection).after s).ctx := by
  obtain ⟨binding, byRef, collection, enumerator, isAwait, body⟩ := loop
  let loop : ForeachStmt := ⟨binding, byRef, collection, enumerator, isAwait, body⟩
  let matchElement (element : ScopePair) : Walk Unit :=
    checkPattern env element enumerator.elementTy span binding
  have hmatch (element : ScopePair) :
      Declares (Binders.ofPattern binding) (fun _ => True) (matchElement element) :=
    Declares.checkPattern element enumerator.elementTy span binding (List.Subset.refl _)
  have hbody : Declares (Binders.ofStmts body) (fun _ => True) (checkStmts env body) :=
    Declares.checkStmts body (List.Subset.refl _)
  let pair := (checkExpr env collection).answer s
  have hover : Declares [] (fun _ => True)
      (foreachOver env loop pair span matchElement (checkStmts env body)) :=
    Declares.foreachOver env loop pair span hmatch hbody
  rw [checkForeach, after_bind]
  exact (hover.after _).ctx_eq

/-- **Well-bracketed walks.** From any state with a scope to declare things in, the walk over an
expression, a pattern or some statements comes back to that scope: the scopes around it, the
functions entered and the type parameters in scope are the same, its variables are kept in front,
its local functions are those of before and those of the statements, and no error, record or note of
a copy is lost. A block, a lambda, a local function, a region and a disposal leave no name behind,
and an iteration only the variables that the expression of its collection declares.

**Proof sketch.** By induction over the tree the walk declares variables only, and by another one it
only adds to the facts. A scope that is entered is left again with whatever was declared in it. -/
theorem bracketed (env : Surroundings) (hs : s.ctx.scopes = top :: rest) :
    (∀ e, s.Brackets top rest [] ((checkExpr env e).after s)) ∧
    (∀ input inputTy span pattern,
      s.Brackets top rest [] ((checkPattern env input inputTy span pattern).after s)) ∧
    (∀ stmts, s.Brackets top rest (directFunctions stmts)
      ((declareFunctions stmts >>= fun _ => checkStmts env stmts).after s)) ∧
    (∀ stmts, ((block stmts (checkStmts env stmts)).after s).ctx = s.ctx) ∧
    (∀ fn, ((checkLambda env fn).after s).ctx = s.ctx) ∧
    (∀ decl, ((checkLocalFunction env decl).after s).ctx = s.ctx) ∧
    (∀ span region, ((checkUsing env span region).after s).ctx = s.ctx) ∧
    (∀ dispose op span, ((disposeOf env dispose op span).after s).ctx = s.ctx) ∧
    (∀ span loop, ((checkForeach env span loop).after s).ctx =
      ((checkExpr env loop.collection).after s).ctx) := by
  refine ⟨fun e => ?_, fun input inputTy span pattern => ?_, brackets_stmts hs, fun stmts => ?_,
    fun fn => ?_, fun decl => ?_, fun span region => ?_, fun dispose op span => ?_,
    fun span loop => ?_⟩
  · have h : Declares (Binders.ofExpr e) _ (checkExpr env e) :=
      Declares.checkExpr e (List.Subset.refl _)
    exact (h.after s).brackets (Grows.checkExpr e s) hs
  · have h : Declares (Binders.ofPattern pattern) _ (checkPattern env input inputTy span pattern) :=
      Declares.checkPattern input inputTy span pattern (List.Subset.refl _)
    exact (h.after s).brackets (Grows.checkPattern input inputTy span pattern s) hs
  · have h : Declares (Binders.ofStmts stmts) _ (checkStmts env stmts) :=
      Declares.checkStmts stmts (List.Subset.refl _)
    exact ((h.block stmts).after s).ctx_eq
  · exact ((Declares.checkLambda fn).after s).ctx_eq
  · exact ((Declares.checkLocalFunction decl).after s).ctx_eq
  · exact ((Declares.checkUsing span region).after s).ctx_eq
  · exact ((Declares.disposeOf env dispose op span).after s).ctx_eq
  · exact ctx_checkForeach span loop s

end Walk

/-! ## Nested blocks -/

namespace Slots

/-- A slot that is declared with the value of another one. -/
def copyStmt (id : NodeId) (name source : String) : Stmt :=
  ⟨id, .declare ⟨name, slotTy, .none, false, some (slotVar (id + 1) source), .zero⟩, .zero⟩

/-- A slot, a local function, and in a block another slot. -/
def nested : List Stmt :=
  [copyStmt 20 "outer" "slot", ⟨22, .localFunction same, .zero⟩,
    ⟨23, .block [copyStmt 24 "inner" "outer"], .zero⟩]

/-- The surroundings of the body of `keep`. -/
def keepEnv : Surroundings := ⟨program, ⟨decl, keep⟩, true⟩

/-- The state in which its body is entered. -/
def keepStart : WalkState := program.bodyEntry true {} keepEnv.member []

/-- After the statements, the outer slot and the local function are visible in the same scope. The
inner slot is not. -/
theorem bracketed_nested :
    let t :=
      (Walk.declareFunctions nested >>= fun _ => Walk.checkStmts keepEnv nested).after keepStart
    t.ctx.frames.length = keepStart.ctx.frames.length ∧
      (∃ top, t.ctx.scopes = [top] ∧ top.kind = .method ∧ top.functions.get? "Same" = some same) ∧
      (t.ctx.lookup "outer").isSome = true ∧ (t.ctx.lookup "inner").isSome = false := by
  intro t
  let top : Scope := keepStart.ctx.scopes.headD ⟨.method, [], .empty⟩
  have hscopes : keepStart.ctx.scopes = [top] := rfl
  have h : keepStart.Brackets top [] (directFunctions nested) t :=
    (Walk.bracketed keepEnv hscopes).2.2.1 nested
  obtain ⟨top', hscopes', hkind, _, hfunctions⟩ := h.scopes
  refine ⟨congrArg List.length h.frames, ⟨top', hscopes', hkind, ?_⟩, ?_, ?_⟩
  · rw [hfunctions]
    rfl
  · decide +kernel
  · decide +kernel

end Slots

end StackEscape
