import StackEscape.Proofs.Accesses

/-!
# Iterations and what they stand for

An iteration stands for a loop over an enumerator that is kept in a variable. The variable of the
iteration gets the pair that it would get if it was declared in that loop.

## Main definitions

* `StackEscape.ForeachStmt.lowered` — the declarations that an iteration stands for.

## Main results

* `StackEscape.Walk.foreach_binds_lowered` — the variable of an iteration has the pair of the
  declarations that it stands for.

## Implementation notes

In the iteration, a variable declared in place counts for its receiver as any other expression; in
a call it has no value yet. So the collection must not be one. Nor may different members among those
used share a key, since the step to the next element is not among the declarations.
-/

set_option autoImplicit false

namespace StackEscape

/-! ## Values of types that are not stack-only -/

namespace Contract

variable (c : Contract) (receiver : Option Operand) (args : List Operand)

/-- They are not tied to anything. -/
theorem value_outcome : (c.outcome receiver args false).result.value = .unlimited := by
  unfold outcome
  split
  · cases h : c.returnsByRef <;> simp [resultPair, h, ScopePair.temporary]
  · rfl

theorem value_getterPair (op : Operand) : (c.getterPair op false).value = .unlimited := by
  have hcopy : Walk.needsCopy c (some op) false = false := by simp [Walk.needsCopy]
  simp only [getterPair, hcopy, Bool.and_false, Bool.false_eq_true, if_false]
  exact c.value_outcome _ _

/-- Nothing comes out of a receiver that was given up. -/
theorem getterPair_of_invalid {op : Operand} (h : op.pair.isInvalid = true) (stackOnly : Bool) :
    c.getterPair op stackOnly = .invalid := by
  rw [getterPair, c.outcome_of_invalid h]
  rfl

end Contract

namespace Walk

variable {env : Surroundings} {s : WalkState} {types : TypeEnv}

/-- The pair of a call whose type is not stack-only. -/
theorem value_callPair {r : MemberRef} {receiver : Option Operand} {args : List Operand}
    {ty : TypeRef} (h : (s.types env).stackOnly ty = false) :
    (callPair s env r receiver args ty).value = .unlimited := by
  unfold callPair
  cases s.contract? env r with
  | none => rfl
  | some c => rw [h]; exact c.value_outcome receiver args

/-- The pair of a read whose type is not stack-only. -/
theorem value_readPair {r : MemberRef} {op : Operand} {ty : TypeRef}
    (h : (s.types env).stackOnly ty = false) : (readPair s env r op ty).value = .unlimited := by
  unfold readPair
  cases s.contract? env r with
  | none => rfl
  | some c => rw [h]; exact c.value_getterPair op

/-- A read from a receiver that was given up is given up. -/
theorem readPair_of_invalid {r : MemberRef} {op : Operand} (h : op.pair.isInvalid = true)
    (ty : TypeRef) : readPair s env r op ty = .invalid := by
  unfold readPair
  cases s.contract? env r with
  | none => rfl
  | some c => exact c.getterPair_of_invalid h _

end Walk

/-! ## Iterations -/

namespace ForeachStmt

/-- The declaration of an enumerator under the name of a temporary. -/
def loweredEnumerator (loop : ForeachStmt) (tmp : String) (id : Nat → NodeId) (span : Span) :
    Stmt :=
  let make : Expr := ⟨id 1, .call (some loop.collection) loop.enumerator.getEnumerator [] [],
    loop.enumerator.ty, span⟩
  ⟨id 0, .declare ⟨tmp, loop.enumerator.ty, .none, false, some make, span⟩, span⟩

/-- The current element of the temporary. -/
def loweredCurrent (loop : ForeachStmt) (tmp : String) (id : Nat → NodeId) (span : Span) : Expr :=
  let enumerator : Expr := ⟨id 4, .var tmp, loop.enumerator.ty, span⟩
  ⟨id 3, .property (some enumerator) loop.enumerator.current [], loop.enumerator.elementTy, span⟩

/-- The declarations that an iteration stands for: of its enumerator and of its variable. -/
def lowered (loop : ForeachStmt) (name : String) (ty : TypeRef) (nameSpan : Span) (tmp : String)
    (id : Nat → NodeId) (span : Span) : List Stmt :=
  [loop.loweredEnumerator tmp id span,
    ⟨id 2, .declare ⟨name, ty, .none, false, some (loop.loweredCurrent tmp id span), nameSpan⟩,
      nameSpan⟩]

/-- The members through which an iteration looks at its elements. -/
def members (loop : ForeachStmt) : List MemberRef :=
  [loop.enumerator.getEnumerator, loop.enumerator.moveNext, loop.enumerator.current]

end ForeachStmt

namespace Walk

variable {env : Surroundings} {s : WalkState} {loop : ForeachStmt}

/-- The pair of the enumerator that a collection makes. -/
def enumeratorPair (env : Surroundings) (loop : ForeachStmt) (collection : Operand)
    (s : WalkState) : ScopePair :=
  callPair s env loop.enumerator.getEnumerator (some collection) [] loop.enumerator.ty

/-- The pair of the current element of an enumerator. -/
def currentPair (env : Surroundings) (loop : ForeachStmt) (enumerator : ScopePair)
    (s : WalkState) : ScopePair :=
  let op := Operand.temporary "enumerator" enumerator ((s.types env).stackOnly loop.enumerator.ty)
    .zero
  readPair s env loop.enumerator.current op loop.enumerator.elementTy

/-- The pair of the variable of an iteration. -/
def iteratedPair (env : Surroundings) (loop : ForeachStmt) (collection : Operand)
    (s : WalkState) : ScopePair :=
  (currentPair env loop ((enumeratorPair env loop collection s).withRef .currentMethod) s).withRef
    .currentMethod

/-- The pair of the variable that an iteration stands for, if it has the given type. -/
def loweredPair (env : Surroundings) (loop : ForeachStmt) (collection : Operand) (ty : TypeRef)
    (s : WalkState) : ScopePair :=
  let types := s.types env
  let enumerator := ordinaryPair (types.stackOnly loop.enumerator.ty)
    (enumeratorPair env loop collection s)
  ordinaryPair (types.stackOnly ty) (currentPair env loop enumerator s)

/-- They depend on how the members are called. -/
theorem iteratedPair_congr {t : WalkState} (h : s.SameCalls env loop.members t)
    (collection : Operand) : iteratedPair env loop collection t =
      iteratedPair env loop collection s := by
  have hmake : loop.enumerator.getEnumerator ∈ loop.members := by simp [ForeachStmt.members]
  have hcurrent : loop.enumerator.current ∈ loop.members := by simp [ForeachStmt.members]
  unfold iteratedPair currentPair enumeratorPair
  rw [h.callPair_eq hmake, h.types_eq, h.readPair_eq hcurrent rfl]

/-- The first element of a collection, with the enumerator that yields it. -/
def firstElement (env : Surroundings) (loop : ForeachStmt) (collection : Operand)
    (stackOnly : Bool) (span : Span) : Walk (Operand × ScopePair) := do
  let shape := loop.enumerator
  let enumerator ← invokeRef env shape.getEnumerator (some collection) [] shape.ty span
  let op := Operand.temporary "enumerator" (enumerator.withRef .currentMethod) stackOnly span
  discard (invokeRef env shape.moveNext (some op) [] .bool span)
  let current ← readProperty env shape.current (some op) [] shape.elementTy span
  return (op, current)

/-- The first element is read from the enumerator, whatever the step to it does. -/
theorem run_firstElement (hapart : s.KeepsApart env loop.members) (hfree : s.forbidsLocals = false)
    (collection : Operand) (span : Span) :
    let first := firstElement env loop collection ((s.types env).stackOnly loop.enumerator.ty) span
    (first.answer s).2 = currentPair env loop
        ((enumeratorPair env loop collection s).withRef .currentMethod) s ∧
      s.Onward env loop.members [] (first.after s) := by
  intro first
  have hmake : loop.enumerator.getEnumerator ∈ loop.members := by simp [ForeachStmt.members]
  have hmove : loop.enumerator.moveNext ∈ loop.members := by simp [ForeachStmt.members]
  have hcurrent : loop.enumerator.current ∈ loop.members := by simp [ForeachStmt.members]
  let make := invokeRef env loop.enumerator.getEnumerator (some collection) []
    loop.enumerator.ty span
  have hmade : s.Onward env loop.members [] (make.after s) :=
    onward_invokeRef hmake hapart hfree _ _ _
  let op := Operand.temporary "enumerator" ((make.answer s).withRef .currentMethod)
    ((s.types env).stackOnly loop.enumerator.ty) span
  let move := invokeRef env loop.enumerator.moveNext (some op) [] .bool span
  have hmoved : s.Onward env loop.members [] (move.after (make.after s)) :=
    hmade.trans (onward_invokeRef hmove (hmade.keepsApart hapart)
      (hmade.forbidsLocals_eq.trans hfree) (some op) .bool span)
  have hfree' := hmoved.forbidsLocals_eq.trans hfree
  have hread := onward_readProperty hcurrent (hmoved.keepsApart hapart) hfree' (some op)
    loop.enumerator.elementTy span
  refine ⟨?_, hmoved.trans hread⟩
  have hop : op.core = (Operand.temporary "enumerator"
      ((enumeratorPair env loop collection s).withRef .currentMethod)
      ((s.types env).stackOnly loop.enumerator.ty) .zero).core := by
    rw [enumeratorPair, ← answer_invokeRef]
    rfl
  exact (answer_readProperty hfree' _ op _ span).trans (hmoved.readPair_eq hcurrent hop _)

/-- What is done in the scope of an iteration that is not refused. -/
def iterate (env : Surroundings) (loop : ForeachStmt) (collection : Operand) (stackOnly : Bool)
    (span : Span) (matchElement : ScopePair → Walk Unit) (body : Walk Unit) : Walk Unit := do
  let (op, current) ← firstElement env loop collection stackOnly span
  bindIteration env loop matchElement
    (if loop.byRef then current else current.withRef .currentMethod)
  block loop.body body
  disposeOf env loop.enumerator.dispose op span

/-- A binding that is a declaration declares a variable. -/
theorem bindIteration_of_declaration {name : String} {ty : TypeRef} {nameSpan : Span}
    (hbinding : loop.binding = .declaration name ty nameSpan)
    (matchElement : ScopePair → Walk Unit) (element : ScopePair) :
    bindIteration env loop matchElement element =
      declareBinding env name ty element loop.byRef nameSpan := by
  simp only [bindIteration, hbinding]

/-- The variable of an iteration by value, if its declaration has the given name and type. -/
def iterationLocal (env : Surroundings) (loop : ForeachStmt) (collection : Operand) (name : String)
    (ty : TypeRef) (s : WalkState) : LocalInfo :=
  .ordinary (s.types env) name ty (iteratedPair env loop collection s)

/-- The statements of an iteration are looked at once its variable is declared. -/
theorem after_iterate {name : String} {ty : TypeRef} {nameSpan : Span}
    (hbinding : loop.binding = .declaration name ty nameSpan) (hvalue : loop.byRef = false)
    (hapart : s.KeepsApart env loop.members) (hfree : s.forbidsLocals = false)
    (collection : Operand) (span : Span) :
    ∃ op u, s.Onward env loop.members [iterationLocal env loop collection name ty s] u ∧
      ∀ stmts matchElement (body : Walk Unit),
        (iterate env { loop with body := stmts } collection
          ((s.types env).stackOnly loop.enumerator.ty) span matchElement body).after s =
        (block stmts body >>= fun _ => disposeOf env loop.enumerator.dispose op span).after u := by
  obtain ⟨helement, hfirst⟩ := run_firstElement hapart hfree collection span
  let first := firstElement env loop collection ((s.types env).stackOnly loop.enumerator.ty) span
  let bound := iterationLocal env loop collection name ty s
  have hdeclared : (first.after s).Onward env loop.members [bound]
      ((first.after s).declaring bound) := .of_tables rfl rfl rfl
  have hbound (stmts : List Stmt) (matchElement : ScopePair → Walk Unit) :
      (bindIteration env { loop with body := stmts } matchElement
        (if loop.byRef then (first.answer s).2 else
          (first.answer s).2.withRef .currentMethod)).after (first.after s) =
        (first.after s).declaring bound := by
    change (bindIteration env loop matchElement _).after _ = _
    rw [bindIteration_of_declaration hbinding, hvalue, helement,
      after_declareBinding (hfirst.forbidsLocals_eq.trans hfree), hfirst.types_eq]
    rfl
  refine ⟨(first.answer s).1, (first.after s).declaring bound, hfirst.trans hdeclared,
    fun stmts matchElement body => ?_⟩
  rw [← hbound stmts matchElement]
  rfl

/-- In a function that is never suspended, an iteration that does not wait is not refused. -/
theorem after_foreachOver (loop : ForeachStmt) (hsync : loop.isAwait = false)
    (hfree : s.forbidsLocals = false) (collection : ScopePair) (span : Span)
    (matchElement : ScopePair → Walk Unit) (body : Walk Unit) :
    (foreachOver env loop collection span matchElement body).after s =
      ((iterate env loop (.ofExpr loop.collection collection
          ((s.types env).stackOnly loop.collection.ty) .none false)
        ((s.types env).stackOnly loop.enumerator.ty) span matchElement body).after
          (s.inBlock .block [])).leave := by
  have hrefused : (refusesStackOnly loop.isAwait).answer
      ((stackOnly env loop.enumerator.ty).after s) = false := by
    change (loop.isAwait || s.forbidsLocals) = false
    rw [hsync, hfree]
    rfl
  unfold foreachOver
  rw [after_bind, after_bind]
  change (inScope .block (if (_ && (refusesStackOnly loop.isAwait).answer _) = true then _
    else _)).after s = _
  rw [hrefused, Bool.and_false, if_neg Bool.false_ne_true]
  rfl

/-- An iteration looks at its collection first. -/
theorem checkStmt_foreach (env : Surroundings) (loop : ForeachStmt) (id : NodeId) (span : Span) :
    checkStmt env ⟨id, .foreach loop, span⟩ = checkExpr env loop.collection >>= fun pair =>
      foreachOver env loop pair span
        (fun element => checkPattern env element loop.enumerator.elementTy span loop.binding)
        (checkStmts env loop.body) := by
  obtain ⟨binding, byRef, collection, enumerator, isAwait, body⟩ := loop
  rw [checkStmt, checkForeach]

/-- The state in which the statements of an iteration are looked at, whatever they are. -/
theorem after_foreach {name : String} {ty : TypeRef} {nameSpan : Span}
    (hbinding : loop.binding = .declaration name ty nameSpan) (hsync : loop.isAwait = false)
    (hvalue : loop.byRef = false) (hfree : s.forbidsLocals = false)
    (hapart : ((checkExpr env loop.collection).after s).KeepsApart env loop.members)
    (id : NodeId) (span : Span) :
    let t := (checkExpr env loop.collection).after s
    let collection := Operand.ofExpr loop.collection ((checkExpr env loop.collection).answer s)
      ((t.types env).stackOnly loop.collection.ty) .none false
    ∃ op inside,
      (∀ body, (checkStmt env ⟨id, .foreach { loop with body }, span⟩).after s =
        ((block body (checkStmts env body) >>= fun _ =>
          disposeOf env loop.enumerator.dispose op span).after inside).leave) ∧
      inside.ctx.lookup name = some ⟨iterationLocal env loop collection name ty t, none⟩ := by
  intro t collection
  have hfree' : t.forbidsLocals = false := by
    rw [((Declares.checkExpr loop.collection (List.Subset.refl _)).after s).forbidsLocals_eq]
    exact hfree
  -- The scope of the iteration changes nothing about its members.
  have hinside : t.SameCalls env loop.members (t.inBlock .block []) :=
    .of_tables rfl rfl fun _ => rfl
  obtain ⟨op, u, honward, hafter⟩ := after_iterate hbinding hvalue (hinside.keepsApart hapart)
    hfree' collection span
  have hlocal : iterationLocal env loop collection name ty (t.inBlock .block []) =
      iterationLocal env loop collection name ty t := by
    rw [iterationLocal, iterationLocal, iteratedPair_congr hinside, hinside.types_eq]
  rw [hlocal] at honward
  refine ⟨op, u, fun body => ?_, ?_⟩
  · rw [checkStmt_foreach, after_bind, after_foreachOver { loop with body } hsync hfree']
    exact congrArg WalkState.leave (hafter body _ _)
  · rw [honward.context]
    exact Covers.lookup_declare (List.cons_ne_nil _ _) _

/-- The declaration of the enumerator that an iteration stands for. -/
theorem after_declareEnumerator (htree : s.ctx.inExpressionTree = false)
    (hfree : s.forbidsLocals = false)
    (hfree' : ((receiverOf env loop.collection).after s).forbidsLocals = false)
    (hapart : ((receiverOf env loop.collection).after s).KeepsApart env loop.members)
    {span : Span} (henum : (s.types env).typeErrors span loop.enumerator.ty = [])
    (tmp : String) (id : Nat → NodeId) :
    let t := (receiverOf env loop.collection).after s
    let types := t.types env
    t.Onward env loop.members
      [.ordinary types tmp loop.enumerator.ty (ordinaryPair (types.stackOnly loop.enumerator.ty)
        (enumeratorPair env loop ((receiverOf env loop.collection).answer s) t))]
      ((checkStmt env (loop.loweredEnumerator tmp id span)).after s) := by
  intro t types
  have hmake : loop.enumerator.getEnumerator ∈ loop.members := by simp [ForeachStmt.members]
  obtain ⟨hmade, honward⟩ := run_call htree hmake hapart hfree'
    (run_checkArgs_nil env loop.members t) (id 1) [] loop.enumerator.ty span
  rw [callLocals_nil] at honward
  rw [ForeachStmt.loweredEnumerator, after_declare henum hfree, hmade, honward.types_eq]
  exact honward.trans (.of_tables rfl rfl rfl)

/-- What is read from a variable for the enumerator is the current element. -/
theorem run_readCurrent (htree : s.ctx.inExpressionTree = false)
    (hfree : s.forbidsLocals = false) (hapart : s.KeepsApart env loop.members) {tmp : String}
    {enumerator : ScopePair}
    (hfound : s.ctx.lookup tmp =
      some ⟨.ordinary (s.types env) tmp loop.enumerator.ty enumerator, none⟩)
    (id : Nat → NodeId) (span : Span) :
    (checkExpr env (loop.loweredCurrent tmp id span)).answer s =
        currentPair env loop enumerator s ∧
      s.Onward env loop.members [] ((checkExpr env (loop.loweredCurrent tmp id span)).after s) := by
  have hcurrent : loop.enumerator.current ∈ loop.members := by simp [ForeachStmt.members]
  let e : Expr := ⟨id 4, .var tmp, loop.enumerator.ty, span⟩
  have hordinary : e.isOutVar = false := rfl
  obtain ⟨hvar, hread⟩ := run_var env loop.members htree hfound (id 4) loop.enumerator.ty span
  obtain ⟨hreceiver, hsame⟩ := run_receiverOf env s hordinary
  rw [← hsame] at hread
  obtain ⟨hanswer, hlast⟩ := run_property htree hcurrent (hread.keepsApart hapart)
    (hread.forbidsLocals_eq.trans hfree) (id 3) loop.enumerator.elementTy span
  have hop : ((receiverOf env e).answer s).core = (Operand.temporary "enumerator" enumerator
      ((s.types env).stackOnly loop.enumerator.ty) .zero).core := by
    rw [hreceiver, hvar, ← hsame, hread.types_eq]
    rfl
  exact ⟨hanswer.trans (hread.readPair_eq hcurrent hop _), hread.trans hlast⟩

/-- The variable that an iteration stands for. -/
theorem lookup_lowered {ty : TypeRef} {nameSpan : Span} (hs : s.ctx.scopes ≠ [])
    (htree : s.ctx.inExpressionTree = false) (hfree : s.forbidsLocals = false)
    (hapart : ((receiverOf env loop.collection).after s).KeepsApart env loop.members)
    {span : Span} (henum : (s.types env).typeErrors span loop.enumerator.ty = [])
    (hty : (((receiverOf env loop.collection).after s).types env).typeErrors nameSpan ty = [])
    (name tmp : String) (id : Nat → NodeId) :
    let t := (receiverOf env loop.collection).after s
    ((checkStmts env (loop.lowered name ty nameSpan tmp id span)).after s).ctx.lookup name =
      some ⟨.ordinary (t.types env) name ty
        (loweredPair env loop ((receiverOf env loop.collection).answer s) ty t), none⟩ := by
  intro t
  have hextends : s.Extends (Binders.ofExpr loop.collection) t :=
    (Declares.operandOf env (List.Subset.refl _) .none
      (Declares.checkExpr loop.collection (List.Subset.refl _))).after s
  have hfree' : t.forbidsLocals = false := hextends.forbidsLocals_eq.trans hfree
  -- The enumerator is declared.
  have hmade := after_declareEnumerator htree hfree hfree' hapart henum tmp id
  let u := (checkStmt env (loop.loweredEnumerator tmp id span)).after s
  let enumerator := ordinaryPair ((t.types env).stackOnly loop.enumerator.ty)
    (enumeratorPair env loop ((receiverOf env loop.collection).answer s) t)
  have hfound : u.ctx.lookup tmp =
      some ⟨.ordinary (u.types env) tmp loop.enumerator.ty enumerator, none⟩ := by
    rw [hmade.context, hmade.types_eq]
    exact Covers.lookup_declare (hextends.scopes_ne_nil hs) (.ordinary _ tmp _ _)
  have htree' : u.ctx.inExpressionTree = false := by
    rw [hmade.inExpressionTree_eq, hextends.inExpressionTree_eq, htree]
  have hfree₂ : u.forbidsLocals = false := hmade.forbidsLocals_eq.trans hfree'
  -- The current element is read from it, and the variable is declared.
  obtain ⟨hanswer, hread⟩ := run_readCurrent htree' hfree₂ (hmade.keepsApart hapart) hfound id span
  have hall := hmade.trans hread
  have hpair : currentPair env loop enumerator u = currentPair env loop enumerator t := by
    have hcurrent : loop.enumerator.current ∈ loop.members := by simp [ForeachStmt.members]
    rw [currentPair, currentPair, hmade.types_eq, hmade.readPair_eq hcurrent rfl]
  have hty' : (u.types env).typeErrors nameSpan ty = [] := hmade.types_eq ▸ hty
  have hscopes : ((checkExpr env (loop.loweredCurrent tmp id span)).after u).ctx.scopes ≠ [] := by
    rw [hall.context]
    exact Context.scopes_modifyTop_ne_nil (hextends.scopes_ne_nil hs) _
  rw [ForeachStmt.lowered, checkStmts, after_bind, after_checkStmts_singleton,
    after_declare hty' hfree₂, hanswer, hpair, hall.types_eq]
  exact Covers.lookup_declare hscopes (.ordinary _ name _ _)

/-- The variable of an iteration and the one that it stands for have the same pair, unless both are
given up. -/
theorem iteratedPair_eq_loweredPair {ty : TypeRef}
    (hstack : (s.types env).stackOnly ty = (s.types env).stackOnly loop.enumerator.elementTy)
    (collection : Operand) :
    let bound := iteratedPair env loop collection s
    let written := loweredPair env loop collection ty s
    bound.isInvalid = written.isInvalid ∧ (written.isInvalid = false → bound = written) := by
  intro bound written
  cases henum : (enumeratorPair env loop collection s).isInvalid with
  | true =>
    -- Both are given up.
    have hbound : bound.isInvalid = true :=
      congrArg ScopePair.isInvalid (readPair_of_invalid henum loop.enumerator.elementTy)
    have hwritten : written = .invalid := by
      refine ordinaryPair_of_invalid ?_
      rw [ordinaryPair_of_invalid henum, currentPair, readPair_of_invalid rfl]
      rfl
    rw [hbound, hwritten]
    exact ⟨rfl, fun h => absurd h (by decide)⟩
  | false =>
    have hsame : written = ordinaryPair ((s.types env).stackOnly ty) (currentPair env loop
        ((enumeratorPair env loop collection s).withRef .currentMethod) s) :=
      congrArg (fun pair => ordinaryPair _ (currentPair env loop pair s))
        (ordinaryPair_eq_withRef henum value_callPair)
    cases helement : (currentPair env loop
        ((enumeratorPair env loop collection s).withRef .currentMethod) s).isInvalid with
    | true =>
      rw [hsame, ordinaryPair_of_invalid helement]
      exact ⟨helement, fun h => absurd h (by decide)⟩
    | false =>
      have heq : written = bound := hsame.trans
        (ordinaryPair_eq_withRef helement fun h => value_readPair (hstack.symm.trans h))
      rw [heq]
      exact ⟨rfl, fun _ => rfl⟩

/-- **Iterations.** In a function that is never suspended, the variable of an iteration by value has
the pair that it gets when the iteration is written as a loop over its enumerator: it is given up in
both, or it has the same levels in both.

**Proof sketch.** Neither the scope of the iteration nor the step to the next element has any
influence on the contracts of the members used, so both read the current element through the same
contract. The enumerator is a temporary here and a variable there. References to it stay in the
method either way, and its value has the level of the call that made it, since a value that is not
stack-only is not tied to anything. The same holds of the element and the variable. -/
theorem foreach_binds_lowered {name : String} {ty : TypeRef} {nameSpan : Span}
    (hbinding : loop.binding = .declaration name ty nameSpan) (hsync : loop.isAwait = false)
    (hvalue : loop.byRef = false) (hs : s.ctx.scopes ≠ []) (htree : s.ctx.inExpressionTree = false)
    (hfree : s.forbidsLocals = false)
    -- The collection is not declared in place, and members that share a key are the same.
    (hroot : loop.collection.isOutVar = false)
    (hapart : ((checkExpr env loop.collection).after s).KeepsApart env loop.members)
    {span : Span} (henum : (s.types env).typeErrors span loop.enumerator.ty = [])
    (hty : (((checkExpr env loop.collection).after s).types env).typeErrors nameSpan ty = [])
    (hstack : (((checkExpr env loop.collection).after s).types env).stackOnly ty =
      (((checkExpr env loop.collection).after s).types env).stackOnly loop.enumerator.elementTy)
    (loopId : NodeId) (loopSpan : Span) (tmp : String) (id : Nat → NodeId) :
    ∃ op inside bound written,
      -- The state `inside` is the one in which the statements are looked at, whatever they are.
      (∀ body, (checkStmt env ⟨loopId, .foreach { loop with body }, loopSpan⟩).after s =
        ((block body (checkStmts env body) >>= fun _ =>
          disposeOf env loop.enumerator.dispose op loopSpan).after inside).leave) ∧
      inside.ctx.lookup name = some ⟨bound, none⟩ ∧
      ((checkStmts env (loop.lowered name ty nameSpan tmp id span)).after s).ctx.lookup name =
        some ⟨written, none⟩ ∧
      bound.pair.isInvalid = written.pair.isInvalid ∧
      (written.pair.isInvalid = false → bound.pair = written.pair) := by
  obtain ⟨op, inside, hafter, hbound⟩ := after_foreach hbinding hsync hvalue hfree hapart loopId
    loopSpan
  obtain ⟨hreceiver, hsame⟩ := run_receiverOf env s hroot
  rw [← hsame] at hapart hty
  have hwritten := lookup_lowered hs htree hfree hapart henum hty name tmp id
  rw [hreceiver, hsame] at hwritten
  exact ⟨op, inside, _, _, hafter, hbound, hwritten, iteratedPair_eq_loweredPair hstack _⟩

end Walk

/-! ## Bags of slots -/

namespace Bags

open Slots

/-- The type of bags. -/
def bagTy : TypeRef := .named "Bag" []

/-- The type of walks over bags. -/
def walkTy : TypeRef := .named "Bag.Walk" []

/-- A member without parameters. -/
def bagMember (id : NodeId) (name : String) (kind : MemberKind) (ret : ReturnType) : FnDecl :=
  ⟨id, name, kind, default, [], [], ret, [], none, none, some [], .zero⟩

/-- Bags are their own enumerators. -/
def getEnumerator : FnDecl := bagMember 3 "GetEnumerator" .method (.byValue bagTy)

/-- Goes to the next slot. -/
def moveNext : FnDecl := bagMember 4 "MoveNext" .method (.byValue .bool)

/-- A reference to the current slot. -/
def getCurrent : FnDecl := bagMember 5 "get_Current" .getter (.byRef slotTy)

/-- Another way to go to the next slot. -/
def next : FnDecl := bagMember 13 "Walk.Next" .method (.byValue .bool)

/-- Bags hold slots. -/
def bag : TypeDecl :=
  ⟨2, "Bag", .refStruct, false, false, [], [], [], [], [getEnumerator, moveNext, getCurrent, next],
    .zero⟩

/-- Another reference to the current slot. -/
def getNext : FnDecl := bagMember 15 "Next" .getter (.byRef slotTy)

/-- Walks go over bags. -/
def walk : TypeDecl := ⟨14, "Bag.Walk", .refStruct, false, false, [], [], [], [], [getNext], .zero⟩

/-- A function that is given a bag. -/
def visit : FnDecl := fn 7 "Visit" [⟨"bag", bagTy, .none, false, [], .zero⟩] .nothing []

/-- The class of the function. -/
def decl : TypeDecl := ⟨6, "Bags", .classType, false, false, [], [], [], [], [visit], .zero⟩

/-- A program with the function, slots and bags of them. -/
def program : Program :=
  ⟨[decl, ⟨1, "Slot", .refStruct, false, false, [], [], [], [], [], .zero⟩, bag, walk]⟩

/-- The surroundings of the body of the function. -/
def env : Surroundings := ⟨program, ⟨decl, visit⟩, true⟩

/-- The state in which the body is entered. -/
def start : WalkState := program.bodyEntry true {} env.member []

/-- An iteration over the slots in a bag that looks at each. -/
def each (collection : Expr) : ForeachStmt :=
  { binding := .declaration "slot" slotTy .zero
    byRef := false
    collection
    enumerator := ⟨bagTy, slotTy, ⟨bagTy, "GetEnumerator"⟩, ⟨bagTy, "MoveNext"⟩,
      ⟨bagTy, "get_Current"⟩, none⟩
    isAwait := false
    body := [⟨11, .expr (slotVar 12 "slot"), .zero⟩] }

/-- The bag that the function is given. -/
def given : Expr := ⟨8, .var "bag", bagTy, .zero⟩

/-- A bag that is declared in place. -/
def inPlace : Expr := ⟨9, .outVar "other", bagTy, .zero⟩

/-- An iteration whose step and element have the same key. -/
def walked : ForeachStmt :=
  { each given with
    enumerator := ⟨bagTy, slotTy, ⟨bagTy, "GetEnumerator"⟩, ⟨bagTy, "Walk.Next"⟩,
      ⟨walkTy, "Next"⟩, none⟩ }

theorem member?_bag :
    program.member? ⟨bagTy, "GetEnumerator"⟩ = some ⟨bag, getEnumerator⟩ ∧
      program.member? ⟨bagTy, "MoveNext"⟩ = some ⟨bag, moveNext⟩ ∧
      program.member? ⟨bagTy, "get_Current"⟩ = some ⟨bag, getCurrent⟩ ∧
      program.member? ⟨bagTy, "Walk.Next"⟩ = some ⟨bag, next⟩ := by
  refine ⟨?_, ?_, ?_, ?_⟩ <;> cbv

theorem member?_walk : program.member? ⟨walkTy, "Next"⟩ = some ⟨walk, getNext⟩ := by
  cbv

theorem target?_bag (s : WalkState) (name : String) :
    s.target? env ⟨bagTy, name⟩ = (program.member? ⟨bagTy, name⟩).map .member :=
  rfl

/-- The members of a bag have different keys. -/
theorem keepsApart_bag (s : WalkState) (collection : Expr) :
    s.KeepsApart env (each collection).members := by
  refine .of_nodup ?_
  simp only [ForeachStmt.members, each, List.map_cons, List.map_nil, target?_bag, member?_bag,
    Option.map_some]
  decide

/-- The pair of the slot that an iteration looks at. -/
def iterated (loop : ForeachStmt) : Option ScopePair :=
  ((Walk.checkStmt env ⟨10, .foreach loop, .zero⟩).after start).facts.pair? 12

/-- The pair of the slot in what the iteration stands for. -/
def written (loop : ForeachStmt) : Option ScopePair :=
  (((Walk.checkStmts env (loop.lowered "slot" slotTy .zero "tmp" UInt32.ofNat .zero)).after
    start).ctx.lookup "slot").map fun x => x.info.pair

/-- In an iteration over a bag that is declared in place, the slots stay in the method; read out of
what stands for it, they are free, since such a bag has no value yet. And what an element is read
through depends on the step before, if both have the same key. -/
theorem foreach_differs_from_lowered :
    (start.ctx.inExpressionTree = false ∧ start.forbidsLocals = false ∧
      ∀ ty ∈ [bagTy, slotTy], (start.types env).typeErrors .zero ty = []) ∧
    (start.KeepsApart env (each inPlace).members ∧
      iterated (each inPlace) = some ⟨.currentMethod, .currentMethod, false⟩ ∧
      written (each inPlace) = some ⟨.unlimited, .currentMethod, false⟩) ∧
    given.isOutVar = false ∧
      iterated walked = some ⟨.currentMethod, .currentMethod, false⟩ ∧
      written walked = some ⟨.callingMethod, .currentMethod, false⟩ := by
  have hmake := Walk.resolve_of_otherType env rfl (by decide) member?_bag.1
  have hmove := Walk.resolve_of_otherType env rfl (by decide) member?_bag.2.1
  have hcurrent := Walk.resolve_of_otherType env rfl (by decide) member?_bag.2.2.1
  have hnext := Walk.resolve_of_otherType env rfl (by decide) member?_bag.2.2.2
  have hread := Walk.resolve_of_otherType env rfl (by decide) member?_walk
  refine ⟨⟨rfl, rfl, by decide +kernel⟩, ⟨keepsApart_bag _ _, ?_, ?_⟩, rfl, ?_, ?_⟩
  -- The members that are looked up are put in first: the search for them cannot be evaluated.
  · simp only [iterated, each, Walk.checkStmt, Walk.checkForeach, Walk.foreachOver,
      Walk.invokeRef, Walk.readProperty, hmake, hmove, hcurrent]
    decide +kernel
  · simp only [written, each, ForeachStmt.lowered, ForeachStmt.loweredEnumerator,
      ForeachStmt.loweredCurrent, Walk.checkStmts, Walk.checkStmt, Walk.checkLocal, Walk.checkInit,
      Walk.checkExpr, Walk.checkForm, Walk.readProperty, hmake, hcurrent]
    decide +kernel
  · simp only [iterated, walked, each, Walk.checkStmt, Walk.checkForeach, Walk.foreachOver,
      Walk.invokeRef, Walk.readProperty, hmake, hnext, hread]
    decide +kernel
  · simp only [written, walked, each, ForeachStmt.lowered, ForeachStmt.loweredEnumerator,
      ForeachStmt.loweredCurrent, Walk.checkStmts, Walk.checkStmt, Walk.checkLocal, Walk.checkInit,
      Walk.checkExpr, Walk.checkForm, Walk.readProperty, hmake, hread]
    decide +kernel

/-- An iteration over the bag that the function is given yields the slots that its members do. -/
theorem foreach_binds_lowered_bag :
    let loop := each given
    start.ctx.scopes ≠ [] ∧ start.ctx.inExpressionTree = false ∧ start.forbidsLocals = false ∧
      ∃ op inside bound written,
        (∀ body, (Walk.checkStmt env ⟨10, .foreach { loop with body }, .zero⟩).after start =
          ((Walk.block body (Walk.checkStmts env body) >>= fun _ =>
            Walk.disposeOf env none op .zero).after inside).leave) ∧
        inside.ctx.lookup "slot" = some ⟨bound, none⟩ ∧
        ((Walk.checkStmts env (loop.lowered "slot" slotTy .zero "tmp" UInt32.ofNat .zero)).after
          start).ctx.lookup "slot" = some ⟨written, none⟩ ∧
        bound.pair.isInvalid = written.pair.isInvalid ∧
        (written.pair.isInvalid = false → bound.pair = written.pair) := by
  intro loop
  have hs : start.ctx.scopes ≠ [] := List.cons_ne_nil _ _
  have htree : start.ctx.inExpressionTree = false := rfl
  have hfree : start.forbidsLocals = false := rfl
  have henum : (start.types env).typeErrors .zero bagTy = [] := by decide +kernel
  have hty : (start.types env).typeErrors .zero slotTy = [] := by decide +kernel
  exact ⟨hs, htree, hfree, Walk.foreach_binds_lowered rfl rfl rfl hs htree hfree rfl
    (keepsApart_bag _ given) henum hty rfl 10 .zero "tmp" UInt32.ofNat⟩

end Bags

end StackEscape
