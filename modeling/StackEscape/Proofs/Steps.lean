import StackEscape.Proofs.Retyping

/-!
# Steps of the walk

The walk over an expression or statement goes over its parts and then does something that needs no
further walk over the tree: it compares, converts, calls, disposes. Here each of these last steps has
a name, and the walks are written as the walks over their parts followed by such a step.

## Main definitions

* `StackEscape.Walk.readField`, `construct`, `compare`, `settleTest`, `checkNamed`, `invokeLate` — the
  steps of expressions.
* `StackEscape.Walk.enterRegion`, `leaveRegion`, `enterLoop`, `leaveLoop` — how regions and iterations
  begin and end.

## Main results

* `StackEscape.Walk.usingOver_eq`, `foreachOver_eq` — regions and iterations by their steps.
* `StackEscape.Covers.enterLoop` and the others — no step gives anything up without an error.
-/

set_option autoImplicit false

namespace StackEscape

namespace Walk

variable (env : Surroundings)

/-! ## Expressions -/

/-- A read of a field, once its receiver is known. -/
def readField (receiver : Option (ScopePair × TypeRef)) (owner : TypeRef) (name : String)
    (ty : TypeRef) : Walk ScopePair := do
  return ((← get).types env).fieldPair receiver owner name ty

/-- A call of a method, once its operands are known. -/
def callMethod (method : MemberRef) (typeArgs : List TypeRef) (receiver : Option Operand)
    (args : List Operand) (ty : TypeRef) (span : Span) : Walk ScopePair := do
  match ← resolve env method span with
  | none => return .invalid
  | some callee =>
    checkTypeArgs env callee typeArgs span
    return (← invoke env callee.contract receiver args ty span).result

/-- A new object, once its arguments are known. -/
def construct (ctor : Option MemberRef) (args : List Operand) (ty : TypeRef) (span : Span)
    (wellFormed : Bool) : Walk ScopePair :=
  if !wellFormed then return .invalid
  else match ctor with
    | some ctor => invokeRef env ctor none args ty span
    | none => return .temporary

/-- A binary operation, once the pairs of its operands are known. -/
def compare (id : NodeId) (span : Span) (op : BinOp) (left right : Expr) (l r : ScopePair) :
    Walk ScopePair := do
  if l.isInvalid || r.isInvalid then return .invalid
  else
    let types := (← get).types env
    return temporaryIf (← settle id span (types.binaryVerdict op left right))

/-- The check of a pattern test; the answer says whether it is accepted. -/
def settleTest (id : NodeId) (span : Span) (subject : TypeRef) (pattern : Pattern) :
    Walk Bool := do
  let types := (← get).types env
  settle id span (types.testVerdict subject pattern)

/-- The check of a member of an anonymous object, once its pair is known. -/
def checkNamed (name : String) (e : Expr) (pair : ScopePair) : Walk Bool := do
  let stackOnly ← stackOnly env e.ty
  passes (if !pair.isInvalid && stackOnly then some (.anonymousTypeMember name e.ty.display)
    else none) e.span

/-- A late-bound operation on some operands. -/
def invokeLate (operands : List Expr) : Walk ScopePair := do
  let errors := ((← get).types env).dynamicErrors operands
  reportAll errors
  return temporaryIf errors.isEmpty

theorem checkForm_field (id : NodeId) (ty : TypeRef) (span : Span) (receiver : Option Expr)
    (owner : TypeRef) (name : String) :
    checkForm env id ty span (.field receiver owner name) =
      checkOptional env receiver >>= fun r => readField env r owner name ty := by
  rw [checkForm]
  rfl

theorem checkForm_call (id : NodeId) (ty : TypeRef) (span : Span) (receiver : Option Expr)
    (method : MemberRef) (typeArgs : List TypeRef) (args : List Arg) :
    checkForm env id ty span (.call receiver method typeArgs args) =
      checkReceiver env receiver >>= fun op => checkArgs env args >>= fun ops =>
        callMethod env method typeArgs op ops ty span := by
  rw [checkForm]
  rfl

theorem checkForm_create (id : NodeId) (ty : TypeRef) (span : Span) (ctor : Option MemberRef)
    (args : List Arg) :
    checkForm env id ty span (.create ctor args) =
      checkShape env ty span >>= fun wellFormed => checkArgs env args >>= fun ops =>
        construct env ctor ops ty span wellFormed := by
  rw [checkForm]
  rfl

theorem checkForm_binary (id : NodeId) (ty : TypeRef) (span : Span) (op : BinOp)
    (left right : Expr) :
    checkForm env id ty span (.binary op left right) =
      checkExpr env left >>= fun l => checkExpr env right >>= fun r =>
        compare env id span op left right l r := by
  rw [checkForm]
  rfl

theorem checkForm_test (id : NodeId) (ty : TypeRef) (span : Span) (operand : Expr)
    (pattern : Pattern) :
    checkForm env id ty span (.test operand pattern) =
      checkExpr env operand >>= fun input => settleTest env id span operand.ty pattern >>= fun ok =>
        if ok then checkPattern env input operand.ty span pattern >>= fun _ => pure .temporary
        else pure .invalid := by
  rw [checkForm]
  rfl

theorem checkForm_dynamicInvoke (id : NodeId) (ty : TypeRef) (span : Span) (receiver : Expr)
    (name : String) (args : List Arg) :
    checkForm env id ty span (.dynamicInvoke receiver name args) =
      discard (checkExpr env receiver) >>= fun _ => checkValues env args >>= fun _ =>
        invokeLate env (receiver :: args.map Arg.expr) := by
  rw [checkForm]
  rfl

theorem checkMembers_cons (name : String) (e : Expr) (rest : List NamedExpr) :
    checkMembers env (⟨name, e⟩ :: rest) =
      checkExpr env e >>= fun pair => checkNamed env name e pair >>= fun ok =>
        checkMembers env rest >>= fun restOk => pure (ok && restOk) := by
  rw [checkMembers]
  rfl

/-! ## Regions and iterations -/

/-- The beginning of a region; the answer says whether its resource is refused. -/
def enterRegion (isAwait : Bool) (op : Operand) (ty : TypeRef) : Walk Bool := do
  let refused ← refusesStackOnly isAwait
  if op.stackOnly && refused then
    report (.badSpecialByRefUsing ty.display) op.span
    return true
  else return false

/-- The end of a region. -/
def leaveRegion (region : UsingStmt) (op : Operand) (span : Span) (refused : Bool) : Walk Unit :=
  if refused then return () else disposeOf env region.dispose op span

/-- A region is entered, walked over and left. -/
theorem usingOver_eq (region : UsingStmt) (op : Operand) (ty : TypeRef) (span : Span)
    (body : Walk Unit) :
    usingOver env region op ty span body = enterRegion region.isAwait op ty >>= fun refused =>
      block region.body body >>= fun _ => leaveRegion env region op span refused := by
  unfold usingOver enterRegion leaveRegion
  rw [bind_assoc]
  refine congrArg (refusesStackOnly region.isAwait >>= ·) (funext fun refused => ?_)
  split <;> rfl

/-- The beginning of an iteration: its enumerator is made, stepped and read. The answer is the pair of
the element with the enumerator to dispose of. -/
def enterLoop (loop : ForeachStmt) (collection : ScopePair) (span : Span)
    (stackOnlyEnumerator refused : Bool) : Walk (ScopePair × Option Operand) := do
  let shape := loop.enumerator
  if stackOnlyEnumerator && refused then
    report (.badSpecialByRefIterator shape.ty.display) loop.collection.span
    return (.invalid, none)
  else
    let stackOnlyCollection ← stackOnly env loop.collection.ty
    let receiver := Operand.ofExpr loop.collection collection stackOnlyCollection .none false
    let enumerator ← invokeRef env shape.getEnumerator (some receiver) [] shape.ty span
    let op := Operand.temporary "enumerator" (enumerator.withRef .currentMethod)
      stackOnlyEnumerator span
    discard (invokeRef env shape.moveNext (some op) [] .bool span)
    let current ← readProperty env shape.current (some op) [] shape.elementTy span
    return (if loop.byRef then current else current.withRef .currentMethod, some op)

/-- The end of an iteration. -/
def leaveLoop (loop : ForeachStmt) (span : Span) : Option Operand → Walk Unit
  | none => return ()
  | some op => disposeOf env loop.enumerator.dispose op span

/-- An iteration is entered, its variables are bound, its statements walked over, and it is left. -/
theorem foreachOver_eq (loop : ForeachStmt) (collection : ScopePair) (span : Span)
    (matchElement : ScopePair → Walk Unit) (body : Walk Unit) :
    foreachOver env loop collection span matchElement body =
      stackOnly env loop.enumerator.ty >>= fun stackOnlyEnumerator =>
      refusesStackOnly loop.isAwait >>= fun refused =>
      inScope .block (enterLoop env loop collection span stackOnlyEnumerator refused >>= fun x =>
        bindIteration env loop matchElement x.1 >>= fun _ => block loop.body body >>= fun _ =>
          leaveLoop env loop span x.2) := by
  unfold foreachOver enterLoop
  refine congrArg (stackOnly env loop.enumerator.ty >>= ·) (funext fun stackOnlyEnumerator => ?_)
  refine congrArg (refusesStackOnly loop.isAwait >>= ·) (funext fun refused => ?_)
  refine congrArg (inScope .block) ?_
  split <;> rfl

end Walk

/-! ## What the steps cover -/

namespace Covers

variable {I : Inspection} {a : Point} {pre : Prop}

theorem readField {receiver : Option (ScopePair × TypeRef)} (owner : TypeRef) (name : String)
    (ty : TypeRef) (hv : pre → ∀ r, receiver = some r → r.1.isInvalid = false) :
    Covers I a pre [] (fun pair => pair.isInvalid = false)
      (Walk.readField I.env receiver owner name ty) :=
  look (fun hk s t h => by rw [h.fieldPair_eq hk]) fun _ _ => .pure fun h =>
    fieldPair_isInvalid _ _ _ _ (hv h.1)

theorem callMethod (method : MemberRef) (typeArgs : List TypeRef) {receiver : Option Operand}
    {args : List Operand} (ty : TypeRef) (span : Span)
    (hv : pre → ∀ op ∈ receiver.toList ++ args, op.pair.isInvalid = false) :
    Covers I a pre [] (fun pair => pair.isInvalid = false)
      (Walk.callMethod I.env method typeArgs receiver args ty span) := by
  refine resolving (fun callee ho => ?_) (.pure False.elim)
  refine (checkTypeArgs ho typeArgs span).bind fun _ => ?_
  exact (invoke ty span fun h => ⟨h.1.2.1, hv h.1.1⟩).bind fun o => .pure fun h => h.2.1

theorem construct (ctor : Option MemberRef) {args : List Operand} (ty : TypeRef) (span : Span)
    {wellFormed : Bool} (hw : pre → wellFormed = true)
    (hv : pre → ∀ op ∈ args, op.pair.isInvalid = false) :
    Covers I a pre [] (fun pair => pair.isInvalid = false)
      (Walk.construct I.env ctor args ty span wellFormed) := by
  refine ite (fun h => .pure fun hpre => ?_) fun _ => ?_
  · rw [hw hpre] at h
    exact absurd h (by decide)
  · cases ctor with
    | none => exact .pure fun _ => rfl
    | some ctor => exact (invokeRef ty span fun h => hv h).weaken fun _ _ hq => hq.1

theorem convertTo (source target : TypeRef) (span : Span) {inner : ScopePair}
    (hv : pre → inner.isInvalid = false) :
    Covers I a pre [] (fun pair => pair.isInvalid = false)
      (Walk.convertTo I.env source target span inner) := by
  refine (checkShape target span).bind fun w => ite (fun hw => ?_) fun _ => ?_
  · exact .pure fun h => by simp [h.2] at hw
  · refine look (fun hk s t h => by
      simp only [TypeEnv.conversionError_congr (h.capability_eq hk), h.stackOnly_eq hk])
      fun s _ => ?_
    refine (passes _ _).bind fun ok => ite (fun _ => .pure fun h => ?_) fun hok => ?_
    · split
      · exact hv h.1.1.1
      · rfl
    · exact .pure fun h => absurd h.2.1 hok

theorem compare (id : NodeId) (span : Span) (op : BinOp) (left right : Expr) {l r : ScopePair}
    (hv : pre → l.isInvalid = false ∧ r.isInvalid = false) :
    Covers I a pre [] (fun pair => pair.isInvalid = false)
      (Walk.compare I.env id span op left right l r) := by
  refine ite (fun hor => .pure fun h => ?_) fun _ => ?_
  · simp [hv h] at hor
  · refine look (fun hk s t h => by
      simp only [TypeEnv.binaryVerdict_congr (h.capability_eq hk)]) fun s _ => ?_
    refine (settle _ _ _).bind fun ok => .pure fun h => ?_
    rw [h.2]
    rfl

theorem settleTest (id : NodeId) (span : Span) (subject : TypeRef) (pattern : Pattern) :
    Covers I a pre [] (fun ok => ok = true) (Walk.settleTest I.env id span subject pattern) :=
  look (fun hk s t h => by
    simp only [TypeEnv.testVerdict_congr (h.capability_eq hk)]) fun _ _ => settle _ _ _

theorem checkNamed (name : String) (e : Expr) (pair : ScopePair) :
    Covers I a pre [] (fun ok => ok = true) (Walk.checkNamed I.env name e pair) :=
  (stackOnly e.ty).bind fun _ => (passes _ _).weaken fun _ _ h => h.1

theorem invokeLate (operands : List Expr) :
    Covers I a pre [] (fun pair => pair.isInvalid = false) (Walk.invokeLate I.env operands) := by
  refine look (fun hk s t h => by
    simp only [TypeEnv.dynamicErrors, h.stackOnly_eq hk]) fun s _ => ?_
  refine (reportAll _).bind fun _ => .pure fun h => ?_
  rw [h.2]
  rfl

/-- A region is refused only with an error. -/
theorem enterRegion (isAwait : Bool) (op : Operand) (ty : TypeRef) :
    Covers I a pre [] (fun refused => refused = false) (Walk.enterRegion isAwait op ty) := by
  refine (refusesStackOnly _).bind fun _ => ite (fun _ => ?_) fun _ => .pure fun _ => rfl
  exact (report _ _).bind fun _ => .pure fun h => h.2.elim

theorem leaveRegion (region : UsingStmt) {op : Operand} (span : Span) (refused : Bool)
    (hv : pre → op.pair.isInvalid = false) :
    Covers I a pre [] (fun _ => True) (Walk.leaveRegion I.env region op span refused) :=
  ite (fun _ => .pure fun _ => trivial) fun _ => disposeOf _ _ hv

/-- The element of an iteration, and its enumerator, are given up only with an error. -/
theorem enterLoop (loop : ForeachStmt) {collection : ScopePair} (span : Span)
    (stackOnlyEnumerator refused : Bool) (hv : pre → collection.isInvalid = false) :
    Covers I a pre [] (fun x => x.1.isInvalid = false ∧ ∀ op ∈ x.2, op.pair.isInvalid = false)
      (Walk.enterLoop I.env loop collection span stackOnlyEnumerator refused) := by
  refine ite (fun _ => (report _ _).bind fun _ => .pure fun h => h.2.elim) fun _ => ?_
  refine (stackOnly _).bind fun soc =>
    (invokeRef _ _ fun h => receiver_isInvalid (hv h.1)).bind fun e =>
      (invokeRef _ _ fun h => receiver_isInvalid h.2.1).discard.bind fun _ =>
        (readProperty _ _ fun h => receiver_isInvalid h.1.2.1).bind fun current => .pure fun h => ?_
  refine ⟨?_, fun op hop => ?_⟩
  · split
    · exact h.2.1
    · exact h.2.1
  · obtain rfl := Option.mem_some_iff.1 hop
    exact h.1.1.2.1

theorem leaveLoop (loop : ForeachStmt) (span : Span) {enumerator : Option Operand}
    (hv : pre → ∀ op ∈ enumerator, op.pair.isInvalid = false) :
    Covers I a pre [] (fun _ => True) (Walk.leaveLoop I.env loop span enumerator) := by
  cases enumerator with
  | none => exact .pure fun _ => trivial
  | some op => exact disposeOf _ _ fun h => hv h op rfl

theorem declaredResource (decl : LocalDecl) :
    Covers I a pre [] (fun _ => True) (Walk.declaredResource I.env decl) :=
  look (fun hk s t h => by simp only [h.ctx, h.stackOnly_eq hk]) fun _ _ => .pure fun _ => trivial

end Covers

end StackEscape
