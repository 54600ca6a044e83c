import StackEscape.Body.Call
import StackEscape.Body.Restriction
import StackEscape.Declarations.Pass

/-!
# The walk over a body

Goes over the statements of a body once, in order, computes the pair of every expression from the
pairs of its parts, and checks every place where something flows out: returns, assignments and
calls.

## Main definitions

* `StackEscape.Walk.checkExpr`, `checkPattern`, `checkStmt` — the walk.
* `StackEscape.Walk.readVariable`, `readThis`, `checkAssignment`, `checkReturned` — its rules that
  need no further walk.

## Implementation notes

The functions of the walk follow the structure of the tree. Rules that surround a part of the walk
take that part as an argument, such as `inScope` or `foreachOver`.
-/

set_option autoImplicit false

namespace StackEscape

namespace Walk

/-! ## Variables -/

/-- The pair of a primary constructor parameter. A stack-only one may be read while the object is
built, but not in other members. -/
def readPrimaryParam (env : Surroundings) (param : Param) (span : Span) : Walk ScopePair := do
  let stackOnly ← stackOnly env param.ty
  if stackOnly && decide (env.member.decl.kind ≠ .ctor) then
    report (.primaryConstructorCapture param.name param.ty.display) span
    return .invalid
  else return (ParamContract.ofParam param stackOnly).pair

/-- The pair of a variable. A nested function may not refer to stack-only variables outside of
it. -/
def readVariable (env : Surroundings) (name : String) (span : Span) : Walk ScopePair := do
  match (← get).ctx.lookup name with
  | some found =>
    if found.crossed.isSome && found.info.stackOnly then
      report (.closureCapture found.info.name found.info.ty.display) span
      return .invalid
    else return found.info.pair
  | none =>
    match env.member.owner.primaryParams.find? fun q => decide (q.name = name) with
    | some param => readPrimaryParam env param span
    | none =>
      report (.unresolvedMember name) span
      return .invalid

/-- The pair of `this`. -/
def readThis (env : Surroundings) (span : Span) : Walk ScopePair := do
  let s ← get
  match s.thisPair with
  | none => return .temporary
  | some pair =>
    if s.ctx.inNestedFunction && decide (env.member.owner.kind = .refStruct) then
      report (.closureCapture "this" env.member.owner.name) span
      return .invalid
    else return pair

/-- The levels that a local variable is fixed at by its declaration and its initial value. -/
def localPair (decl : LocalDecl) (stackOnly : Bool) (init : Option ScopePair) : ScopePair :=
  if init.any ScopePair.isInvalid then .invalid
  else
    ⟨if !stackOnly then .unlimited
      else if decl.isScoped then .currentMethod
      else (init.map ScopePair.value).getD .callingMethod,
     if decl.refKind.isByRef && !decl.isScoped then (init.map ScopePair.ref).getD .currentMethod
      else .currentMethod,
     false⟩

/-! ## Sinks -/

/-- The error of an assignment whose sides have the given pairs. -/
def assignmentError (types : TypeEnv) (facts : Facts) (target value : Expr) (byRef : Bool)
    (t v : ScopePair) : Option EscapeErrorKind :=
  if t.isInvalid || v.isInvalid then none
  else if byRef && !v.ref.allowed t.ref then
    some (.refAssignmentEscape (facts.blame t.ref true value).1 target.describe)
  else if types.stackOnly target.ty && !v.value.allowed t.value then
    some (.valueEscape (facts.blame t.value false value).1)
  else none

/-- Check an assignment whose sides have the given pairs. -/
def checkAssignment (env : Surroundings) (target value : Expr) (byRef : Bool) (t v : ScopePair) :
    Walk Unit := do
  let s ← get
  discard (passes (assignmentError (s.types env) s.facts target value byRef t v) value.span)

/-- The error of a return of a value with the given pair. -/
def returnError (facts : Facts) (frame : FunctionFrame) (value : Expr) (pair : ScopePair) :
    Option EscapeErrorKind :=
  if pair.isInvalid then none
  else if frame.returnsByRef && !pair.ref.allowed .returnOnly then
    let (name, level) := facts.blame .returnOnly true value
    some (.returnRefEscape name level)
  else if frame.returnsStackOnly && !pair.value.allowed .returnOnly then
    some (.valueEscape (facts.blame .returnOnly false value).1)
  else none

/-- Check a return of a value with the given pair. -/
def checkReturned (value : Expr) (pair : ScopePair) : Walk Unit := do
  let s ← get
  match s.ctx.function with
  | none => return ()
  | some frame => discard (passes (returnError s.facts frame value pair) value.span)

/-! ## Operands -/

/-- The operand of an expression. A variable declared in place has no value to look at. -/
def operandOf (env : Surroundings) (e : Expr) (mode : RefKind) (check : Walk ScopePair) :
    Walk Operand := do
  let fresh := match e.kind with
    | .outVar _ => true
    | _ => false
  let pair ← if fresh then do
      record e.id .confined
      pure .confined
    else check
  return .ofExpr e pair (← stackOnly env e.ty) mode fresh

/-- What becomes of a comparison; the answer says whether it is accepted. -/
def settle (id : NodeId) (span : Span) : Verdict → Walk Bool
  | .plain => return true
  | .lowered test => do recordNullTest id test; return true
  | .refused error => do report error span; return false

/-- A temporary where a check passed, and given up where it did not. -/
def temporaryIf (ok : Bool) : ScopePair := if ok then .temporary else .invalid

/-! ## Blocks and functions -/

/-- Declare the local functions of a block; they can be called anywhere in it. -/
def declareFunctions (stmts : List Stmt) : Walk Unit :=
  stmts.forM fun s => match s.kind with
    | .localFunction decl => modifyContext fun c => c.declareFunction decl
    | _ => return ()

/-- A block, given the walk over its statements. -/
def block (stmts : List Stmt) (body : Walk Unit) : Walk Unit :=
  inScope .block do
    declareFunctions stmts
    body

/-- The frame of a lambda. -/
def lambdaFrame (s : WalkState) (env : Surroundings) (fn : Lambda) : FunctionFrame :=
  { returnsByRef := false
    returnsStackOnly := (s.types env).stackOnly fn.retTy
    isAsync := fn.isAsync
    isIterator := false
    thisPair := if fn.isStatic then none else s.thisPair }

/-- A lambda, given the walk over its statements. -/
def lambdaOver (env : Surroundings) (fn : Lambda) (body : Walk Unit) : Walk Unit := do
  let s ← get
  let contracts := fn.params.map fun q =>
    ParamContract.ofParam q ((s.types env).stackOnly q.ty)
  inFunction (.lambda fn.isExpressionTree) (lambdaFrame s env fn) do
    bindParams env true fn.params contracts
    declareFunctions fn.body
    body

/-- Report what is wrong with the declaration of a local function, and file the capabilities of its
type parameters. -/
def checkLocalSignature (env : Surroundings) (decl : FnDecl) : Walk Unit := do
  reportAll (placementErrors env.member.owner decl (env.localKey decl) true)
  let s ← get
  let (caps, errors) := env.program.checkLocalTypeParams env.runtime s.tables.caps
    (env.localKey decl) decl.typeParams s.generics
  set { s with tables := { s.tables with caps } }
  reportShapes errors

/-- The frame of a local function. -/
def localFrame (s : WalkState) (decl : FnDecl) (contract : Contract) : FunctionFrame :=
  { returnsByRef := decl.ret.isByRef
    returnsStackOnly := contract.returnsStackOnly
    isAsync := decl.modifiers.isAsync
    isIterator := decl.modifiers.isIterator
    thisPair := if decl.modifiers.isStatic then none else s.thisPair }

/-- A local function, given the walk over its statements. -/
def localFunctionOver (env : Surroundings) (decl : FnDecl) (body : Walk Unit) : Walk Unit := do
  checkLocalSignature env decl
  let contract ← localContract env decl
  let s ← get
  withGenerics (s.localScope env decl) do
    inFunction .localFunction (localFrame s decl contract) do
      bindParams env true decl.params contract.params
      declareFunctions (decl.body.getD [])
      body

/-! ## Declarations and disposal -/

/-- Declare a local variable whose initial value has the given pair. -/
def declareLocal (env : Surroundings) (decl : LocalDecl) (wellFormed reportAsync : Bool)
    (init : Option ScopePair) : Walk Unit := do
  let stackOnly ← stackOnly env decl.ty
  let rejected ← if reportAsync && stackOnly then rejectedInAsync decl.name decl.ty decl.span
    else pure false
  declare
    { name := decl.name, ty := decl.ty, stackOnly, isRef := decl.refKind.isByRef
      isScoped := decl.isScoped, kind := .declared
      pair := if !wellFormed || rejected then .invalid else localPair decl stackOnly init }

/-- The disposal of something at the end of a region. -/
def disposeOf (env : Surroundings) (dispose : Option MemberRef) (op : Operand) (span : Span) :
    Walk Unit := do
  match dispose with
  | none => return ()
  | some r => inScope .disposal do discard (invokeRef env r (some op) [] .void span)

/-- Is a stack-only enumerator or resource refused here, since it would live across a suspension? -/
def refusesStackOnly (isAwait : Bool) : Walk Bool := do
  return isAwait || (← get).forbidsLocals

/-- A region with a resource, given the walk over its statements. -/
def usingOver (env : Surroundings) (region : UsingStmt) (op : Operand) (ty : TypeRef) (span : Span)
    (body : Walk Unit) : Walk Unit := do
  let refused ← refusesStackOnly region.isAwait
  if op.stackOnly && refused then
    report (.badSpecialByRefUsing ty.display) op.span
    block region.body body
  else
    block region.body body
    disposeOf env region.dispose op span

/-- The resource that was just declared. -/
def declaredResource (env : Surroundings) (decl : LocalDecl) : Walk Operand := do
  let s ← get
  let pair := match s.ctx.lookup decl.name with
    | some found => found.info.pair
    | none => .invalid
  return .temporary decl.name pair ((s.types env).stackOnly decl.ty) decl.span

/-- Declare the variable of an iteration, or match the element with its pattern by the given
walk. -/
def bindIteration (env : Surroundings) (loop : ForeachStmt)
    (matchElement : ScopePair → Walk Unit) (element : ScopePair) : Walk Unit :=
  match loop.binding with
  | .declaration name ty span => declareBinding env name ty element loop.byRef span
  | _ => matchElement element

/-- An iteration over a collection with the given pair, given the walks over its pattern and over
its statements: the enumerator is made, stepped and read, and disposed of at the end. -/
def foreachOver (env : Surroundings) (loop : ForeachStmt) (collection : ScopePair) (span : Span)
    (matchElement : ScopePair → Walk Unit) (body : Walk Unit) : Walk Unit := do
  let shape := loop.enumerator
  let stackOnlyEnumerator ← stackOnly env shape.ty
  let refused ← refusesStackOnly loop.isAwait
  inScope .block do
    if stackOnlyEnumerator && refused then
      report (.badSpecialByRefIterator shape.ty.display) loop.collection.span
      bindIteration env loop matchElement .invalid
      block loop.body body
    else
      let stackOnlyCollection ← stackOnly env loop.collection.ty
      let receiver := Operand.ofExpr loop.collection collection stackOnlyCollection .none false
      let enumerator ← invokeRef env shape.getEnumerator (some receiver) [] shape.ty span
      let op := Operand.temporary "enumerator" (enumerator.withRef .currentMethod)
        stackOnlyEnumerator span
      discard (invokeRef env shape.moveNext (some op) [] .bool span)
      let current ← readProperty env shape.current (some op) [] shape.elementTy span
      bindIteration env loop matchElement
        (if loop.byRef then current else current.withRef .currentMethod)
      block loop.body body
      disposeOf env shape.dispose op span

/-! ## Patterns -/

/-- Bind the variable of a declaration pattern. -/
def bindPattern (env : Surroundings) (name : String) (ty : TypeRef) (input : ScopePair)
    (span : Span) : Walk Unit := do
  let wellFormed ← checkShape env ty span
  let stackOnly ← stackOnly env ty
  declareBinding env name ty
    (if input.isInvalid || !wellFormed then .invalid
      else if stackOnly then input.withRef .currentMethod
      else .temporary)
    false span

/-- The pair of a member that a property pattern looks at. -/
def accessMember (env : Surroundings) (access : MemberAccess) (input : ScopePair)
    (receiverTy ty : TypeRef) (span : Span) : Walk ScopePair := do
  let types := (← get).types env
  match access with
  | .field owner name => return types.fieldPair (some (input, receiverTy)) owner name ty
  | .property getter =>
    let receiver := Operand.temporary "scrutinee" input (types.stackOnly receiverTy) span
    readProperty env getter (some receiver) [] ty span

/-- The call that takes a value apart; `none` if it was not made. -/
def deconstructInput (env : Surroundings) (deconstruct : MemberRef) (componentTys : List TypeRef)
    (input : ScopePair) (inputTy : TypeRef) (span : Span) : Walk (Option Outcome) := do
  let types := (← get).types env
  let receiver := Operand.temporary "scrutinee" input (types.stackOnly inputTy) span
  let outs := componentTys.map fun ty =>
    (⟨none, "component", .confined, types.stackOnly ty, .out, true, span⟩ : Operand)
  match ← resolve env deconstruct span with
  | none => return none
  | some callee =>
    if input.isInvalid then return none
    else return some (← invoke env callee.contract (some receiver) outs .void span)

/-- The pair of a component that was taken out. -/
def componentPair (outcome : Option Outcome) (stackOnly : Bool) : ScopePair :=
  match outcome with
  | none => .invalid
  | some o =>
    if o.result.isInvalid then .invalid
    else if stackOnly then ⟨o.derived, .currentMethod, false⟩
    else .temporary

/-! ## The walk -/

mutual

/-- An expression. Nothing stack-only may stand in an expression tree. -/
def checkExpr (env : Surroundings) : Expr → Walk ScopePair
  | ⟨id, kind, ty, span⟩ => do
    let s ← get
    if s.ctx.inExpressionTree && (s.types env).stackOnly ty then
      report (.expressionTree ty.display) span
      record id .invalid
      return .invalid
    else
      let pair ← checkForm env id ty span kind
      record id pair
      return pair

/-- An expression by its form. -/
def checkForm (env : Surroundings) (id : NodeId) (ty : TypeRef) (span : Span) :
    ExprKind → Walk ScopePair
  | .literal _ => return .temporary
  | .var name => readVariable env name span
  | .thisRef => readThis env span
  | .field receiver owner name => do
    let receiver ← checkOptional env receiver
    return ((← get).types env).fieldPair receiver owner name ty
  | .property receiver getter args => do
    let receiver ← checkReceiver env receiver
    let args ← checkArgs env args
    readProperty env getter receiver args ty span
  | .call receiver method typeArgs args => do
    let receiver ← checkReceiver env receiver
    let args ← checkArgs env args
    match ← resolve env method span with
    | none => return .invalid
    | some callee =>
      checkTypeArgs env callee typeArgs span
      return (← invoke env callee.contract receiver args ty span).result
  | .create ctor args => do
    let wellFormed ← checkShape env ty span
    let args ← checkArgs env args
    if !wellFormed then return .invalid
    else match ctor with
      | some ctor => invokeRef env ctor none args ty span
      | none => return .temporary
  | .stackAlloc _ len => do
    discard (checkExpr env len)
    return if ← stackOnly env ty then .confined else .temporary
  | .conditional cond thenExpr elseExpr byRef => do
    discard (checkExpr env cond)
    let a ← checkExpr env thenExpr
    let b ← checkExpr env elseExpr
    let both := a.narrower b
    let stackOnly ← stackOnly env ty
    return ⟨if stackOnly then both.value else .unlimited,
      if byRef then both.ref else .currentMethod, both.isInvalid⟩
  | .convert operand _ => do
    let inner ← checkExpr env operand
    let wellFormed ← checkShape env ty span
    if !wellFormed then return .invalid
    else
      let types := (← get).types env
      if ← passes (types.conversionError operand.ty ty) span then
        return if types.stackOnly ty then inner.withRef .currentMethod else .temporary
      else return .invalid
  | .binary op left right => do
    let l ← checkExpr env left
    let r ← checkExpr env right
    if l.isInvalid || r.isInvalid then return .invalid
    else
      let types := (← get).types env
      return temporaryIf (← settle id span (types.binaryVerdict op left right))
  | .test operand pattern => do
    let input ← checkExpr env operand
    let types := (← get).types env
    if ← settle id span (types.testVerdict operand.ty pattern) then
      checkPattern env input operand.ty span pattern
      return .temporary
    else return .invalid
  | .lambda fn => do
    checkLambda env fn
    return .temporary
  | .arrayNew _ elems => do
    let wellFormed ← checkShape env ty span
    checkAll env elems
    return temporaryIf wellFormed
  | .anonymous members => return temporaryIf (← checkMembers env members)
  | .await operand => do
    discard (checkExpr env operand)
    return .temporary
  | .dynamicInvoke receiver _ args => do
    discard (checkExpr env receiver)
    checkValues env args
    let errors := ((← get).types env).dynamicErrors (receiver :: args.map Arg.expr)
    reportAll errors
    return temporaryIf errors.isEmpty
  | .outVar _ => return .confined

/-- A receiver of a field, with its type. -/
def checkOptional (env : Surroundings) : Option Expr → Walk (Option (ScopePair × TypeRef))
  | none => return none
  | some e => return some (← checkExpr env e, e.ty)

/-- A receiver of a call. -/
def checkReceiver (env : Surroundings) : Option Expr → Walk (Option Operand)
  | none => return none
  | some e => return some (← operandOf env e .none (checkExpr env e))

/-- The arguments of a call. -/
def checkArgs (env : Surroundings) : List Arg → Walk (List Operand)
  | [] => return []
  | ⟨mode, e⟩ :: rest => do
    let op ← operandOf env e mode (checkExpr env e)
    return op :: (← checkArgs env rest)

/-- Arguments of which only the values matter. -/
def checkValues (env : Surroundings) : List Arg → Walk Unit
  | [] => return ()
  | ⟨_, e⟩ :: rest => do
    discard (checkExpr env e)
    checkValues env rest

/-- The elements of an array. -/
def checkAll (env : Surroundings) : List Expr → Walk Unit
  | [] => return ()
  | e :: rest => do
    discard (checkExpr env e)
    checkAll env rest

/-- The members of an anonymous object; the answer says whether none of them is stack-only. -/
def checkMembers (env : Surroundings) : List NamedExpr → Walk Bool
  | [] => return true
  | ⟨name, e⟩ :: rest => do
    let pair ← checkExpr env e
    let stackOnly ← stackOnly env e.ty
    let ok ← passes
      (if !pair.isInvalid && stackOnly then some (.anonymousTypeMember name e.ty.display)
        else none) e.span
    let restOk ← checkMembers env rest
    return ok && restOk

/-- A lambda. -/
def checkLambda (env : Surroundings) : Lambda → Walk Unit
  | ⟨params, retTy, body, isExpressionTree, isStatic, isAsync⟩ =>
    lambdaOver env ⟨params, retTy, body, isExpressionTree, isStatic, isAsync⟩
      (checkStmts env body)

/-- A pattern, matched with an input of the given pair and type. Every variable gets the level of
the access that takes its value out. -/
def checkPattern (env : Surroundings) (input : ScopePair) (inputTy : TypeRef) (span : Span) :
    Pattern → Walk Unit
  | .discard => return ()
  | .typeTest _ => return ()
  | .declaration name ty span => bindPattern env name ty input span
  | .constant e => discard (checkExpr env e)
  | .property ty subpatterns => checkSubPatterns env input (ty.getD inputTy) subpatterns
  | .positional deconstruct subpatterns componentTys => do
    let outcome ← deconstructInput env deconstruct componentTys input inputTy span
    checkComponents env outcome span subpatterns componentTys
  | .negated inner => checkPattern env input inputTy span inner

/-- The entries of a property pattern. -/
def checkSubPatterns (env : Surroundings) (input : ScopePair) (receiverTy : TypeRef) :
    List SubPattern → Walk Unit
  | [] => return ()
  | ⟨access, ty, pattern, span⟩ :: rest => do
    let extracted ← accessMember env access input receiverTy ty span
    checkPattern env extracted ty span pattern
    checkSubPatterns env input receiverTy rest

/-- The parts of a positional pattern, as far as there are component types. -/
def checkComponents (env : Surroundings) (outcome : Option Outcome) (span : Span) :
    List Pattern → List TypeRef → Walk Unit
  | pattern :: rest, ty :: tys => do
    let stackOnly ← stackOnly env ty
    checkPattern env (componentPair outcome stackOnly) ty span pattern
    checkComponents env outcome span rest tys
  | _, _ => return ()

/-- A local variable. -/
def checkLocal (env : Surroundings) (reportAsync : Bool) : LocalDecl → Walk Unit
  | ⟨name, ty, refKind, isScoped, init, span⟩ => do
    let wellFormed ← checkShape env ty span
    let pair ← checkInit env init
    declareLocal env ⟨name, ty, refKind, isScoped, init, span⟩ wellFormed reportAsync pair

/-- An initial value. -/
def checkInit (env : Surroundings) : Option Expr → Walk (Option ScopePair)
  | none => return none
  | some e => return some (← checkExpr env e)

/-- Statements, one after the other. -/
def checkStmts (env : Surroundings) : List Stmt → Walk Unit
  | [] => return ()
  | s :: rest => do
    checkStmt env s
    checkStmts env rest

/-- A statement. -/
def checkStmt (env : Surroundings) : Stmt → Walk Unit
  | ⟨_, .expr e, _⟩ => discard (checkExpr env e)
  | ⟨_, .yieldReturn e, _⟩ => discard (checkExpr env e)
  | ⟨_, .declare decl, _⟩ => checkLocal env true decl
  | ⟨_, .assign ⟨_, .property receiver getter args, _, _⟩ value false, span⟩ => do
    -- An assignment to a property is a call of its setter, with the value as the last argument.
    let receiver ← checkReceiver env receiver
    let args ← checkArgs env args
    let value ← operandOf env value .none (checkExpr env value)
    let setter : MemberRef := ⟨getter.owner, "set_" ++ propertyName getter.name⟩
    discard (invokeRef env setter receiver (args ++ [value]) .void span)
  | ⟨_, .assign target value byRef, _⟩ => do
    let t ← checkExpr env target
    let v ← checkExpr env value
    checkAssignment env target value byRef t v
  | ⟨_, .ret none, _⟩ => return ()
  | ⟨_, .ret (some value), _⟩ => do
    let pair ← checkExpr env value
    checkReturned value pair
  | ⟨_, .block body, _⟩ => block body (checkStmts env body)
  | ⟨_, .ifElse cond thenBranch elseBranch, _⟩ => do
    discard (checkExpr env cond)
    block thenBranch (checkStmts env thenBranch)
    checkElse env elseBranch
  | ⟨_, .whileLoop cond body, _⟩ => do
    discard (checkExpr env cond)
    block body (checkStmts env body)
  | ⟨_, .foreach loop, span⟩ => checkForeach env span loop
  | ⟨_, .using region, span⟩ => checkUsing env span region
  | ⟨_, .localFunction decl, _⟩ => checkLocalFunction env decl

/-- The second branch of a conditional statement. -/
def checkElse (env : Surroundings) : Option (List Stmt) → Walk Unit
  | none => return ()
  | some body => block body (checkStmts env body)

/-- An iteration. -/
def checkForeach (env : Surroundings) (span : Span) : ForeachStmt → Walk Unit
  | ⟨binding, byRef, collection, enumerator, isAwait, body⟩ => do
    let pair ← checkExpr env collection
    foreachOver env ⟨binding, byRef, collection, enumerator, isAwait, body⟩ pair span
      (fun element => checkPattern env element enumerator.elementTy span binding)
      (checkStmts env body)

/-- A region with a resource. -/
def checkUsing (env : Surroundings) (span : Span) : UsingStmt → Walk Unit
  | ⟨.expr e, dispose, isAwait, body⟩ =>
    inScope .block do
      let pair ← checkExpr env e
      let stackOnly ← stackOnly env e.ty
      usingOver env ⟨.expr e, dispose, isAwait, body⟩ (.ofExpr e pair stackOnly .none false) e.ty
        span (checkStmts env body)
  | ⟨.declare decl, dispose, isAwait, body⟩ =>
    inScope .block do
      let stackOnly ← stackOnly env decl.ty
      checkLocal env (!stackOnly) decl
      let op ← declaredResource env decl
      usingOver env ⟨.declare decl, dispose, isAwait, body⟩ op decl.ty span (checkStmts env body)

/-- A local function. -/
def checkLocalFunction (env : Surroundings) : FnDecl → Walk Unit
  | ⟨id, name, kind, modifiers, typeParams, params, ret, attrs, explicitImpl, overrides, body,
      span⟩ =>
    localFunctionOver env
      ⟨id, name, kind, modifiers, typeParams, params, ret, attrs, explicitImpl, overrides, body,
        span⟩
      (checkBody env body)

/-- The statements of a function, if it has any. -/
def checkBody (env : Surroundings) : Option (List Stmt) → Walk Unit
  | none => return ()
  | some body => checkStmts env body

end

end Walk

end StackEscape
