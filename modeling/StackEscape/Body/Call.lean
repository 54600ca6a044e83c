import StackEscape.Body.Blame
import StackEscape.Body.Resolve
import StackEscape.Mixing

/-!
# Calls

What a call yields. Its operands are checked against each other, and its result is as narrow as the
narrowest input that the callee may derive it from.

## Main definitions

* `StackEscape.Operand` — an argument, a receiver, or a temporary that the compiler makes.
* `StackEscape.Contract.derivedLevel`, `resultPair` — what the result inherits.
* `StackEscape.mixingErrors` — operands that must not be passed together.
* `StackEscape.Walk.invoke` — a call.
* `StackEscape.Walk.readProperty` — a read through a getter, with the copy that it may need.
* `StackEscape.TypeEnv.fieldPair` — a read of a field.
-/

set_option autoImplicit false

namespace StackEscape

/-- Something that flows into a call. -/
structure Operand where
  /-- The expression, if there is one. -/
  expr : Option Expr
  /-- What messages call it when there is no expression. -/
  label : String
  /-- Its pair. -/
  pair : ScopePair
  /-- May its type be stack-only? -/
  stackOnly : Bool
  /-- How it is passed. -/
  mode : RefKind
  /-- Is it a variable declared in place, without a value yet? -/
  fresh : Bool
  /-- Where it is. -/
  span : Span

namespace Operand

/-- A temporary without an expression. -/
def temporary (label : String) (pair : ScopePair) (stackOnly : Bool) (span : Span) : Operand :=
  ⟨none, label, pair, stackOnly, .none, false, span⟩

/-- The value of an expression. -/
def ofExpr (e : Expr) (pair : ScopePair) (stackOnly : Bool) (mode : RefKind) (fresh : Bool) :
    Operand :=
  ⟨some e, e.describe, pair, stackOnly, mode, fresh, e.span⟩

end Operand

/-- What a call yields. -/
structure Outcome where
  /-- The pair of its result. -/
  result : ScopePair
  /-- The narrowest level of everything that its outputs may be derived from. -/
  derived : Level
  deriving DecidableEq, Inhabited, Repr

/-- The outcome of a call that was given up. -/
def Outcome.invalid : Outcome := ⟨.invalid, .unlimited⟩

/-! ## Results -/

namespace Contract

/-- The operand of an input. -/
def operand? (receiver : Option Operand) (args : List Operand) : Input → Option Operand
  | .receiver => receiver
  | .param i => args[i]?

/-- What a source contributes: the level of its operand. A variable declared in place has no value
yet, and the value of an ordinary operand is free. -/
def sourceLevel (receiver : Option Operand) (args : List Operand) (source : ReturnSource) :
    Option Level :=
  match operand? receiver args source.input with
  | none => none
  | some op =>
    match source.via with
    | .ref => some op.pair.ref
    | .value => if !op.fresh && op.stackOnly then some op.pair.value else none

/-- The narrowest level of everything that the outputs of a call may be derived from. -/
def derivedLevel (c : Contract) (receiver : Option Operand) (args : List Operand) : Level :=
  (c.returnSources.filterMap (sourceLevel receiver args)).foldl Level.narrower .unlimited

/-- The pair of a result, given what it is derived from and whether its type may be stack-only. -/
def resultPair (c : Contract) (stackOnly : Bool) (derived : Level) : ScopePair :=
  if c.returnsByRef then ⟨if stackOnly then derived else .unlimited, derived, false⟩
  else if stackOnly then ⟨derived, .currentMethod, false⟩
  else .temporary

/-! ## Operands that are passed together -/

/-- The receiver as the mixing rule sees it. -/
def mixingReceiver (c : Contract) (op : Operand) : MixingArg :=
  ⟨"this", op.pair, .none, op.stackOnly, false, false, !c.isReadonly, op.span⟩

/-- An argument as the mixing rule sees it. -/
def mixingArg (c : Contract) (op : Operand) (i : Nat) : MixingArg :=
  { param := match c.params[i]? with
      | some q => q.name
      | none => "#" ++ toString i
    pair := op.pair
    mode := op.mode
    stackOnly := op.stackOnly
    paramScoped := match c.params[i]? with
      | some q => q.isScoped
      | none => false
    fresh := op.fresh
    writableReceiver := false
    span := op.span }

/-- All operands as the mixing rule sees them, the receiver first. -/
def mixingArgs (c : Contract) (receiver : Option Operand) (args : List Operand) :
    List MixingArg :=
  receiver.toList.map c.mixingReceiver ++ args.zipIdx.map fun (op, i) => c.mixingArg op i

end Contract

/-- The positions already reported, and the errors found. -/
structure MixingReport where
  /-- Sinks that were reported. -/
  sinks : List Nat := []
  /-- Sources that were reported. -/
  sources : List Nat := []
  /-- The errors. -/
  errors : List EscapeError := []

/-- The error for a position through which something could be stored. -/
def sinkError (callee : String) (args : List MixingArg) (span : Span) (sink : Nat) :
    List EscapeError :=
  match args[sink]? with
  | some a => [⟨.mixingViolation callee a.param, span⟩]
  | none => []

/-- The name to blame for an operand that is too narrow. -/
def Operand.blame (op : Operand) (facts : Facts) (required : Level) : String :=
  match op.expr with
  | some e => (facts.blame required false e).1
  | none => op.label

/-- The error for a position from which something could be stored through another one. -/
def sourceError (facts : Facts) (operands : List Operand) (v : Mixing.Violation) :
    List EscapeError :=
  match operands[v.source]?, operands[v.sink]? with
  | some op, some sink => [⟨.valueEscape (op.blame facts sink.pair.value), op.span⟩]
  | _, _ => []

/-- Report a violation: each sink once and each source once. -/
def MixingReport.add (callee : String) (args : List MixingArg) (operands : List Operand)
    (facts : Facts) (span : Span) (r : MixingReport) (v : Mixing.Violation) : MixingReport :=
  { sinks := if r.sinks.contains v.sink then r.sinks else v.sink :: r.sinks
    sources := if r.sources.contains v.source then r.sources else v.source :: r.sources
    errors := r.errors ++
      (if r.sinks.contains v.sink then [] else sinkError callee args span v.sink) ++
      (if r.sources.contains v.source then [] else sourceError facts operands v) }

/-- The errors of operands that must not be passed together. -/
def mixingErrors (facts : Facts) (c : Contract) (receiver : Option Operand) (args : List Operand)
    (span : Span) : List EscapeError :=
  let mixing := c.mixingArgs receiver args
  ((Mixing.violations mixing).foldl
    (MixingReport.add c.member mixing (receiver.toList ++ args) facts span) {}).errors

/-! ## Fields -/

/-- The pair of a field. Fields of heap objects and static fields escape everywhere; a field of a
struct lives in the receiver's storage, unless it is a reference, which lives as long as the
receiver's value. -/
def TypeEnv.fieldPair (env : TypeEnv) (receiver : Option (ScopePair × TypeRef)) (owner : TypeRef)
    (name : String) (ty : TypeRef) : ScopePair :=
  match receiver with
  | none => .heap
  | some (pair, receiverTy) =>
    if pair.isInvalid then .invalid
    else if env.isHeapType receiverTy then .heap
    else
      let isRef := match env.program.field? owner name with
        | some f => f.decl.isRef
        | none => false
      ⟨if env.stackOnly ty then pair.value else .unlimited,
        if isRef then pair.value else pair.ref, false⟩

namespace Walk

/-! ## Calls -/

/-- Declare the variable of an `out var` operand. -/
def bindOutVar (env : Surroundings) (derived : Level) (isInvalid : Bool) (op : Operand) :
    Walk Unit := do
  match op.fresh, op.expr with
  | true, some ⟨_, .outVar name, ty, span⟩ =>
    let pair : ScopePair :=
      if isInvalid then .invalid
      else if op.stackOnly then ⟨derived, .currentMethod, false⟩
      else .temporary
    declareBinding env name ty pair false span
  | _, _ => return ()

/-- Declare the variables of all `out var` operands. -/
def bindOutVars (env : Surroundings) (derived : Level) (isInvalid : Bool) (args : List Operand) :
    Walk Unit :=
  args.forM (bindOutVar env derived isInvalid)

/-- A call. -/
def invoke (env : Surroundings) (c : Contract) (receiver : Option Operand) (args : List Operand)
    (resultTy : TypeRef) (span : Span) : Walk Outcome := do
  if !c.valid then return .invalid
  else if (receiver.toList ++ args).any fun op => op.pair.isInvalid then
    bindOutVars env .unlimited true args
    return .invalid
  else
    let s ← get
    reportAll (mixingErrors s.facts c receiver args span)
    let derived := c.derivedLevel receiver args
    let stackOnly ← stackOnly env resultTy
    bindOutVars env derived false args
    return ⟨c.resultPair stackOnly derived, derived⟩

/-- A call of what a reference means, given up if it means nothing. -/
def invokeRef (env : Surroundings) (r : MemberRef) (receiver : Option Operand)
    (args : List Operand) (resultTy : TypeRef) (span : Span) : Walk ScopePair := do
  match ← resolve env r span with
  | some callee => return (← invoke env callee.contract receiver args resultTy span).result
  | none => return .invalid

/-- Does a read through a getter copy its receiver first? A getter that returns by value may not
derive its result from the receiver's storage. -/
def needsCopy (c : Contract) (receiver : Option Operand) (stackOnly : Bool) : Bool :=
  !c.returnsByRef && !c.isUnscoped && (receiver.any fun r => r.stackOnly) && stackOnly

/-- A read of a property or indexer. -/
def readProperty (env : Surroundings) (getter : MemberRef) (receiver : Option Operand)
    (args : List Operand) (resultTy : TypeRef) (span : Span) : Walk ScopePair := do
  match ← resolve env getter span with
  | none => return .invalid
  | some callee =>
    let pair := (← invoke env callee.contract receiver args resultTy span).result
    let stackOnly ← stackOnly env resultTy
    if !pair.isInvalid && needsCopy callee.contract receiver stackOnly then
      noteCopy span
      return pair.withValue .currentMethod
    else return pair

/-- Report what is wrong with the type arguments of a call. -/
def checkTypeArgs (env : Surroundings) (callee : Callee) (typeArgs : List TypeRef) (span : Span) :
    Walk Unit := do
  let types := (← get).types env
  reportShapes (types.allTypeErrors span typeArgs ++
    types.argErrors callee.key callee.key callee.decl.typeParams typeArgs span)

end Walk

end StackEscape
