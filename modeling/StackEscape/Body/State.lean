import StackEscape.Context
import StackEscape.Contract.Store
import StackEscape.EscapeError
import StackEscape.Facts
import StackEscape.Shape

/-!
# The state of a walk over a body

A body is walked once. The walk reads its surroundings, which stay fixed, and changes a state: the
names in scope, the facts and errors found, and the tables that all bodies of a program share.

## Main definitions

* `StackEscape.Surroundings` — the program, the member whose body is walked, the runtime.
* `StackEscape.Tables` — the capabilities and contracts that bodies share.
* `StackEscape.WalkState`, `Walk` — the state, and steps that change it.
* `StackEscape.Walk.report`, `record`, `declare`, `declareBinding`, `checkShape` — the basic steps.
-/

set_option autoImplicit false

namespace StackEscape

/-- What stays fixed while a body is walked. -/
structure Surroundings where
  /-- The program. -/
  program : Program
  /-- The member whose body is walked. -/
  member : Member
  /-- Can the runtime substitute stack-only types into generics? -/
  runtime : Bool

/-- What the bodies of a program share. -/
structure Tables where
  /-- The capabilities of type parameters. -/
  caps : Capabilities := .empty
  /-- The contracts of members and local functions. -/
  contracts : Contracts := .empty

/-- The state of a walk. -/
structure WalkState where
  /-- The names in scope. -/
  ctx : Context
  /-- The type parameters in scope. -/
  generics : GenericScope
  /-- The facts found. -/
  facts : Facts := .empty
  /-- The errors found, in order. -/
  errors : List EscapeError := []
  /-- What bodies share. -/
  tables : Tables

/-- A step of a walk. -/
abbrev Walk := StateM WalkState

namespace WalkState

/-- What types mean at this point. -/
def types (s : WalkState) (env : Surroundings) : TypeEnv :=
  ⟨env.program, s.tables.caps, s.generics, env.runtime⟩

/-- May locals of the current function not be stack-only? -/
def forbidsLocals (s : WalkState) : Bool :=
  match s.ctx.function with
  | some f => f.forbidsStackOnlyLocals
  | none => false

/-- The pair of `this` in the current function. -/
def thisPair (s : WalkState) : Option ScopePair := s.ctx.function.bind FunctionFrame.thisPair

end WalkState

namespace Walk

/-! ## Errors and facts -/

/-- Report errors. -/
def reportAll (errors : List EscapeError) : Walk Unit :=
  modify fun s => { s with errors := s.errors ++ errors }

/-- Report an error. -/
def report (kind : EscapeErrorKind) (span : Span) : Walk Unit := reportAll [⟨kind, span⟩]

/-- Report an error if there is one; the answer says whether there is none. -/
def passes (kind : Option EscapeErrorKind) (span : Span) : Walk Bool := do
  match kind with
  | none => return true
  | some kind => report kind span; return false

/-- Record the pair of an expression. -/
def record (id : NodeId) (pair : ScopePair) : Walk Unit :=
  modify fun s => { s with facts := s.facts.record id pair }

/-- Record how a null test is carried out. -/
def recordNullTest (id : NodeId) (test : NullTest) : Walk Unit :=
  modify fun s => { s with facts := s.facts.recordNullTest id test }

/-- Note a read through a copy of its receiver. -/
def noteCopy (span : Span) : Walk Unit :=
  modify fun s => { s with facts := s.facts.noteCopy span }

/-! ## Types -/

/-- Do the rules for stack-only types apply to a type? -/
def stackOnly (env : Surroundings) (ty : TypeRef) : Walk Bool := do
  return ((← get).types env).stackOnly ty

/-- Report errors that concern types. -/
def reportShapes (errors : List TypeError) : Walk Unit :=
  reportAll (errors.map fun e => ⟨.shape e.kind, e.span⟩)

/-- Report what is wrong with a type used in the body; the answer says whether it is well formed. -/
def checkShape (env : Surroundings) (ty : TypeRef) (span : Span) : Walk Bool := do
  let errors := ((← get).types env).typeErrors span ty
  reportShapes errors
  return errors.isEmpty

/-! ## Scopes and names -/

/-- Change the names in scope. -/
def modifyContext (f : Context → Context) : Walk Unit :=
  modify fun s => { s with ctx := f s.ctx }

/-- Declare a variable. -/
def declare (info : LocalInfo) : Walk Unit := modifyContext fun c => c.declare info

/-- Do something in a scope of its own. -/
def inScope (kind : ScopeKind) (body : Walk Unit) : Walk Unit := do
  modifyContext fun c => c.pushScope kind
  body
  modifyContext Context.popScope

/-- Do something inside of a nested function. -/
def inFunction (kind : ScopeKind) (frame : FunctionFrame) (body : Walk Unit) : Walk Unit := do
  modifyContext fun c => c.pushFunction kind frame
  body
  modifyContext Context.popScope

/-- Do something with other type parameters in scope. -/
def withGenerics (scope : GenericScope) (body : Walk Unit) : Walk Unit := do
  let outer := (← get).generics
  modify fun s => { s with generics := scope }
  body
  modify fun s => { s with generics := outer }

/-- Report a stack-only variable of a function that may be suspended; the answer says whether there
was something to report. -/
def rejectedInAsync (name : String) (ty : TypeRef) (span : Span) : Walk Bool := do
  let forbids := (← get).forbidsLocals
  if forbids then report (.asyncOrIteratorLocal name ty.display) span
  return forbids

/-- Declare the variable of a pattern, an `out var` or an iteration. -/
def declareBinding (env : Surroundings) (name : String) (ty : TypeRef) (pair : ScopePair)
    (isRef : Bool) (span : Span) : Walk Unit := do
  let stackOnly ← stackOnly env ty
  let rejected ← if stackOnly && !pair.isInvalid then rejectedInAsync name ty span else pure false
  declare
    { name, ty, stackOnly, isRef, isScoped := false, kind := .declared
      pair := if rejected then .invalid else pair }

/-- Declare a parameter of the function just entered. The types of a member's parameters are checked
with its declaration, those of nested functions here. -/
def bindParam (env : Surroundings) (checkShapes : Bool) (param : Param) (contract : ParamContract) :
    Walk Unit := do
  let wellFormed ← if checkShapes then checkShape env param.ty param.span else pure true
  let s ← get
  let pair ←
    if !wellFormed then pure .invalid
    else if contract.stackOnly && s.ctx.inExpressionTree then do
      report (.expressionTree param.ty.display) param.span
      pure .invalid
    else if contract.stackOnly && s.forbidsLocals then do
      report (.asyncOrIteratorLocal param.name param.ty.display) param.span
      pure .invalid
    else pure contract.pair
  declare
    { name := param.name, ty := param.ty, pair, stackOnly := contract.stackOnly
      isRef := param.refKind.isByRef, isScoped := param.isScoped, kind := .param }

/-- Declare the parameters of the function just entered. -/
def bindParams (env : Surroundings) (checkShapes : Bool) (params : List Param)
    (contracts : List ParamContract) : Walk Unit :=
  (params.zip contracts).forM fun (param, contract) => bindParam env checkShapes param contract

end Walk

end StackEscape
