import StackEscape.Body.Walk
import StackEscape.Options

/-!
# Analysis of programs

A run over a program: declarations, then contracts, then the bodies of all members in program order.

## Main definitions

* `StackEscape.BodyResult` — the errors and facts of some bodies.
* `StackEscape.Program.checkMember`, `checkMembers` — the walk over a body, and over several.
* `StackEscape.Analysis` — what a run yields, and `StackEscape.Program.analyze` — a run.
-/

set_option autoImplicit false

namespace StackEscape

/-- The errors and facts of some bodies. -/
structure BodyResult where
  /-- The errors, in order. -/
  errors : List EscapeError := []
  /-- The facts. -/
  facts : Facts := .empty

namespace BodyResult

/-- Are there no errors? -/
def isOk (r : BodyResult) : Bool := r.errors.isEmpty

/-- The results of two bodies. -/
def merge (a b : BodyResult) : BodyResult := ⟨a.errors ++ b.errors, a.facts.extend b.facts⟩

end BodyResult

/-! ## Bodies -/

/-- The frame of a member. -/
def Member.frame (m : Member) (contract : Contract) : FunctionFrame :=
  { returnsByRef := m.decl.ret.isByRef
    returnsStackOnly := contract.returnsStackOnly
    isAsync := m.decl.modifiers.isAsync
    isIterator := m.decl.modifiers.isIterator
    thisPair := contract.receiver.map ParamContract.pair }

/-- The walk over the body of a member, once its contract is known. -/
def Walk.member (env : Surroundings) (contract : Contract) (body : List Stmt) : Walk Unit := do
  bindParams env false env.member.decl.params contract.params
  declareFunctions body
  checkStmts env body

namespace Program

/-- The state after the walk over the body of a member. -/
def walkMember (p : Program) (runtime : Bool) (tables : Tables) (m : Member) (body : List Stmt) :
    WalkState :=
  let (contract, contracts) := tables.contracts.ofMember tables.caps p m
  let start : WalkState :=
    { ctx := .ofFrame (m.frame contract)
      generics := m.innerScope
      tables := { tables with contracts } }
  ((Walk.member ⟨p, m, runtime⟩ contract body).run start).2

/-- What the walk over the body of a member yields. Without a body there is nothing to do. -/
def checkMember (p : Program) (runtime : Bool) (tables : Tables) (m : Member) :
    BodyResult × Tables :=
  match m.decl.body with
  | none => ({}, tables)
  | some body =>
    let s := p.walkMember runtime tables m body
    (⟨s.errors, s.facts⟩, s.tables)

/-- What the walks over the bodies of some members yield, one after the other. -/
def checkMembers (p : Program) (runtime : Bool) (tables : Tables) (members : List Member) :
    BodyResult × Tables :=
  members.foldl (fun (result, tables) m =>
    let (next, tables) := p.checkMember runtime tables m
    (result.merge next, tables)) ({}, tables)

end Program

/-! ## Runs -/

/-- What a run yields. -/
structure Analysis where
  /-- What is wrong with declarations. -/
  declarationErrors : List TypeError
  /-- What is wrong with contracts, and then with bodies. -/
  escapeErrors : List EscapeError
  /-- The facts of all bodies that were walked. -/
  facts : Facts
  /-- The keys of members whose bodies were skipped. -/
  skipped : List String
  /-- The tables at the end. -/
  tables : Tables

namespace Analysis

/-- Are there no errors? -/
def isOk (a : Analysis) : Bool := a.declarationErrors.isEmpty && a.escapeErrors.isEmpty

/-- The number of errors. -/
def errorCount (a : Analysis) : Nat := a.declarationErrors.length + a.escapeErrors.length

/-- The families of all errors, those of declarations first. -/
def classes (a : Analysis) : List ErrorClass :=
  a.declarationErrors.map TypeError.errorClass ++ a.escapeErrors.map EscapeError.errorClass

end Analysis

namespace Program

/-- Does an error of a declaration or contract point into the member? -/
def isMalformed (declarationErrors : List TypeError) (contractErrors : List EscapeError)
    (m : Member) : Bool :=
  let inside (family : ErrorClass) (span : Span) : Bool :=
    decide (family = .declarationContract) && m.decl.span.contains span
  declarationErrors.any (fun e => inside e.errorClass e.span) ||
    contractErrors.any (fun e => inside e.errorClass e.span)

/-- The members that have a body. -/
def bodies (p : Program) : List Member := p.members.filter fun m => m.decl.body.isSome

/-- A run over a program. -/
def analyze (p : Program) (options : Options) : Analysis :=
  let (caps, declarationErrors) := p.checkDeclarations options.runtimeSupport .empty
  let contractErrors := p.contractErrors
  let skips (m : Member) : Bool :=
    options.stopOnDeclarationErrors && isMalformed declarationErrors contractErrors m
  let (result, tables) := p.checkMembers options.runtimeSupport ⟨caps, .empty⟩
    (p.bodies.filter fun m => !skips m)
  { declarationErrors
    escapeErrors := contractErrors ++ result.errors
    facts := result.facts
    skipped := (p.bodies.filter skips).map Member.key
    tables }

end Program

end StackEscape
