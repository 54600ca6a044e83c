import StackEscape.Body.State

/-!
# Callees

What a member reference in a body means. A local function that is visible by the referenced name is
preferred if the reference names the type of the walked member as its owner; a member of a type
parameter is searched on the types that its clause names as bounds.

## Main definitions

* `StackEscape.Target` — a local function or a declared member.
* `StackEscape.WalkState.target?` — what a reference means.
* `StackEscape.Walk.resolve` — the same with its contract, reported if there is none.
-/

set_option autoImplicit false

namespace StackEscape

/-- What a member reference can mean. -/
inductive Target where
  /-- A local function. -/
  | localFunction (decl : FnDecl)
  /-- A declared member. -/
  | member (m : Member)

/-- A callee with its contract. -/
structure Callee where
  /-- What a call may assume. -/
  contract : Contract
  /-- The declaration. -/
  decl : FnDecl
  /-- The key under which results about it are filed. -/
  key : String

namespace Surroundings

/-- The key of a local function of the walked member. -/
def localKey (env : Surroundings) (decl : FnDecl) : String := env.member.key ++ "." ++ decl.name

/-- The clause of a type parameter of the walked member or of its type. -/
def clause? (env : Surroundings) (param : String) : Option TypeParam :=
  (env.member.decl.typeParams ++ env.member.owner.typeParams).find? fun q =>
    decide (q.name = param)

/-- The member that a type parameter has by the types its clause names as bounds. -/
def boundMember? (env : Surroundings) (param name : String) : Option Member :=
  (env.clause? param).bind fun q => q.bounds.findSome? fun bound =>
    match bound with
    | .named _ _ => env.program.member? ⟨bound, name⟩
    | _ => none

end Surroundings

namespace WalkState

/-- What a reference means at this point. -/
def target? (s : WalkState) (env : Surroundings) (r : MemberRef) : Option Target :=
  let localFunction :=
    if r.owner.declName = some env.member.owner.name then s.ctx.localFunction r.name else none
  match localFunction with
  | some decl => some (.localFunction decl)
  | none =>
    match r.owner with
    | .param param => (env.boundMember? param r.name).map .member
    | _ => (env.program.member? r).map .member

/-- The type parameters in scope in a local function declared at this point. -/
def localScope (s : WalkState) (env : Surroundings) (decl : FnDecl) : GenericScope :=
  s.generics.push (env.localKey decl) decl.typeParams

/-- The contract of a local function, as it would be built at this point. -/
def localContract (s : WalkState) (env : Surroundings) (decl : FnDecl) : Contract :=
  Contract.build s.tables.caps env.program env.member.owner decl (env.localKey decl)
    (s.localScope env decl) true

end WalkState

namespace Walk

/-- The contract under a key. If there is none, the given one is filed. -/
def obtainContract (key : String) (build : WalkState → Contract) : Walk Contract :=
  fun s =>
    let (contract, contracts) := s.tables.contracts.obtain key (build s)
    (contract, { s with tables := { s.tables with contracts } })

/-- The contract of a local function. -/
def localContract (env : Surroundings) (decl : FnDecl) : Walk Contract :=
  obtainContract (env.localKey decl) fun s => s.localContract env decl

/-- The contract of a declared member. -/
def memberContract (env : Surroundings) (m : Member) : Walk Contract :=
  obtainContract m.key fun s => Contract.ofMember s.tables.caps env.program m

/-- The callee that a reference means; it is an error if there is none. -/
def resolve (env : Surroundings) (r : MemberRef) (span : Span) : Walk (Option Callee) := do
  match (← get).target? env r with
  | some (.localFunction decl) =>
    return some ⟨← localContract env decl, decl, env.localKey decl⟩
  | some (.member m) => return some ⟨← memberContract env m, m.decl, m.key⟩
  | none =>
    report (.unresolvedMember r.display) span
    return none

end Walk

end StackEscape
