import StackEscape.Declarations.Clause
import StackEscape.Shape

/-!
# The check of declarations

Goes over all declarations once, reports what is wrong with them, and files the capabilities of all
type parameters. Types come first, since the clauses of members may refer to them.

## Main definitions

* `StackEscape.Declarations.State` — the capabilities filed and the errors reported so far.
* `StackEscape.Declarations.enterType` — the type parameters of a type.
* `StackEscape.Declarations.checkPart` — a type part with its fields and members.
* `StackEscape.Program.checkDeclarations` — the whole pass.
* `StackEscape.Program.checkLocalTypeParams` — the type parameters of a local function.
-/

set_option autoImplicit false

namespace StackEscape

/-- A position of a member: its type part, and its place there. -/
abbrev Place := Nat × Nat

namespace Program

/-- All members of the parts of a type, with their positions. -/
def membersOf (p : Program) (name : String) : List (Place × FnDecl) :=
  (p.types.zipIdx.filter fun (t, _) => decide (t.name = name)).flatMap fun (t, i) =>
    t.members.zipIdx.map fun (m, j) => ((i, j), m)

/-- The first partial member of a name on a type. -/
def firstPartial? (p : Program) (owner name : String) : Option (Place × FnDecl) :=
  (p.membersOf owner).find? fun (_, m) => m.modifiers.isPartial && decide (m.name = name)

/-- The first part of a partial member, unless the member is that part itself. -/
def earlierPart? (p : Program) (place : Place) (m : Member) : Option FnDecl :=
  if m.decl.modifiers.isPartial then
    match p.firstPartial? m.owner.name m.decl.name with
    | some (first, decl) => if first = place then none else some decl
    | none => none
  else none

end Program

namespace Declarations

/-- How far the pass has come. -/
structure State where
  /-- The capabilities filed. -/
  caps : Capabilities
  /-- The errors reported, in order. -/
  errors : List TypeError := []
  /-- The clauses of types that were looked at, by type and type parameter. -/
  clauses : List (String × String) := []

/-- The state with some more errors. -/
def State.report (s : State) (errors : List TypeError) : State :=
  { s with errors := s.errors ++ errors }

/-! ## Types -/

/-- The parts of a type compared with its first part. -/
def typePartErrors (p : Program) (name : String) : List TypeError :=
  match p.parts name with
  | [] => []
  | first :: rest => rest.flatMap fun part => partialErrors name first.typeParams part.typeParams

/-- Enter the type parameters of a type by its first part. -/
def enterType (p : Program) (s : State) (decl : TypeDecl) : State :=
  let s := s.report (typePartErrors p decl.name ++ cycleErrors decl.typeParams)
  { s with caps := s.caps.fillOwn p decl.name decl.typeParams [] }

/-- The first parts of all types, in program order. -/
def firstParts : List String → List TypeDecl → List TypeDecl
  | _, [] => []
  | seen, t :: ts =>
    if seen.contains t.name then firstParts seen ts else t :: firstParts (t.name :: seen) ts

/-- Look at the clause of a type's parameter, unless a part before has stated one for it. -/
def checkTypeClause (runtime : Bool) (owner : String) (s : State) (q : TypeParam) : State :=
  if q.constraints.isEmpty || s.clauses.contains (owner, q.name) then s
  else { s.report (q.clauseErrors runtime) with clauses := (owner, q.name) :: s.clauses }

/-! ## Members -/

/-- What is wrong with the clauses of a member. -/
def memberClauseErrors (p : Program) (runtime : Bool) (place : Place) (m : Member) :
    List TypeError :=
  match m.decl.base with
  | some base =>
    m.decl.typeParams.filterMap (TypeParam.restatementError m.key) ++
      (if (p.member? base).isSome then []
        else [⟨.unknownBaseMember m.key base.display, m.decl.span⟩])
  | none =>
    if (p.earlierPart? place m).isSome then []
    else m.decl.typeParams.flatMap (TypeParam.clauseErrors runtime)

/-- File the capabilities of a member's type parameters. -/
def fillMember (p : Program) (caps : Capabilities) (m : Member) : Capabilities :=
  if (m.decl.base.bind p.member?).isSome then
    (List.range m.decl.typeParams.length).foldl (fun caps i => caps.fillInherited p m i) caps
  else caps.fillOwn p m.key m.decl.typeParams m.outerScope

/-- A part of a partial member compared with the first part. -/
def memberPartErrors (p : Program) (place : Place) (m : Member) : List TypeError :=
  match p.earlierPart? place m with
  | some first => partialErrors m.key first.typeParams m.decl.typeParams
  | none => []

/-- What is wrong with the types that a member is declared with. -/
def signatureErrors (p : Program) (runtime : Bool) (caps : Capabilities) (m : Member) :
    List TypeError :=
  let env : TypeEnv := ⟨p, caps, m.innerScope, runtime⟩
  m.decl.params.flatMap (fun q => env.typeErrors q.span q.ty) ++
    env.typeErrors m.decl.span m.decl.ret.ty

/-- Check a member. -/
def checkMember (p : Program) (runtime : Bool) (s : State) (place : Place) (m : Member) : State :=
  let s := s.report (memberClauseErrors p runtime place m)
  let s := { s with caps := fillMember p s.caps m }
  s.report (cycleErrors m.decl.typeParams ++ memberPartErrors p place m ++
    signatureErrors p runtime s.caps m)

/-- Check a type part: its clauses, its fields, its members. -/
def checkPart (p : Program) (runtime : Bool) (s : State) (i : Nat) (t : TypeDecl) : State :=
  let s := t.typeParams.foldl (checkTypeClause runtime t.name) s
  let env : TypeEnv := ⟨p, s.caps, .push [] t.name t.typeParams, runtime⟩
  let s := s.report (t.fields.flatMap (env.fieldErrors t))
  t.members.zipIdx.foldl (fun s (m, j) => checkMember p runtime s (i, j) ⟨t, m⟩) s

end Declarations

namespace Program

open Declarations

/-- Check all declarations, filing capabilities on top of those that are filed already. -/
def checkDeclarations (p : Program) (runtime : Bool) (caps : Capabilities) :
    Capabilities × List TypeError :=
  let s := (firstParts [] p.types).foldl (enterType p) ⟨caps, [], []⟩
  let s := p.types.zipIdx.foldl (fun s (t, i) => checkPart p runtime s i t) s
  (s.caps, s.errors)

/-- Check the type parameters of a local function and file their capabilities. -/
def checkLocalTypeParams (p : Program) (runtime : Bool) (caps : Capabilities) (owner : String)
    (params : List TypeParam) (outer : GenericScope) : Capabilities × List TypeError :=
  (caps.fillOwn p owner params outer,
    cycleErrors params ++ params.flatMap (TypeParam.clauseErrors runtime))

end Program

end StackEscape
