import StackEscape.Capability.Basic

/-!
# Capabilities of type parameters

What a constraint clause says of its type parameter. Whether a stack-only type may be substituted is
said by the clause alone; whether the parameter is a value or a reference type is also known if a
type parameter that it is bounded by is one, however indirectly. Members that override or explicitly
implement another one take over the capabilities of the member at the root of that chain.

## Main definitions

* `StackEscape.Clause` — a type parameter among its siblings, with what encloses them.
* `StackEscape.Clause.capability` — the capability that the clause gives its parameter.
* `StackEscape.Capabilities.fillOwn` — file the capabilities of a declaration's own clauses.
* `StackEscape.Program.inherited`, `Capabilities.fillInherited` — take over what the root says.
-/

set_option autoImplicit false

namespace StackEscape

/-- The names of the type parameters that a clause names as bounds. -/
def TypeParam.boundParams (p : TypeParam) : List String :=
  p.bounds.filterMap fun ty => match ty with
    | .param name => some name
    | _ => none

/-- The names of the declarations that a clause names as bounds. -/
def TypeParam.boundDecls (p : TypeParam) : List String := p.bounds.filterMap TypeRef.declName

/-! ## Clauses -/

/-- Where a clause stands: its declaration's type parameters, and what is visible around it. -/
structure Clause where
  /-- The program. -/
  program : Program
  /-- The capabilities that are known already. -/
  caps : Capabilities
  /-- All type parameters of the declaration. -/
  siblings : List TypeParam
  /-- The type parameters around the declaration. -/
  outer : GenericScope

namespace Clause

/-- The first type parameter of the declaration that has a name. -/
def sibling? (c : Clause) (name : String) : Option TypeParam :=
  c.siblings.find? fun q => decide (q.name = name)

/-- The enclosing type parameters that a clause names as bounds. -/
def outerBounds (c : Clause) (q : TypeParam) : List Capability :=
  (q.boundParams.filter fun name => (c.sibling? name).isNone).map (c.caps.ofParam c.outer)

/-- Does the clause say by itself that its parameter is a value type? -/
def saysValue (c : Clause) (q : TypeParam) : Bool :=
  q.has .valueType || q.has .unmanaged || (c.outerBounds q).any Capability.isValue

/-- Does the clause say by itself that its parameter is a reference type? -/
def saysReference (c : Clause) (q : TypeParam) : Bool :=
  q.has .referenceType || (c.outerBounds q).any Capability.isReference ||
    q.boundDecls.any fun name =>
      decide ((c.program.typeDecl? name).map TypeDecl.kind = some .classType)

/-- The siblings that a name leads to: those that the first parameter of that name is bounded by. -/
def boundsOf (c : Clause) (name : String) : List String :=
  ((c.sibling? name).map TypeParam.boundParams).getD []

/-- A parameter and the siblings that it is bounded by, however indirectly. -/
def reached (c : Clause) (q : TypeParam) : List TypeParam :=
  q :: (preorder c.boundsOf (without (c.siblings.map TypeParam.name) q.name)
    q.boundParams).filterMap c.sibling?

/-- The capability that its clause gives a type parameter. -/
def capability (c : Clause) (q : TypeParam) : Capability :=
  let allows := q.hasAllowsMarker && !q.has .referenceType
  ⟨false, allows, allows, (c.reached q).any c.saysValue, (c.reached q).any c.saysReference⟩

end Clause

namespace Capabilities

/-- File the capability of a type parameter by its own clause, unless it is filed already. -/
def fillOne (caps : Capabilities) (p : Program) (owner : String) (siblings : List TypeParam)
    (outer : GenericScope) (q : TypeParam) : Capabilities :=
  caps.keep ⟨owner, q.name⟩ (Clause.capability ⟨p, caps, siblings, outer⟩ q)

/-- File the capabilities of all type parameters of a declaration by their own clauses. -/
def fillOwn (caps : Capabilities) (p : Program) (owner : String) (siblings : List TypeParam)
    (outer : GenericScope) : Capabilities :=
  siblings.foldl (fun caps q => caps.fillOne p owner siblings outer q) caps

end Capabilities

/-! ## Inheritance -/

/-- The capability that a member's type parameter at an index takes over, and the keys of the type
parameters on the way that are to have it. The way goes from member to base member until one is
filed already, has no such type parameter, has no base, or was met before. -/
def Program.inherited (p : Program) (caps : Capabilities) (index : Nat) (pending : List String)
    (m : Member) : Capability × List TypeParamKey :=
  match m.decl.typeParams[index]? with
  | none => (.unknown, [])
  | some q =>
    match caps.get? ⟨m.key, q.name⟩ with
    | some c => (c, [])
    | none =>
      if _h : m.key ∈ pending then
        match m.decl.base.bind p.member? with
        | some base =>
          let (c, keys) := p.inherited caps index (without pending m.key) base
          (c, ⟨m.key, q.name⟩ :: keys)
        | none =>
          (Clause.capability ⟨p, caps, m.decl.typeParams, m.outerScope⟩ q, [⟨m.key, q.name⟩])
      else (.unknown, [])
termination_by pending.length
decreasing_by exact length_without_lt _h

/-- The keys of all members. -/
def Program.memberKeys (p : Program) : List String := p.members.map Member.key

namespace Capabilities

/-- File a capability under some keys, unless they have one already. -/
def keepAll (caps : Capabilities) (keys : List TypeParamKey) (c : Capability) : Capabilities :=
  keys.foldl (fun caps k => caps.keep k c) caps

/-- File what the type parameter at an index takes over. -/
def fillInherited (caps : Capabilities) (p : Program) (m : Member) (index : Nat) : Capabilities :=
  let (c, keys) := p.inherited caps index p.memberKeys m
  caps.keepAll keys c

end Capabilities

end StackEscape
