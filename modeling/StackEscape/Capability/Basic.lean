import StackEscape.Symbols
import StackEscape.Table

/-!
# Capabilities of types

What the rules may assume of a type: whether it is stack-only, whether it may be, and whether it is
known to be a value or a reference type. For a type parameter the answer comes from a table that the
check of declarations fills.

## Main definitions

* `StackEscape.Capability` — what may be assumed.
* `StackEscape.TypeParamKey`, `GenericScope` — which declaration a type parameter's name means.
* `StackEscape.Capabilities` — the table, and `StackEscape.Capabilities.of`, the capability of a
  type.
-/

set_option autoImplicit false

namespace StackEscape

/-- What may be assumed of a type. -/
structure Capability where
  /-- It is stack-only. -/
  isByRefLike : Bool
  /-- It is a type parameter for which a stack-only type may be substituted. -/
  allowsByRefLike : Bool
  /-- Substituting it into a generic needs support of the runtime. -/
  requiresRuntime : Bool
  /-- It is a value type. -/
  isValue : Bool
  /-- It is a reference type. -/
  isReference : Bool
  deriving DecidableEq, Inhabited, Repr

namespace Capability

/-- Nothing is known. -/
def unknown : Capability := ⟨false, false, false, false, false⟩

/-- A reference type. -/
def reference : Capability := ⟨false, false, false, false, true⟩

/-- A value type that may live anywhere. -/
def value : Capability := ⟨false, false, false, true, false⟩

/-- A stack-only type. -/
def byRefLike : Capability := ⟨true, false, true, true, false⟩

/-- Do the rules for stack-only types apply? -/
def isStackOnly (c : Capability) : Bool := c.isByRefLike || c.allowsByRefLike

end Capability

/-- A type parameter by what declares it. -/
structure TypeParamKey where
  /-- The name of a type, or the key of a member or local function. -/
  owner : String
  /-- The parameter's name. -/
  name : String
  deriving DecidableEq, Inhabited, Repr

/-- The type parameters that one declaration brings into scope. -/
structure GenericFrame where
  /-- What declares them. -/
  owner : String
  /-- Their names. -/
  names : List String
  deriving DecidableEq, Inhabited, Repr

/-- The type parameters visible at a point, innermost declaration first. -/
abbrev GenericScope := List GenericFrame

namespace GenericScope

/-- The scope inside of a declaration with the given type parameters. -/
def push (s : GenericScope) (owner : String) (params : List TypeParam) : GenericScope :=
  ⟨owner, params.map TypeParam.name⟩ :: s

/-- The innermost declaration. -/
def innermostOwner (s : GenericScope) : Option String := s.head?.map GenericFrame.owner

/-- The type parameter that a name means: the innermost one of that name. -/
def resolve (s : GenericScope) (name : String) : Option TypeParamKey :=
  (s.find? fun f => f.names.contains name).map fun f => ⟨f.owner, name⟩

end GenericScope

/-- The type parameters that are visible around a member's own. -/
def Member.outerScope (m : Member) : GenericScope := .push [] m.owner.name m.owner.typeParams

/-- The type parameters that are visible inside of a member. -/
def Member.innerScope (m : Member) : GenericScope := m.outerScope.push m.key m.decl.typeParams

/-- The capabilities of type parameters. -/
abbrev Capabilities := Table TypeParamKey Capability

/-- Stack-only types that the runtime provides without a declaration. -/
def wellKnownStackOnly : List String := ["Span", "ReadOnlySpan"]

namespace Capabilities

/-- The capability of the type parameter that a name means. -/
def ofParam (caps : Capabilities) (scope : GenericScope) (name : String) : Capability :=
  ((scope.resolve name).bind caps.get?).getD .unknown

/-- The capability of a type that is declared, or not declared, under a name. -/
def ofNamed (p : Program) (name : String) : Capability :=
  match (p.typeDecl? name).map TypeDecl.kind with
  | some .refStruct => .byRefLike
  | some .struct => .value
  | some .classType | some .interface => .reference
  | none => if wellKnownStackOnly.contains name then .byRefLike else .reference

/-- The capability of a type. -/
def of (caps : Capabilities) (p : Program) (scope : GenericScope) : TypeRef → Capability
  | .void | .primitive _ => .value
  | .object | .dynamic | .array _ => .reference
  | .named name _ => ofNamed p name
  | .param name => caps.ofParam scope name

/-- Do the rules for stack-only types apply to a type? -/
def stackOnly (caps : Capabilities) (p : Program) (scope : GenericScope) (ty : TypeRef) : Bool :=
  (caps.of p scope ty).isStackOnly

end Capabilities

end StackEscape
