import StackEscape.Source.Span

/-!
# Errors of declarations and types

What can be wrong with constraint clauses, with the storage that types declare, and with type
arguments; and the families into which all errors of the analysis fall.

## Main definitions

* `StackEscape.ErrorClass` — the families of rules.
* `StackEscape.TypeErrorKind`, `TypeError` — what is wrong, and where.
* `StackEscape.TypeErrorKind.message`, `errorClass` — the text and the family of an error.
-/

set_option autoImplicit false

namespace StackEscape

/-- Which family of rules an error belongs to. -/
inductive ErrorClass where
  /-- A declaration contradicts itself or another one. -/
  | declarationContract
  /-- The runtime lacks something that the program needs. -/
  | runtimeCapability
  /-- A stack-only type is used where none may be. -/
  | categoricalTypeRestriction
  /-- Something escapes farther than it may. -/
  | escapeViolation
  /-- A type argument does not satisfy its type parameter. -/
  | genericConstraintNotSatisfied
  deriving DecidableEq, Inhabited, Repr

/-- How instance storage was declared. -/
inductive StorageKind where
  /-- As a field. -/
  | field
  /-- Through an auto-property. -/
  | autoProperty
  deriving DecidableEq, Inhabited, Repr

/-- The words for a kind of storage. -/
def StorageKind.describe : StorageKind → String
  | field => "field"
  | autoProperty => "auto-property"

/-- What can be wrong with declarations and types. -/
inductive TypeErrorKind where
  /-- The marker is followed by another constraint. -/
  | allowsMarkerNotLast (param : String)
  /-- The marker stands beside a reference type constraint. -/
  | allowsWithClassConstraint (param : String)
  /-- A constraint is restated that the base member fixes. -/
  | constraintsInherited (param member : String)
  /-- The parts of a partial declaration disagree. -/
  | inconsistentPartialConstraints (param decl : String)
  /-- Type parameters constrain each other in a circle. -/
  | cyclicConstraint (param other : String)
  /-- The base member does not exist. -/
  | unknownBaseMember (member base : String)
  /-- A reference is stored in a type that may live on the heap. -/
  | refFieldOutsideRefStruct (field : String)
  /-- The runtime cannot substitute stack-only types. -/
  | runtimeLacksByRefGenerics (what : String)
  /-- A stack-only value is stored in a type that may live on the heap. -/
  | fieldOfStackOnlyType (field ty owner : String) (storage : StorageKind)
  /-- A stack-only value is stored in a static field. -/
  | staticFieldOfStackOnlyType (field ty : String)
  /-- An array has stack-only elements. -/
  | arrayOfStackOnlyType (ty : String)
  /-- A stack-only type argument stands where none is admitted. -/
  | stackOnlyTypeArgument (arg param generic : String)
  deriving DecidableEq, Inhabited, Repr

namespace TypeErrorKind

/-- The family of an error. -/
def errorClass : TypeErrorKind → ErrorClass
  | allowsMarkerNotLast .. | allowsWithClassConstraint .. | constraintsInherited ..
  | inconsistentPartialConstraints .. | cyclicConstraint .. | unknownBaseMember ..
  | refFieldOutsideRefStruct .. => .declarationContract
  | runtimeLacksByRefGenerics .. => .runtimeCapability
  | fieldOfStackOnlyType .. | staticFieldOfStackOnlyType .. | arrayOfStackOnlyType .. =>
    .categoricalTypeRestriction
  | stackOnlyTypeArgument .. => .genericConstraintNotSatisfied

/-- The text of an error. -/
def message : TypeErrorKind → String
  | allowsMarkerNotLast param =>
    s!"the 'allows ref struct' constraint on `{param}` must be the last constraint specified"
  | allowsWithClassConstraint param =>
    s!"the 'class' constraint cannot be combined with 'allows ref struct' on `{param}`"
  | constraintsInherited param member =>
    s!"constraints for `{param}` of `{member}` are inherited from the base member and cannot be " ++
      "specified directly, except for a 'class' or 'struct' constraint"
  | inconsistentPartialConstraints param decl =>
    s!"partial declarations of `{decl}` have inconsistent constraints for type parameter `{param}`"
  | cyclicConstraint param other =>
    s!"type parameters `{param}` and `{other}` form a constraint cycle"
  | unknownBaseMember member base =>
    s!"`{member}` overrides or implements `{base}`, which could not be found"
  | refFieldOutsideRefStruct field =>
    s!"ref field `{field}` can only be declared in a ref struct"
  | runtimeLacksByRefGenerics what =>
    s!"target runtime does not support by-ref-like generics: {what}"
  | fieldOfStackOnlyType field ty owner storage =>
    storage.describe ++
      s!" `{field}` of type `{ty}` can only be declared in a ref struct, not in `{owner}`"
  | staticFieldOfStackOnlyType field ty =>
    s!"static field `{field}` cannot have stack-only type `{ty}`"
  | arrayOfStackOnlyType ty => s!"cannot create an array of stack-only type `{ty}`"
  | stackOnlyTypeArgument arg param generic =>
    s!"the type `{arg}` may not be a ref struct or a type parameter allowing ref structs in " ++
      s!"order to use it as parameter `{param}` in `{generic}`"

end TypeErrorKind

/-- An error and its place. -/
structure TypeError where
  /-- What is wrong. -/
  kind : TypeErrorKind
  /-- Where. -/
  span : Span
  deriving DecidableEq, Inhabited, Repr

/-- The family of an error. -/
def TypeError.errorClass (e : TypeError) : ErrorClass := e.kind.errorClass

end StackEscape
