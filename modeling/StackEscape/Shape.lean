import StackEscape.Capability.Basic
import StackEscape.TypeError

/-!
# Shapes of types and storage

Restrictions that look at types alone: no arrays of stack-only elements, no stack-only type argument
where none is admitted, no stack-only storage in types that may live on the heap.

## Main definitions

* `StackEscape.TypeEnv` — what types mean at a point of a program.
* `StackEscape.TypeEnv.typeErrors` — what is wrong with a type, at any depth.
* `StackEscape.TypeEnv.argErrors` — what is wrong with the type arguments of a generic.
* `StackEscape.TypeEnv.fieldErrors` — what is wrong with a field.
-/

set_option autoImplicit false

namespace StackEscape

/-- What types mean at a point of a program. -/
structure TypeEnv where
  /-- The program. -/
  program : Program
  /-- The capabilities of type parameters. -/
  caps : Capabilities
  /-- The type parameters in scope. -/
  scope : GenericScope
  /-- Can the runtime substitute stack-only types into generics? -/
  runtime : Bool

namespace TypeEnv

/-- The capability of a type. -/
def capability (env : TypeEnv) (ty : TypeRef) : Capability :=
  env.caps.of env.program env.scope ty

/-- Do the rules for stack-only types apply to a type? -/
def stackOnly (env : TypeEnv) (ty : TypeRef) : Bool := (env.capability ty).isStackOnly

/-- Does a value of the type live on the heap, so that its fields are tied to no stack frame? -/
def isHeapType (env : TypeEnv) (ty : TypeRef) : Bool :=
  (env.capability ty).isReference && !(env.capability ty).isStackOnly

/-- Does a type parameter admit stack-only types? Before its capability is filed, its clause
says. -/
def admits (env : TypeEnv) (owner : String) (param : TypeParam) : Bool :=
  match env.caps.get? ⟨owner, param.name⟩ with
  | some c => c.allowsByRefLike
  | none => param.hasAllowsMarker

/-- What is wrong with a type argument. -/
def argError (env : TypeEnv) (generic owner : String) (param : TypeParam) (arg : TypeRef) :
    Option TypeErrorKind :=
  if !env.stackOnly arg then none
  else if !env.admits owner param then
    some (.stackOnlyTypeArgument arg.display param.name generic)
  else if !env.runtime then
    some (.runtimeLacksByRefGenerics
      ("`" ++ arg.display ++ "` substituted for `" ++ param.name ++ "` in `" ++ generic ++ "`"))
  else none

/-- What is wrong with the type arguments of a generic, as far as there are type parameters. -/
def argErrors (env : TypeEnv) (generic owner : String) (params : List TypeParam)
    (args : List TypeRef) (span : Span) : List TypeError :=
  (params.zip args).filterMap fun (param, arg) =>
    (env.argError generic owner param arg).map fun kind => ⟨kind, span⟩

mutual

/-- What is wrong with a type, looking into element types and type arguments. -/
def typeErrors (env : TypeEnv) (span : Span) : TypeRef → List TypeError
  | .array elem =>
    (if env.stackOnly elem then [⟨.arrayOfStackOnlyType elem.display, span⟩] else []) ++
      typeErrors env span elem
  | .named name args =>
    (match env.program.typeDecl? name with
      | some decl => env.argErrors name name decl.typeParams args span
      | none => []) ++ allTypeErrors env span args
  | .void | .primitive _ | .object | .dynamic | .param _ => []

/-- What is wrong with some types. -/
def allTypeErrors (env : TypeEnv) (span : Span) : List TypeRef → List TypeError
  | [] => []
  | ty :: tys => typeErrors env span ty ++ allTypeErrors env span tys

end

/-- What is wrong with stack-only storage. -/
def storageError (owner : TypeDecl) (field : FieldDecl) : Option TypeErrorKind :=
  if field.isStatic then some (.staticFieldOfStackOnlyType field.name field.ty.display)
  else if owner.kind ≠ .refStruct then
    some (.fieldOfStackOnlyType field.name field.ty.display owner.name
      (if field.isAutoProperty then .autoProperty else .field))
  else none

/-- What is wrong with a field. -/
def fieldErrors (env : TypeEnv) (owner : TypeDecl) (field : FieldDecl) : List TypeError :=
  (if field.isRef && decide (owner.kind ≠ .refStruct) then
    [⟨.refFieldOutsideRefStruct field.name, field.span⟩] else []) ++
  (if env.stackOnly field.ty then
    ((storageError owner field).map fun kind => (⟨kind, field.span⟩ : TypeError)).toList
    else []) ++
  env.typeErrors field.span field.ty

end TypeEnv

end StackEscape
