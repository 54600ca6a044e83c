import StackEscape.EscapeError
import StackEscape.Symbols

/-!
# Placement of annotations

Where `UnscopedRef` may stand, and what implementations of an interface must repeat of it.

## Main definitions

* `StackEscape.placementErrors` — misplaced annotations on a member and its parameters.
* `StackEscape.Program.placementErrors` — the same for all members.
* `StackEscape.Program.implementationErrors` — members that disagree with the interface members they
  implement.
* `StackEscape.Program.contractErrors` — both.
-/

set_option autoImplicit false

namespace StackEscape

/-! ## Placement -/

/-- Can the annotation stand on a member of this kind? -/
def MemberKind.mayBeUnscoped : MemberKind → Bool
  | .ctor | .initSetter => false
  | _ => true

/-- Can the annotation stand on instance members of this type? -/
def TypeKind.mayHoldUnscoped (isSealed : Bool) : TypeKind → Bool
  | .struct | .refStruct => true
  | .interface => !isSealed
  | .classType => false

/-- Can the annotation stand on the member itself? -/
def mayBeUnscoped (owner : TypeDecl) (decl : FnDecl) (isLocal : Bool) : Bool :=
  !isLocal && !decl.modifiers.isStatic && decl.kind.mayBeUnscoped &&
    owner.kind.mayHoldUnscoped decl.modifiers.isSealed

/-- A misplaced annotation on a member. -/
def memberPlacementError (owner : TypeDecl) (decl : FnDecl) (key : String) (isLocal : Bool) :
    Option EscapeError :=
  match decl.unscopedSpan with
  | none => none
  | some span =>
    if mayBeUnscoped owner decl isLocal then none else some ⟨.unscopedRefNotAllowed key, span⟩

/-- A misplaced annotation on a parameter: only `out` parameters need it, and it contradicts
`scoped`. -/
def paramPlacementError (param : Param) : Option EscapeError :=
  match Attribute.unscoped? param.attrs with
  | none => none
  | some attr =>
    if param.isScoped then some ⟨.unscopedAndScoped param.name, attr.span⟩
    else if param.refKind ≠ .out then some ⟨.unscopedParamNotAllowed param.name, attr.span⟩
    else none

/-- Misplaced annotations on a member or local function and its parameters. -/
def placementErrors (owner : TypeDecl) (decl : FnDecl) (key : String) (isLocal : Bool) :
    List EscapeError :=
  (memberPlacementError owner decl key isLocal).toList ++
    decl.params.filterMap paramPlacementError

/-! ## Agreement with interfaces -/

/-- Do two members differ in the annotation on a parameter that they have in common? -/
def paramsDiffer (a b : FnDecl) : Bool :=
  (a.params.zip b.params).any fun (a, b) => a.isUnscoped != b.isUnscoped

/-- Does the implementation by a type part disagree with the interface member? A receiver can only
be unscoped in structs, so only there it counts. -/
def disagrees (t : TypeDecl) (found required : Member) : Bool :=
  (t.kind.isStructLike && found.decl.isUnscoped != required.decl.isUnscoped) ||
    paramsDiffer found.decl required.decl

/-- The pairs of keys that were compared, and the errors found. -/
structure ImplementationState where
  /-- The keys of implementing and required members that were compared. -/
  seen : List (String × String) := []
  /-- The errors. -/
  errors : List EscapeError := []

namespace Program

/-- Misplaced annotations on all members. -/
def placementErrors (p : Program) : List EscapeError :=
  p.members.flatMap fun m => StackEscape.placementErrors m.owner m.decl m.key false

/-- The interface members that a type part has to implement, in order. -/
def requiredMembers (p : Program) (t : TypeDecl) : List Member :=
  if t.kind = .interface then []
  else (t.interfaces.flatMap p.interfaceMembers).filter fun m => !m.decl.modifiers.isStatic

/-- Compare the implementation of a required member, unless its key was compared before. -/
def checkImplementation (p : Program) (t : TypeDecl) (s : ImplementationState)
    (required : Member) : ImplementationState :=
  match p.implementing? t.name required with
  | none => s
  | some found =>
    if s.seen.contains (found.key, required.key) then s
    else
      ⟨(found.key, required.key) :: s.seen,
        if disagrees t found required then
          s.errors ++ [⟨.unscopedMismatch found.key required.key, found.decl.span⟩]
        else s.errors⟩

/-- Implementations that disagree with the interface member in their annotations. -/
def implementationErrors (p : Program) : List EscapeError :=
  (p.types.foldl (fun s t => (p.requiredMembers t).foldl (p.checkImplementation t) s) {}).errors

/-- Misplaced annotations, then implementations that disagree. -/
def contractErrors (p : Program) : List EscapeError :=
  p.placementErrors ++ p.implementationErrors

end Program

end StackEscape
