import StackEscape.Analysis
import StackEscape.Diagnostic.Basic

/-!
# Diagnostics of errors

The diagnostic of every error: its message, the code of its rule, a label at its place, and advice
or an explanation where there is something to say.

## Main definitions

* `StackEscape.TypeErrorKind.diagnostic`, `EscapeErrorKind.diagnostic` — by the kind of error.
* `StackEscape.TypeError.diagnostic`, `EscapeError.diagnostic` — of an error at its place.
* `StackEscape.Analysis.diagnostics` — of everything that a run found.
-/

set_option autoImplicit false

namespace StackEscape

/-- An error under a code, with a label at its place. -/
def Diagnostic.labelled (message code : String) (span : Span) (label : String) : Diagnostic :=
  ((Diagnostic.error message).withCode code).withPrimary span label

/-- The diagnostic of an error of declarations or types. -/
def TypeErrorKind.diagnostic (kind : TypeErrorKind) (span : Span) : Diagnostic :=
  let label := Diagnostic.labelled kind.message
  match kind with
  | allowsMarkerNotLast _ =>
    (label "R0100" span "marker must come last").withHelp
      "move 'allows ref struct' to the end of the constraint list"
  | allowsWithClassConstraint _ =>
    (label "R0101" span "a reference type can never be stack-only").withHelp
      "remove either the 'class' constraint or the 'allows ref struct' marker"
  | constraintsInherited _ member =>
    (label "R0102" span "constraint restated here").withNote
      ("`" ++ member ++ "` takes its constraints from the member it overrides or implements")
  | inconsistentPartialConstraints _ _ =>
    (label "R0103" span "differs from another part").withHelp
      "declare the same constraints on every partial declaration"
  | cyclicConstraint _ _ => label "R0104" span "cycle closes here"
  | unknownBaseMember _ _ => label "R0105" span "base member not found"
  | refFieldOutsideRefStruct _ =>
    (label "R0106" span "ref field declared here").withHelp
      "declare the containing type as a ref struct"
  | runtimeLacksByRefGenerics _ =>
    (label "R0200" span "requires runtime support").withNote
      "the target runtime cannot instantiate generics over stack-only types"
  | fieldOfStackOnlyType _ _ _ _ =>
    (label "R0300" span "stack-only storage in a type that may live on the heap").withHelp
      "declare the containing type as a ref struct"
  | staticFieldOfStackOnlyType _ _ => label "R0301" span "static storage outlives every stack frame"
  | arrayOfStackOnlyType _ => label "R0302" span "array elements live on the heap"
  | stackOnlyTypeArgument _ param _ =>
    (label "R0500" span "stack-only type argument").withHelp
      ("add 'allows ref struct' to the constraints of `" ++ param ++ "`")

/-- The diagnostic of an error of contracts or bodies. -/
def EscapeErrorKind.diagnostic (kind : EscapeErrorKind) (span : Span) : Diagnostic :=
  let label := Diagnostic.labelled kind.message
  match kind with
  | unscopedRefNotAllowed _ =>
    let d := (label "R0110" span "attribute not allowed here").withHelp "remove the attribute"
    d.withSuggestion span ""
  | unscopedParamNotAllowed _ =>
    (label "R0111" span "already unscoped").withHelp "only `out` parameters are scoped by default"
  | unscopedAndScoped _ =>
    (label "R0112" span "conflicting annotations").withHelp "remove either `scoped` or UnscopedRef"
  | unscopedMismatch _ ifaceMember =>
    (label "R0113" span "implementation declared here").withHelp
      ("match the UnscopedRef annotations of `" ++ ifaceMember ++ "` exactly")
  | unresolvedMember _ => label "R0120" span "not found"
  | returnRefEscape _ scope =>
    let d := label "R0400" span ("reference is " ++ scope.describe)
    if scope = .currentMethod then
      d.withHelp "return a reference to a parameter, a field of a ref parameter, or heap storage"
    else d
  | valueEscape _ => label "R0401" span "may reference storage that does not live long enough"
  | refAssignmentEscape _ target =>
    label "R0402" span ("`" ++ target ++ "` may outlive this referent")
  | mixingViolation _ param =>
    (label "R0403" span "in this call").withNote
      ("the callee may store another argument through `" ++ param ++ "`, which outlives it")
  | boxing _ _ => label "R0310" span "stack-only values cannot be boxed"
  | unboxing _ _ => label "R0319" span "a boxed value is never stack-only"
  | closureCapture _ _ =>
    (label "R0311" span "captured here").withNote
      "a closure may outlive the stack frame the value lives in"
  | expressionTree _ => label "R0312" span "not representable in an expression tree"
  | anonymousTypeMember _ _ => label "R0313" span "anonymous types live on the heap"
  | asyncOrIteratorLocal _ _ =>
    (label "R0314" span "declared here").withNote
      "locals of async methods and iterators may be hoisted to the heap"
  | badSpecialByRefIterator _ => label "R0315" span "enumerator would live across a suspension"
  | badSpecialByRefUsing _ => label "R0316" span "resource would live across a suspension"
  | dynamicOperand _ => label "R0317" span "dynamic operands are boxed"
  | primaryConstructorCapture _ _ =>
    (label "R0318" span "captured here").withHelp
      "copy the parameter into a field of a ref struct instead"
  | operatorNotApplicable _ _ => label "R0320" span "a value type is never null"
  | noReferenceConversion _ _ => label "R0321" span "compared here"
  | shape kind => kind.diagnostic span

/-- The diagnostic of an error at its place. -/
def TypeError.diagnostic (e : TypeError) : Diagnostic := e.kind.diagnostic e.span

/-- The diagnostic of an error at its place. -/
def EscapeError.diagnostic (e : EscapeError) : Diagnostic := e.kind.diagnostic e.span

/-- The diagnostics of everything that a run found, declarations first. -/
def Analysis.diagnostics (a : Analysis) : List Diagnostic :=
  a.declarationErrors.map TypeError.diagnostic ++ a.escapeErrors.map EscapeError.diagnostic

end StackEscape
