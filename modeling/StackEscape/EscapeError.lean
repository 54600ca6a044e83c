import StackEscape.Scope.Level
import StackEscape.TypeError

/-!
# Errors of contracts and bodies

What can be wrong with the annotations from which contracts are built, and with bodies.

## Main definitions

* `StackEscape.EscapeErrorKind`, `EscapeError` — what is wrong, and where.
* `StackEscape.EscapeErrorKind.message`, `errorClass` — the text and the family of an error.
-/

set_option autoImplicit false

namespace StackEscape

/-- What can be wrong with contracts and bodies. -/
inductive EscapeErrorKind where
  /-- The attribute stands on a member that cannot have it. -/
  | unscopedRefNotAllowed (member : String)
  /-- The attribute stands on a parameter that does not need it. -/
  | unscopedParamNotAllowed (param : String)
  /-- A parameter is both confined and not confined. -/
  | unscopedAndScoped (param : String)
  /-- A member and the interface member it implements disagree. -/
  | unscopedMismatch (member ifaceMember : String)
  /-- A name means nothing here. -/
  | unresolvedMember (member : String)
  /-- A reference is returned that must not leave. -/
  | returnRefEscape (name : String) (scope : Level)
  /-- A value goes where it must not. -/
  | valueEscape (name : String)
  /-- A reference is re-pointed at something that does not live as long. -/
  | refAssignmentEscape (name target : String)
  /-- The callee could store one argument through another. -/
  | mixingViolation (callee param : String)
  /-- A stack-only value is put on the heap. -/
  | boxing (ty target : String)
  /-- A stack-only value is taken from the heap. -/
  | unboxing (ty target : String)
  /-- A nested function refers to a stack-only variable outside of it. -/
  | closureCapture (name ty : String)
  /-- A stack-only value stands in an expression tree. -/
  | expressionTree (ty : String)
  /-- A stack-only value is a member of an anonymous object. -/
  | anonymousTypeMember (member ty : String)
  /-- A stack-only variable stands in a function that may be suspended. -/
  | asyncOrIteratorLocal (name ty : String)
  /-- A stack-only enumerator would live across a suspension. -/
  | badSpecialByRefIterator (ty : String)
  /-- A stack-only resource would live across a suspension. -/
  | badSpecialByRefUsing (ty : String)
  /-- A stack-only value is an operand of a late-bound operation. -/
  | dynamicOperand (ty : String)
  /-- A stack-only primary constructor parameter is used outside of construction. -/
  | primaryConstructorCapture (name ty : String)
  /-- A value that is never null is tested for null. -/
  | operatorNotApplicable (op ty : String)
  /-- A stack-only value is compared with a reference. -/
  | noReferenceConversion (ty other : String)
  /-- A type used in a body is malformed. -/
  | shape (kind : TypeErrorKind)
  deriving DecidableEq, Inhabited, Repr

namespace EscapeErrorKind

/-- The family of an error. -/
def errorClass : EscapeErrorKind → ErrorClass
  | unscopedRefNotAllowed .. | unscopedParamNotAllowed .. | unscopedAndScoped ..
  | unscopedMismatch .. | unresolvedMember .. => .declarationContract
  | returnRefEscape .. | valueEscape .. | refAssignmentEscape .. | mixingViolation .. =>
    .escapeViolation
  | boxing .. | unboxing .. | closureCapture .. | expressionTree .. | anonymousTypeMember ..
  | asyncOrIteratorLocal .. | badSpecialByRefIterator .. | badSpecialByRefUsing ..
  | dynamicOperand .. | primaryConstructorCapture .. | operatorNotApplicable ..
  | noReferenceConversion .. => .categoricalTypeRestriction
  | shape kind => kind.errorClass

/-- The text of an error. -/
def message : EscapeErrorKind → String
  | unscopedRefNotAllowed member =>
    s!"UnscopedRef cannot be applied to `{member}`; it is only valid on struct or virtual " ++
      "interface instance methods and properties, and not on constructors or init-only members"
  | unscopedParamNotAllowed param =>
    s!"UnscopedRef cannot be applied to parameter `{param}` because it is unscoped by default"
  | unscopedAndScoped param => s!"parameter `{param}` cannot be both scoped and UnscopedRef"
  | unscopedMismatch member ifaceMember =>
    s!"UnscopedRef on `{member}` does not match interface member `{ifaceMember}`"
  | unresolvedMember member => s!"member `{member}` could not be resolved"
  | returnRefEscape name scope =>
    s!"cannot return `{name}` by reference because it is " ++ scope.describe
  | valueEscape name =>
    s!"cannot use `{name}` in this context because it may expose referenced variables outside " ++
      "of their declaration scope"
  | refAssignmentEscape name target =>
    s!"cannot ref-assign `{name}` to `{target}` because `{name}` has a narrower escape scope " ++
      s!"than `{target}`"
  | mixingViolation callee param =>
    s!"this combination of arguments to `{callee}` is disallowed because it may expose " ++
      s!"variables referenced by parameter `{param}` outside of their declaration scope"
  | boxing ty target => s!"cannot convert stack-only type `{ty}` to `{target}`"
  | unboxing ty target => s!"cannot convert `{ty}` to stack-only type `{target}`"
  | closureCapture name ty =>
    s!"cannot use `{name}` of stack-only type `{ty}` inside a lambda, anonymous method or " ++
      "local function"
  | expressionTree ty =>
    s!"an expression tree may not contain a value of stack-only type `{ty}`"
  | anonymousTypeMember member ty =>
    s!"anonymous type member `{member}` cannot have stack-only type `{ty}`"
  | asyncOrIteratorLocal name ty =>
    s!"parameters or locals of stack-only type `{ty}` cannot be declared in async methods or " ++
      s!"iterators (`{name}`)"
  | badSpecialByRefIterator ty =>
    s!"foreach over stack-only enumerator type `{ty}` is not allowed in async methods, " ++
      "iterators or await foreach"
  | badSpecialByRefUsing ty =>
    s!"using over stack-only type `{ty}` is not allowed in async methods, iterators or await using"
  | dynamicOperand ty => s!"cannot use a value of stack-only type `{ty}` as a dynamic operand"
  | primaryConstructorCapture name ty =>
    s!"cannot use primary constructor parameter `{name}` of stack-only type `{ty}` inside an " ++
      "instance member"
  | operatorNotApplicable op ty =>
    s!"operator `{op}` cannot be applied to operands of type `{ty}` and `null`"
  | noReferenceConversion ty other =>
    s!"no reference conversion exists between `{ty}` and `{other}`"
  | shape kind => kind.message

end EscapeErrorKind

/-- An error and its place. -/
structure EscapeError where
  /-- What is wrong. -/
  kind : EscapeErrorKind
  /-- Where. -/
  span : Span
  deriving DecidableEq, Inhabited, Repr

/-- The family of an error. -/
def EscapeError.errorClass (e : EscapeError) : ErrorClass := e.kind.errorClass

end StackEscape
