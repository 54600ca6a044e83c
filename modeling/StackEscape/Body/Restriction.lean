import StackEscape.EscapeError
import StackEscape.Facts
import StackEscape.Shape

/-!
# Categorical restrictions

What stack-only values may never do, whatever their levels: be boxed or unboxed, be compared with
references, be tested for null where they cannot be null, be operands of late-bound operations.
These rules look at types alone.

## Main definitions

* `StackEscape.TypeEnv.conversionError` — boxing and unboxing.
* `StackEscape.Verdict` — what becomes of a comparison.
* `StackEscape.TypeEnv.nullTestVerdict`, `binaryVerdict`, `testVerdict` — null tests and
  comparisons.
* `StackEscape.TypeEnv.dynamicErrors` — late-bound operands.
-/

set_option autoImplicit false

namespace StackEscape

/-- Is the expression the null literal, perhaps converted? -/
def Expr.isNullLiteral : Expr → Bool
  | ⟨_, .literal .null, _, _⟩ => true
  | ⟨_, .convert operand _, _, _⟩ => operand.isNullLiteral
  | _ => false

/-- What becomes of a comparison. -/
inductive Verdict where
  /-- It is an ordinary comparison. -/
  | plain
  /-- It is a null test on a type parameter, carried out in a certain way. -/
  | lowered (test : NullTest)
  /-- It is refused. -/
  | refused (error : EscapeErrorKind)
  deriving DecidableEq, Inhabited, Repr

namespace TypeEnv

/-- What is wrong with a conversion. Stack-only types convert to and from stack-only types only. -/
def conversionError (env : TypeEnv) (source target : TypeRef) : Option EscapeErrorKind :=
  if env.stackOnly source = env.stackOnly target ∨ source = target then none
  else if env.stackOnly source then some (.boxing source.display target.display)
  else if source = .object ∨ source = .dynamic ∨ (env.capability source).isReference then
    some (.unboxing source.display target.display)
  else none

/-- What becomes of a null test. A type parameter may be tested unless it is a value type; a type
that is stack-only by itself has no null. -/
def nullTestVerdict (env : TypeEnv) (op : String) (subject : TypeRef) : Verdict :=
  let cap := env.capability subject
  if !cap.isStackOnly then .plain
  else if cap.isByRefLike || cap.isValue then .refused (.operatorNotApplicable op subject.display)
  else if cap.isReference then .lowered .reference
  else .lowered .boxed

/-- What is wrong with comparing an operand with another one: a stack-only operand converts to no
reference type. -/
def comparisonError (env : TypeEnv) (subject other : TypeRef) : Option EscapeErrorKind :=
  if !env.stackOnly subject || env.stackOnly other then none
  else if other = .object ∨ other = .dynamic ∨ env.isHeapType other then
    some (.noReferenceConversion subject.display other.display)
  else none

/-- What becomes of an equality test, written with the given operator. -/
def equalityVerdict (env : TypeEnv) (op : String) (left right : Expr) : Verdict :=
  if right.isNullLiteral then env.nullTestVerdict op left.ty
  else if left.isNullLiteral then env.nullTestVerdict op right.ty
  else
    match (env.comparisonError left.ty right.ty).or (env.comparisonError right.ty left.ty) with
    | some error => .refused error
    | none => .plain

/-- What becomes of a binary operation. -/
def binaryVerdict (env : TypeEnv) (op : BinOp) (left right : Expr) : Verdict :=
  match op with
  | .eq => env.equalityVerdict "==" left right
  | .ne => env.equalityVerdict "!=" left right
  | _ => .plain

/-- The constant with which a pattern compares, perhaps negated. -/
def comparedConstant : Pattern → Option Expr
  | .constant c | .negated (.constant c) => some c
  | _ => none

/-- What becomes of a pattern test: with null it is a null test. -/
def testVerdict (env : TypeEnv) (subject : TypeRef) (pattern : Pattern) : Verdict :=
  match comparedConstant pattern with
  | some c => if c.isNullLiteral then env.nullTestVerdict "is" subject else .plain
  | none => .plain

/-- Operands of a late-bound operation that are stack-only. -/
def dynamicErrors (env : TypeEnv) (operands : List Expr) : List EscapeError :=
  (operands.filter fun e => env.stackOnly e.ty).map fun e =>
    ⟨.dynamicOperand e.ty.display, e.span⟩

end TypeEnv

end StackEscape
