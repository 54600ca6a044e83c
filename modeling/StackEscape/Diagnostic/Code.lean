import StackEscape.TypeError

/-!
# Codes

The codes under which rules are known, with a title and a category for each. There is one category
for each family of errors, and the third character of a code tells it.

## Main definitions

* `StackEscape.Category` — the categories, and `StackEscape.Category.ofClass`.
* `StackEscape.Code.registry` — all codes in ascending order.
* `StackEscape.Code.find?` — what is known of a code.
-/

set_option autoImplicit false

namespace StackEscape

/-- The categories of codes. -/
inductive Category where
  /-- Contradictory declarations. -/
  | declaration
  /-- Lacking support of the runtime. -/
  | runtime
  /-- Misused types. -/
  | categorical
  /-- Escaping values. -/
  | escape
  /-- Unfit type arguments. -/
  | generic
  deriving DecidableEq, Inhabited, Repr

namespace Category

/-- The category of a family of errors. -/
def ofClass : ErrorClass → Category
  | .declarationContract => declaration
  | .runtimeCapability => runtime
  | .categoricalTypeRestriction => categorical
  | .escapeViolation => escape
  | .genericConstraintNotSatisfied => generic

/-- The word for a category. -/
def word : Category → String
  | declaration => "Declaration"
  | runtime => "Runtime"
  | categorical => "Categorical"
  | escape => "Escape"
  | generic => "Generic"

end Category

/-- A code and what is known of it. -/
structure Code where
  /-- The code. -/
  code : String
  /-- A short title. -/
  title : String
  /-- Its category. -/
  category : Category
  deriving DecidableEq, Inhabited, Repr

namespace Code

/-- All codes in ascending order. -/
def registry : List Code :=
  [⟨"R0100", "allows marker not last", .declaration⟩,
    ⟨"R0101", "class constraint with allows marker", .declaration⟩,
    ⟨"R0102", "inherited constraints restated", .declaration⟩,
    ⟨"R0103", "inconsistent partial constraints", .declaration⟩,
    ⟨"R0104", "cyclic constraint", .declaration⟩,
    ⟨"R0105", "unknown base member", .declaration⟩,
    ⟨"R0106", "ref field outside ref struct", .declaration⟩,
    ⟨"R0110", "misplaced UnscopedRef", .declaration⟩,
    ⟨"R0111", "UnscopedRef on unscoped parameter", .declaration⟩,
    ⟨"R0112", "scoped and UnscopedRef", .declaration⟩,
    ⟨"R0113", "UnscopedRef mismatch with interface", .declaration⟩,
    ⟨"R0120", "unresolved member", .declaration⟩,
    ⟨"R0200", "runtime lacks by-ref-like generics", .runtime⟩,
    ⟨"R0300", "stack-only instance field", .categorical⟩,
    ⟨"R0301", "stack-only static field", .categorical⟩,
    ⟨"R0302", "array of stack-only type", .categorical⟩,
    ⟨"R0310", "boxing of stack-only value", .categorical⟩,
    ⟨"R0311", "closure capture of stack-only value", .categorical⟩,
    ⟨"R0312", "stack-only value in expression tree", .categorical⟩,
    ⟨"R0313", "stack-only anonymous type member", .categorical⟩,
    ⟨"R0314", "stack-only local in async or iterator", .categorical⟩,
    ⟨"R0315", "stack-only enumerator not allowed here", .categorical⟩,
    ⟨"R0316", "stack-only using resource not allowed here", .categorical⟩,
    ⟨"R0317", "stack-only dynamic operand", .categorical⟩,
    ⟨"R0318", "primary constructor parameter capture", .categorical⟩,
    ⟨"R0319", "unboxing to stack-only type", .categorical⟩,
    ⟨"R0320", "operator not applicable", .categorical⟩,
    ⟨"R0321", "no reference conversion", .categorical⟩,
    ⟨"R0400", "reference escapes by return", .escape⟩,
    ⟨"R0401", "value escapes its scope", .escape⟩,
    ⟨"R0402", "ref assignment to wider target", .escape⟩,
    ⟨"R0403", "argument mixing", .escape⟩,
    ⟨"R0500", "stack-only type argument", .generic⟩]

/-- What is known of a code. -/
def find? (code : String) : Option Code := registry.find? fun c => decide (c.code = code)

end Code

end StackEscape
