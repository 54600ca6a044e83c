import StackEscape.Scope.Level

/-!
# Scope pairs

What the analysis knows of one expression: how far its value may escape and how far a reference to
it may escape. The two are computed independently and neither bounds the other.

## Main definitions

* `StackEscape.ScopePair` — the two levels, and whether the analysis of the expression was given up.
* `StackEscape.ScopePair.invalid`, `temporary` — the placeholder for expressions given up, and the
  pair of a temporary.
* `StackEscape.ScopePair.narrower` — the combination of two alternatives.
-/

set_option autoImplicit false

namespace StackEscape

/-- The escape levels of an expression. -/
structure ScopePair where
  /-- How far the value may escape. -/
  value : Level
  /-- How far a reference to the storage may escape. -/
  ref : Level
  /-- The analysis of the expression was given up after an error. -/
  isInvalid : Bool := false
  deriving DecidableEq, Inhabited, Repr

namespace ScopePair

/-- The placeholder of an expression that was given up: so wide that no later check fails on it. -/
def invalid : ScopePair := ⟨.unlimited, .unlimited, true⟩

/-- A temporary may be copied anywhere, but not referred to outside of the method. -/
def temporary : ScopePair := ⟨.unlimited, .currentMethod, false⟩

/-- Something on the heap, or static: it outlives every method. -/
def heap : ScopePair := ⟨.unlimited, .unlimited, false⟩

/-- Something confined to the method in both respects. -/
def confined : ScopePair := ⟨.currentMethod, .currentMethod, false⟩

/-- The smaller level in each component; given up if either one is. -/
def narrower (a b : ScopePair) : ScopePair :=
  ⟨a.value.narrower b.value, a.ref.narrower b.ref, a.isInvalid || b.isInvalid⟩

/-- The pair with another value level. -/
def withValue (p : ScopePair) (value : Level) : ScopePair := { p with value }

/-- The pair with another reference level. -/
def withRef (p : ScopePair) (ref : Level) : ScopePair := { p with ref }

end ScopePair

end StackEscape
