import StackEscape.Scope.Pair
import StackEscape.Table
import StackEscape.Tree.Basic

/-!
# Facts about nodes

What the analysis keeps for later passes: the pair of every expression it looked at, how null tests
on type parameters are carried out, and which reads copy their receiver first.

## Main definitions

* `StackEscape.NullTest` — the two ways to test a type parameter for null.
* `StackEscape.Facts` — the tables, filed under node identifiers.
* `StackEscape.Facts.record`, `recordNullTest`, `extend` — a later record replaces an earlier one.
-/

set_option autoImplicit false

namespace StackEscape

/-- How a null test on a type parameter that may be stack-only is carried out. -/
inductive NullTest where
  /-- Box and test; a value type is never null, so nothing is allocated. -/
  | boxed
  /-- The parameter is a reference type: a plain test. -/
  | reference
  deriving DecidableEq, Inhabited, Repr

/-- What is known about the nodes of some bodies. -/
structure Facts where
  /-- The pairs of expressions. -/
  pairs : Table NodeId ScopePair := .empty
  /-- How null tests are carried out. -/
  nullTests : Table NodeId NullTest := .empty
  /-- The reads that go through a copy of their receiver, in the order found. -/
  defensiveCopies : List Span := []

namespace Facts

/-- Nothing is known. -/
def empty : Facts := {}

/-- Record the pair of an expression. -/
def record (f : Facts) (id : NodeId) (pair : ScopePair) : Facts :=
  { f with pairs := f.pairs.set id pair }

/-- The recorded pair of an expression. -/
def pair? (f : Facts) (id : NodeId) : Option ScopePair := f.pairs.get? id

/-- Record how a null test is carried out. -/
def recordNullTest (f : Facts) (id : NodeId) (test : NullTest) : Facts :=
  { f with nullTests := f.nullTests.set id test }

/-- How a null test is carried out. -/
def nullTest? (f : Facts) (id : NodeId) : Option NullTest := f.nullTests.get? id

/-- Note a read that goes through a copy of its receiver. -/
def noteCopy (f : Facts) (span : Span) : Facts :=
  { f with defensiveCopies := f.defensiveCopies ++ [span] }

/-- The number of recorded pairs. -/
def size (f : Facts) : Nat := f.pairs.size

/-- Is no pair recorded? -/
def isEmpty (f : Facts) : Bool := f.pairs.isEmpty

/-- The facts of two bodies; records of the second replace those of the first. -/
def extend (a b : Facts) : Facts :=
  ⟨a.pairs.merge b.pairs, a.nullTests.merge b.nullTests,
    a.defensiveCopies ++ b.defensiveCopies⟩

end Facts

end StackEscape
