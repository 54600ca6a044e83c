import StackEscape.Capability.Derive
import StackEscape.Graph.Cycle
import StackEscape.TypeError

/-!
# Checks of constraint clauses

What a clause must not say by itself, what the parts of a partial declaration must agree on, and
that type parameters must not constrain each other in a circle.

## Main definitions

* `StackEscape.TypeParam.clauseErrors` — where the marker may stand, and beside what.
* `StackEscape.TypeParam.restatementError` — what may not be restated of an inherited clause.
* `StackEscape.partialErrors` — disagreement between two parts.
* `StackEscape.cycleErrors` — circles of constraints.
-/

set_option autoImplicit false

namespace StackEscape

/-- The position and the span of the marker in a clause. -/
def TypeParam.marker? (q : TypeParam) : Option (Nat × Span) :=
  (q.constraints.zipIdx.find? fun (c, _) => decide (c.kind = .allowsRefStruct)).map
    fun (c, i) => (i, c.span)

/-- What a clause must not say: the marker comes last, not beside a reference type constraint, and
needs support of the runtime. -/
def TypeParam.clauseErrors (runtime : Bool) (q : TypeParam) : List TypeError :=
  match q.marker? with
  | none => []
  | some (i, span) =>
    (if i + 1 ≠ q.constraints.length then [⟨.allowsMarkerNotLast q.name, span⟩] else []) ++
    (if q.has .referenceType then [⟨.allowsWithClassConstraint q.name, span⟩] else []) ++
    (if runtime then []
      else [⟨.runtimeLacksByRefGenerics ("type parameter `" ++ q.name ++ "` allows ref struct"),
        span⟩])

/-- The first constraint that may not be restated where constraints are inherited. -/
def TypeParam.restatementError (member : String) (q : TypeParam) : Option TypeError :=
  (q.constraints.find? fun c =>
    !decide (c.kind = .referenceType) && !decide (c.kind = .valueType)).map
      fun c => ⟨.constraintsInherited q.name member, c.span⟩

/-- Where the type parameters of a part disagree with those of the first part: one has the marker
and the other does not. -/
def partialErrors (decl : String) (first other : List TypeParam) : List TypeError :=
  (first.zip other).filterMap fun (a, b) =>
    if a.hasAllowsMarker ≠ b.hasAllowsMarker then
      some ⟨.inconsistentPartialConstraints b.name decl, b.span⟩
    else none

/-- The positions of the siblings that the type parameter at a position is bounded by. A name means
the first sibling that has it. -/
def boundPositions (params : List TypeParam) (i : Nat) : List Nat :=
  match params[i]? with
  | none => []
  | some q => q.boundParams.filterMap fun name =>
      params.findIdx? fun r => decide (r.name = name)

/-- The error of an edge that closes a circle; it stands at the type parameter that the edge
leaves. -/
def cycleError (params : List TypeParam) (edge : Nat × Nat) : Option TypeError :=
  match params[edge.1]?, params[edge.2]? with
  | some q, some r => some ⟨.cyclicConstraint q.name r.name, q.span⟩
  | _, _ => none

/-- The circles among type parameters, each reported where it closes. -/
def cycleErrors (params : List TypeParam) : List TypeError :=
  (closingEdges (boundPositions params) (List.range params.length)).filterMap (cycleError params)

end StackEscape
