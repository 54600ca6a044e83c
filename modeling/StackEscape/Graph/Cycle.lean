import StackEscape.Graph.Preorder

/-!
# Closing edges

Circles in a finite directed graph, as a depth-first walk meets them. The walk keeps the path from
its start to where it stands, each node with the edges it has not followed yet; an edge back to a
node of that path closes a circle and is reported.

## Main definitions

* `StackEscape.closingEdges` — the edges that close a circle, in the order in which they are met.
-/

set_option autoImplicit false

namespace StackEscape

variable {α : Type} [DecidableEq α]

/-- How much of a path is left to follow: its unfollowed edges, and the nodes to come back to. -/
def unfollowed : List (α × List α) → Nat
  | [] => 0
  | (_, bs) :: path => bs.length + 1 + unfollowed path

/-- One walk: the path, innermost node first and each with its unfollowed edges, and the nodes that
are still pending. The answer has the closing edges and the nodes pending at the end. -/
def closingWalk (succ : α → List α) (pending : List α) :
    List (α × List α) → List (α × α) × List α
  | [] => ([], pending)
  | (_, []) :: path => closingWalk succ pending path
  | (a, b :: bs) :: path =>
    if _h : b ∈ pending then
      closingWalk succ (without pending b) ((b, succ b) :: (a, bs) :: path)
    else
      let (edges, rest) := closingWalk succ pending ((a, bs) :: path)
      (if ((a, bs) :: path).any (fun e => decide (e.1 = b)) then (a, b) :: edges else edges, rest)
termination_by path => (pending.length, unfollowed path)
decreasing_by
  · exact Prod.Lex.right _ (by simp only [unfollowed, List.length_nil]; omega)
  · exact Prod.Lex.left _ _ (length_without_lt _h)
  · exact Prod.Lex.right _ (by simp only [unfollowed, List.length_cons]; omega)

/-- The closing edges met by walks from each of some nodes, each walk entering only what no walk
before it has entered. -/
def closingEdgesFrom (succ : α → List α) : List α → List α → List (α × α)
  | _, [] => []
  | pending, a :: rest =>
    if a ∈ pending then
      let (edges, pending) := closingWalk succ (without pending a) [(a, succ a)]
      edges ++ closingEdgesFrom succ pending rest
    else closingEdgesFrom succ pending rest

/-- The closing edges of a graph on the given nodes. -/
def closingEdges (succ : α → List α) (nodes : List α) : List (α × α) :=
  closingEdgesFrom succ nodes nodes

end StackEscape
