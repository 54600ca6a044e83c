/-!
# Depth-first walks

Walks over finite directed graphs that may have circles, given by a successor function. The walk
keeps an explicit stack and the list of nodes that are still `pending`: a step either takes a node
off that list, or shortens the stack, so the walk ends on every graph.

## Main definitions

* `StackEscape.without` — a list without an element.
* `StackEscape.preorder` — the nodes reached, each once, in the order in which they are entered.

## Main results

* `StackEscape.nodup_preorder` — no node is entered twice.
* `StackEscape.mem_pending_of_mem_preorder` — only pending nodes are entered.
-/

set_option autoImplicit false

namespace StackEscape

variable {α : Type} [DecidableEq α]

/-- A list without any occurrence of an element. -/
def without (l : List α) (a : α) : List α := l.filter fun b => decide (b ≠ a)

@[simp] theorem mem_without {l : List α} {a b : α} : b ∈ without l a ↔ b ∈ l ∧ b ≠ a := by
  simp [without]

theorem length_without_lt {l : List α} {a : α} (h : a ∈ l) :
    (without l a).length < l.length :=
  List.length_filter_lt_length_iff_exists.2 ⟨a, h, by simp⟩

/-- The pending nodes reached from a stack of nodes, in the order in which a depth-first walk enters
them. -/
def preorder (succ : α → List α) (pending : List α) : List α → List α
  | [] => []
  | a :: rest =>
    if _h : a ∈ pending then a :: preorder succ (without pending a) (succ a ++ rest)
    else preorder succ pending rest
termination_by stack => (pending.length, stack.length)
decreasing_by
  · exact Prod.Lex.left _ _ (length_without_lt _h)
  · exact Prod.Lex.right _ (by simp)

/-- Only pending nodes are entered. -/
theorem mem_pending_of_mem_preorder {succ : α → List α} {pending stack : List α} {a : α}
    (h : a ∈ preorder succ pending stack) : a ∈ pending := by
  fun_induction preorder succ pending stack with
  | case1 => simp at h
  | case2 pending b rest hb ih =>
    rcases List.mem_cons.1 h with rfl | h
    · exact hb
    · exact (mem_without.1 (ih h)).1
  | case3 pending b rest hb ih => exact ih h

/-- No node is entered twice. -/
theorem nodup_preorder (succ : α → List α) (pending stack : List α) :
    (preorder succ pending stack).Nodup := by
  fun_induction preorder succ pending stack with
  | case1 => exact List.nodup_nil
  | case2 pending b rest hb ih =>
    refine List.nodup_cons.2 ⟨fun h => ?_, ih⟩
    exact (mem_without.1 (mem_pending_of_mem_preorder h)).2 rfl
  | case3 pending b rest hb ih => exact ih

end StackEscape
