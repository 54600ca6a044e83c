import Mathlib.Order.WellFounded
import StackEscape.Graph.Cycle

/-!
# Walks as recursions

The walks over graphs keep an explicit stack or path. Told as recursions, they enter a node, go through
its successors one after the other, and hand what is still pending from branch to branch. Both recursions
end on every graph, whatever circles and diamonds it has, since a node is entered only while it is pending;
and both walks do what their recursion does.

While circles are searched, a node is active until the edges that leave it are followed. An edge to an
active node closes a circle. If there is no such edge, every node that the search is done with leads
nowhere but to nodes it was done with before, so no way goes on for ever.

## Main definitions

* `StackEscape.Descent` — going through nodes and what they lead to, each entered once.
* `StackEscape.PendingStep` — a step between nodes, the second one pending.
* `StackEscape.CircleSearch`, `CircleSearches` — following the edges that leave a node, and doing so
  from each of some nodes.
* `StackEscape.Edge`, `Grounded` — an edge of a graph, and nodes from which every way ends.

## Main results

* `StackEscape.descent_preorder` — the recursion ends, and it enters what `preorder` lists.
* `StackEscape.mem_preorder_iff` — a depth-first walk enters exactly what can be reached.
* `StackEscape.circleSearches_closingEdges` — the search ends, and finds the closing edges.
* `StackEscape.mem_closingEdges` — a closing edge is on a circle.
* `StackEscape.closingEdges_eq_nil_iff` — there are none exactly if there is no circle.
-/

set_option autoImplicit false

namespace StackEscape

variable {α : Type} [DecidableEq α]

theorem without_sublist (l : List α) (a : α) : (without l a).Sublist l := List.filter_sublist

/-! ## Entering each node once -/

/-- From the pending nodes, the recursion goes through a list of nodes; it answers with the nodes that it
has entered, in order, and with those that are pending then. -/
inductive Descent (succ : α → List α) : List α → List α → List α → List α → Prop
  /-- Nothing is left to go through. -/
  | done (pending : List α) : Descent succ pending [] [] pending
  /-- A node that is not pending is passed over. -/
  | pass {pending todo entered rest : List α} {a : α} (ha : a ∉ pending)
      (hnext : Descent succ pending todo entered rest) : Descent succ pending (a :: todo) entered rest
  /-- A pending node is entered, and its successors are gone through before the next node. -/
  | enter {pending todo below mid next rest : List α} {a : α} (ha : a ∈ pending)
      (hbelow : Descent succ (without pending a) (succ a) below mid)
      (hnext : Descent succ mid todo next rest) :
      Descent succ pending (a :: todo) (a :: below ++ next) rest

namespace Descent

variable {succ : α → List α} {pending todo entered rest : List α}

/-- No node becomes pending again. -/
theorem sublist (h : Descent succ pending todo entered rest) : rest.Sublist pending := by
  induction h with
  | done => exact .refl _
  | pass _ _ ih => exact ih
  | enter _ _ _ ihbelow ihnext => exact ihnext.trans (ihbelow.trans (without_sublist _ _))

/-- The walk enters what the recursion enters, and then goes on with the rest of its stack. -/
theorem preorder_append (h : Descent succ pending todo entered rest) (stack : List α) :
    preorder succ pending (todo ++ stack) = entered ++ preorder succ rest stack := by
  induction h generalizing stack with
  | done => rfl
  | pass ha _ ih => rw [List.cons_append, preorder, dif_neg ha, ih]
  | enter ha _ _ ihbelow ihnext =>
    rw [List.cons_append, preorder, dif_pos ha, ihbelow, ihnext, List.cons_append, List.cons_append,
      List.append_assoc]

theorem preorder_eq (h : Descent succ pending todo entered rest) :
    preorder succ pending todo = entered := by
  simpa [preorder] using h.preorder_append []

end Descent

/-- The recursion ends on every graph. -/
theorem exists_descent (succ : α → List α) (pending : List α) :
    (todo : List α) → ∃ entered rest, Descent succ pending todo entered rest
  | [] => ⟨[], pending, .done pending⟩
  | a :: todo => by
    by_cases ha : a ∈ pending
    · obtain ⟨below, mid, hbelow⟩ := exists_descent succ (without pending a) (succ a)
      obtain ⟨next, rest, hnext⟩ := exists_descent succ mid todo
      exact ⟨_, rest, .enter ha hbelow hnext⟩
    · obtain ⟨entered, rest, hnext⟩ := exists_descent succ pending todo
      exact ⟨entered, rest, .pass ha hnext⟩
termination_by todo => (pending.length, todo.length)
decreasing_by
  · exact Prod.Lex.left _ _ (length_without_lt ha)
  · exact Prod.Lex.left _ _ (hbelow.sublist.length_le.trans_lt (length_without_lt ha))
  · exact Prod.Lex.right _ (Nat.lt_succ_self _)

/-- The recursion ends on every graph, and it enters what the walk enters. -/
theorem descent_preorder (succ : α → List α) (pending todo : List α) :
    ∃ rest, Descent succ pending todo (preorder succ pending todo) rest := by
  obtain ⟨entered, rest, h⟩ := exists_descent succ pending todo
  exact ⟨rest, h.preorder_eq ▸ h⟩

/-! ## What a walk enters -/

section Preorder

variable {succ : α → List α} {pending stack : List α} {a b : α}

/-- One step of a walk among the pending nodes. -/
def PendingStep (succ : α → List α) (pending : List α) (a b : α) : Prop :=
  b ∈ succ a ∧ b ∈ pending

/-- What is entered can be reached. -/
theorem reached_of_mem_preorder (h : a ∈ preorder succ pending stack) :
    ∃ b ∈ stack, b ∈ pending ∧ Relation.ReflTransGen (PendingStep succ pending) b a := by
  fun_induction preorder succ pending stack with
  | case1 => simp at h
  | case2 pending b rest hb ih =>
    rcases List.mem_cons.1 h with rfl | h
    · exact ⟨a, List.mem_cons_self .., hb, .refl⟩
    · obtain ⟨c, hc, hcp, hpath⟩ := ih h
      have hpath : Relation.ReflTransGen (PendingStep succ pending) c a :=
        Relation.ReflTransGen.mono (fun _ _ hstep => ⟨hstep.1, (mem_without.1 hstep.2).1⟩) _ _ hpath
      have hcp := (mem_without.1 hcp).1
      rcases List.mem_append.1 hc with hc | hc
      · exact ⟨b, List.mem_cons_self .., hb, .head ⟨hc, hcp⟩ hpath⟩
      · exact ⟨c, List.mem_cons_of_mem _ hc, hcp, hpath⟩
  | case3 pending b rest hb ih =>
    obtain ⟨c, hc, hcp, hpath⟩ := ih h
    exact ⟨c, List.mem_cons_of_mem _ hc, hcp, hpath⟩

/-- Pending nodes on the stack are entered. -/
theorem mem_preorder_of_mem_stack (ha : a ∈ stack) (hp : a ∈ pending) :
    a ∈ preorder succ pending stack := by
  fun_induction preorder succ pending stack with
  | case1 => simp at ha
  | case2 pending b rest hb ih =>
    by_cases heq : a = b
    · exact heq ▸ List.mem_cons_self ..
    · have hrest := (List.mem_cons.1 ha).resolve_left heq
      exact List.mem_cons_of_mem _ (ih (List.mem_append_right _ hrest) (mem_without.2 ⟨hp, heq⟩))
  | case3 pending b rest hb ih =>
    exact ih ((List.mem_cons.1 ha).resolve_left fun heq => hb (heq ▸ hp)) hp

/-- The pending successors of a node that is entered are entered. -/
theorem mem_preorder_of_step (ha : a ∈ preorder succ pending stack)
    (hstep : PendingStep succ pending a b) : b ∈ preorder succ pending stack := by
  fun_induction preorder succ pending stack with
  | case1 => simp at ha
  | case2 pending c rest hc ih =>
    by_cases heq : b = c
    · exact heq ▸ List.mem_cons_self ..
    · have hpending : b ∈ without pending c := mem_without.2 ⟨hstep.2, heq⟩
      rcases List.mem_cons.1 ha with rfl | ha
      · exact List.mem_cons_of_mem _
          (mem_preorder_of_mem_stack (List.mem_append_left _ hstep.1) hpending)
      · exact List.mem_cons_of_mem _ (ih ha ⟨hstep.1, hpending⟩)
  | case3 pending c rest hc ih => exact ih ha hstep

/-- What can be reached from a pending node of the stack is entered. -/
theorem mem_preorder_of_reached (hb : b ∈ stack) (hp : b ∈ pending)
    (h : Relation.ReflTransGen (PendingStep succ pending) b a) :
    a ∈ preorder succ pending stack := by
  induction h with
  | refl => exact mem_preorder_of_mem_stack hb hp
  | tail _ hstep ih => exact mem_preorder_of_step ih hstep

/-- A depth-first walk enters exactly the nodes that can be reached from its stack. -/
theorem mem_preorder_iff : a ∈ preorder succ pending stack ↔
    ∃ b ∈ stack, b ∈ pending ∧ Relation.ReflTransGen (PendingStep succ pending) b a :=
  ⟨reached_of_mem_preorder, fun ⟨_, hb, hp, h⟩ => mem_preorder_of_reached hb hp h⟩

end Preorder

/-! ## Searching circles -/

/-- While some nodes are active, the search follows edges that leave one of them; it answers with the
edges that close a circle, in order, and with the nodes that are pending then. -/
inductive CircleSearch (succ : α → List α) :
    List α → List α → α → List α → List (α × α) → List α → Prop
  /-- All edges are followed. -/
  | done (active pending : List α) (a : α) : CircleSearch succ active pending a [] [] pending
  /-- A pending node is entered. It is active while the edges that leave it are followed. -/
  | enter {active pending todo mid rest : List α} {a b : α} {inner next : List (α × α)}
      (hb : b ∈ pending)
      (hinner : CircleSearch succ (b :: active) (without pending b) b (succ b) inner mid)
      (hnext : CircleSearch succ active mid a todo next rest) :
      CircleSearch succ active pending a (b :: todo) (inner ++ next) rest
  /-- An edge to an active node closes a circle. -/
  | close {active pending todo rest : List α} {a b : α} {next : List (α × α)} (hb : b ∉ pending)
      (hactive : b ∈ active) (hnext : CircleSearch succ active pending a todo next rest) :
      CircleSearch succ active pending a (b :: todo) ((a, b) :: next) rest
  /-- Other edges lead to where the search was before. -/
  | pass {active pending todo rest : List α} {a b : α} {next : List (α × α)} (hb : b ∉ pending)
      (hactive : b ∉ active) (hnext : CircleSearch succ active pending a todo next rest) :
      CircleSearch succ active pending a (b :: todo) next rest

/-- Searches from each of some nodes, as far as they are still pending; the answer has the edges that
close a circle. -/
inductive CircleSearches (succ : α → List α) : List α → List α → List (α × α) → Prop
  /-- Nothing is left to search from. -/
  | done (pending : List α) : CircleSearches succ pending [] []
  /-- The search from a pending node. -/
  | search {pending nodes mid : List α} {a : α} {edges next : List (α × α)} (ha : a ∈ pending)
      (hfirst : CircleSearch succ [a] (without pending a) a (succ a) edges mid)
      (hnext : CircleSearches succ mid nodes next) :
      CircleSearches succ pending (a :: nodes) (edges ++ next)
  /-- An earlier search was there. -/
  | pass {pending nodes : List α} {a : α} {next : List (α × α)} (ha : a ∉ pending)
      (hnext : CircleSearches succ pending nodes next) : CircleSearches succ pending (a :: nodes) next

/-- An edge of a graph. -/
def Edge (succ : α → List α) (a b : α) : Prop := b ∈ succ a

/-- Every way from the node ends. -/
def Grounded (succ : α → List α) (a : α) : Prop := Acc (Function.swap (Edge succ)) a

omit [DecidableEq α] in
/-- A way ends if it ends after its first edge. -/
theorem Grounded.intro {succ : α → List α} {a : α} (h : ∀ b ∈ succ a, Grounded succ b) :
    Grounded succ a := Acc.intro a h

/-- The walk looks for active nodes on its path. -/
theorem any_fst_eq (path : List (α × List α)) (b : α) :
    (path.any fun e => decide (e.1 = b)) = decide (b ∈ path.map Prod.fst) := by
  rw [List.any_eq, decide_eq_decide, List.mem_map]
  simp only [decide_eq_true_eq]

namespace CircleSearch

variable {succ : α → List α} {active pending todo rest : List α} {a : α} {edges : List (α × α)}

/-- No node becomes pending again. -/
theorem sublist (h : CircleSearch succ active pending a todo edges rest) : rest.Sublist pending := by
  induction h with
  | done => exact .refl _
  | enter _ _ _ ihinner ihnext => exact ihnext.trans (ihinner.trans (without_sublist _ _))
  | close _ _ _ ih => exact ih
  | pass _ _ _ ih => exact ih

/-- The walk reports what the search finds, and then goes on with the rest of its path. -/
theorem closingWalk_cons (h : CircleSearch succ active pending a todo edges rest)
    (path : List (α × List α)) (hactive : active = a :: path.map Prod.fst) :
    closingWalk succ pending ((a, todo) :: path) =
      (edges ++ (closingWalk succ rest path).1, (closingWalk succ rest path).2) := by
  induction h generalizing path with
  | done => rw [closingWalk]; rfl
  | @enter _ _ todo _ _ a b _ _ hb _ _ ihinner ihnext =>
    rw [closingWalk, dif_pos hb, ihinner ((a, todo) :: path) (by rw [hactive]; rfl),
      ihnext path hactive, List.append_assoc]
  | @close active _ todo _ a b _ hb hmem _ ih =>
    have hpath : ((a, todo) :: path).map Prod.fst = active := hactive.symm
    rw [closingWalk, dif_neg hb, ih path hactive, any_fst_eq, hpath, decide_eq_true hmem]
    rfl
  | @pass active _ todo _ a b _ hb hmem _ ih =>
    have hpath : ((a, todo) :: path).map Prod.fst = active := hactive.symm
    rw [closingWalk, dif_neg hb, ih path hactive, any_fst_eq, hpath, decide_eq_false hmem]
    rfl

/-- What the search finds is on a circle: there is a way from each active node to where it stands. -/
theorem on_circle (h : CircleSearch succ active pending a todo edges rest)
    (hactive : ∀ c ∈ active, Relation.ReflTransGen (Edge succ) c a) (htodo : todo ⊆ succ a) :
    ∀ e ∈ edges, Edge succ e.1 e.2 ∧ Relation.ReflTransGen (Edge succ) e.2 e.1 := by
  induction h with
  | done => exact fun e he => absurd he List.not_mem_nil
  | enter _ _ _ ihinner ihnext =>
    obtain ⟨hedge, htodo⟩ := List.cons_subset.1 htodo
    refine List.forall_mem_append.2 ⟨ihinner ?_ (List.Subset.refl _), ihnext hactive htodo⟩
    exact List.forall_mem_cons.2 ⟨.refl, fun c hc => (hactive c hc).tail hedge⟩
  | close _ hmem _ ih =>
    obtain ⟨hedge, htodo⟩ := List.cons_subset.1 htodo
    exact List.forall_mem_cons.2 ⟨⟨hedge, hactive _ hmem⟩, ih hactive htodo⟩
  | pass _ _ _ ih => exact ih hactive (List.cons_subset.1 htodo).2

/-- If the search finds nothing, every way from the node it was following ends. The nodes that are neither
pending nor active are those that the search is done with; from them every way ends, before and after. -/
theorem grounded (h : CircleSearch succ active pending a todo edges rest) (hnone : edges = [])
    (hknown : ∀ c, c ∈ pending ∨ c ∈ active ∨ Grounded succ c)
    (htodo : ∀ b ∈ succ a, b ∈ todo ∨ Grounded succ b) :
    Grounded succ a ∧ ∀ c, c ∈ rest ∨ c ∈ active ∨ Grounded succ c := by
  induction h with
  | done => exact ⟨.intro fun b hb => (htodo b hb).resolve_left List.not_mem_nil, hknown⟩
  | @enter active pending _ mid _ a b _ _ hb _ _ ihinner ihnext =>
    obtain ⟨hinner, hnext⟩ := List.append_eq_nil_iff.1 hnone
    have hentered (c : α) : c ∈ without pending b ∨ c ∈ b :: active ∨ Grounded succ c := by
      by_cases hc : c = b
      · exact .inr (.inl (hc ▸ List.mem_cons_self ..))
      · exact (hknown c).imp (fun hp => mem_without.2 ⟨hp, hc⟩) (.imp_left (List.mem_cons_of_mem b))
    obtain ⟨hdone, hmid⟩ := ihinner hinner hentered fun _ hc => .inl hc
    -- The node that was entered is done with, so it need not be active any more.
    refine ihnext hnext (fun c => ?_) fun c hc => ?_
    · rcases hmid c with hc | hc | hc
      · exact .inl hc
      · exact .inr ((List.mem_cons.1 hc).elim (fun heq => .inr (heq ▸ hdone)) .inl)
      · exact .inr (.inr hc)
    · rcases htodo c hc with hc | hc
      · exact (List.mem_cons.1 hc).elim (fun heq => .inr (heq ▸ hdone)) .inl
      · exact .inr hc
  | close => exact absurd hnone (List.cons_ne_nil _ _)
  | @pass _ _ _ _ _ b _ hb hmem _ ih =>
    have hdone : Grounded succ b := ((hknown b).resolve_left hb).resolve_left hmem
    refine ih hnone hknown fun c hc => ?_
    rcases htodo c hc with hc | hc
    · exact (List.mem_cons.1 hc).elim (fun heq => .inr (heq ▸ hdone)) .inl
    · exact .inr hc

end CircleSearch

/-- The search ends on every graph. -/
theorem exists_circleSearch (succ : α → List α) (active pending : List α) (a : α) :
    (todo : List α) → ∃ edges rest, CircleSearch succ active pending a todo edges rest
  | [] => ⟨[], pending, .done active pending a⟩
  | b :: todo => by
    by_cases hb : b ∈ pending
    · obtain ⟨inner, mid, hinner⟩ :=
        exists_circleSearch succ (b :: active) (without pending b) b (succ b)
      obtain ⟨next, rest, hnext⟩ := exists_circleSearch succ active mid a todo
      exact ⟨_, rest, .enter hb hinner hnext⟩
    · obtain ⟨next, rest, hnext⟩ := exists_circleSearch succ active pending a todo
      by_cases hactive : b ∈ active
      · exact ⟨_, rest, .close hb hactive hnext⟩
      · exact ⟨_, rest, .pass hb hactive hnext⟩
termination_by todo => (pending.length, todo.length)
decreasing_by
  · exact Prod.Lex.left _ _ (length_without_lt hb)
  · exact Prod.Lex.left _ _ (hinner.sublist.length_le.trans_lt (length_without_lt hb))
  · exact Prod.Lex.right _ (Nat.lt_succ_self _)

/-- A walk from one node is the search from it. -/
theorem circleSearch_closingWalk (succ : α → List α) (pending : List α) (a : α) :
    CircleSearch succ [a] pending a (succ a) (closingWalk succ pending [(a, succ a)]).1
      (closingWalk succ pending [(a, succ a)]).2 := by
  obtain ⟨edges, rest, h⟩ := exists_circleSearch succ [a] pending a (succ a)
  have hwalk : closingWalk succ pending [(a, succ a)] = (edges, rest) := by
    simpa [closingWalk] using h.closingWalk_cons [] rfl
  exact hwalk ▸ h

theorem circleSearches_closingEdgesFrom (succ : α → List α) (pending nodes : List α) :
    CircleSearches succ pending nodes (closingEdgesFrom succ pending nodes) := by
  induction nodes generalizing pending with
  | nil => exact .done pending
  | cons a nodes ih =>
    rw [closingEdgesFrom]
    split
    · next ha => exact .search ha (circleSearch_closingWalk succ (without pending a) a) (ih _)
    · next ha => exact .pass ha (ih pending)

/-- The searches end on every graph, and they find its closing edges. -/
theorem circleSearches_closingEdges (succ : α → List α) (nodes : List α) :
    CircleSearches succ nodes nodes (closingEdges succ nodes) :=
  circleSearches_closingEdgesFrom succ nodes nodes

namespace CircleSearches

variable {succ : α → List α} {pending nodes : List α} {edges : List (α × α)}

/-- What searches find is on a circle. -/
theorem on_circle (h : CircleSearches succ pending nodes edges) :
    ∀ e ∈ edges, Edge succ e.1 e.2 ∧ Relation.ReflTransGen (Edge succ) e.2 e.1 := by
  induction h with
  | done => exact fun e he => absurd he List.not_mem_nil
  | search _ hfirst _ ih =>
    refine List.forall_mem_append.2 ⟨hfirst.on_circle (fun c hc => ?_) (List.Subset.refl _), ih⟩
    exact List.mem_singleton.1 hc ▸ .refl
  | pass _ _ ih => exact ih

/-- If searches from all pending nodes find nothing, every way ends. -/
theorem grounded (h : CircleSearches succ pending nodes edges) (hnone : edges = [])
    (hpending : pending ⊆ nodes) (hknown : ∀ c, c ∈ pending ∨ Grounded succ c) (c : α) :
    Grounded succ c := by
  induction h with
  | done => exact (hknown c).resolve_left fun hc => List.not_mem_nil (hpending hc)
  | @search pending nodes mid a _ _ ha hfirst _ ih =>
    obtain ⟨hedges, hnext⟩ := List.append_eq_nil_iff.1 hnone
    have hentered (c : α) : c ∈ without pending a ∨ c ∈ [a] ∨ Grounded succ c := by
      by_cases hc : c = a
      · exact .inr (.inl (List.mem_singleton.2 hc))
      · exact (hknown c).imp (fun hp => mem_without.2 ⟨hp, hc⟩) .inr
    obtain ⟨hdone, hmid⟩ := hfirst.grounded hedges hentered fun _ hc => .inl hc
    refine ih hnext (fun c hc => ?_) fun c => ?_
    · obtain ⟨hp, hne⟩ := mem_without.1 (hfirst.sublist.subset hc)
      exact (List.mem_cons.1 (hpending hp)).resolve_left hne
    · exact (hmid c).imp_right fun hc => hc.elim (fun hc => List.mem_singleton.1 hc ▸ hdone) id
  | pass ha _ ih =>
    refine ih hnone (fun c hc => ?_) hknown
    exact (List.mem_cons.1 (hpending hc)).resolve_left fun heq => ha (heq ▸ hc)

end CircleSearches

section ClosingEdges

variable {succ : α → List α} {nodes : List α}

/-- A closing edge is on a circle. -/
theorem mem_closingEdges {e : α × α} (he : e ∈ closingEdges succ nodes) :
    Edge succ e.1 e.2 ∧ Relation.ReflTransGen (Edge succ) e.2 e.1 :=
  (circleSearches_closingEdges succ nodes).on_circle e he

/-- There are no closing edges exactly if there is no circle, as long as edges only leave the nodes of
the graph. -/
theorem closingEdges_eq_nil_iff (hnodes : ∀ a, a ∉ nodes → succ a = []) :
    closingEdges succ nodes = [] ↔ ∀ a, ¬ Relation.TransGen (Edge succ) a a := by
  constructor
  · intro hnone a hcircle
    have hknown (c : α) : c ∈ nodes ∨ Grounded succ c := by
      refine (Classical.em (c ∈ nodes)).imp_right fun hc => .intro fun b hb => ?_
      exact absurd (hnodes c hc ▸ hb) List.not_mem_nil
    have hwf : WellFounded (Function.swap (Edge succ)) :=
      ⟨(circleSearches_closingEdges succ nodes).grounded hnone (List.Subset.refl _) hknown⟩
    exact hwf.transGen.irrefl.irrefl a (Relation.transGen_swap.2 hcircle)
  · intro hcircle
    refine List.eq_nil_iff_forall_not_mem.2 fun e he => ?_
    obtain ⟨hedge, hback⟩ := mem_closingEdges he
    exact hcircle e.1 (Relation.TransGen.head' hedge hback)

end ClosingEdges

end StackEscape
