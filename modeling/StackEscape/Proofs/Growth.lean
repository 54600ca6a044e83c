import StackEscape.Proofs.WalkInduction

/-!
# Facts only grow

A walk adds to the facts: it records pairs of expressions and ways of null tests, and it notes
copies. Nothing that it found is ever taken back, in whatever state it begins and whatever it walks
over.

## Main definitions

* `StackEscape.Facts.Step`, `Grows` — one addition to the facts, and any number of them.
* `StackEscape.Walk.Grows` — a walk that only adds to the facts.

## Main results

* `StackEscape.Facts.Grows.pairs`, `defensiveCopies` — no expression loses its record, and no note
  of a copy is lost.
* `StackEscape.Walk.Grows.checkExpr`, `checkPattern`, `checkStmts` — the walk only adds to the
  facts.
-/

set_option autoImplicit false

namespace StackEscape

namespace Facts

/-- Something is added to the facts. -/
inductive Step (f : Facts) : Facts → Prop where
  /-- The pair of an expression is recorded. -/
  | record (id : NodeId) (pair : ScopePair) : Step f (f.record id pair)
  /-- The way of a null test is recorded. -/
  | recordNullTest (id : NodeId) (test : NullTest) : Step f (f.recordNullTest id test)
  /-- A copy is noted. -/
  | noteCopy (span : Span) : Step f (f.noteCopy span)

/-- The second facts come from the first by additions. -/
def Grows : Facts → Facts → Prop := Relation.ReflTransGen Step

namespace Grows

variable {f g : Facts}

/-- No expression loses its record. -/
theorem pairs (h : f.Grows g) {id : NodeId} (hid : (f.pair? id).isSome) :
    (g.pair? id).isSome := by
  induction h with
  | refl => exact hid
  | tail _ hstep ih =>
    cases hstep with
    | record id' pair =>
      change ((Table.set _ id' pair).get? id).isSome
      rw [Table.get?_set]
      split
      · rfl
      · exact ih
    | recordNullTest => exact ih
    | noteCopy => exact ih

/-- Copies are noted behind those that were noted before. -/
theorem defensiveCopies (h : f.Grows g) : f.defensiveCopies <+: g.defensiveCopies := by
  induction h with
  | refl => exact List.prefix_refl _
  | tail _ hstep ih =>
    cases hstep with
    | record => exact ih
    | recordNullTest => exact ih
    | noteCopy span => exact ih.trans (List.prefix_append _ _)

end Grows

end Facts

namespace Walk

/-- Whatever the state is, the walk only adds to the facts. -/
def Grows {α : Type} (m : Walk α) : Prop := ∀ s : WalkState, s.facts.Grows (m.after s).facts

namespace Grows

variable {α β : Type} {env : Surroundings}

/-- A walk that does not touch the facts. -/
theorem silent {m : Walk α} (h : ∀ s : WalkState, (m.after s).facts = s.facts) : Grows m :=
  fun s => h s ▸ .refl

theorem bind {m : Walk α} {f : α → Walk β} (hm : Grows m) (hf : ∀ x, Grows (f x)) :
    Grows (m >>= f) :=
  fun s => (hm s).trans (hf _ _)

/-- Every step adds to the facts or leaves them alone. -/
theorem closed : Closed Grows where
  silent h := silent fun s => (h s).1
  bind := bind
  look h := fun s => h s s
  reportAll _ := silent fun _ => rfl
  record id pair := fun _ => .single (.record id pair)
  recordNullTest id test := fun _ => .single (.recordNullTest id test)
  noteCopy span := fun _ => .single (.noteCopy span)

/-- No sink touches the facts. -/
theorem closedAtSinks (env : Surroundings) : ClosedAtSinks env Grows where
  toClosed := closed
  mixing _ _ _ _ _ := silent fun _ => rfl
  assigned _ _ _ _ _ := silent fun s => by rw [after_checkAssignment]
  returned h := h.bind fun _ => silent fun s => by rw [after_checkReturned]

theorem checkExpr (e : Expr) : Grows (Walk.checkExpr env e) := (closedAtSinks env).checkExpr e

theorem checkPattern (input : ScopePair) (inputTy : TypeRef) (span : Span) (p : Pattern) :
    Grows (Walk.checkPattern env input inputTy span p) :=
  (closedAtSinks env).checkPattern input inputTy span p

theorem checkStmts (stmts : List Stmt) : Grows (Walk.checkStmts env stmts) :=
  (closedAtSinks env).checkStmts stmts

end Grows

end Walk

end StackEscape
