import StackEscape.Facts

/-!
# Blame

Which expression an error names when something does not escape as far as it would have to: the
variable, deep inside of the expression, from which the narrow level came.

## Main definitions

* `StackEscape.Expr.describe` — a short name for an expression.
* `StackEscape.Expr.children` — the direct parts whose levels can flow into an expression.
* `StackEscape.Facts.blame` — the name and the level to blame.

## Main results

* `StackEscape.Facts.blame_eq` — blame passes to the first child that is too narrow.
-/

set_option autoImplicit false

namespace StackEscape

/-- The name of the property that a getter belongs to: what follows `get_`, or else its whole
name. -/
def propertyName (getter : String) : String :=
  match getter.toList with
  | 'g' :: 'e' :: 't' :: '_' :: rest => String.ofList rest
  | _ => getter

namespace Expr

/-- A short name for an expression. -/
def describe (e : Expr) : String :=
  match e.kind with
  | .var name | .outVar name => name
  | .thisRef => "this"
  | .field _ _ name => name
  | .property _ getter _ => propertyName getter.name
  | .call _ method _ _ => method.name ++ "(...)"
  | .create _ _ => "new " ++ e.ty.display
  | .stackAlloc _ _ => "stackalloc expression"
  | _ => "expression"

/-- The direct parts whose levels can flow into an expression's. -/
def children (e : Expr) : List Expr :=
  match e.kind with
  | .field receiver _ _ => receiver.toList
  | .property receiver _ args | .call receiver _ _ args => receiver.toList ++ args.map Arg.expr
  | .create _ args => args.map Arg.expr
  | .conditional _ thenExpr elseExpr _ => [thenExpr, elseExpr]
  | .convert operand _ | .await operand => [operand]
  | _ => []

end Expr

namespace Facts

/-- The level of a recorded pair that is looked at. -/
def component (byRef : Bool) (p : ScopePair) : Level := if byRef then p.ref else p.value

/-- The recorded level of an expression; unlimited where nothing is recorded. -/
def ownLevel (f : Facts) (byRef : Bool) (id : NodeId) : Level :=
  ((f.pair? id).map (component byRef)).getD .unlimited

/-- Is a part to blame, and if so, for its reference or for its value? A reference is followed as
long as references are too narrow. -/
def follows (f : Facts) (required : Level) (byRef : Bool) (id : NodeId) : Option Bool :=
  match f.pair? id with
  | none => none
  | some p =>
    if byRef && !p.ref.allowed required then some true
    else if !p.value.allowed required then some false
    else none

mutual

/-- The name to blame when an expression does not escape as far as required, and its level. -/
def blame (f : Facts) (required : Level) : Bool → Expr → String × Level
  | byRef, ⟨id, .var name, _, _⟩ => (name, f.ownLevel byRef id)
  | byRef, ⟨id, .outVar name, _, _⟩ => (name, f.ownLevel byRef id)
  | byRef, ⟨id, .thisRef, _, _⟩ => ("this", f.ownLevel byRef id)
  | byRef, ⟨id, .field receiver owner name, ty, span⟩ =>
    (blameReceiver f required byRef receiver).getD
      (Expr.describe ⟨id, .field receiver owner name, ty, span⟩, f.ownLevel byRef id)
  | byRef, ⟨id, .property receiver getter args, ty, span⟩ =>
    ((blameReceiver f required byRef receiver).or (blameArgs f required byRef args)).getD
      (Expr.describe ⟨id, .property receiver getter args, ty, span⟩, f.ownLevel byRef id)
  | byRef, ⟨id, .call receiver method typeArgs args, ty, span⟩ =>
    ((blameReceiver f required byRef receiver).or (blameArgs f required byRef args)).getD
      (Expr.describe ⟨id, .call receiver method typeArgs args, ty, span⟩, f.ownLevel byRef id)
  | byRef, ⟨id, .create ctor args, ty, span⟩ =>
    (blameArgs f required byRef args).getD
      (Expr.describe ⟨id, .create ctor args, ty, span⟩, f.ownLevel byRef id)
  | byRef, ⟨id, .conditional cond thenExpr elseExpr isRef, ty, span⟩ =>
    match f.follows required byRef thenExpr.id with
    | some next => blame f required next thenExpr
    | none =>
      match f.follows required byRef elseExpr.id with
      | some next => blame f required next elseExpr
      | none =>
        (Expr.describe ⟨id, .conditional cond thenExpr elseExpr isRef, ty, span⟩,
          f.ownLevel byRef id)
  | byRef, ⟨id, .convert operand explicit, ty, span⟩ =>
    match f.follows required byRef operand.id with
    | some next => blame f required next operand
    | none => (Expr.describe ⟨id, .convert operand explicit, ty, span⟩, f.ownLevel byRef id)
  | byRef, ⟨id, .await operand, ty, span⟩ =>
    match f.follows required byRef operand.id with
    | some next => blame f required next operand
    | none => (Expr.describe ⟨id, .await operand, ty, span⟩, f.ownLevel byRef id)
  | byRef, ⟨id, kind, ty, span⟩ => (Expr.describe ⟨id, kind, ty, span⟩, f.ownLevel byRef id)

/-- The blame within a receiver, if it is to blame. -/
def blameReceiver (f : Facts) (required : Level) : Bool → Option Expr → Option (String × Level)
  | _, none => none
  | byRef, some e => (f.follows required byRef e.id).map fun next => blame f required next e

/-- The blame within the first argument that is to blame. -/
def blameArgs (f : Facts) (required : Level) : Bool → List Arg → Option (String × Level)
  | _, [] => none
  | byRef, ⟨_, e⟩ :: rest =>
    match f.follows required byRef e.id with
    | some next => some (blame f required next e)
    | none => blameArgs f required byRef rest

end

/-- The blame within a part, if it is to blame. -/
def blameChild (f : Facts) (required : Level) (byRef : Bool) (e : Expr) :
    Option (String × Level) :=
  (f.follows required byRef e.id).map fun next => blame f required next e

theorem blameArgs_eq (f : Facts) (required : Level) (byRef : Bool) (args : List Arg) :
    f.blameArgs required byRef args =
      (args.map Arg.expr).findSome? (f.blameChild required byRef) := by
  induction args with
  | nil => simp [blameArgs]
  | cons a rest ih =>
    obtain ⟨mode, e⟩ := a
    simp only [blameArgs, List.map_cons, List.findSome?_cons, blameChild]
    cases f.follows required byRef e.id <;> simp [ih]

theorem blameReceiver_eq (f : Facts) (required : Level) (byRef : Bool) (receiver : Option Expr) :
    f.blameReceiver required byRef receiver =
      receiver.toList.findSome? (f.blameChild required byRef) := by
  cases receiver with
  | none => simp [blameReceiver]
  | some e =>
    simp only [blameReceiver, Option.toList_some, List.findSome?_cons, blameChild]
    cases f.follows required byRef e.id <;> rfl

/-- Blame passes to the first child that is too narrow, and stops where there is none. -/
theorem blame_eq (f : Facts) (required : Level) (byRef : Bool) (e : Expr) :
    f.blame required byRef e =
      (e.children.findSome? (f.blameChild required byRef)).getD
        (e.describe, f.ownLevel byRef e.id) := by
  obtain ⟨id, kind, ty, span⟩ := e
  cases kind
  case conditional c a b r =>
    simp only [blame, Expr.children, List.findSome?_cons, List.findSome?_nil, blameChild]
    cases f.follows required byRef a.id <;> cases f.follows required byRef b.id <;> simp
  case convert a x =>
    simp only [blame, Expr.children, List.findSome?_cons, List.findSome?_nil, blameChild]
    cases f.follows required byRef a.id <;> simp
  case await a =>
    simp only [blame, Expr.children, List.findSome?_cons, List.findSome?_nil, blameChild]
    cases f.follows required byRef a.id <;> simp
  all_goals
    simp [blame, Expr.children, Expr.describe, blameArgs_eq, blameReceiver_eq,
      List.findSome?_append]

end Facts

end StackEscape
