import StackEscape.Source.Span

/-!
# Type and member references

Types and members as a bound program refers to them: every name is already resolved, so a reference
says which kind of thing it names.

## Main definitions

* `StackEscape.TypeRef` — a type, possibly an instance of a generic one.
* `StackEscape.TypeRef.declName` — the declaration that a type refers to.
* `StackEscape.MemberRef` — a member by the type it was found on and its name.
* `StackEscape.TypeRef.display`, `MemberRef.display` — how messages write them.

## Main results

* `StackEscape.TypeRef.same_iff` — `TypeRef.same` decides equality.
-/

set_option autoImplicit false

namespace StackEscape

/-- A type as resolved by the binder. -/
inductive TypeRef where
  /-- No value. -/
  | void
  /-- A built-in value type. -/
  | primitive (name : String)
  /-- The universal reference type. -/
  | object
  /-- The late-bound type. -/
  | dynamic
  /-- A declared or well-known type, with its type arguments. -/
  | named (name : String) (args : List TypeRef)
  /-- A type parameter in scope. -/
  | param (name : String)
  /-- A single-dimensional array. -/
  | array (elem : TypeRef)
  deriving Inhabited, Repr

namespace TypeRef

mutual

/-- Are two types the same, type arguments included? -/
def same : TypeRef → TypeRef → Bool
  | void, void => true
  | object, object => true
  | dynamic, dynamic => true
  | primitive a, primitive b => decide (a = b)
  | named a as, named b bs => decide (a = b) && sameArgs as bs
  | param a, param b => decide (a = b)
  | array a, array b => same a b
  | _, _ => false

/-- Are two lists of types the same? -/
def sameArgs : List TypeRef → List TypeRef → Bool
  | [], [] => true
  | a :: as, b :: bs => same a b && sameArgs as bs
  | _, _ => false

end

mutual

theorem same_iff : (a b : TypeRef) → (same a b = true ↔ a = b)
  | void, b | object, b | dynamic, b | primitive _, b | param _, b => by
    cases b <;> simp [same]
  | named a as, b => by
    cases b <;> simp [same, sameArgs_iff as]
  | array a, b => by
    cases b <;> simp [same, same_iff a]

theorem sameArgs_iff : (as bs : List TypeRef) → (sameArgs as bs = true ↔ as = bs)
  | [], bs => by cases bs <;> simp [sameArgs]
  | a :: as, bs => by cases bs <;> simp [sameArgs, same_iff a, sameArgs_iff as]

end

instance : DecidableEq TypeRef := fun a b => decidable_of_iff _ (same_iff a b)

/-- The built-in truth type. -/
def bool : TypeRef := primitive "bool"

/-- The built-in integer type. -/
def int : TypeRef := primitive "int"

/-- The name of the declaration that the type refers to, if there is one. -/
def declName : TypeRef → Option String
  | named name _ => some name
  | _ => none

mutual

/-- The type as messages write it. -/
def display : TypeRef → String
  | void => "void"
  | primitive name => name
  | object => "object"
  | dynamic => "dynamic"
  | named name [] => name
  | named name (a :: as) => name ++ "<" ++ display a ++ displayMore as ++ ">"
  | param name => name
  | array elem => display elem ++ "[]"

/-- Further type arguments, each behind a comma. -/
def displayMore : List TypeRef → String
  | [] => ""
  | a :: as => ", " ++ display a ++ displayMore as

end

end TypeRef

/-- A member chosen by overload resolution. For a call on a type parameter the owner is the
parameter itself, whatever type is later substituted for it. -/
structure MemberRef where
  /-- The type on which the member was found. -/
  owner : TypeRef
  /-- The member's name. -/
  name : String
  deriving DecidableEq, Inhabited, Repr

namespace MemberRef

/-- The owner without type arguments, a dot, and the name. -/
def display (m : MemberRef) : String :=
  (m.owner.declName.getD m.owner.display) ++ "." ++ m.name

end MemberRef

end StackEscape
