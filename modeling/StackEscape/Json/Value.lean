/-!
# JSON values

The values that JSON texts denote, kept close to the text: fields stay in order and may repeat, and
numbers that are not plain integers stay as they were spelled.

## Main definitions

* `StackEscape.Json.Text` — a string of a JSON text, which need not be a sequence of characters.
* `StackEscape.Json.Value` — a JSON value.
* `StackEscape.Json.Value.depth` — how deeply arrays and objects nest.
-/

set_option autoImplicit false

namespace StackEscape.Json

/-- A string as a JSON text spells it. Escapes can spell half of a surrogate pair; such a string is
no sequence of characters, and nothing more is kept of it. -/
inductive Text where
  /-- A sequence of characters. -/
  | whole (s : String)
  /-- A string with half of a surrogate pair. -/
  | broken
  deriving DecidableEq, Inhabited, Repr

/-- The characters of a text, if it is a sequence of characters. -/
def Text.whole? : Text → Option String
  | whole s => some s
  | broken => none

/-- A JSON value. -/
inductive Value where
  /-- The null value. -/
  | null
  /-- A truth value. -/
  | bool (b : Bool)
  /-- A number without fraction and exponent, other than minus zero. -/
  | int (n : Int)
  /-- Any other number, as it was spelled. -/
  | real (literal : String)
  /-- A string. -/
  | str (t : Text)
  /-- An array. -/
  | arr (items : List Value)
  /-- An object, its fields in order. -/
  | obj (fields : List (Text × Value))
  deriving Inhabited, Repr

namespace Value

/-- A string value. -/
def string (s : String) : Value := str (.whole s)

/-- An object with the given fields. -/
def record (fields : List (String × Value)) : Value :=
  obj (fields.map fun (k, v) => (.whole k, v))

/-- A value, or null where there is none. -/
def ofOption {α : Type} (f : α → Value) : Option α → Value
  | some a => f a
  | none => null

/-- An array of values. -/
def ofList {α : Type} (f : α → Value) (l : List α) : Value := arr (l.map f)

/-- A natural number. -/
def nat (n : Nat) : Value := int n

mutual

/-- How deeply arrays and objects nest; zero for a scalar. -/
def depth : Value → Nat
  | arr items => depthItems items + 1
  | obj fields => depthFields fields + 1
  | _ => 0

/-- The greatest depth among some items. -/
def depthItems : List Value → Nat
  | [] => 0
  | v :: vs => max (depth v) (depthItems vs)

/-- The greatest depth among the values of some fields. -/
def depthFields : List (Text × Value) → Nat
  | [] => 0
  | (_, v) :: fs => max (depth v) (depthFields fs)

end

end Value

end StackEscape.Json
