import StackEscape.Json.Value

/-!
# Records and variants in JSON

How typed data stands in JSON values. A record is an object with its field names as keys, or an
array of all its fields; a variant is its name as a string, or an object with the name as its only
key. Reading spends a budget: every array or object that is looked into costs one.

## Main definitions

* `StackEscape.Json.Value.fields?` — the fields of a record.
* `StackEscape.Json.Fields.req`, `opt` — a field that has to be there, and one that need not.
* `StackEscape.Json.Value.tagged?` — the name and the content of a variant.
* `StackEscape.Json.readEnum`, `readList` — variants without content, and lists.

## Implementation notes

A reader is a function `Nat → Value → Option α` whose first argument is the budget. Since every
nested part is read with a smaller budget, readers of trees are structurally recursive in it.
-/

set_option autoImplicit false

namespace StackEscape.Json

/-- The fields of a record that are present. -/
abbrev Fields := List (String × Value)

/-- Is no string repeated? -/
def distinct : List String → Bool
  | [] => true
  | a :: as => !as.contains a && distinct as

/-- The fields of a record with the given field names. In an object they come in any order, each at
most once, and other keys are ignored; an array lists all of them. -/
def Value.fields? (names : List String) : Value → Option Fields
  | .obj entries => do
    let entries ← entries.mapM fun (k, v) => k.whole?.map fun k => (k, v)
    let known := entries.filter fun e => names.contains e.1
    if distinct (known.map Prod.fst) then some known else none
  | .arr items => if items.length = names.length then some (names.zip items) else none
  | _ => none

namespace Fields

/-- A field that has to be there. -/
def req {α : Type} (fs : Fields) (name : String) (read : Value → Option α) : Option α :=
  (fs.lookup name).bind read

/-- A field that may be missing or null. -/
def opt {α : Type} (fs : Fields) (name : String) (read : Value → Option α) : Option (Option α) :=
  match fs.lookup name with
  | none | some .null => some none
  | some v => (read v).map some

end Fields

namespace Value

/-- The name and the content of a variant that is written as an object. -/
def tagged? : Value → Option (String × Value)
  | .obj [(.whole tag, content)] => some (tag, content)
  | _ => none

/-- The name of a variant that is written as a string. -/
def bare? : Value → Option String
  | .str (.whole tag) => some tag
  | _ => none

/-- The name of a variant without content: a string, or an object with null as its content. -/
def unitTag? : Nat → Value → Option String
  | _, .str (.whole tag) => some tag
  | _ + 1, .obj [(.whole tag, .null)] => some tag
  | _, _ => none

/-- A truth value. -/
def bool? : Value → Option Bool
  | .bool b => some b
  | _ => none

/-- A string of characters. -/
def string? : Value → Option String
  | .str t => t.whole?
  | _ => none

/-- The items of an array. -/
def items? : Value → Option (List Value)
  | .arr items => some items
  | _ => none

/-- A natural number below a bound. -/
def natBelow? (bound : Nat) : Value → Option Nat
  | .int (.ofNat n) => if n < bound then some n else none
  | _ => none

/-- A 32-bit word. -/
def word32? (v : Value) : Option UInt32 := (v.natBelow? UInt32.size).map UInt32.ofNat

/-- A 64-bit word. -/
def word64? (v : Value) : Option UInt64 := (v.natBelow? UInt64.size).map UInt64.ofNat

/-- A signed 64-bit number. -/
def int64? : Value → Option Int64
  | .int n =>
    if Int64.minValue.toInt ≤ n ∧ n ≤ Int64.maxValue.toInt then some (Int64.ofInt n) else none
  | _ => none

end Value

/-- One of some variants without content. -/
def readEnum {α : Type} (variants : List (String × α)) (budget : Nat) (v : Value) : Option α :=
  (v.unitTag? budget).bind fun tag => variants.lookup tag

/-- A list of things. -/
def readList {α : Type} (read : Nat → Value → Option α) : Nat → Value → Option (List α)
  | 0, _ => none
  | d + 1, v => v.items?.bind fun items => items.mapM (read d)

end StackEscape.Json
