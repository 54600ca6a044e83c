import StackEscape.Json.Value

/-!
# Writing JSON texts

Two layouts: a compact one without blanks, and an indented one with two blanks per level. Both write
in front of a given rest, so that no text is copied on the way.

## Main definitions

* `StackEscape.Json.escape` — a character inside of a string.
* `StackEscape.Json.Value.compact`, `indented` — the two layouts.
-/

set_option autoImplicit false

namespace StackEscape.Json

/-- A hexadecimal digit, in lower case. -/
def hexChar (n : Nat) : Char := if n < 10 then Char.ofNat (48 + n) else Char.ofNat (87 + n)

/-- A character inside of a string. Quotes, backslashes and control characters are escaped, by a
letter where there is one; everything else stands for itself. -/
def escape (c : Char) : List Char :=
  if c = '"' then ['\\', '"']
  else if c = '\\' then ['\\', '\\']
  else if c = '\n' then ['\\', 'n']
  else if c = '\r' then ['\\', 'r']
  else if c = '\t' then ['\\', 't']
  else if c = '\x08' then ['\\', 'b']
  else if c = '\x0c' then ['\\', 'f']
  else if c.toNat < 0x20 then
    ['\\', 'u', '0', '0', hexChar (c.toNat / 16), hexChar (c.toNat % 16)]
  else [c]

/-- The characters of a string, escaped, in front of a rest. -/
def escapeOnto : List Char → List Char → List Char
  | [], rest => rest
  | c :: cs, rest => escape c ++ escapeOnto cs rest

/-- A string in quotes. A broken text has no characters and is written as the empty string. -/
def Text.quoteOnto (t : Text) (rest : List Char) : List Char :=
  '"' :: escapeOnto ((t.whole?.getD "").toList) ('"' :: rest)

/-- An integer in decimal digits, in front of a rest. -/
def intOnto (n : Int) (rest : List Char) : List Char :=
  if n < 0 then '-' :: (Nat.toDigits 10 n.natAbs ++ rest) else Nat.toDigits 10 n.natAbs ++ rest

namespace Value

/-- A value without parts, in front of a rest. -/
def scalarOnto (v : Value) (rest : List Char) : List Char :=
  match v with
  | null => "null".toList ++ rest
  | bool true => "true".toList ++ rest
  | bool false => "false".toList ++ rest
  | int n => intOnto n rest
  | real literal => literal.toList ++ rest
  | str t => t.quoteOnto rest
  | arr _ | obj _ => rest

/-! ## The compact layout -/

mutual

/-- A value without blanks, in front of a rest. -/
def compactOnto : Value → List Char → List Char
  | arr [], rest => '[' :: ']' :: rest
  | arr (v :: vs), rest => '[' :: compactOnto v (compactItems vs (']' :: rest))
  | obj [], rest => '\x7b' :: '\x7d' :: rest
  | obj ((k, v) :: fs), rest =>
    '\x7b' :: k.quoteOnto (':' :: compactOnto v (compactFields fs ('\x7d' :: rest)))
  | null, rest => scalarOnto null rest
  | bool b, rest => scalarOnto (bool b) rest
  | int n, rest => scalarOnto (int n) rest
  | real literal, rest => scalarOnto (real literal) rest
  | str t, rest => scalarOnto (str t) rest

/-- Further items, each behind a comma. -/
def compactItems : List Value → List Char → List Char
  | [], rest => rest
  | v :: vs, rest => ',' :: compactOnto v (compactItems vs rest)

/-- Further fields, each behind a comma. -/
def compactFields : List (Text × Value) → List Char → List Char
  | [], rest => rest
  | (k, v) :: fs, rest => ',' :: k.quoteOnto (':' :: compactOnto v (compactFields fs rest))

end

/-- The text of a value without blanks. -/
def compact (v : Value) : String := String.ofList (compactOnto v [])

/-! ## The indented layout -/

/-- A new line, indented by some levels. -/
def newlineOnto (level : Nat) (rest : List Char) : List Char :=
  '\n' :: (List.replicate (2 * level) ' ' ++ rest)

mutual

/-- A value on the given level, in front of a rest. Every item and field has a line of its own. -/
def indentedOnto (level : Nat) : Value → List Char → List Char
  | arr [], rest => '[' :: ']' :: rest
  | arr (v :: vs), rest =>
    '[' :: newlineOnto (level + 1) (indentedOnto (level + 1) v
      (indentedItems (level + 1) vs (newlineOnto level (']' :: rest))))
  | obj [], rest => '\x7b' :: '\x7d' :: rest
  | obj ((k, v) :: fs), rest =>
    '\x7b' :: newlineOnto (level + 1) (k.quoteOnto (':' :: ' ' :: indentedOnto (level + 1) v
      (indentedFields (level + 1) fs (newlineOnto level ('\x7d' :: rest)))))
  | null, rest => scalarOnto null rest
  | bool b, rest => scalarOnto (bool b) rest
  | int n, rest => scalarOnto (int n) rest
  | real literal, rest => scalarOnto (real literal) rest
  | str t, rest => scalarOnto (str t) rest

/-- Further items, each behind a comma and on a new line. -/
def indentedItems (level : Nat) : List Value → List Char → List Char
  | [], rest => rest
  | v :: vs, rest =>
    ',' :: newlineOnto level (indentedOnto level v (indentedItems level vs rest))

/-- Further fields, each behind a comma and on a new line. -/
def indentedFields (level : Nat) : List (Text × Value) → List Char → List Char
  | [], rest => rest
  | (k, v) :: fs, rest =>
    ',' :: newlineOnto level (k.quoteOnto (':' :: ' ' :: indentedOnto level v
      (indentedFields level fs rest)))

end

/-- The text of a value, indented by two blanks per level. -/
def indented (v : Value) : String := String.ofList (indentedOnto 0 v [])

end Value

end StackEscape.Json
