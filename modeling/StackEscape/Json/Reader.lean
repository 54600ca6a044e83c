import StackEscape.Json.Value

/-!
# Reading JSON texts

A text is cut into tokens, and the tokens drive a machine that keeps a stack of the containers that
are still open. Neither stage limits how deeply a text nests.

## Main definitions

* `StackEscape.Json.Token.ofText?` — the tokens of a text.
* `StackEscape.Json.Machine` — what is expected next, and what is still open.
* `StackEscape.Json.Value.read?` — the value that a text denotes.

## Implementation notes

Numbers and words are cut off at the first character that cannot belong to one and are looked at
only then. That rejects the same texts as reading them character by character: two scalars never
stand side by side in a JSON text.
-/

set_option autoImplicit false

namespace StackEscape.Json

/-! ## Strings -/

/-- What one step through a string yields. -/
inductive Piece where
  /-- A character that stands for itself, or a short escape. -/
  | char (c : Char)
  /-- A numeric escape: a UTF-16 unit. -/
  | unit (n : Nat)

/-- The value of a hexadecimal digit. -/
def hexDigit? (c : Char) : Option Nat :=
  if '0' ≤ c ∧ c ≤ '9' then some (c.toNat - '0'.toNat)
  else if 'a' ≤ c ∧ c ≤ 'f' then some (c.toNat - 'a'.toNat + 10)
  else if 'A' ≤ c ∧ c ≤ 'F' then some (c.toNat - 'A'.toNat + 10)
  else none

/-- The unit that four hexadecimal digits spell. -/
def hexUnit? (a b c d : Char) : Option Nat := do
  let a ← hexDigit? a
  let b ← hexDigit? b
  let c ← hexDigit? c
  let d ← hexDigit? d
  return ((a * 16 + b) * 16 + c) * 16 + d

/-- The character that a short escape stands for. -/
def shortEscape? : Char → Option Char
  | '"' => some '"'
  | '\\' => some '\\'
  | '/' => some '/'
  | 'b' => some '\x08'
  | 'f' => some '\x0c'
  | 'n' => some '\n'
  | 'r' => some '\r'
  | 't' => some '\t'
  | _ => none

/-- The pieces of a string up to its closing quote, and what follows the quote. Control characters
have to be escaped. -/
def takeString : List Char → Option (List Piece × List Char)
  | [] => none
  | '"' :: rest => some ([], rest)
  | '\\' :: 'u' :: a :: b :: c :: d :: rest =>
    match hexUnit? a b c d, takeString rest with
    | some n, some (ps, rest) => some (.unit n :: ps, rest)
    | _, _ => none
  | '\\' :: e :: rest =>
    match shortEscape? e, takeString rest with
    | some c, some (ps, rest) => some (.char c :: ps, rest)
    | _, _ => none
  | c :: rest =>
    if c.toNat < 0x20 ∨ c = '\\' then none
    else (takeString rest).map fun (ps, rest) => (.char c :: ps, rest)

theorem length_takeString {cs rest : List Char} {ps : List Piece}
    (h : takeString cs = some (ps, rest)) : rest.length < cs.length := by
  fun_induction takeString cs generalizing ps rest with
  | case1 => simp at h
  | case2 r =>
    simp only [Option.some.injEq, Prod.mk.injEq] at h
    simp [h.2]
  | case3 a b c d r n ps' r' _ _ ih =>
    simp only [Option.some.injEq, Prod.mk.injEq] at h
    have := ih (by assumption)
    simp only [List.length_cons]
    rw [← h.2]; omega
  | case4 => simp at h
  | case5 e r _ c ps' r' _ _ ih =>
    simp only [Option.some.injEq, Prod.mk.injEq] at h
    have := ih (by assumption)
    simp only [List.length_cons]
    rw [← h.2]; omega
  | case6 => simp at h
  | case7 => simp at h
  | case8 c r _ _ _ _ ih =>
    obtain ⟨⟨ps', r'⟩, hr, hp⟩ := Option.map_eq_some_iff.1 h
    simp only [Prod.mk.injEq] at hp
    have := ih hr
    simp only [List.length_cons]
    rw [← hp.2]; omega

/-- Is the unit the first half of a surrogate pair? -/
def isHighSurrogate (n : Nat) : Bool := decide (0xD800 ≤ n ∧ n < 0xDC00)

/-- Is the unit the second half of a surrogate pair? -/
def isLowSurrogate (n : Nat) : Bool := decide (0xDC00 ≤ n ∧ n < 0xE000)

/-- The characters that pieces spell; `none` if half of a surrogate pair is left over. -/
def assemble : List Piece → Option (List Char)
  | [] => some []
  | .char c :: ps => (assemble ps).map (c :: ·)
  | .unit n :: ps =>
    if isHighSurrogate n then
      match ps with
      | .unit m :: ps =>
        if isLowSurrogate m then
          (assemble ps).map (Char.ofNat (0x10000 + (n - 0xD800) * 0x400 + (m - 0xDC00)) :: ·)
        else none
      | _ => none
    else if isLowSurrogate n then none
    else (assemble ps).map (Char.ofNat n :: ·)

/-- The string that pieces spell. -/
def Text.ofPieces (ps : List Piece) : Text :=
  match assemble ps with
  | some cs => .whole (String.ofList cs)
  | none => .broken

/-! ## Numbers -/

/-- Is the character a decimal digit? -/
def isDigit (c : Char) : Bool := decide ('0' ≤ c ∧ c ≤ '9')

/-- The number that decimal digits spell. -/
def ofDigits (cs : List Char) : Nat :=
  cs.foldl (fun n c => n * 10 + (c.toNat - '0'.toNat)) 0

/-- Is this a sequence of digits as an integer may have it: not empty, no zero in front? -/
def isIntegerPart (cs : List Char) : Bool :=
  match cs with
  | [] => false
  | ['0'] => true
  | '0' :: _ => false
  | _ => cs.all isDigit

/-- Is this an exponent: a letter, perhaps a sign, and digits? -/
def isExponent : List Char → Bool
  | c :: '+' :: ds | c :: '-' :: ds | c :: ds =>
    (c = 'e' || c = 'E') && !ds.isEmpty && ds.all isDigit
  | [] => false

/-- Is this what may follow the integer part: a fraction, an exponent, or both? -/
def isRealTail : List Char → Bool
  | '.' :: cs =>
    let exponent := cs.dropWhile isDigit
    !(cs.takeWhile isDigit).isEmpty && (exponent.isEmpty || isExponent exponent)
  | cs => isExponent cs

/-- The number that a literal spells. Minus zero counts as a real number. -/
def number? (cs : List Char) : Option Value :=
  let negative := cs.head? == some '-'
  let unsigned := if negative then cs.drop 1 else cs
  let whole := unsigned.takeWhile isDigit
  let tail := unsigned.dropWhile isDigit
  if !isIntegerPart whole then none
  else if tail.isEmpty then
    if negative then
      if whole = ['0'] then some (.real (String.ofList cs)) else some (.int (-(ofDigits whole)))
    else some (.int (ofDigits whole))
  else if isRealTail tail then some (.real (String.ofList cs))
  else none

/-- Can the character be part of a number? -/
def isNumberChar (c : Char) : Bool :=
  isDigit c || c = '-' || c = '+' || c = '.' || c = 'e' || c = 'E'

/-! ## Tokens -/

/-- The words of the language. -/
def word? (cs : List Char) : Option Value :=
  if cs = "null".toList then some .null
  else if cs = "true".toList then some (.bool true)
  else if cs = "false".toList then some (.bool false)
  else none

/-- Can the character be part of a word? -/
def isWordChar (c : Char) : Bool := decide ('a' ≤ c ∧ c ≤ 'z')

/-- Is the character blank between tokens? -/
def isBlank (c : Char) : Bool := c = ' ' || c = '\t' || c = '\n' || c = '\r'

/-- The tokens of JSON. -/
inductive Token where
  /-- Opens an object. -/
  | curlyOpen
  /-- Closes an object. -/
  | curlyClose
  /-- Opens an array. -/
  | squareOpen
  /-- Closes an array. -/
  | squareClose
  /-- Separates items or fields. -/
  | comma
  /-- Separates a key from its value. -/
  | colon
  /-- A string. -/
  | text (t : Text)
  /-- A number or a word. -/
  | scalar (v : Value)

/-- The token that is a single punctuation mark. -/
def Token.mark? : Char → Option Token
  | '\x7b' => some .curlyOpen
  | '\x7d' => some .curlyClose
  | '[' => some .squareOpen
  | ']' => some .squareClose
  | ',' => some .comma
  | ':' => some .colon
  | _ => none

private theorem length_dropWhile_le {α : Type} (p : α → Bool) (l : List α) :
    (l.dropWhile p).length ≤ l.length :=
  (List.dropWhile_sublist p).length_le

/-- The tokens of a text. -/
def Token.ofText? : List Char → Option (List Token)
  | [] => some []
  | c :: cs =>
    if isBlank c then Token.ofText? cs
    else match Token.mark? c with
      | some t => (Token.ofText? cs).map (t :: ·)
      | none =>
        if c = '"' then
          match _h : takeString cs with
          | some (ps, rest) => (Token.ofText? rest).map (.text (.ofPieces ps) :: ·)
          | none => none
        else if isDigit c || c = '-' then
          match number? (c :: cs.takeWhile isNumberChar) with
          | some v => (Token.ofText? (cs.dropWhile isNumberChar)).map (.scalar v :: ·)
          | none => none
        else if isWordChar c then
          match word? (c :: cs.takeWhile isWordChar) with
          | some v => (Token.ofText? (cs.dropWhile isWordChar)).map (.scalar v :: ·)
          | none => none
        else none
termination_by cs => cs.length
decreasing_by
  · simp
  · simp
  · have := length_takeString _h; simp only [List.length_cons]; omega
  · have := length_dropWhile_le isNumberChar cs; simp only [List.length_cons]; omega
  · have := length_dropWhile_le isWordChar cs; simp only [List.length_cons]; omega

/-! ## The machine -/

/-- A container that is still open and waits for a value. -/
inductive Frame where
  /-- An array with its items so far, latest first. -/
  | items (before : List Value)
  /-- An object with its fields so far, latest first, and the key of the awaited value. -/
  | fields (before : List (Text × Value)) (key : Text)

/-- What may come next. -/
inductive Mode where
  /-- A value. -/
  | value
  /-- The first item of an array, or its end. -/
  | itemOrClose
  /-- The first key of an object, or its end. -/
  | keyOrClose
  /-- A further key, after the fields so far. -/
  | key (before : List (Text × Value))
  /-- The colon behind a key. -/
  | colon (before : List (Text × Value)) (key : Text)
  /-- What may follow a complete value. -/
  | done (v : Value)

/-- The state of reading: what may come next, and the open containers, innermost first. -/
structure Machine where
  /-- What may come next. -/
  mode : Mode
  /-- The open containers. -/
  stack : List Frame

namespace Machine

/-- Nothing has been read. -/
def start : Machine := ⟨.value, []⟩

/-- The state after the first token of a value. -/
def enter (stack : List Frame) : Token → Option Machine
  | .scalar v => some ⟨.done v, stack⟩
  | .text t => some ⟨.done (.str t), stack⟩
  | .squareOpen => some ⟨.itemOrClose, stack⟩
  | .curlyOpen => some ⟨.keyOrClose, stack⟩
  | _ => none

/-- The state after one more token, if the token may come here. -/
def step (m : Machine) (t : Token) : Option Machine :=
  match m.mode, m.stack, t with
  | .value, st, t => enter st t
  | .itemOrClose, st, .squareClose => some ⟨.done (.arr []), st⟩
  | .itemOrClose, st, t => enter (.items [] :: st) t
  | .keyOrClose, st, .curlyClose => some ⟨.done (.obj []), st⟩
  | .keyOrClose, st, .text k => some ⟨.colon [] k, st⟩
  | .key before, st, .text k => some ⟨.colon before k, st⟩
  | .colon before k, st, .colon => some ⟨.value, .fields before k :: st⟩
  | .done v, .items before :: st, .comma => some ⟨.value, .items (v :: before) :: st⟩
  | .done v, .items before :: st, .squareClose => some ⟨.done (.arr (v :: before).reverse), st⟩
  | .done v, .fields before k :: st, .comma => some ⟨.key ((k, v) :: before), st⟩
  | .done v, .fields before k :: st, .curlyClose =>
    some ⟨.done (.obj ((k, v) :: before).reverse), st⟩
  | _, _, _ => none

/-- The value read, if nothing is left open. -/
def result? (m : Machine) : Option Value :=
  match m.mode, m.stack with
  | .done v, [] => some v
  | _, _ => none

end Machine

/-- The value that tokens denote. -/
def Value.ofTokens? (ts : List Token) : Option Value :=
  (ts.foldlM Machine.step Machine.start).bind Machine.result?

/-- The value that a text denotes. -/
def Value.read? (text : String) : Option Value :=
  (Token.ofText? text.toList).bind Value.ofTokens?

end StackEscape.Json
