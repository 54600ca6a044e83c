/-!
# Line maps

Where the lines of a source text start, and the place of a byte offset among them. Offsets and
columns count bytes of the UTF-8 text; line and column numbers start at one.

## Main definitions

* `StackEscape.LineMap.ofSource` — the line starts of a text: zero and what follows each newline.
* `StackEscape.LineMap.search` — binary search among ascending numbers.
* `StackEscape.LineMap.position` — line and column of a byte offset.
* `StackEscape.LineMap.lineText` — the text of a line, cut out between two line starts.
* `StackEscape.Text.splitAtByte?` — a text cut at a byte, if a character starts there.

## Implementation notes

`position` counts in natural numbers. Whoever prints a column as a 64-bit word takes
`Position.wordColumn`, which starts again at zero after the last word.
-/

set_option autoImplicit false

namespace StackEscape

namespace Text

/-- The number of bytes of a text in UTF-8. -/
def bytes : List Char → Nat
  | [] => 0
  | c :: cs => c.utf8Size + bytes cs

/-- A text cut before its `n`th byte; `none` if that byte is inside of a character or past the
end. -/
def splitAtByte? : Nat → List Char → Option (List Char × List Char)
  | 0, cs => some ([], cs)
  | _ + 1, [] => none
  | n + 1, c :: cs =>
    if n + 1 < c.utf8Size then none
    else (splitAtByte? (n + 1 - c.utf8Size) cs).map fun (a, b) => (c :: a, b)

/-- The piece of a text from one byte offset to another; `none` if they are the wrong way round or
one of them is no place to cut. -/
def slice? (start stop : Nat) (cs : List Char) : Option (List Char) :=
  if start ≤ stop then do
    let (_, rest) ← splitAtByte? start cs
    let (piece, _) ← splitAtByte? (stop - start) rest
    return piece
  else none

/-- The byte offsets at which a character occurs, in a text whose first byte has a given offset. -/
def offsetsOf (d : Char) : Nat → List Char → List Nat
  | _, [] => []
  | offset, c :: cs =>
    let later := offsetsOf d (offset + c.utf8Size) cs
    if c = d then offset :: later else later

end Text

/-- The line starts of a source text. -/
structure LineMap where
  /-- The text. -/
  text : List Char
  /-- The offset of the first byte of each line, in order. -/
  starts : Array Nat
  /-- The first line starts at offset zero. -/
  first : starts[0]? = some 0

/-- A place in a text, both numbers starting at one. -/
structure Position where
  /-- The line. -/
  line : Nat
  /-- The column, in bytes. -/
  column : Nat
  deriving DecidableEq

namespace Position

/-- The column as a 64-bit word. -/
def wordColumn (p : Position) : Nat := p.column % UInt64.size

end Position

namespace LineMap

/-! ## Binary search -/

/-- Of `size` entries from `base` on, keep the half that holds the last one at or below `x`, until
one entry is left. -/
def narrow (a : Array Nat) (x base size : Nat) (h : base + size ≤ a.size) : Nat :=
  if _ : 1 < size then
    let half := size / 2
    if a[base + half] ≤ x then narrow a x (base + half) (size - half) (by omega)
    else narrow a x base (size - half) (by omega)
  else base
termination_by size

theorem narrow_lt (a : Array Nat) (x base size : Nat) (h : base + size ≤ a.size)
    (hsize : 0 < size) : narrow a x base size h < a.size := by
  fun_induction narrow a x base size h with
  | case1 base size h hlt half hle ih => exact ih (by omega)
  | case2 base size h hlt half hle ih => exact ih (by omega)
  | case3 base size h hlt => omega

/-- The index of `x` in an ascending array, or as an error the index at which it would stand. -/
def search (a : Array Nat) (x : Nat) : Except Nat Nat :=
  if h : a.size = 0 then .error 0
  else
    let base := narrow a x 0 a.size (by omega)
    have : base < a.size := narrow_lt a x 0 a.size _ (by omega)
    if a[base] = x then .ok base
    else if a[base] < x then .error (base + 1)
    else .error base

/-! ## Lines -/

/-- The line starts of a source text: zero, and the offset after each newline. -/
def ofSource (source : String) : LineMap where
  text := source.toList
  starts := (0 :: (Text.offsetsOf '\n' 0 source.toList).map (· + 1)).toArray
  first := rfl

/-- The number of lines: one more than there are newlines. -/
def lineCount (m : LineMap) : Nat := m.starts.size

theorem starts_pos (m : LineMap) : 0 < m.starts.size :=
  (Array.getElem?_eq_some_iff.mp m.first).1

/-- The index of the line with a byte offset: the offset is where the line starts, or would be put
in right after that. -/
def lineIndex (m : LineMap) (offset : Nat) : Nat :=
  match search m.starts offset with
  | .ok i => i
  | .error i => i - 1

theorem lineIndex_lt (m : LineMap) (offset : Nat) : m.lineIndex offset < m.starts.size := by
  have hpos := m.starts_pos
  have hlt := narrow_lt m.starts offset 0 m.starts.size (by omega) hpos
  unfold lineIndex search
  grind

/-- Line and column of a byte offset. An offset past the end of the text is counted from the start
of the last line. -/
def position (m : LineMap) (offset : Nat) : Position :=
  have := m.lineIndex_lt offset
  ⟨m.lineIndex offset + 1, offset - m.starts[m.lineIndex offset] + 1⟩

/-- The text of a line, counted from one: it ends before the newline that precedes the next line, or
at the end of the text. -/
def lineText (m : LineMap) (line : Nat) : Option (List Char) :=
  match line with
  | 0 => none
  | i + 1 => do
    let start ← m.starts[i]?
    let stop := (m.starts[i + 1]?.map (· - 1)).getD (Text.bytes m.text)
    Text.slice? start stop m.text

end LineMap

end StackEscape
