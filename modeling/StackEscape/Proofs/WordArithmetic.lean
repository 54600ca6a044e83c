import StackEscape.Proofs.ReportedPlaces

/-!
# Places in words

Offsets, columns and line numbers counted in 64-bit words, where a sum that does not fit, a
difference below zero and an index past the end of an array stop the computation. Line maps never
use an index that they do not have, and a column is found in words unless it is the one past the
last word, which takes the greatest offset and a source of a single line.

## Main definitions

* `StackEscape.Fault`, `StackEscape.InWords` — what can go wrong with words, and computations that
  stop where it does.
* `StackEscape.InWords.add`, `sub`, `entry` — sums, differences and entries of arrays.
* `StackEscape.LineMap.ofSourceInWords`, `positionInWords`, `lineTextInWords` — line maps in words.

## Main results

* `StackEscape.InWords.mapM_of_forall`, `mapM_of_exists` — a list is gone through without a fault,
  or up to the first one.
* `StackEscape.LineMap.positionInWords_ofSource` — a place is found in words if its column fits.
* `StackEscape.LineMap.start_eq_zero_iff` — whether there is a single line.
* `StackEscape.LineMap.column_lt_iff` — the columns that fit.
-/

set_option autoImplicit false

namespace StackEscape

/-- What can go wrong with words. -/
inductive Fault where
  /-- A sum is past the last word. -/
  | overflow
  /-- A difference is below zero. -/
  | underflow
  /-- An array has no such entry. -/
  | outOfRange
  deriving DecidableEq, Repr

/-- A computation in 64-bit words, which stops at the first fault. -/
abbrev InWords (α : Type) : Type := Except Fault α

namespace InWords

/-- The sum of two words. -/
def add (a b : Nat) : InWords Nat :=
  if a + b < UInt64.size then .ok (a + b) else .error .overflow

/-- The difference of two words. -/
def sub (a b : Nat) : InWords Nat := if b ≤ a then .ok (a - b) else .error .underflow

/-- The entry of an array at an index. -/
def entry (a : Array Nat) (i : Nat) : InWords Nat :=
  match a[i]? with
  | some x => .ok x
  | none => .error .outOfRange

theorem add_of_lt {a b : Nat} (h : a + b < 2 ^ 64) : add a b = .ok (a + b) := if_pos h

theorem add_of_not_lt {a b : Nat} (h : ¬ a + b < 2 ^ 64) : add a b = .error .overflow := if_neg h

theorem sub_of_le {a b : Nat} (h : b ≤ a) : sub a b = .ok (a - b) := if_pos h

theorem entry_of_getElem? {a : Array Nat} {i x : Nat} (h : a[i]? = some x) :
    entry a i = .ok x := by rw [entry, h]

section

variable {α β : Type}

@[simp] theorem ok_bind (a : α) (f : α → InWords β) : (Except.ok a >>= f) = f a := rfl

@[simp] theorem error_bind (e : Fault) (f : α → InWords β) :
    (Except.error e >>= f) = .error e := rfl

@[simp] theorem pure_eq_ok (a : α) : (pure a : InWords α) = .ok a := rfl

/-- A list is gone through without a fault if no entry has one. -/
theorem mapM_of_forall {f : α → InWords β} {g : α → β} {l : List α}
    (h : ∀ a ∈ l, f a = .ok (g a)) : l.mapM f = .ok (l.map g) := by
  induction l with
  | nil => rfl
  | cons a l ih =>
    rw [List.forall_mem_cons] at h
    rw [List.mapM_cons, h.1, ok_bind, ih h.2, ok_bind, List.map_cons, pure_eq_ok]

theorem mapM_option_of_forall {f : α → InWords β} {g : α → β} {x : Option α}
    (h : ∀ a ∈ x, f a = .ok (g a)) : x.mapM f = .ok (x.map g) := by
  cases x with
  | none => rfl
  | some a => rw [Option.mapM_some, h a rfl]; rfl

/-- If all entries with a fault have the same one, going through the list ends in it. -/
theorem mapM_of_exists {f : α → InWords β} {g : α → β} {e : Fault} {l : List α}
    (h : ∀ a ∈ l, f a = .ok (g a) ∨ f a = .error e) (he : ∃ a ∈ l, f a = .error e) :
    l.mapM f = .error e := by
  induction l with
  | nil => simp at he
  | cons a l ih =>
    rw [List.forall_mem_cons] at h
    rw [List.mapM_cons]
    cases h.1 with
    | inr hfault => rw [hfault, error_bind]
    | inl hok =>
      obtain ⟨b, hb, hfault⟩ := he
      rcases List.mem_cons.mp hb with rfl | hb
      · rw [hok] at hfault
        cases hfault
      · rw [hok, ok_bind, ih h.2 ⟨b, hb, hfault⟩, error_bind]

end

end InWords

/-- The last line of a text takes all bytes of it if there is no other line. -/
theorem Text.length_takeWhile_encode_iff {cs : List Char} :
    ((encode cs).reverse.takeWhile (· ≠ 10)).length = bytes cs ↔ '\n' ∉ cs := by
  have hlength : (encode cs).reverse.length = bytes cs := by
    rw [List.length_reverse, length_encode]
  rw [← hlength, ← newline_mem_encode_iff, ← List.mem_reverse]
  constructor
  · intro h hmem
    have hself := (List.takeWhile_prefix _).eq_of_length h
    simpa using List.takeWhile_eq_self_iff.mp hself 10 hmem
  · intro h
    rw [List.takeWhile_eq_self_iff.mpr]
    intro byte hbyte
    simpa using fun heq : byte = 10 => h (heq ▸ hbyte)

/-- What stands before a span leaves room for the span itself. -/
theorem Span.add_length_lt (span : Span) {n : Nat} (h : n ≤ span.start.toNat) :
    n + span.length < 2 ^ 64 := by
  have := span.start.toNat_lt
  have := span.stop.toNat_lt
  rw [Span.length]
  omega

namespace LineMap

open InWords

/-! ## Line maps in words -/

/-- The line starts of a source text. -/
def ofSourceInWords (source : String) : InWords LineMap := do
  let later ← (Text.offsetsOf '\n' 0 source.toList).mapM (add · 1)
  return ⟨source.toList, (0 :: later).toArray, rfl⟩

/-- Line and column of a byte offset. -/
def positionInWords (m : LineMap) (offset : Nat) : InWords Position := do
  let i := m.lineIndex offset
  let line ← add i 1
  let start ← entry m.starts i
  let column ← add (← sub offset start) 1
  return ⟨line, column⟩

/-- The text of a line. -/
def lineTextInWords (m : LineMap) (line : Nat) : InWords (Option (List Char)) :=
  match line with
  | 0 => return none
  | i + 1 =>
    match m.starts[i]? with
    | none => return none
    | some start => do
      let next ← add i 1
      let stop := (m.starts[next]?.map (· - 1)).getD (Text.bytes m.text)
      return Text.slice? start stop m.text

section

variable {source : String}

/-- A column counts from one, and what is before it from the start of a line. -/
theorem column_bounds (offset : Nat) : 1 ≤ ((ofSource source).position offset).column ∧
    ((ofSource source).position offset).column - 1 ≤ offset := by
  obtain ⟨start, text, hget, -⟩ := exists_line source offset
  rw [position_eq hget]
  exact ⟨by simp, by simp⟩

/-- The last line starts where the text does only if there is no other one. -/
theorem start_eq_zero_iff {start : Nat}
    (hget : (ofSource source).starts[(ofSource source).lineIndex source.utf8ByteSize]? =
      some start) : start = 0 ↔ '\n' ∉ source.toList := by
  obtain ⟨start', text, hget', -, hle, -⟩ := exists_line source source.utf8ByteSize
  obtain rfl : start = start' := Option.some.inj (hget.symm.trans hget')
  have hall : (Text.encode source.toList).take source.utf8ByteSize = Text.encode source.toList :=
    List.take_of_length_le (by rw [Text.length_encode, Text.bytes_toList])
  -- The column of the end of the text counts the bytes of the last line.
  have hcolumn := congrArg Position.column
    ((position_eq hget).symm.trans (position_ofSource rfl (Nat.le_refl _)))
  simp only [hall] at hcolumn
  rw [← Text.length_takeWhile_encode_iff, Text.bytes_toList]
  omega

variable (hsource : source.utf8ByteSize < 2 ^ 63)

include hsource

theorem ofSourceInWords_eq : ofSourceInWords source = .ok (ofSource source) := by
  have hlater : ∀ offset ∈ Text.offsetsOf '\n' 0 source.toList,
      add offset 1 = .ok (offset + 1) := by
    intro offset hoffset
    have hmem : offset + 1 ∈ (ofSource source).starts.toList :=
      List.mem_cons_of_mem _ (List.mem_map_of_mem hoffset)
    obtain ⟨k, hk, hget⟩ := List.getElem_of_mem hmem
    have hle := (start_bounds source k (by simpa using hk)).2
    rw [Array.getElem_toList] at hget
    exact add_of_lt (by omega)
  rw [ofSourceInWords, mapM_of_forall hlater, ok_bind]
  rfl

/-- A place is found in words if its column fits. -/
theorem positionInWords_ofSource (offset : Nat) : (ofSource source).positionInWords offset =
    if ((ofSource source).position offset).column < 2 ^ 64 then
      .ok ((ofSource source).position offset) else .error .overflow := by
  obtain ⟨start, text, hget, -, hle, -, hout, hindex⟩ := exists_line source offset
  rw [positionInWords]
  simp only [add_of_lt (show (ofSource source).lineIndex offset + 1 < 2 ^ 64 by omega),
    entry_of_getElem? hget, sub_of_le (show start ≤ offset by omega), position_eq hget, ok_bind]
  by_cases hfit : offset - start + 1 < 2 ^ 64
  · rw [add_of_lt hfit, if_pos hfit]
    rfl
  · rw [add_of_not_lt hfit, if_neg hfit, error_bind]

/-- Up to the end of the text, every place is found. -/
theorem column_lt_of_le {offset : Nat} (hoffset : offset ≤ source.utf8ByteSize) :
    ((ofSource source).position offset).column + 1 < 2 ^ 64 := by
  have hcolumn : ((ofSource source).position offset).column - 1 ≤ offset := (column_bounds _).2
  omega

theorem lineTextInWords_ofSource (line : Nat) :
    (ofSource source).lineTextInWords line = .ok ((ofSource source).lineText line) := by
  cases line with
  | zero => rfl
  | succ i =>
    rw [lineTextInWords, lineText]
    cases hget : (ofSource source).starts[i]? with
    | none => rfl
    | some start =>
      have hi : i + 1 < 2 ^ 64 := by
        obtain ⟨hlt, -⟩ := Array.getElem?_eq_some_iff.mp hget
        have := start_bounds source i hlt
        omega
      simp only [add_of_lt hi, ok_bind]
      rfl

/-- The one column that does not fit is that of the last word in a source of a single line. -/
theorem column_lt_iff (offset : UInt64) :
    ((ofSource source).position offset.toNat).column < 2 ^ 64 ↔
      offset.toNat < 2 ^ 64 - 1 ∨ '\n' ∈ source.toList := by
  obtain ⟨start, text, hget, -, hle, -⟩ := exists_line source offset.toNat
  rw [position_eq hget]
  have hword : offset.toNat < 2 ^ 64 := offset.toNat_lt
  by_cases hlast : offset.toNat < 2 ^ 64 - 1
  · exact iff_of_true (by simp only; omega) (.inl hlast)
  have hmin : min offset.toNat source.utf8ByteSize = source.utf8ByteSize := by omega
  rw [← lineIndex_min, hmin] at hget
  rw [← not_iff_not, not_or, ← start_eq_zero_iff hget]
  simp only
  omega

end

end LineMap

end StackEscape
