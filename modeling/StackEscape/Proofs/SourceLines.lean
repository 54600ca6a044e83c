import Mathlib.Data.List.TakeWhile
import Mathlib.Tactic.SplitIfs
import StackEscape.Source.LineMap

/-!
# Line maps are exact

A line map knows of its source where each line starts, and finds the line of an offset by halving.
What it answers is compared with the text itself: the line of an offset is one more than the
newlines among the bytes before it, the column one more than the bytes since the last of them, and
the lines are what the text is made of.

## Main definitions

* `StackEscape.Text.encode` — the bytes of a text.
* `StackEscape.Text.lines` — the pieces of a text between its newlines.
* `StackEscape.LineMap.IsLast` — the last entry at or below a number.

## Main results

* `StackEscape.LineMap.isLast_narrow` — halving keeps the last entry at or below a number.
* `StackEscape.LineMap.getElem?_starts` — a line starts behind the lines before it.
* `StackEscape.LineMap.lineText_succ` — the text of a line is a piece of the source.
* `StackEscape.LineMap.ofSource_exact` — places and lines of every source.
-/

set_option autoImplicit false

namespace StackEscape

namespace Text

/-! ## Bytes -/

/-- The bytes of a text in UTF-8. -/
def encode (cs : List Char) : List UInt8 := cs.flatMap String.utf8EncodeChar

@[simp] theorem encode_nil : encode [] = [] := rfl

@[simp] theorem encode_cons (c : Char) (cs : List Char) :
    encode (c :: cs) = String.utf8EncodeChar c ++ encode cs := rfl

@[simp] theorem encode_append (as bs : List Char) : encode (as ++ bs) = encode as ++ encode bs :=
  List.flatMap_append

theorem encode_toList (source : String) :
    encode source.toList = source.toByteArray.data.toList := by
  have hbytes : source.toByteArray = source.toList.utf8Encode := by
    rw [← String.toByteArray_ofList, String.ofList_toList]
  rw [hbytes, List.utf8Encode, List.toList_data_toByteArray, encode]

theorem length_encode (cs : List Char) : (encode cs).length = bytes cs := by
  induction cs with
  | nil => rfl
  | cons c cs ih => simp [bytes, ih]

theorem bytes_toList (source : String) : bytes source.toList = source.utf8ByteSize := by
  rw [← length_encode, encode_toList, ← String.size_toByteArray]
  rfl

@[simp] theorem bytes_nil : bytes [] = 0 := rfl

@[simp] theorem bytes_cons (c : Char) (cs : List Char) :
    bytes (c :: cs) = c.utf8Size + bytes cs := rfl

@[simp] theorem bytes_append (as bs : List Char) : bytes (as ++ bs) = bytes as + bytes bs := by
  induction as with
  | nil => simp
  | cons a as ih => simp [ih, Nat.add_assoc]

theorem mod_eq_ten {n : Nat} (h : 10 = UInt8.ofNat n) : n % 256 = 10 := by
  have := congrArg UInt8.toNat h
  simpa using this.symm

/-- The byte of a newline is part of no other character: the bytes of a longer encoding are all
above the ASCII range. -/
theorem eq_newline_of_mem_utf8EncodeChar {c : Char} (h : 10 ∈ String.utf8EncodeChar c) :
    c = '\n' := by
  suffices hval : c.val.toNat = 10 from Char.ext (UInt32.toNat_inj.mp hval)
  simp only [String.utf8EncodeChar] at h
  split_ifs at h <;> simp only [List.mem_cons, List.not_mem_nil, or_false] at h
  · have := mod_eq_ten h
    omega
  · rcases h with h | h <;> have := mod_eq_ten h <;> omega
  · rcases h with h | h | h <;> have := mod_eq_ten h <;> omega
  · rcases h with h | h | h | h <;> have := mod_eq_ten h <;> omega

theorem newline_mem_encode_iff {cs : List Char} : 10 ∈ encode cs ↔ '\n' ∈ cs := by
  simp only [encode, List.mem_flatMap]
  constructor
  · rintro ⟨c, hc, h⟩
    exact eq_newline_of_mem_utf8EncodeChar h ▸ hc
  · exact fun h => ⟨'\n', h, by decide⟩

/-! ## Cutting -/

theorem splitAtByte?_append (as bs : List Char) :
    splitAtByte? (bytes as) (as ++ bs) = some (as, bs) := by
  induction as with
  | nil => rw [bytes_nil, List.nil_append, splitAtByte?]
  | cons a as ih =>
    obtain ⟨n, hn⟩ : ∃ n, bytes (a :: as) = n + 1 :=
      ⟨_, (Nat.succ_pred_eq_of_pos (by have := a.utf8Size_pos; simp; omega)).symm⟩
    have hrest : n + 1 - a.utf8Size = bytes as := by simp at hn; omega
    rw [hn, List.cons_append, splitAtByte?, if_neg (by simp at hn; omega), hrest, ih]
    rfl

theorem slice?_append (as bs cs : List Char) :
    slice? (bytes as) (bytes as + bytes bs) (as ++ (bs ++ cs)) = some bs := by
  have hsize : bytes as + bytes bs - bytes as = bytes bs := by omega
  simp [slice?, splitAtByte?_append, hsize]

/-! ## Lines -/

/-- The pieces of a text between its newlines. There is always at least one. -/
def lines (cs : List Char) : List (List Char) := cs.splitOn '\n'

theorem newline_notMem_of_mem_lines {cs l : List Char} (h : l ∈ lines cs) : '\n' ∉ l := by
  induction cs generalizing l with
  | nil => simp_all [lines]
  | cons c cs ih =>
    obtain ⟨l', ls, hls⟩ := List.exists_cons_of_ne_nil (List.splitOn_ne_nil '\n' cs)
    rw [lines, List.splitOn_cons_eq_if_modifyHead, hls] at h
    simp only [lines, hls, List.mem_cons] at ih
    by_cases hc : c = '\n' <;> simp [hc] at h <;> grind

/-- The lines, each behind the newline that ends the line before it. -/
theorem intercalate_cons (l : List Char) (ls : List (List Char)) :
    ['\n'].intercalate (l :: ls) = l ++ ls.flatMap ('\n' :: ·) := by
  induction ls generalizing l with
  | nil => simp
  | cons l' ls ih => simp [List.intercalate_cons_cons, ih]

/-- What stands before a line: the earlier ones, each with its newline. -/
def before (i : Nat) (ls : List (List Char)) : List Char := (ls.take i).flatMap (· ++ ['\n'])

/-- What follows a line: the later ones, each behind a newline. -/
def after (i : Nat) (ls : List (List Char)) : List Char := (ls.drop (i + 1)).flatMap ('\n' :: ·)

theorem before_succ {ls : List (List Char)} {i : Nat} (h : i < ls.length) :
    before (i + 1) ls = before i ls ++ (ls[i] ++ ['\n']) := by
  rw [before, List.take_add_one, List.getElem?_eq_getElem h, List.flatMap_append, before]
  simp

theorem encode_before_succ {ls : List (List Char)} {i : Nat} (h : i < ls.length) :
    encode (before (i + 1) ls) = encode (before i ls) ++ (encode ls[i] ++ [10]) := by
  rw [before_succ h, encode_append, encode_append]
  rfl

/-- There are as many newlines before a line as there are earlier lines. -/
theorem count_encode_before {ls : List (List Char)} (hls : ∀ l ∈ ls, '\n' ∉ l) {i : Nat}
    (h : i ≤ ls.length) : (encode (before i ls)).count 10 = i := by
  induction i with
  | zero => rfl
  | succ i ih =>
    have hline : (encode ls[i]).count 10 = 0 :=
      List.count_eq_zero.mpr fun hmem =>
        hls _ (List.getElem_mem _) (newline_mem_encode_iff.mp hmem)
    rw [encode_before_succ h, List.count_append, List.count_append, ih (by omega), hline]
    rfl

/-- What stands before a line ends in a newline, if there is something. -/
theorem takeWhile_reverse_encode_before {ls : List (List Char)} {i : Nat} (h : i ≤ ls.length) :
    (encode (before i ls)).reverse.takeWhile (· ≠ 10) = [] := by
  cases i with
  | zero => rfl
  | succ i => simp [encode_before_succ h]

/-- A text is what stands before a line, the line, and what follows it. -/
theorem intercalate_eq {ls : List (List Char)} {i : Nat} (h : i < ls.length) :
    ['\n'].intercalate ls = before i ls ++ (ls[i] ++ after i ls) := by
  induction i generalizing ls with
  | zero =>
    obtain ⟨l, ls, rfl⟩ := List.exists_cons_of_length_pos h
    simp [before, after, intercalate_cons]
  | succ i ih =>
    match ls, h with
    | [_], h => simp at h
    | l :: l' :: ls, h =>
      rw [List.intercalate_cons_cons, ih (by simpa using h)]
      simp [before, after]

/-- Where lines start that stand one behind the other, each with a newline after it. -/
def startsFrom : Nat → List (List Char) → List Nat
  | _, [] => []
  | offset, l :: ls => offset :: startsFrom (offset + bytes l + 1) ls

@[simp] theorem length_startsFrom (offset : Nat) (ls : List (List Char)) :
    (startsFrom offset ls).length = ls.length := by
  induction ls generalizing offset with
  | nil => rfl
  | cons l ls ih => simp [startsFrom, ih]

theorem getElem?_startsFrom {ls : List (List Char)} {i : Nat} (h : i < ls.length) (offset : Nat) :
    (startsFrom offset ls)[i]? = some (offset + bytes (before i ls)) := by
  induction ls generalizing offset i with
  | nil => simp at h
  | cons l ls ih =>
    cases i with
    | zero => simp [startsFrom, before]
    | succ i =>
      have hnewline : bytes ['\n'] = 1 := rfl
      have hbefore : before (i + 1) (l :: ls) = l ++ ['\n'] ++ before i ls := by simp [before]
      rw [startsFrom, List.getElem?_cons_succ, ih (by simpa using h), hbefore, bytes_append,
        bytes_append, hnewline]
      congr 1
      omega

theorem le_of_mem_startsFrom {offset start : Nat} {ls : List (List Char)}
    (h : start ∈ startsFrom offset ls) : offset ≤ start := by
  induction ls generalizing offset with
  | nil => simp [startsFrom] at h
  | cons l ls ih =>
    rcases List.mem_cons.mp h with rfl | h
    · exact Nat.le_refl _
    · have := ih h
      omega

theorem pairwise_startsFrom (offset : Nat) (ls : List (List Char)) :
    (startsFrom offset ls).Pairwise (· < ·) := by
  induction ls generalizing offset with
  | nil => exact .nil
  | cons l ls ih =>
    refine .cons (fun start hstart => ?_) (ih _)
    have := le_of_mem_startsFrom hstart
    omega

/-- A line starts where the text does, or after a newline. -/
theorem startsFrom_lines (offset : Nat) (cs : List Char) :
    startsFrom offset (lines cs) = offset :: (offsetsOf '\n' offset cs).map (· + 1) := by
  induction cs generalizing offset with
  | nil => rfl
  | cons c cs ih =>
    have hcs := ih (offset + c.utf8Size)
    by_cases hc : c = '\n'
    · have hsize : c.utf8Size = 1 := hc ▸ rfl
      have hlines : lines (c :: cs) = [] :: lines cs := by
        simp [lines, List.splitOn_cons_eq_if_modifyHead, hc]
      rw [hsize] at hcs
      rw [hlines, startsFrom, bytes_nil, Nat.add_zero, hcs, offsetsOf, if_pos hc, hsize]
      rfl
    · obtain ⟨l, ls, hls⟩ := List.exists_cons_of_ne_nil (List.splitOn_ne_nil '\n' cs)
      have hlines : lines (c :: cs) = (c :: l) :: ls := by
        simp [lines, List.splitOn_cons_eq_if_modifyHead, hc, hls]
      rw [lines, hls, startsFrom] at hcs
      rw [hlines, startsFrom, bytes_cons, ← Nat.add_assoc, (List.cons.inj hcs).2, offsetsOf,
        if_neg hc]

end Text

namespace LineMap

/-! ## Halving -/

/-- The entry at an index is the last one at or below `x`. -/
structure IsLast (a : Array Nat) (x i : Nat) : Prop where
  /-- The index is one of the array. -/
  lt : i < a.size
  /-- The entry is at or below `x`. -/
  le : a[i] ≤ x
  /-- The later ones are above `x`. -/
  beyond : ∀ j (_ : j < a.size), i < j → x < a[j]

theorem getElem_le_of_pairwise {a : Array Nat} (hup : a.toList.Pairwise (· < ·)) {i j : Nat}
    (hij : i ≤ j) (hj : j < a.size) : a[i] ≤ a[j] := by
  rcases Nat.lt_or_eq_of_le hij with hlt | rfl
  · have := List.pairwise_iff_getElem.mp hup i j (by simpa using by omega) (by simpa using hj) hlt
    simpa using Nat.le_of_lt this
  · exact Nat.le_refl _

/-- Halving keeps the last entry at or below `x` in the window: the first entry of the window is
never above `x`, and all entries after the window are. -/
theorem isLast_narrow {a : Array Nat} (hup : a.toList.Pairwise (· < ·)) {x base size : Nat}
    (h : base + size ≤ a.size) (hsize : 0 < size) (hbase : a[base] ≤ x)
    (hbeyond : ∀ j (_ : j < a.size), base + size ≤ j → x < a[j]) :
    IsLast a x (narrow a x base size h) := by
  fun_induction narrow a x base size h with
  | case1 base size h hlt half hle ih =>
    exact ih (by omega) hle fun j hj hwindow => hbeyond j hj (by omega)
  | case2 base size h hlt half hgt ih =>
    refine ih (by omega) hbase fun j hj hwindow => ?_
    -- The half that is left out starts at an entry above `x`.
    have hmiddle : a[base + half] ≤ a[j] := getElem_le_of_pairwise hup (by omega) hj
    omega
  | case3 base size h hlt =>
    exact ⟨by omega, hbase, fun j hj hj' => hbeyond j hj (by omega)⟩

theorem isLast_lineIndex {m : LineMap} (hup : m.starts.toList.Pairwise (· < ·)) (offset : Nat) :
    IsLast m.starts offset (m.lineIndex offset) := by
  have hpos := m.starts_pos
  have hfirst : m.starts[0] ≤ offset := by
    have := (Array.getElem?_eq_some_iff.mp m.first).2
    omega
  have hwhole : 0 + m.starts.size ≤ m.starts.size := by omega
  have hlast := isLast_narrow hup hwhole hpos hfirst
    (fun j hj hwindow => absurd hj (by omega))
  have hindex : m.lineIndex offset = narrow m.starts offset 0 m.starts.size (by omega) := by
    have hle := hlast.le
    unfold lineIndex search
    rw [dif_neg (Nat.ne_of_gt hpos)]
    have hbound := hlast.lt
    by_cases heq : m.starts[narrow m.starts offset 0 m.starts.size hwhole] = offset
    · simp [heq]
    · have hlt : m.starts[narrow m.starts offset 0 m.starts.size hwhole] < offset := by omega
      simp [heq, hlt]
  exact hindex ▸ hlast

/-- The place of an offset, by the start of its line. -/
theorem position_eq {m : LineMap} {offset start : Nat}
    (h : m.starts[m.lineIndex offset]? = some start) :
    m.position offset = ⟨m.lineIndex offset + 1, offset - start + 1⟩ := by
  obtain ⟨_, hstart⟩ := Array.getElem?_eq_some_iff.mp h
  rw [position, hstart]

/-! ## The lines of a source -/

section

variable {source : String} {ls : List (List Char)} (hls : Text.lines source.toList = ls)

include hls

theorem toList_starts : (ofSource source).starts.toList = Text.startsFrom 0 ls :=
  hls ▸ (Text.startsFrom_lines 0 source.toList).symm

theorem lineCount_ofSource : (ofSource source).lineCount = ls.length := by
  rw [lineCount, ← Array.length_toList, toList_starts hls, Text.length_startsFrom]

/-- A line starts behind the lines before it. -/
theorem getElem?_starts (i : Nat) : (ofSource source).starts[i]? =
    if i < ls.length then some (Text.bytes (Text.before i ls)) else none := by
  rw [← Array.getElem?_toList, toList_starts hls]
  split
  next h => rw [Text.getElem?_startsFrom h, Nat.zero_add]
  next h => exact List.getElem?_eq_none (by simpa using h)

/-- The source is cut by each of its lines. -/
theorem toList_eq {i : Nat} (h : i < ls.length) :
    source.toList = Text.before i ls ++ (ls[i] ++ Text.after i ls) := by
  rw [← Text.intercalate_eq h, ← hls, Text.lines, List.intercalate_splitOn]

/-- A line ends before the newline that precedes the next one, or with the text. -/
theorem stop_eq {i : Nat} (h : i < ls.length) :
    ((ofSource source).starts[i + 1]?.map (· - 1)).getD (Text.bytes source.toList) =
      Text.bytes (Text.before i ls) + Text.bytes ls[i] := by
  rw [getElem?_starts hls]
  split
  next => simp [Text.before_succ h, show '\n'.utf8Size = 1 from rfl]
  next hnext =>
    have hafter : Text.after i ls = [] := by
      simp [Text.after, List.drop_eq_nil_of_le (Nat.le_of_not_lt hnext)]
    have hsize := congrArg Text.bytes (toList_eq hls h)
    rw [hafter] at hsize
    simpa using hsize

/-! ## The text of a line -/

/-- The text of a line is a piece of the source. -/
theorem lineText_succ (i : Nat) : (ofSource source).lineText (i + 1) = ls[i]? := by
  rw [lineText, getElem?_starts hls]
  by_cases h : i < ls.length
  · have hslice := Text.slice?_append (Text.before i ls) ls[i] (Text.after i ls)
    rw [← toList_eq hls h, ← stop_eq hls h] at hslice
    rw [if_pos h, List.getElem?_eq_getElem h, ← hslice]
    rfl
  · rw [if_neg h, List.getElem?_eq_none (Nat.le_of_not_lt h)]
    rfl

theorem lineText_isSome_iff (line : Nat) :
    ((ofSource source).lineText line).isSome ↔ 1 ≤ line ∧ line ≤ (ofSource source).lineCount := by
  rw [lineCount_ofSource hls]
  cases line with
  | zero => simp [lineText]
  | succ i =>
    rw [lineText_succ hls, isSome_getElem?]
    omega

/-- The lines from one on, as far as there are some. -/
theorem mapM_lineText_range' (rest : List (List Char)) (i : Nat)
    (h : ∀ j, ls[i + j]? = rest[j]?) :
    (List.range' (i + 1) rest.length).mapM (ofSource source).lineText = some rest := by
  induction rest generalizing i with
  | nil => rfl
  | cons l rest ih =>
    have hhead : (ofSource source).lineText (i + 1) = some l := by
      rw [lineText_succ hls]
      exact h 0
    have htail := ih (i + 1) fun j => by
      rw [Nat.add_assoc, Nat.add_comm 1 j]
      exact h (j + 1)
    rw [List.length_cons, List.range'_succ, List.mapM_cons, hhead, htail]
    rfl

/-- All lines, in order. -/
theorem mapM_lineText :
    (List.range' 1 (ofSource source).lineCount).mapM (ofSource source).lineText = some ls := by
  rw [lineCount_ofSource hls]
  exact mapM_lineText_range' hls ls 0 fun j => by rw [Nat.zero_add]

/-! ## The place of an offset -/

/-- The line that is found for an offset starts at or before it and does not end before it. -/
theorem lineIndex_ofSource {offset : Nat} (hoffset : offset ≤ source.utf8ByteSize) :
    ∃ (i : Nat) (h : i < ls.length), (ofSource source).lineIndex offset = i ∧
      (ofSource source).starts[i]? = some (Text.bytes (Text.before i ls)) ∧
      Text.bytes (Text.before i ls) ≤ offset ∧
      offset ≤ Text.bytes (Text.before i ls) + Text.bytes ls[i] := by
  have hlast := isLast_lineIndex (m := ofSource source)
    (by rw [toList_starts hls]; exact Text.pairwise_startsFrom 0 ls) offset
  generalize hi : (ofSource source).lineIndex offset = i at hlast
  have h : i < ls.length := lineCount_ofSource hls ▸ hlast.lt
  have hstart := getElem?_starts hls i
  rw [if_pos h] at hstart
  obtain ⟨_, hget⟩ := Array.getElem?_eq_some_iff.mp hstart
  refine ⟨i, h, rfl, hstart, hget ▸ hlast.le, ?_⟩
  -- The next line starts after the offset; if there is none, this one ends with the text.
  have hstop := stop_eq hls h
  cases hnext : (ofSource source).starts[i + 1]? with
  | none =>
    rw [hnext, Option.map_none, Option.getD_none, Text.bytes_toList] at hstop
    exact hstop ▸ hoffset
  | some next =>
    obtain ⟨hlt, rfl⟩ := Array.getElem?_eq_some_iff.mp hnext
    have hbeyond := hlast.beyond _ hlt (Nat.lt_succ_self i)
    rw [hnext, Option.map_some, Option.getD_some] at hstop
    omega

/-- The bytes before an offset are those of the earlier lines and the first ones of its own line. -/
theorem take_encode {offset i : Nat} (h : i < ls.length)
    (hstart : Text.bytes (Text.before i ls) ≤ offset)
    (hstop : offset ≤ Text.bytes (Text.before i ls) + Text.bytes ls[i]) :
    (Text.encode source.toList).take offset = Text.encode (Text.before i ls) ++
      (Text.encode ls[i]).take (offset - Text.bytes (Text.before i ls)) := by
  have hover : offset - Text.bytes (Text.before i ls) - Text.bytes ls[i] = 0 := by omega
  rw [toList_eq hls h, Text.encode_append, Text.encode_append, List.take_append, List.take_append,
    Text.length_encode, Text.length_encode, hover, List.take_zero, List.append_nil,
    List.take_of_length_le (by rwa [Text.length_encode])]

/-- The place of an offset, counted in the bytes before it. -/
theorem position_ofSource {offset : Nat} (hoffset : offset ≤ source.utf8ByteSize) :
    (ofSource source).position offset =
      ⟨1 + ((Text.encode source.toList).take offset).count 10,
        1 + (((Text.encode source.toList).take offset).reverse.takeWhile (· ≠ 10)).length⟩ := by
  obtain ⟨i, h, hi, hget, hstart, hstop⟩ := lineIndex_ofSource hls hoffset
  have hclean : ∀ l ∈ ls, '\n' ∉ l := fun l hl => Text.newline_notMem_of_mem_lines (hls ▸ hl)
  have hline : ∀ byte ∈ (Text.encode ls[i]).take (offset - Text.bytes (Text.before i ls)),
      byte ≠ 10 := by
    rintro byte hbyte rfl
    exact hclean _ (List.getElem_mem h)
      (Text.newline_mem_encode_iff.mp (List.mem_of_mem_take hbyte))
  have hfit : offset - Text.bytes (Text.before i ls) ≤ Text.bytes ls[i] := by omega
  rw [take_encode hls h hstart hstop, List.count_append, List.reverse_append,
    Text.count_encode_before hclean (Nat.le_of_lt h),
    List.count_eq_zero.mpr fun hmem => hline _ hmem rfl,
    List.takeWhile_append_of_pos (by simpa using hline),
    Text.takeWhile_reverse_encode_before (Nat.le_of_lt h), List.append_nil, List.length_reverse,
    List.length_take, Text.length_encode, Nat.min_eq_left hfit]
  rw [position_eq (hi ▸ hget), hi, Nat.add_zero, Nat.add_comm 1, Nat.add_comm 1]

end

/-- A line map is exact. At an offset of the text, the line that is found starts at or before the
offset, and line and column count the newlines before the offset and the bytes since the last of
them. A line has a text exactly if its number is one of the lines', and the lines with a newline
between them are the source. -/
theorem ofSource_exact (source : String) :
    (∀ offset, offset ≤ source.utf8ByteSize →
      (∃ start, (ofSource source).starts[(ofSource source).lineIndex offset]? = some start ∧
        start ≤ offset) ∧
      let front := source.toByteArray.data.toList.take offset
      (ofSource source).position offset =
        ⟨1 + front.count 10, 1 + (front.reverse.takeWhile (· ≠ 10)).length⟩) ∧
    (∀ line, ((ofSource source).lineText line).isSome ↔
      1 ≤ line ∧ line ≤ (ofSource source).lineCount) ∧
    ∃ lines, (List.range' 1 (ofSource source).lineCount).mapM (ofSource source).lineText =
      some lines ∧ ['\n'].intercalate lines = source.toList := by
  refine ⟨fun offset hoffset => ⟨?_, ?_⟩, lineText_isSome_iff rfl, _, mapM_lineText rfl,
    List.intercalate_splitOn '\n'⟩
  · obtain ⟨i, -, hi, hget, hstart, -⟩ := lineIndex_ofSource rfl hoffset
    exact ⟨_, hi ▸ hget, hstart⟩
  · exact Text.encode_toList source ▸ position_ofSource rfl hoffset

/-- Behind a character of two bytes, on the last line of a text. -/
theorem ofSource_exact_umlaut :
    6 ≤ "ref\nü".utf8ByteSize ∧ (ofSource "ref\nü").position 6 = ⟨2, 3⟩ := by
  have hsize : 6 ≤ "ref\nü".utf8ByteSize := by decide
  refine ⟨hsize, ?_⟩
  rw [((ofSource_exact "ref\nü").1 6 hsize).2]
  decide

end LineMap

end StackEscape
