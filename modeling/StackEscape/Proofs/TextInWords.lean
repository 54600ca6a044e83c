import Mathlib.Data.Nat.Digits.Defs
import StackEscape.Proofs.WordArithmetic

/-!
# Texts of diagnostics in words

The text of a diagnostic, written with words instead of numbers: every sum of widths, columns and
lengths, and every step from one line to the next one, has to fit. Whatever its labels are, only
two columns might not: that of the place, and that of the suggested line.

## Main definitions

* `StackEscape.Terminal.Page.renderInWords`, `renderAllInWords` — the text of one diagnostic, and
  of several.

## Main results

* `StackEscape.Terminal.Page.annotatedInWords_eq` — labels are marked without a fault.
* `StackEscape.Terminal.Page.suggestedLineInWords_eq`, `suggestedLineInWords_error` — a suggested
  line is written if its column fits.
* `StackEscape.Terminal.Page.renderInWords_eq_bind` — the text of a diagnostic whose place fits, up
  to what stands below the source.
-/

set_option autoImplicit false

namespace StackEscape.Terminal.Page

open InWords

/-! ## Texts in words -/

/-- The page of a source text. -/
def ofSourceInWords (source file : String) (colours : Bool) : InWords Page := do
  return ⟨source, ← LineMap.ofSourceInWords source, file, colours⟩

section

variable (page : Page)

/-- The mark of a label, on the line where the label begins. -/
def markInWords? (label : Label) : InWords (Option MarkedLine) := do
  let size := page.source.utf8ByteSize
  if size < label.span.start.toNat then return none
  let start ← page.lines.positionInWords label.span.start.toNat
  let stop ← page.lines.positionInWords (min label.span.stop.toNat size)
  let text := (← page.lines.lineTextInWords start.line).getD []
  let column ← if stop.line = start.line then pure stop.column else add (Text.bytes text) 1
  let least ← add start.column 1
  return some ⟨start.line, text,
    [⟨start.column, max column least, label.style, label.message⟩]⟩

/-- The lines that the labels point at. -/
def annotatedInWords (d : Diagnostic) : InWords (List MarkedLine) := do
  let marks ← d.labels.mapM page.markInWords?
  return (marks.filterMap id).foldl (fun lines new => insertMark new lines) []

/-- A line number in a column of the given width. -/
def lineNumberInWords (width line : Nat) : InWords String := do
  return page.paint (strong .blue) (padLeft (← add width 1) (toString line))

/-- What stands above a line. -/
def gapInWords (width : Nat) (previous : Option Nat) (line : Nat) : InWords String :=
  match previous with
  | none => do return blanks (← add width 1) ++ " " ++ page.bar ++ "\n"
  | some n => do
    return if (← add n 1) < line then
      blanks width ++ " " ++ page.paint (plain .blue) "..." ++ "\n" else ""

/-- The rows below a line. -/
def markRowsInWords (width : Nat) (l : MarkedLine) : InWords String := do
  let marks := l.marks.mergeSort Mark.before
  let room ← add (Text.bytes l.text) 10
  let row := trimEnd (marks.foldl Mark.draw (List.replicate room ' '))
  if row.isEmpty then return ""
  let gutter := blanks (← add width 1) ++ " " ++ page.bar
  let painted := paintRow page.colours row
  match marks.filterMap fun m => m.message.map fun text => (m, text) with
  | [(m, text)] =>
    return gutter ++ " " ++ painted ++ " " ++ page.paint (paintOf m.style) text ++ "\n"
  | messages =>
    return gutter ++ " " ++ painted ++ "\n" ++
      String.join (messages.reverse.map fun (m, text) =>
        gutter ++ " " ++ blanks (m.first - 1) ++ page.paint (paintOf m.style) text ++ "\n")

/-- The lines of source with their marks. -/
def sourceRowsInWords (width : Nat) : Option Nat → List MarkedLine → InWords String
  | _, [] => return ""
  | previous, l :: rest => do
    let gap ← page.gapInWords width previous l.line
    let number ← page.lineNumberInWords width l.line
    let marks ← page.markRowsInWords width l
    let below ← sourceRowsInWords width (some l.line) rest
    return gap ++ number ++ " " ++ page.bar ++ " " ++ String.ofList l.text ++ "\n" ++ marks ++ below

/-- The line that tells the place. -/
def placeInWords (span : Span) : InWords String := do
  let pos ← page.lines.positionInWords span.start.toNat
  return "  " ++ page.paint (plain .blue) "-->" ++ " " ++ page.file ++ ":" ++ toString pos.line ++
    ":" ++ toString pos.column ++ "\n"

/-- The line as it would be with a replacement. -/
def suggestedLineInWords (x : Suggestion) : InWords String := do
  let pos ← page.lines.positionInWords x.span.start.toNat
  match ← page.lines.lineTextInWords pos.line with
  | none => return ""
  | some text =>
    let size := Text.bytes text
    let cut := min (pos.column - 1) size
    let stop ← add cut x.span.length
    match Text.splitAtByte? cut text, Text.splitAtByte? (min stop size) text with
    | some (front, _), some (_, back) =>
      let number ← page.lineNumberInWords 2 pos.line
      return blanks (← add 2 1) ++ " " ++ page.bar ++ "\n" ++ number ++ " " ++ page.bar ++ " " ++
        String.ofList front ++ page.paint (plain .green) x.replacement ++ String.ofList back ++ "\n"
    | _, _ => return ""

/-- What stands below the source. -/
def footerInWords (d : Diagnostic) : InWords String := do
  let notes := String.join (d.notes.map (page.remark "note"))
  match d.help with
  | none => return notes
  | some help =>
    match help.suggestion with
    | none => return notes ++ page.remark "help" help.message
    | some x => return notes ++ page.remark "help" help.message ++ (← page.suggestedLineInWords x)

/-- The text of a diagnostic. -/
def renderInWords (d : Diagnostic) : InWords String := do
  let lines ← page.annotatedInWords d
  let source ← match d.primarySpan, lines.getLast? with
    | some span, some last =>
      let place ← page.placeInWords span
      let rows ← page.sourceRowsInWords (max (toString last.line).length 2) none lines
      pure (place ++ rows)
    | _, _ => pure ""
  return page.header d ++ source ++ (← page.footerInWords d)

/-- The texts of some diagnostics. -/
def renderAllInWords (ds : List Diagnostic) : InWords String := do
  return String.intercalate "\n" (← ds.mapM page.renderInWords)

end

/-! ## No faults -/

/-- A line of a source, or one that is past its end. -/
structure Within (source : String) (l : MarkedLine) : Prop where
  /-- There are no more lines than bytes, but for one. -/
  line : l.line ≤ source.utf8ByteSize + 1
  /-- A line is a piece of the source. -/
  text : Text.bytes l.text ≤ source.utf8ByteSize

theorem Within.of_mem_insertMark {source : String} {new : MarkedLine} {lines : List MarkedLine}
    (hnew : Within source new) (hlines : ∀ l ∈ lines, Within source l) :
    ∀ l ∈ insertMark new lines, Within source l := by
  induction lines with
  | nil => simpa [insertMark] using hnew
  | cons l lines ih =>
    rw [List.forall_mem_cons] at hlines
    rw [insertMark]
    split
    · exact List.forall_mem_cons.mpr ⟨hnew, List.forall_mem_cons.mpr hlines⟩
    · split
      · exact List.forall_mem_cons.mpr ⟨⟨hlines.1.line, hlines.1.text⟩, hlines.2⟩
      · exact List.forall_mem_cons.mpr ⟨hlines.1, ih hlines.2⟩

/-- The page of a text that has its place in memory. -/
structure InMemory (page : Page) : Prop where
  /-- The lines are those of the text. -/
  lines : page.lines = .ofSource page.source
  /-- There is room for the text. -/
  size : page.source.utf8ByteSize < 2 ^ 63

section

variable {page : Page} (hpage : page.InMemory)

include hpage

theorem positionInWords_eq {offset : Nat}
    (hfit : (page.lines.position offset).column < 2 ^ 64) :
    page.lines.positionInWords offset = .ok (page.lines.position offset) := by
  rw [hpage.lines] at hfit ⊢
  rw [LineMap.positionInWords_ofSource hpage.size, if_pos hfit]

theorem lineTextInWords_eq (line : Nat) :
    page.lines.lineTextInWords line = .ok (page.lines.lineText line) := by
  rw [hpage.lines]
  exact LineMap.lineTextInWords_ofSource hpage.size line

/-- The line of an offset in the text, or of its end. -/
theorem line_le (offset : Nat) :
    (page.lines.position offset).line ≤ page.source.utf8ByteSize + 1 := by
  obtain ⟨start, text, hget, -, -, -, hout, hindex⟩ := LineMap.exists_line page.source offset
  rw [hpage.lines, LineMap.position_eq hget]
  simp only
  omega

theorem bytes_line_le (offset : Nat) :
    Text.bytes ((page.lines.lineText (page.lines.position offset).line).getD []) ≤
      page.source.utf8ByteSize := by
  obtain ⟨start, text, hget, htext, -, -, hout, -⟩ := LineMap.exists_line page.source offset
  rw [hpage.lines, LineMap.position_eq hget, htext, Option.getD_some]
  omega

theorem markInWords?_eq (label : Label) : page.markInWords? label = .ok (page.mark? label) := by
  have hsize := hpage.size
  rw [markInWords?, mark?]
  by_cases hout : page.source.utf8ByteSize < label.span.start.toNat
  · simp only [if_pos hout, pure_eq_ok]
  · have hstart : (page.lines.position label.span.start.toNat).column + 1 < 2 ^ 64 :=
      hpage.lines ▸ LineMap.column_lt_of_le hsize (Nat.le_of_not_lt hout)
    have hstop : (page.lines.position (min label.span.stop.toNat
        page.source.utf8ByteSize)).column + 1 < 2 ^ 64 :=
      hpage.lines ▸ LineMap.column_lt_of_le hsize (Nat.min_le_right _ _)
    have htext := bytes_line_le hpage label.span.start.toNat
    simp only [if_neg hout, positionInWords_eq hpage (Nat.lt_of_succ_lt hstart),
      positionInWords_eq hpage (Nat.lt_of_succ_lt hstop), lineTextInWords_eq hpage, ok_bind,
      add_of_lt hstart]
    split
    · rfl
    · rw [add_of_lt (by omega)]
      rfl

theorem annotatedInWords_eq (d : Diagnostic) :
    page.annotatedInWords d = .ok (page.annotated d) := by
  rw [annotatedInWords, mapM_of_forall fun l _ => markInWords?_eq hpage l, ok_bind, annotated,
    List.filterMap_map]
  rfl

/-- All marked lines are lines of the source. -/
theorem within_of_mem_annotated (d : Diagnostic) :
    ∀ l ∈ page.annotated d, Within page.source l := by
  have hmarks : ∀ l ∈ d.labels.filterMap page.mark?, Within page.source l := by
    intro l hl
    obtain ⟨label, -, hmark⟩ := List.mem_filterMap.mp hl
    rw [mark?] at hmark
    split at hmark
    · cases hmark
    · cases hmark
      exact ⟨line_le hpage _, bytes_line_le hpage _⟩
  have hfold (marks lines : List MarkedLine) (hmarks : ∀ l ∈ marks, Within page.source l)
      (hlines : ∀ l ∈ lines, Within page.source l) :
      ∀ l ∈ marks.foldl (fun lines new => insertMark new lines) lines, Within page.source l := by
    induction marks generalizing lines with
    | nil => exact hlines
    | cons new marks ih =>
      rw [List.forall_mem_cons] at hmarks
      exact ih _ hmarks.2 (hmarks.1.of_mem_insertMark hlines)
  exact hfold _ [] hmarks (by simp)

omit hpage in
theorem lineNumberInWords_eq {width : Nat} (hwidth : width < 2 ^ 63) (line : Nat) :
    page.lineNumberInWords width line = .ok (page.lineNumber width line) := by
  rw [lineNumberInWords, add_of_lt (by omega)]
  rfl

omit hpage in
theorem gapInWords_eq {width : Nat} (hwidth : width < 2 ^ 63) {previous : Option Nat}
    (hprevious : ∀ n ∈ previous, n < 2 ^ 64 - 1) (line : Nat) :
    page.gapInWords width previous line = .ok (page.gap width previous line) := by
  cases previous with
  | none =>
    rw [gapInWords, add_of_lt (by omega)]
    rfl
  | some n =>
    have hn := hprevious n rfl
    rw [gapInWords, add_of_lt (by omega)]
    rfl

theorem markRowsInWords_eq {width : Nat} (hwidth : width < 2 ^ 63) {l : MarkedLine}
    (hl : Within page.source l) : page.markRowsInWords width l = .ok (page.markRows width l) := by
  have hsize := hpage.size
  have htext := hl.text
  have hrow : trimEnd ((l.marks.mergeSort Mark.before).foldl Mark.draw
      (List.replicate (Text.bytes l.text + 10) ' ')) =
        drawAll (Text.bytes l.text) (l.marks.mergeSort Mark.before) := rfl
  rw [markRowsInWords, markRows, add_of_lt (by omega)]
  simp only [add_of_lt (show width + 1 < 2 ^ 64 by omega), ok_bind, hrow]
  split
  · rfl
  · generalize List.filterMap _ _ = messages
    rcases messages with _ | ⟨m, _ | ⟨m', rest⟩⟩ <;> rfl

theorem sourceRowsInWords_eq {width : Nat} (hwidth : width < 2 ^ 63) {lines : List MarkedLine}
    (hlines : ∀ l ∈ lines, Within page.source l) {previous : Option Nat}
    (hprevious : ∀ n ∈ previous, n < 2 ^ 64 - 1) :
    page.sourceRowsInWords width previous lines = .ok (page.sourceRows width previous lines) := by
  induction lines generalizing previous with
  | nil => rfl
  | cons l lines ih =>
    rw [List.forall_mem_cons] at hlines
    have hsize := hpage.size
    have hline := hlines.1.line
    have hrest := ih hlines.2 fun n (hn : n ∈ some l.line) => by
      obtain rfl := Option.some.inj hn
      omega
    rw [sourceRowsInWords, gapInWords_eq hwidth hprevious, ok_bind, lineNumberInWords_eq hwidth,
      ok_bind, markRowsInWords_eq hpage hwidth hlines.1, ok_bind, hrest, ok_bind]
    rfl

theorem placeInWords_eq {span : Span}
    (hfit : (page.lines.position span.start.toNat).column < 2 ^ 64) :
    page.placeInWords span = .ok (page.place span) := by
  rw [placeInWords, positionInWords_eq hpage hfit, ok_bind, place,
    Position.wordColumn_of_lt hfit]
  rfl

/-- A suggested line is written if its column fits. -/
theorem suggestedLineInWords_eq {x : Suggestion}
    (hfit : (page.lines.position x.span.start.toNat).column < 2 ^ 64) :
    page.suggestedLineInWords x = .ok (page.suggestedLine x) := by
  obtain ⟨start, text, hget, htext, -⟩ := LineMap.exists_line page.source x.span.start.toNat
  have hline : page.lines.lineText (page.lines.position x.span.start.toNat).line = some text := by
    rw [hpage.lines, LineMap.position_eq hget]
    exact htext
  have hcut : (page.lines.position x.span.start.toNat).column - 1 ≤ x.span.start.toNat :=
    hpage.lines ▸ (LineMap.column_bounds x.span.start.toNat).2
  have hstop := x.span.add_length_lt (Nat.le_trans (Nat.min_le_left _ (Text.bytes text)) hcut)
  rw [suggestedLineInWords, suggestedLine, positionInWords_eq hpage hfit, ok_bind,
    lineTextInWords_eq hpage, ok_bind, hline]
  simp only [Position.wordColumn_of_lt hfit, Option.getD_some, add_of_lt hstop, ok_bind,
    lineNumberInWords_eq (show 2 < 2 ^ 63 by decide)]
  generalize Text.splitAtByte? (min (_ - 1) _) text = front
  generalize Text.splitAtByte? (min (_ + _) _) text = back
  rcases front with _ | ⟨front, _⟩ <;> rcases back with _ | ⟨_, back⟩ <;> rfl

theorem suggestedLineInWords_error {x : Suggestion}
    (hfit : ¬ (page.lines.position x.span.start.toNat).column < 2 ^ 64) :
    page.suggestedLineInWords x = .error .overflow := by
  rw [hpage.lines] at hfit
  rw [suggestedLineInWords, hpage.lines, LineMap.positionInWords_ofSource hpage.size, if_neg hfit,
    error_bind]

theorem footerInWords_eq {d : Diagnostic} (hfit : ∀ x, d.suggestion? = some x →
      (page.lines.position x.span.start.toNat).column < 2 ^ 64) :
    page.footerInWords d = .ok (page.footer d) := by
  rw [footerInWords, footer]
  cases hhelp : d.help with
  | none => simp
  | some help =>
    cases hx : help.suggestion with
    | none => simp [hx]
    | some x =>
      have hsuggested : d.suggestion? = some x := by rw [Diagnostic.suggestion?, hhelp, ← hx]; rfl
      simp only [hx, suggestedLineInWords_eq hpage (hfit x hsuggested), ok_bind, pure_eq_ok,
        String.append_assoc]

theorem footerInWords_error {d : Diagnostic} {x : Suggestion} (hx : d.suggestion? = some x)
    (hfit : ¬ (page.lines.position x.span.start.toNat).column < 2 ^ 64) :
    page.footerInWords d = .error .overflow := by
  obtain ⟨help, hhelp, hsuggested⟩ := Option.bind_eq_some_iff.mp hx
  simp only [footerInWords, hhelp, hsuggested, suggestedLineInWords_error hpage hfit, error_bind]

/-- If the place of a diagnostic fits, no fault comes before what stands below the source. -/
theorem renderInWords_eq_bind {d : Diagnostic} (hplace : ∀ span, d.primarySpan = some span →
      page.annotated d ≠ [] → (page.lines.position span.start.toNat).column < 2 ^ 64) :
    ∃ front, page.render d = front ++ page.footer d ∧
      page.renderInWords d = page.footerInWords d >>= fun below => .ok (front ++ below) := by
  refine ⟨_, rfl, ?_⟩
  rw [renderInWords, annotatedInWords_eq hpage, ok_bind]
  cases hspan : d.primarySpan with
  | none => rfl
  | some span =>
    cases hlast : (page.annotated d).getLast? with
    | none => rfl
    | some last =>
      have hsize := hpage.size
      have hline := (within_of_mem_annotated hpage d last (List.mem_of_getLast? hlast)).line
      have hfit := hplace span hspan fun hnil => by rw [hnil] at hlast; cases hlast
      -- A line number has no more digits than the greatest word.
      have hdigits : (toString last.line).length ≤ 20 :=
        Nat.repr_length last.line 20 (by decide) (by omega)
      have hwidth : max (toString last.line).length 2 < 2 ^ 63 := by omega
      have hrows := sourceRowsInWords_eq hpage hwidth (within_of_mem_annotated hpage d)
        fun n (hn : n ∈ none) => nomatch hn
      simp only [placeInWords_eq hpage hfit, hrows, ok_bind, pure_eq_ok]

end

end StackEscape.Terminal.Page
