import StackEscape.Diagnostic.Basic
import StackEscape.Source.LineMap

/-!
# Diagnostics on a terminal

The text of a diagnostic for a reader: a header, the lines of source that its labels point at with
marks below them, and its notes and advice. Columns count bytes, and so do the marks.

## Main definitions

* `StackEscape.Terminal.Paint` — colours and bold type, written as terminal codes.
* `StackEscape.Terminal.Page` — a source text with its lines, and whether to use colours.
* `StackEscape.Terminal.Page.annotated` — the lines to show, with the marks below each.
* `StackEscape.Terminal.Page.render`, `renderAll` — the text of one diagnostic, and of several.
-/

set_option autoImplicit false

namespace StackEscape.Terminal

/-! ## Colours -/

/-- The colours used. -/
inductive Colour where
  /-- For errors. -/
  | red
  /-- For replacements. -/
  | green
  /-- For warnings. -/
  | yellow
  /-- For the frame around the source. -/
  | blue
  /-- For notes and advice. -/
  | cyan
  deriving DecidableEq, Inhabited, Repr

/-- The terminal code of a colour. -/
def Colour.code : Colour → String
  | red => "31"
  | green => "32"
  | yellow => "33"
  | blue => "34"
  | cyan => "36"

/-- How a piece of text is painted. -/
structure Paint where
  /-- In bold type? -/
  bold : Bool := false
  /-- In a colour? -/
  colour : Option Colour := none
  deriving DecidableEq, Inhabited, Repr

namespace Paint

/-- The sequence that begins the painting: bold goes first. -/
def opening (p : Paint) : String :=
  let codes := (if p.bold then ["1"] else []) ++ (p.colour.map Colour.code).toList
  "\x1b[" ++ String.intercalate ";" codes ++ "m"

/-- The sequence that ends all painting. -/
def reset : String := "\x1b[0m"

/-- A text in which the painting begins again wherever the text itself ends it. -/
def reopen (opening : List Char) : List Char → List Char
  | '\x1b' :: '[' :: '0' :: 'm' :: rest => reset.toList ++ opening ++ reopen opening rest
  | c :: rest => c :: reopen opening rest
  | [] => []

/-- A painted text; without colours, the text. -/
def apply (p : Paint) (colours : Bool) (text : String) : String :=
  if colours then
    p.opening ++ String.ofList (reopen p.opening.toList text.toList) ++ reset
  else text

end Paint

/-- Plain colours and bold colours. -/
def plain (c : Colour) : Paint := ⟨false, some c⟩

/-- A colour in bold type. -/
def strong (c : Colour) : Paint := ⟨true, some c⟩

/-- Bold type. -/
def bold : Paint := ⟨true, none⟩

/-- Some blanks. -/
def blanks (n : Nat) : String := String.ofList (List.replicate n ' ')

/-- A text behind blanks that make it as wide as asked for. -/
def padLeft (width : Nat) (text : String) : String := blanks (width - text.length) ++ text

/-! ## Marks -/

/-- A mark below a line, from a column up to another one. -/
structure Mark where
  /-- The first column. -/
  first : Nat
  /-- One past the last column. -/
  stop : Nat
  /-- What it points at. -/
  style : LabelStyle
  /-- The remark. -/
  message : Option String
  deriving DecidableEq, Inhabited, Repr

/-- A line of source with its marks. -/
structure MarkedLine where
  /-- Its number. -/
  line : Nat
  /-- Its text. -/
  text : List Char
  /-- Its marks, in the order of the labels. -/
  marks : List Mark

/-- The character that a mark is made of. -/
def symbol : LabelStyle → Char
  | .primary => '^'
  | .secondary => '-'

/-- How a remark is painted. -/
def paintOf : LabelStyle → Paint
  | .primary => strong .red
  | .secondary => plain .blue

/-- Primary marks come before secondary ones, and then the first column decides. -/
def Mark.before (a b : Mark) : Bool :=
  match a.style, b.style with
  | .primary, .secondary => true
  | .secondary, .primary => false
  | _, _ => decide (a.first ≤ b.first)

/-- A row of characters with a mark drawn over it. -/
def Mark.draw (row : List Char) (m : Mark) : List Char :=
  row.zipIdx.map fun (c, i) => if m.first ≤ i + 1 ∧ i + 1 < m.stop then symbol m.style else c

/-- A row of characters without the blanks at its end. -/
def trimEnd (row : List Char) : List Char := (row.reverse.dropWhile fun c => c = ' ').reverse

/-- All marks drawn into one row, later ones over earlier ones. It is a little wider than the
text. -/
def drawAll (width : Nat) (marks : List Mark) : List Char :=
  trimEnd (marks.foldl Mark.draw (List.replicate (width + 10) ' '))

/-- How a character of a row of marks is painted. -/
def paintOfSymbol (c : Char) : Option Paint :=
  if c = '^' then some (strong .red) else if c = '-' then some (plain .blue) else none

/-- A row of marks, each run of equal marks painted as one piece. -/
def paintRow (colours : Bool) (row : List Char) : String :=
  String.join ((row.splitBy fun a b => paintOfSymbol a == paintOfSymbol b).map fun run =>
    match run.head?.bind paintOfSymbol with
    | some p => p.apply colours (String.ofList run)
    | none => String.ofList run)

/-! ## Pages -/

/-- A source text to which diagnostics refer. -/
structure Page where
  /-- The text. -/
  source : String
  /-- Its lines. -/
  lines : LineMap
  /-- The name under which it is shown. -/
  file : String
  /-- Are colours used? -/
  colours : Bool

namespace Page

/-- The page of a source text. -/
def ofSource (source file : String) (colours : Bool) : Page :=
  ⟨source, .ofSource source, file, colours⟩

/-- The mark of a label, on the line where the label begins; `none` for a label that begins past the
end of the text. A label that ends on another line is marked up to the end of its first line. -/
def mark? (page : Page) (label : Label) : Option MarkedLine :=
  let size := page.source.utf8ByteSize
  if size < label.span.start.toNat then none
  else
    let start := page.lines.position label.span.start.toNat
    let stop := page.lines.position (min label.span.stop.toNat size)
    let text := (page.lines.lineText start.line).getD []
    let column := if stop.line = start.line then stop.column else Text.bytes text + 1
    some ⟨start.line, text,
      [⟨start.column, max column (start.column + 1), label.style, label.message⟩]⟩

/-- Put the mark of a line among the lines, which are in ascending order. -/
def insertMark (new : MarkedLine) : List MarkedLine → List MarkedLine
  | [] => [new]
  | l :: rest =>
    if new.line < l.line then new :: l :: rest
    else if new.line = l.line then { l with marks := l.marks ++ new.marks } :: rest
    else l :: insertMark new rest

/-- The lines that the labels point at, in ascending order. -/
def annotated (page : Page) (d : Diagnostic) : List MarkedLine :=
  (d.labels.filterMap page.mark?).foldl (fun lines new => insertMark new lines) []

/-- A painted piece of text. -/
def paint (page : Page) (p : Paint) (text : String) : String := p.apply page.colours text

/-- The bar beside the source. -/
def bar (page : Page) : String := page.paint (plain .blue) "|"

/-- The first line of a diagnostic. -/
def header (page : Page) (d : Diagnostic) : String :=
  let colour : Colour := match d.severity with
    | .error => .red
    | .warning => .yellow
    | .note => .blue
  let code := match d.code with
    | some code => "[" ++ page.paint (strong .red) code ++ "]"
    | none => ""
  page.paint (strong colour) d.severity.word ++ code ++ ": " ++ page.paint bold d.message ++ "\n"

/-- A remark below the source: a note or advice. -/
def remark (page : Page) (word text : String) : String :=
  blanks 2 ++ " " ++ page.paint (plain .cyan) "=" ++ " " ++ page.paint (strong .cyan) word ++
    ": " ++ text ++ "\n"

/-- A line number in a column of the given width. -/
def lineNumber (page : Page) (width line : Nat) : String :=
  page.paint (strong .blue) (padLeft (width + 1) (toString line))

/-- The line as it would be with a replacement; nothing if the piece to replace begins or ends
inside of a character. -/
def suggestedLine (page : Page) (s : Suggestion) : String :=
  let pos := page.lines.position s.span.start.toNat
  let text := (page.lines.lineText pos.line).getD []
  let size := Text.bytes text
  let cut := min (pos.wordColumn - 1) size
  match Text.splitAtByte? cut text,
    Text.splitAtByte? (min (cut + s.span.length) size) text with
  | some (front, _), some (_, back) =>
    blanks 3 ++ " " ++ page.bar ++ "\n" ++ page.lineNumber 2 pos.line ++ " " ++ page.bar ++ " " ++
      String.ofList front ++ page.paint (plain .green) s.replacement ++ String.ofList back ++ "\n"
  | _, _ => ""

/-- What stands below the source. -/
def footer (page : Page) (d : Diagnostic) : String :=
  String.join (d.notes.map (page.remark "note")) ++
    match d.help with
    | none => ""
    | some help =>
      page.remark "help" help.message ++
        match help.suggestion with
        | none => ""
        | some s => page.suggestedLine s

/-- The rows below a line: the marks, with the remark behind them if there is only one, and
otherwise the remarks from right to left. -/
def markRows (page : Page) (width : Nat) (l : MarkedLine) : String :=
  let marks := l.marks.mergeSort Mark.before
  let row := drawAll (Text.bytes l.text) marks
  let gutter := blanks (width + 1) ++ " " ++ page.bar
  let messages := marks.filterMap fun m => m.message.map fun text => (m, text)
  if row.isEmpty then ""
  else
    let painted := paintRow page.colours row
    match messages with
    | [(m, text)] => gutter ++ " " ++ painted ++ " " ++ page.paint (paintOf m.style) text ++ "\n"
    | _ =>
      gutter ++ " " ++ painted ++ "\n" ++
        String.join (messages.reverse.map fun (m, text) =>
          gutter ++ " " ++ blanks (m.first - 1) ++ page.paint (paintOf m.style) text ++ "\n")

/-- What stands above a line: an empty row above the first one, dots where lines are left out. -/
def gap (page : Page) (width : Nat) (previous : Option Nat) (line : Nat) : String :=
  match previous with
  | none => blanks (width + 1) ++ " " ++ page.bar ++ "\n"
  | some n =>
    if n + 1 < line then blanks width ++ " " ++ page.paint (plain .blue) "..." ++ "\n" else ""

/-- The lines of source with their marks. -/
def sourceRows (page : Page) (width : Nat) : Option Nat → List MarkedLine → String
  | _, [] => ""
  | previous, l :: rest =>
    page.gap width previous l.line ++
      page.lineNumber width l.line ++ " " ++ page.bar ++ " " ++ String.ofList l.text ++ "\n" ++
      page.markRows width l ++ page.sourceRows width (some l.line) rest

/-- The line that tells the place. -/
def place (page : Page) (span : Span) : String :=
  let pos := page.lines.position span.start.toNat
  "  " ++ page.paint (plain .blue) "-->" ++ " " ++ page.file ++ ":" ++ toString pos.line ++ ":" ++
    toString pos.wordColumn ++ "\n"

/-- The text of a diagnostic. Without a label inside of the text, no source is shown. -/
def render (page : Page) (d : Diagnostic) : String :=
  let lines := page.annotated d
  let source := match d.primarySpan, lines.getLast? with
    | some span, some last =>
      let width := max (toString last.line).length 2
      page.place span ++ page.sourceRows width none lines
    | _, _ => ""
  page.header d ++ source ++ page.footer d

/-- The texts of some diagnostics, with an empty line between them. -/
def renderAll (page : Page) (ds : List Diagnostic) : String :=
  String.intercalate "\n" (ds.map page.render)

end Page

end StackEscape.Terminal
