import StackEscape.Diagnostic.Code
import StackEscape.Diagnostic.OfError
import StackEscape.Diagnostic.Terminal
import StackEscape.Json.Writer
import StackEscape.Tree.Writer

/-!
# Reports

Diagnostics as data for other programs: an object with all diagnostics of a run, their places as
line and column, and the lines of source that they point at. Places past the end of the text are
shown as its end.

## Main definitions

* `StackEscape.Diagnostic.toJson` — a diagnostic by itself.
* `StackEscape.Report.ofDiagnostics` — the report on some diagnostics.
* `StackEscape.Analysis.render`, `report` — the two texts about a run.
-/

set_option autoImplicit false

namespace StackEscape

open Json

/-! ## Diagnostics by themselves -/

/-- A label. -/
def Label.toJson (l : Label) : Value :=
  .record [("span", l.span.toJson), ("style", .string l.style.word),
    ("message", .ofOption .string l.message)]

/-- A replacement. -/
def Suggestion.toJson (s : Suggestion) : Value :=
  .record [("span", s.span.toJson), ("replacement", .string s.replacement)]

/-- Advice. -/
def Help.toJson (h : Help) : Value :=
  .record [("message", .string h.message), ("suggestion", .ofOption Suggestion.toJson h.suggestion)]

/-- A diagnostic. -/
def Diagnostic.toJson (d : Diagnostic) : Value :=
  .record [("severity", .string d.severity.word), ("code", .ofOption .string d.code),
    ("message", .string d.message), ("labels", .ofList Label.toJson d.labels),
    ("notes", .ofList .string d.notes), ("help", .ofOption Help.toJson d.help)]

/-! ## Reports -/

namespace Report

/-- A source text and its lines. -/
structure Source where
  /-- The text. -/
  text : String
  /-- Its lines. -/
  lines : LineMap

namespace Source

/-- The lines of a text. -/
def ofText (text : String) : Source := ⟨text, .ofSource text⟩

/-- The place of an offset, or the end of the text. -/
def position (s : Source) (offset : UInt64) : Position :=
  s.lines.position (min offset.toNat s.text.utf8ByteSize)

/-- The text of a line; empty if there is no such line. -/
def line (s : Source) (line : Nat) : List Char := (s.lines.lineText line).getD []

/-- The line on which a piece begins, as it would be with the piece replaced. A side that would
begin or end inside of a character is left out. -/
def resultLine (s : Source) (x : Suggestion) : List Char :=
  let pos := s.position x.span.start
  let text := s.line pos.line
  let cut := min (pos.column - 1) (Text.bytes text)
  let stop := min (cut + x.span.length) (Text.bytes text)
  ((Text.splitAtByte? cut text).map Prod.fst).getD [] ++ x.replacement.toList ++
    ((Text.splitAtByte? stop text).map Prod.snd).getD []

end Source

/-- A field, if there is something to say. -/
def optional {α : Type} (name : String) (f : α → Value) (x : Option α) : List (String × Value) :=
  (x.map fun a => (name, f a)).toList

/-- A place by line, column and offset. -/
def position (s : Source) (offset : UInt64) : Value :=
  let pos := s.position offset
  .record [("line", .nat pos.line), ("column", .nat pos.column),
    ("byte_offset", .nat offset.toNat)]

/-- The place that a diagnostic is about, with its line. -/
def location (s : Source) (span : Span) : Value :=
  let pos := s.position span.start
  .record [("line", .nat pos.line), ("column", .nat pos.column),
    ("byte_offset", .nat span.start.toNat),
    ("source_line", .string (String.ofList (s.line pos.line)))]

/-- A label. -/
def label (s : Source) (l : Label) : Value :=
  .record ([("role", .string l.style.word)] ++ optional "message" .string l.message ++
    [("start", position s l.span.start), ("end", position s l.span.stop)])

/-- A replacement with the line that results from it. -/
def suggestion (s : Source) (x : Suggestion) : Value :=
  .record [("span", x.span.toJson), ("replacement", .string x.replacement),
    ("result_line", .string (String.ofList (s.resultLine x)))]

/-- The category of a diagnostic, by its code. -/
def category (d : Diagnostic) : Option Category := (d.code.bind Code.find?).map Code.category

/-- A diagnostic. -/
def diagnostic (s : Source) (d : Diagnostic) : Value :=
  .record ([("severity", .string d.severity.word)] ++ optional "code" .string d.code ++
    optional "category" (fun c => .string c.word) (category d) ++
    [("message", .string d.message)] ++ optional "location" (location s) d.primarySpan ++
    [("labels", .ofList (label s) d.labels)] ++
    (if d.notes.isEmpty then [] else [("notes", .ofList .string d.notes)]) ++
    optional "help" (fun h => .string h.message) d.help ++
    optional "suggestion" (suggestion s) d.suggestion?)

/-- The number of diagnostics of a severity. -/
def count (severity : Severity) (ds : List Diagnostic) : Nat :=
  ds.countP fun d => decide (d.severity = severity)

/-- The report on some diagnostics. -/
def ofDiagnostics (ds : List Diagnostic) (source file : String) : Value :=
  let s := Source.ofText source
  .record [("version", .nat 1), ("file", .string file),
    ("success", .bool (decide (count .error ds = 0))),
    ("diagnostics", .ofList (diagnostic s) ds), ("error_count", .nat (count .error ds)),
    ("warning_count", .nat (count .warning ds))]

end Report

/-! ## Runs -/

namespace Analysis

/-- The text about a run for a reader. -/
def render (a : Analysis) (source file : String) (colours : Bool) : String :=
  (Terminal.Page.ofSource source file colours).renderAll a.diagnostics

/-- The text about a run for other programs. -/
def report (a : Analysis) (source file : String) : String :=
  (Report.ofDiagnostics a.diagnostics source file).indented

end Analysis

end StackEscape
