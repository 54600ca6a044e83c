import StackEscape.Proofs.TextInWords
import StackEscape.Proofs.TreeText

/-!
# Reports of runs in words

Both reports of a run, written with 64-bit words instead of numbers. Offsets come unchecked from the
program: they may be past the end of the source, reversed or inside of a character. The report for
other programs takes the end of the text for everything past it, and nothing in it can overflow. The
text for a reader takes the place of a suggested line as it comes, so that its column overflows when
the greatest offset meets a source of a single line.

## Main definitions

* `StackEscape.Analysis.renderInWords`, `reportInWords` — the two reports of a run in words.
* `StackEscape.Analysis.OverflowsOn` — a line is suggested at the greatest offset of a single line.

## Main results

* `StackEscape.Report.ofDiagnosticsInWords_eq` — the report on some diagnostics, whatever they are.
* `StackEscape.Terminal.Page.renderInWords_eq_bind_of_labels` — the text of an error, up to what
  stands below the source.
* `StackEscape.Analysis.renderInWords_of_mem` — the text of an error of a run.
* `StackEscape.Analysis.rendered_in_words` — which runs are reported without a fault.
-/

set_option autoImplicit false

namespace StackEscape

open InWords

/-! ## The report in words -/

namespace Report

open Json

namespace Source

/-- The lines of a text. -/
def ofTextInWords (text : String) : InWords Source := do
  return ⟨text, ← LineMap.ofSourceInWords text⟩

/-- The place of an offset, or the end of the text. -/
def positionInWords (s : Source) (offset : UInt64) : InWords Position :=
  s.lines.positionInWords (min offset.toNat s.text.utf8ByteSize)

/-- The text of a line. -/
def lineInWords (s : Source) (line : Nat) : InWords (List Char) := do
  return (← s.lines.lineTextInWords line).getD []

/-- The line on which a piece begins, as it would be with the piece replaced. -/
def resultLineInWords (s : Source) (x : Suggestion) : InWords (List Char) := do
  let pos ← s.positionInWords x.span.start
  let text ← s.lineInWords pos.line
  let cut := min (← sub pos.column 1) (Text.bytes text)
  let stop := min (← add cut x.span.length) (Text.bytes text)
  return ((Text.splitAtByte? cut text).map Prod.fst).getD [] ++ x.replacement.toList ++
    ((Text.splitAtByte? stop text).map Prod.snd).getD []

end Source

section

variable (s : Source)

/-- A place by line, column and offset. -/
def positionInWords (offset : UInt64) : InWords Value := do
  let pos ← s.positionInWords offset
  return .record [("line", .nat pos.line), ("column", .nat pos.column),
    ("byte_offset", .nat offset.toNat)]

/-- The place that a diagnostic is about, with its line. -/
def locationInWords (span : Span) : InWords Value := do
  let pos ← s.positionInWords span.start
  let text ← s.lineInWords pos.line
  return .record [("line", .nat pos.line), ("column", .nat pos.column),
    ("byte_offset", .nat span.start.toNat), ("source_line", .string (String.ofList text))]

/-- A label. -/
def labelInWords (l : Label) : InWords Value := do
  let start ← positionInWords s l.span.start
  let stop ← positionInWords s l.span.stop
  return .record ([("role", .string l.style.word)] ++ optional "message" .string l.message ++
    [("start", start), ("end", stop)])

/-- A replacement with the line that results from it. -/
def suggestionInWords (x : Suggestion) : InWords Value := do
  let result ← s.resultLineInWords x
  return .record [("span", x.span.toJson), ("replacement", .string x.replacement),
    ("result_line", .string (String.ofList result))]

/-- A diagnostic. -/
def diagnosticInWords (d : Diagnostic) : InWords Value := do
  let location ← d.primarySpan.mapM (locationInWords s)
  let labels ← d.labels.mapM (labelInWords s)
  let suggestion ← d.suggestion?.mapM (suggestionInWords s)
  return .record ([("severity", .string d.severity.word)] ++ optional "code" .string d.code ++
    optional "category" (fun c => .string c.word) (category d) ++
    [("message", .string d.message)] ++ optional "location" id location ++
    [("labels", .arr labels)] ++
    (if d.notes.isEmpty then [] else [("notes", .ofList .string d.notes)]) ++
    optional "help" (fun h => .string h.message) d.help ++
    optional "suggestion" id suggestion)

end

/-- The report on some diagnostics. -/
def ofDiagnosticsInWords (ds : List Diagnostic) (source file : String) : InWords Value := do
  let s ← Source.ofTextInWords source
  let diagnostics ← ds.mapM (diagnosticInWords s)
  return .record [("version", .nat 1), ("file", .string file),
    ("success", .bool (decide (count .error ds = 0))),
    ("diagnostics", .arr diagnostics), ("error_count", .nat (count .error ds)),
    ("warning_count", .nat (count .warning ds))]

/-! ## No faults -/

section

variable {source : String} (hsource : source.utf8ByteSize < 2 ^ 63)

include hsource

theorem positionInWords_ofText (offset : UInt64) :
    (Source.ofText source).positionInWords offset =
      .ok ((Source.ofText source).position offset) :=
  (LineMap.positionInWords_ofSource hsource _).trans
    (if_pos (Nat.lt_of_succ_lt (LineMap.column_lt_of_le hsource (Nat.min_le_right _ _))))

theorem lineInWords_ofText (line : Nat) :
    (Source.ofText source).lineInWords line = .ok ((Source.ofText source).line line) := by
  rw [Source.lineInWords, Source.ofText, LineMap.lineTextInWords_ofSource hsource]
  rfl

theorem resultLineInWords_ofText (x : Suggestion) :
    (Source.ofText source).resultLineInWords x = .ok ((Source.ofText source).resultLine x) := by
  have hcut : ((Source.ofText source).position x.span.start).column - 1 ≤ x.span.start.toNat :=
    Nat.le_trans (LineMap.column_bounds _).2 (Nat.min_le_left _ _)
  have hone : 1 ≤ ((Source.ofText source).position x.span.start).column :=
    (LineMap.column_bounds _).1
  have hstop (size : Nat) := x.span.add_length_lt (Nat.le_trans (Nat.min_le_left _ size) hcut)
  simp only [Source.resultLineInWords, positionInWords_ofText hsource,
    lineInWords_ofText hsource, sub_of_le hone, add_of_lt (hstop _), ok_bind]
  rfl

/-- The report on any diagnostics has no fault. -/
theorem ofDiagnosticsInWords_eq (ds : List Diagnostic) (file : String) :
    ofDiagnosticsInWords ds source file = .ok (ofDiagnostics ds source file) := by
  have hlocation (span : Span) : locationInWords (Source.ofText source) span =
      .ok (location (Source.ofText source) span) := by
    simp only [locationInWords, positionInWords_ofText hsource, lineInWords_ofText hsource, ok_bind]
    rfl
  have hlabel (l : Label) : labelInWords (Source.ofText source) l =
      .ok (label (Source.ofText source) l) := by
    simp only [labelInWords, positionInWords, positionInWords_ofText hsource, ok_bind, pure_eq_ok]
    rfl
  have hsuggestion (x : Suggestion) : suggestionInWords (Source.ofText source) x =
      .ok (suggestion (Source.ofText source) x) := by
    rw [suggestionInWords, resultLineInWords_ofText hsource, ok_bind]
    rfl
  have hdiagnostic (d : Diagnostic) : diagnosticInWords (Source.ofText source) d =
      .ok (diagnostic (Source.ofText source) d) := by
    rw [diagnosticInWords, mapM_option_of_forall fun span _ => hlocation span, ok_bind,
      mapM_of_forall fun l _ => hlabel l, ok_bind,
      mapM_option_of_forall fun x _ => hsuggestion x, ok_bind, diagnostic]
    cases d.primarySpan <;> cases d.suggestion? <;> rfl
  rw [ofDiagnosticsInWords, Source.ofTextInWords, LineMap.ofSourceInWords_eq hsource]
  simp only [ok_bind, pure_eq_ok]
  rw [show (⟨source, .ofSource source⟩ : Source) = .ofText source from rfl,
    mapM_of_forall fun d _ => hdiagnostic d]
  rfl

end

end Report

/-! ## The text of an error -/

namespace Terminal.Page

variable {page : Page} {d : Diagnostic} {l : Label}

/-- The one label of an error is shown if it is in the text, and then its place fits. -/
theorem renderInWords_eq_bind_of_labels (hpage : page.InMemory) (hlabels : d.labels = [l])
    (hprimary : d.primarySpan = some l.span) : ∃ front, page.render d = front ++ page.footer d ∧
      page.renderInWords d = page.footerInWords d >>= fun below => .ok (front ++ below) := by
  refine renderInWords_eq_bind hpage fun span hspan hshown => ?_
  obtain rfl : l.span = span := Option.some.inj (hprimary.symm.trans hspan)
  rw [annotated_of_labels hlabels, mark?] at hshown
  split at hshown
  · exact absurd rfl hshown
  next hin =>
    rw [hpage.lines]
    exact Nat.lt_of_succ_lt (LineMap.column_lt_of_le hpage.size (Nat.le_of_not_lt hin))

end Terminal.Page

/-! ## Reports of runs -/

/-- Only for a misplaced annotation, something is suggested. -/
theorem EscapeErrorKind.suggestion?_eq_none_iff (kind : EscapeErrorKind) (span : Span) :
    (kind.diagnostic span).suggestion? = none ↔
      ∀ member, kind ≠ .unscopedRefNotAllowed member := by
  cases kind with
  | unscopedRefNotAllowed member =>
    exact iff_of_false (Option.some_ne_none _) fun h => h member rfl
  | returnRefEscape name scope =>
    rw [diagnostic]
    split <;> exact iff_of_true rfl fun _ h => by cases h
  | shape kind => exact iff_of_true (kind.exists_label span).2 fun _ h => by cases h
  | _ => exact iff_of_true rfl fun _ h => by cases h

namespace Analysis

/-- The text for a reader. -/
def renderInWords (a : Analysis) (source file : String) (colours : Bool) : InWords String := do
  let page ← Terminal.Page.ofSourceInWords source file colours
  page.renderAllInWords a.diagnostics

/-- The report for other programs. -/
def reportInWords (a : Analysis) (source file : String) : InWords String := do
  let json ← Report.ofDiagnosticsInWords a.diagnostics source file
  return json.indented

/-- The source is a single line, and a misplaced annotation is said to begin at the greatest
offset. -/
def OverflowsOn (a : Analysis) (source : String) : Prop :=
  '\n' ∉ source.toList ∧ ∃ e ∈ a.escapeErrors,
    (∃ member, e.kind = .unscopedRefNotAllowed member) ∧ e.span.start.toNat = 2 ^ 64 - 1

section

variable {a : Analysis} {source : String} (hsource : source.utf8ByteSize < 2 ^ 63)

include hsource

theorem overflowsOn_iff : a.OverflowsOn source ↔ ∃ d ∈ a.diagnostics, ∃ x,
    d.suggestion? = some x ∧
      ¬ ((LineMap.ofSource source).position x.span.start.toNat).column < 2 ^ 64 := by
  have hfit (span : Span) := LineMap.column_lt_iff hsource span.start
  constructor
  · rintro ⟨hline, e, he, ⟨member, hkind⟩, hlast⟩
    have hd : e.diagnostic ∈ a.diagnostics :=
      List.mem_append_right _ (List.mem_map_of_mem he)
    obtain ⟨x, hx⟩ := Option.ne_none_iff_exists'.mp fun hnone =>
      (e.kind.suggestion?_eq_none_iff e.span).mp hnone member hkind
    have hspan := (e.kind.exists_label e.span).2 x hx
    exact ⟨_, hd, x, hx, by rw [hfit, hspan, hlast]; simp [hline]⟩
  · rintro ⟨d, hd, x, hx, hover⟩
    rcases List.mem_append.mp hd with hd | hd <;> obtain ⟨e, he, rfl⟩ := List.mem_map.mp hd
    · rw [TypeError.diagnostic, (e.kind.exists_label e.span).2] at hx
      cases hx
    · have hspan := (e.kind.exists_label e.span).2 x hx
      rw [hfit, hspan, not_or] at hover
      have hkind : ∃ member, e.kind = .unscopedRefNotAllowed member := by
        by_contra hother
        rw [EscapeError.diagnostic, (e.kind.suggestion?_eq_none_iff e.span).mpr
          fun member h => hother ⟨member, h⟩] at hx
        cases hx
      have := e.span.start.toNat_lt
      exact ⟨hover.2, e, he, hkind, by omega⟩

/-- The text of an error is written unless the column of what it suggests overflows. -/
theorem renderInWords_of_mem (file : String) (colours : Bool) {d : Diagnostic}
    (hd : d ∈ a.diagnostics) :
    let page := Terminal.Page.ofSource source file colours
    (page.renderInWords d = .ok (page.render d) ∧ ∀ x, d.suggestion? = some x →
      ((LineMap.ofSource source).position x.span.start.toNat).column < 2 ^ 64) ∨
    (page.renderInWords d = .error .overflow ∧ ∃ x, d.suggestion? = some x ∧
      ¬ ((LineMap.ofSource source).position x.span.start.toNat).column < 2 ^ 64) := by
  intro page
  have hpage : page.InMemory := ⟨rfl, hsource⟩
  rw [diagnostics_eq] at hd
  obtain ⟨e, he, rfl⟩ := List.mem_map.mp hd
  obtain ⟨⟨l, hlabels, hprimary, -⟩, -⟩ := exists_label_of_mem_placed he
  obtain ⟨front, hrender, hwords⟩ :=
    Terminal.Page.renderInWords_eq_bind_of_labels hpage hlabels hprimary
  by_cases hfit : ∀ x, e.2.suggestion? = some x →
      ((LineMap.ofSource source).position x.span.start.toNat).column < 2 ^ 64
  · refine .inl ⟨?_, hfit⟩
    rw [hwords, Terminal.Page.footerInWords_eq hpage hfit, ok_bind, hrender]
  · obtain ⟨x, hx, hover⟩ : ∃ x, e.2.suggestion? = some x ∧
        ¬ ((LineMap.ofSource source).position x.span.start.toNat).column < 2 ^ 64 := by
      simpa using hfit
    refine .inr ⟨?_, x, hx, hover⟩
    rw [hwords, Terminal.Page.footerInWords_error hpage hx hover, error_bind]

end

/-- For a source that fits in memory, the report of a run is written without a fault. So is the text,
but for a misplaced annotation at the greatest offset of a single line, where a column overflows. -/
theorem rendered_in_words (a : Analysis) (source file : String) (colours : Bool)
    (hsource : source.utf8ByteSize < 2 ^ 63) :
    a.reportInWords source file = .ok (a.report source file) ∧
      (¬ a.OverflowsOn source →
        a.renderInWords source file colours = .ok (a.render source file colours)) ∧
      (a.OverflowsOn source → a.renderInWords source file colours = .error .overflow) := by
  have hpage : Terminal.Page.ofSourceInWords source file colours =
      .ok (.ofSource source file colours) := by
    rw [Terminal.Page.ofSourceInWords, LineMap.ofSourceInWords_eq hsource]
    rfl
  have hcases (d : Diagnostic) (hd : d ∈ a.diagnostics) :=
    renderInWords_of_mem hsource file colours hd
  rw [overflowsOn_iff hsource, renderInWords, hpage, ok_bind, Terminal.Page.renderAllInWords]
  refine ⟨?_, fun hfit => ?_, fun hover => ?_⟩
  · rw [reportInWords, Report.ofDiagnosticsInWords_eq hsource]
    rfl
  · rw [mapM_of_forall fun d hd =>
      ((hcases d hd).resolve_right fun h => hfit ⟨d, hd, h.2⟩).1]
    rfl
  · obtain ⟨d, hd, x, hx, hlarge⟩ := hover
    have herror := ((hcases d hd).resolve_left fun h => hlarge (h.2 x hx)).1
    rw [mapM_of_exists (fun d hd => (hcases d hd).imp And.left And.left) ⟨d, hd, herror⟩,
      error_bind]

end Analysis

namespace Mugs

/-- The greatest offset. -/
def last : Span := ⟨.ofNat (2 ^ 64 - 1), .ofNat (2 ^ 64 - 1)⟩

theorem rendered_in_words_sip :
    (text.utf8ByteSize < 2 ^ 63 ∧ ¬ ((program here).analyze {}).OverflowsOn text ∧
      ((program here).analyze {}).renderInWords text "Mug.cs" true =
        .ok (((program here).analyze {}).render text "Mug.cs" true)) ∧
    ("class Mug".utf8ByteSize < 2 ^ 63 ∧ ((program last).analyze {}).OverflowsOn "class Mug" ∧
      ((program last).analyze {}).renderInWords "class Mug" "Mug.cs" true = .error .overflow) :=
  have htext : text.utf8ByteSize < 2 ^ 63 := by decide
  have hfit : ¬ ((program here).analyze {}).OverflowsOn text := fun h => h.1 (by decide)
  have hline : "class Mug".utf8ByteSize < 2 ^ 63 := by decide
  have hover : ((program last).analyze {}).OverflowsOn "class Mug" :=
    ⟨by decide, _, List.mem_singleton.mpr rfl, ⟨_, rfl⟩, rfl⟩
  ⟨⟨htext, hfit, (Analysis.rendered_in_words _ text "Mug.cs" true htext).2.1 hfit⟩,
    hline, hover, (Analysis.rendered_in_words _ "class Mug" "Mug.cs" true hline).2.2 hover⟩

/-- A program is read whose annotation makes a column overflow. -/
theorem column_overflows : Program.load? (program last).toJson.compact = some (program last) ∧
    ((program last).analyze {}).renderInWords "class Mug" "Mug.cs" true = .error .overflow := by
  refine ⟨?_, by decide +kernel⟩
  have hread := (program last).readsBack
  rw [Program.load?, hread.plain.read?_compact, Option.bind_some, Program.ofJson?,
    hread.eq _ (by decide +kernel)]

end Mugs

end StackEscape
