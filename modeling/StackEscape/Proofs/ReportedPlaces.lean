import Mathlib.Algebra.Group.Nat.Defs
import StackEscape.Diagnostic.Report
import StackEscape.Proofs.SourceLines

/-!
# Two reports of one place

The text for a reader and the report for other programs find places and suggested lines each in a
way of its own: one takes offsets as they come and shows no source for labels past the end of the
text, the other takes the end of the text in their stead. What both tell of an error is the same.

## Main definitions

* `StackEscape.Analysis.placed` — the errors of a run by their places, with their diagnostics.
* `StackEscape.Terminal.arrowLine`, `numberedLine` — the line that tells a place, and a line of
  source behind its number.
* `StackEscape.Terminal.Page.PrintsLocation`, `PrintsAt` — the text goes on with a place after its
  first line, and with which one.
* `StackEscape.Terminal.Page.AgreesOn` — text and report tell the same of an error.

## Main results

* `StackEscape.LineMap.exists_line` — the line of an offset, also of one past the end of the text.
* `StackEscape.LineMap.min_column` — a column that is cut off at the end of its line is that of the
  offset cut off at the end of the text.
* `StackEscape.Terminal.Page.suggestedLine_eq` — the suggested line is the one that is reported.
* `StackEscape.Analysis.reports_agree` — the two reports of every run.
-/

set_option autoImplicit false

namespace StackEscape

/-! ## Lines past the end -/

theorem Position.wordColumn_of_lt {p : Position} (h : p.column < 2 ^ 64) :
    p.wordColumn = p.column := Nat.mod_eq_of_lt h

namespace LineMap

/-- Two numbers with the same entries at or below them have the same last one. -/
theorem IsLast.unique {a : Array Nat} {x y i j : Nat} (hi : IsLast a x i) (hj : IsLast a y j)
    (hle : ∀ k (_ : k < a.size), a[k] ≤ x ↔ a[k] ≤ y) : i = j := by
  rcases Nat.lt_trichotomy i j with hlt | heq | hlt
  · have := hi.beyond j hj.lt hlt
    have := (hle j hj.lt).2 hj.le
    omega
  · exact heq
  · have := hj.beyond i hi.lt hlt
    have := (hle i hi.lt).1 hi.le
    omega

section

variable (source : String)

/-- Every earlier line takes a byte at least, and no line starts past the end of the text. -/
theorem start_bounds (k : Nat) (hk : k < (ofSource source).starts.size) :
    k ≤ (ofSource source).starts[k] ∧ (ofSource source).starts[k] ≤ source.utf8ByteSize := by
  have hls : Text.lines source.toList = _ := rfl
  have hget := getElem?_starts hls k
  have hcount := lineCount_ofSource hls
  rw [lineCount] at hcount
  have hlt : k < (Text.lines source.toList).length := hcount ▸ hk
  rw [if_pos hlt, Array.getElem?_eq_getElem hk] at hget
  rw [Option.some.inj hget]
  constructor
  · have hnewlines := Text.count_encode_before
      (fun _ => Text.newline_notMem_of_mem_lines) (Nat.le_of_lt hlt)
    have hle := List.count_le_length (a := (10 : UInt8))
      (l := Text.encode (Text.before k (Text.lines source.toList)))
    rwa [hnewlines, Text.length_encode] at hle
  · have hsize := congrArg Text.bytes (toList_eq rfl hlt)
    rw [Text.bytes_toList, Text.bytes_append] at hsize
    omega

/-- Past the end of the text, there is only its last line. -/
theorem lineIndex_min (offset : Nat) :
    (ofSource source).lineIndex (min offset source.utf8ByteSize) =
      (ofSource source).lineIndex offset := by
  have hup : (ofSource source).starts.toList.Pairwise (· < ·) := by
    rw [toList_starts rfl]
    exact Text.pairwise_startsFrom 0 _
  refine (isLast_lineIndex hup _).unique (isLast_lineIndex hup _) fun k hk => ?_
  have := (start_bounds source k hk).2
  omega

/-- The line of an offset. It holds the offset, or else the end of the text. -/
theorem exists_line (offset : Nat) : ∃ start text,
    (ofSource source).starts[(ofSource source).lineIndex offset]? = some start ∧
      (ofSource source).lineText ((ofSource source).lineIndex offset + 1) = some text ∧
      start ≤ min offset source.utf8ByteSize ∧
      min offset source.utf8ByteSize ≤ start + Text.bytes text ∧
      start + Text.bytes text ≤ source.utf8ByteSize ∧
      (ofSource source).lineIndex offset ≤ start := by
  have hls : Text.lines source.toList = _ := rfl
  obtain ⟨i, h, hi, hget, hstart, hstop⟩ :=
    lineIndex_ofSource hls (Nat.min_le_right offset source.utf8ByteSize)
  rw [lineIndex_min] at hi
  have hsize := congrArg Text.bytes (toList_eq hls h)
  rw [Text.bytes_toList, Text.bytes_append, Text.bytes_append] at hsize
  obtain ⟨hindex, hentry⟩ := Array.getElem?_eq_some_iff.mp hget
  refine ⟨_, _, hi ▸ hget, ?_, hstart, hstop, by omega, ?_⟩
  · rw [hi, lineText_succ rfl, List.getElem?_eq_getElem h]
  · rw [hi, ← hentry]
    exact (start_bounds source i hindex).1

theorem line_position_min (offset : Nat) :
    ((ofSource source).position (min offset source.utf8ByteSize)).line =
      ((ofSource source).position offset).line := by
  simp only [position, lineIndex_min]

/-- A column that is cut off at the end of its line is that of the offset cut off at the end of the
text. -/
theorem min_column (offset : Nat) :
    let line := ((ofSource source).position offset).line
    let size := Text.bytes (((ofSource source).lineText line).getD [])
    min (((ofSource source).position (min offset source.utf8ByteSize)).column - 1) size =
      min (((ofSource source).position offset).column - 1) size := by
  obtain ⟨start, text, hget, htext, hle, hin, hout, -⟩ := exists_line source offset
  have hmin : (ofSource source).starts[(ofSource source).lineIndex
      (min offset source.utf8ByteSize)]? = some start := by rw [lineIndex_min, hget]
  rw [position_eq hget, position_eq hmin]
  simp only [htext, Option.getD_some]
  omega

/-- Before the last word, a column is itself as a word. -/
theorem wordColumn_position {offset : Nat} (hoffset : offset < 2 ^ 64 - 1) :
    ((ofSource source).position offset).wordColumn =
      ((ofSource source).position offset).column := by
  obtain ⟨start, text, hget, -⟩ := exists_line source offset
  refine Position.wordColumn_of_lt ?_
  rw [position_eq hget]
  simp only
  omega

end

end LineMap

/-! ## Fields of reports -/

namespace Json.Value

/-- The value of the first field of a name. -/
def field? (name : String) : Value → Option Value
  | obj fields => fields.lookup (.whole name)
  | _ => none

theorem field?_record (name : String) (fields : List (String × Value)) :
    (record fields).field? name = fields.lookup name := by
  induction fields with
  | nil => rfl
  | cons f fields ih =>
    have hkey : (Text.whole name == Text.whole f.1) = (name == f.1) := by
      by_cases h : name = f.1 <;> simp [h]
    simp only [record, field?, List.map_cons, List.lookup_cons, hkey] at ih ⊢
    rw [ih, ← List.lookup_cons]

end Json.Value

namespace Report

open Json

theorem lookup_optional {α : Type} (name key : String) (f : α → Value) (x : Option α) :
    (optional key f x).lookup name = if name = key then x.map f else none := by
  cases x with
  | none => simp [optional]
  | some a =>
    by_cases h : name = key
    · simp [optional, h]
    · have hkey : (name == key) = false := by simpa using h
      simp [optional, h, hkey, List.lookup_cons]

theorem location_diagnostic (s : Source) (d : Diagnostic) :
    (diagnostic s d).field? "location" = d.primarySpan.map (location s) := by
  by_cases h : d.notes.isEmpty <;>
    simp [diagnostic, Value.field?_record, List.lookup_append, lookup_optional,
      List.lookup_cons, h]

theorem suggestion_diagnostic (s : Source) (d : Diagnostic) :
    (diagnostic s d).field? "suggestion" = d.suggestion?.map (suggestion s) := by
  by_cases h : d.notes.isEmpty <;>
    simp [diagnostic, Value.field?_record, List.lookup_append, lookup_optional,
      List.lookup_cons, h]

end Report

/-! ## Places in a text -/

/-- A diagnostic without what it suggests. -/
def Diagnostic.withoutSuggestion (d : Diagnostic) : Diagnostic :=
  { d with help := d.help.map fun h => { h with suggestion := none } }

namespace Terminal

/-- The line that tells a place. -/
def arrowLine (file : String) (line column : Nat) : String :=
  "  --> " ++ file ++ ":" ++ toString line ++ ":" ++ toString column ++ "\n"

/-- A line behind its number, which ends in the given column. -/
def numberedLine (width line : Nat) (text : String) : String :=
  padLeft width (toString line) ++ " | " ++ text ++ "\n"

namespace Page

/-- After its first line, the text of a diagnostic goes on with a place. -/
def PrintsLocation (page : Page) (d : Diagnostic) : Prop :=
  ∃ rest, page.render d = page.header d ++ ("  --> " ++ rest)

/-- After its first line, the text of a diagnostic tells this place and shows this line. -/
def PrintsAt (page : Page) (d : Diagnostic) (line column : Nat) (text : String) : Prop :=
  ∃ width rest, page.render d = page.header d ++ (arrowLine page.file line column ++
    (blanks width ++ " |\n") ++ numberedLine width line text ++ rest)

section

variable (source file : String)

@[simp] theorem paint_ofSource (p : Paint) (text : String) :
    (ofSource source file false).paint p text = text := rfl

@[simp] theorem bar_ofSource : (ofSource source file false).bar = "|" := rfl

theorem place_ofSource (span : Span) : (ofSource source file false).place span =
    arrowLine file ((LineMap.ofSource source).position span.start.toNat).line
      ((LineMap.ofSource source).position span.start.toNat).wordColumn :=
  rfl

/-- What stands below the source begins with an equals sign. -/
theorem footer_ofSource (d : Diagnostic) : (ofSource source file false).footer d = "" ∨
    ∃ rest, (ofSource source file false).footer d = "   =" ++ rest := by
  have hremark (word text : String) :
      ∃ rest, (ofSource source file false).remark word text = "   =" ++ rest :=
    ⟨" " ++ (word ++ (": " ++ (text ++ "\n"))), by simp [remark, blanks, String.append_assoc]; rfl⟩
  rw [footer]
  cases d.notes with
  | cons note notes =>
    obtain ⟨rest, hrest⟩ := hremark "note" note
    exact .inr ⟨_, by rw [List.map_cons, String.join_cons, hrest, String.append_assoc,
      String.append_assoc]⟩
  | nil =>
    rw [List.map_nil, String.join_nil, String.empty_append]
    cases d.help with
    | none => exact .inl rfl
    | some help =>
      obtain ⟨rest, hrest⟩ := hremark "help" help.message
      exact .inr ⟨_, by simp only [hrest, String.append_assoc]; rfl⟩

theorem annotated_of_labels {page : Page} {d : Diagnostic} {l : Label} (hlabels : d.labels = [l]) :
    page.annotated d = (page.mark? l).toList := by
  rw [annotated, hlabels]
  cases h : page.mark? l <;> simp [h, insertMark]

variable {source file} {d : Diagnostic} {l : Label} (hlabels : d.labels = [l])

include hlabels

/-- A label past the end of the text is left out. -/
theorem render_of_outside (h : source.utf8ByteSize < l.span.start.toNat) :
    (ofSource source file false).render d =
      (ofSource source file false).header d ++ (ofSource source file false).footer d := by
  have hmark : (ofSource source file false).mark? l = none := if_pos h
  rw [render, annotated_of_labels hlabels, hmark]
  cases d.primarySpan <;> simp

/-- A label in the text is shown with its place and its line. -/
theorem render_of_inside (hprimary : d.primarySpan = some l.span)
    (h : l.span.start.toNat ≤ source.utf8ByteSize) :
    let pos := (LineMap.ofSource source).position l.span.start.toNat
    (ofSource source file false).PrintsAt d pos.line pos.wordColumn
      (String.ofList (((LineMap.ofSource source).lineText pos.line).getD [])) := by
  intro pos
  obtain ⟨marked, hmark, hline, htext⟩ : ∃ marked, (ofSource source file false).mark? l =
      some marked ∧ marked.line = pos.line ∧
        marked.text = ((LineMap.ofSource source).lineText pos.line).getD [] :=
    ⟨_, if_neg (Nat.not_lt_of_le h), rfl, rfl⟩
  refine ⟨max (toString pos.line).length 2 + 1, (ofSource source file false).markRows
    (max (toString pos.line).length 2) marked ++ (ofSource source file false).footer d, ?_⟩
  rw [render, annotated_of_labels hlabels, hmark, hprimary]
  simp only [Option.toList_some, List.getLast?_singleton, place_ofSource, sourceRows, gap,
    bar_ofSource, lineNumber, paint_ofSource, hline, htext, numberedLine, String.append_assoc,
    String.append_empty]
  rfl

omit hlabels

/-- The text of a diagnostic ends in the suggested line, if there is one. -/
theorem render_withoutSuggestion (page : Page) (d : Diagnostic) :
    page.render d = page.render d.withoutSuggestion ++
      (d.suggestion?.map page.suggestedLine).getD "" := by
  have hfooter : page.footer d = page.footer d.withoutSuggestion ++
      (d.suggestion?.map page.suggestedLine).getD "" := by
    simp only [footer, Diagnostic.suggestion?, Diagnostic.withoutSuggestion]
    cases d.help with
    | none => simp
    | some help => cases hs : help.suggestion <;> simp [hs, String.append_assoc]
  rw [render, hfooter, ← String.append_assoc]
  rfl

/-- The reported line, cut where the text cuts it. -/
theorem resultLine_eq (x : Suggestion) (hx : x.span.start.toNat < 2 ^ 64 - 1) :
    let pos := (LineMap.ofSource source).position x.span.start.toNat
    let text := ((LineMap.ofSource source).lineText pos.line).getD []
    let cut := min (pos.wordColumn - 1) (Text.bytes text)
    (Report.Source.ofText source).resultLine x =
      ((Text.splitAtByte? cut text).map Prod.fst).getD [] ++ x.replacement.toList ++
        ((Text.splitAtByte? (min (cut + x.span.length) (Text.bytes text)) text).map Prod.snd).getD
          [] := by
  intro pos text cut
  have hline : ((Report.Source.ofText source).position x.span.start).line = pos.line :=
    LineMap.line_position_min source _
  have hcut : min (((Report.Source.ofText source).position x.span.start).column - 1)
      (Text.bytes text) = cut :=
    (LineMap.min_column source _).trans (by rw [← LineMap.wordColumn_position source hx])
  simp only [Report.Source.resultLine, hline]
  rw [← hcut]
  rfl

/-- The suggested line is the one that is reported, unless none is shown. -/
theorem suggestedLine_eq (x : Suggestion) (hx : x.span.start.toNat < 2 ^ 64 - 1) :
    (ofSource source file false).suggestedLine x = "" ∨
      (ofSource source file false).suggestedLine x = "    |\n" ++
        numberedLine 3 ((LineMap.ofSource source).position x.span.start.toNat).line
          (String.ofList ((Report.Source.ofText source).resultLine x)) := by
  rw [suggestedLine, resultLine_eq x hx]
  simp only [ofSource]
  split
  next front _ _ back hfront hback =>
    refine .inr ?_
    rw [hfront, hback]
    simp [numberedLine, lineNumber, bar, paint, Paint.apply, blanks, String.append_assoc]
  next => exact .inl rfl

end

/-! ## Agreement -/

/-- The text and the report tell the same of an error at `span`, which both show as `d`. -/
structure AgreesOn (page : Page) (s : Report.Source) (span : Span) (d : Diagnostic) : Prop where
  /-- The text tells a place exactly for what starts in the source or at its end. -/
  located_iff : page.PrintsLocation d ↔ span.start.toNat ≤ page.source.utf8ByteSize
  /-- The place and the line of source are those of the report. -/
  located : ∃ location line column text,
    (Report.diagnostic s d).field? "location" = some location ∧
      location.field? "line" = some (.nat line) ∧
      location.field? "column" = some (.nat column) ∧
      location.field? "source_line" = some (.string text) ∧
      (page.PrintsLocation d → page.PrintsAt d line column text)
  /-- If the text ends in a suggested line, that is the one of the report, behind the number of the
  line that is reported. -/
  suggested : ∃ printed, page.render d = page.render d.withoutSuggestion ++ printed ∧
    (printed ≠ "" → ∃ location suggestion line text,
      (Report.diagnostic s d).field? "location" = some location ∧
        location.field? "line" = some (.nat line) ∧
        (Report.diagnostic s d).field? "suggestion" = some suggestion ∧
        suggestion.field? "result_line" = some (.string text) ∧
        printed = "    |\n" ++ numberedLine 3 line text)

variable {source file : String} {d : Diagnostic} {l : Label}

theorem PrintsAt.printsLocation {page : Page} {line column : Nat} {text : String}
    (h : page.PrintsAt d line column text) : page.PrintsLocation d := by
  obtain ⟨width, rest, hrender⟩ := h
  exact ⟨_, by rw [hrender, arrowLine]; simp only [String.append_assoc]; rfl⟩

/-- A label past the end of the text leaves no place. -/
theorem not_printsLocation (hlabels : d.labels = [l])
    (h : source.utf8ByteSize < l.span.start.toNat) :
    ¬ (ofSource source file false).PrintsLocation d := by
  rintro ⟨rest, hrest⟩
  rw [render_of_outside hlabels h, String.append_right_inj] at hrest
  have hchars := congrArg String.toList hrest
  rcases footer_ofSource source file d with hfooter | ⟨below, hfooter⟩ <;>
    simp [hfooter] at hchars

/-- An error with one label is told alike, and with it what is suggested for the same span. -/
theorem agreesOn (hlabels : d.labels = [l]) (hprimary : d.primarySpan = some l.span)
    (hsuggested : ∀ x, d.suggestion? = some x → x.span = l.span)
    (hstart : l.span.start.toNat < 2 ^ 64 - 1) :
    (ofSource source file false).AgreesOn (.ofText source) l.span d where
  located_iff := by
    constructor
    · exact fun h => Nat.le_of_not_lt fun hout => not_printsLocation hlabels hout h
    · exact fun h => (render_of_inside hlabels hprimary h).printsLocation
  located := by
    refine ⟨_, _, _, _, by rw [Report.location_diagnostic, hprimary]; rfl,
      Json.Value.field?_record .., Json.Value.field?_record .., Json.Value.field?_record .., ?_⟩
    intro hprints
    have hin : l.span.start.toNat ≤ source.utf8ByteSize :=
      Nat.le_of_not_lt fun hout => not_printsLocation hlabels hout hprints
    have hpos : (Report.Source.ofText source).position l.span.start =
        (LineMap.ofSource source).position l.span.start.toNat := by
      rw [Report.Source.position]
      exact congrArg _ (Nat.min_eq_left hin)
    rw [hpos, ← LineMap.wordColumn_position source hstart]
    exact render_of_inside hlabels hprimary hin
  suggested := by
    refine ⟨_, render_withoutSuggestion _ d, fun hprinted => ?_⟩
    cases hx : d.suggestion? with
    | none => simp [hx] at hprinted
    | some x =>
      rw [hx] at hprinted
      refine ⟨_, _, _, _, by rw [Report.location_diagnostic, hprimary]; rfl,
        Json.Value.field?_record .., by rw [Report.suggestion_diagnostic, hx]; rfl,
        Json.Value.field?_record .., ?_⟩
      have hline : ((Report.Source.ofText source).position l.span.start).line =
          ((LineMap.ofSource source).position x.span.start.toNat).line := by
        rw [hsuggested x hx]
        exact LineMap.line_position_min source _
      rw [hline]
      exact (suggestedLine_eq x (hsuggested x hx ▸ hstart)).resolve_left hprinted

end Page

end Terminal

/-! ## Errors of a run -/

/-- A diagnostic of an error has one label, at the place of the error. What it suggests is for the
same place. -/
theorem TypeErrorKind.exists_label (kind : TypeErrorKind) (span : Span) :
    (∃ message, (kind.diagnostic span).labels = [⟨span, .primary, message⟩]) ∧
      (kind.diagnostic span).suggestion? = none := by
  cases kind <;> exact ⟨⟨_, rfl⟩, rfl⟩

theorem EscapeErrorKind.exists_label (kind : EscapeErrorKind) (span : Span) :
    (∃ message, (kind.diagnostic span).labels = [⟨span, .primary, message⟩]) ∧
      ∀ x, (kind.diagnostic span).suggestion? = some x → x.span = span := by
  cases kind with
  | unscopedRefNotAllowed member =>
    refine ⟨⟨_, rfl⟩, fun x hx => ?_⟩
    cases hx
    rfl
  | returnRefEscape name scope =>
    rw [diagnostic]
    split <;> exact ⟨⟨_, rfl⟩, nofun⟩
  | shape kind =>
    obtain ⟨hlabels, hnone⟩ := kind.exists_label span
    refine ⟨hlabels, fun x hx => ?_⟩
    rw [diagnostic, hnone] at hx
    cases hx
  | _ => exact ⟨⟨_, rfl⟩, nofun⟩

namespace Analysis

/-- The errors of a run by their places, with the diagnostics that show them. -/
def placed (a : Analysis) : List (Span × Diagnostic) :=
  a.declarationErrors.map (fun e => (e.span, e.diagnostic)) ++
    a.escapeErrors.map fun e => (e.span, e.diagnostic)

theorem diagnostics_eq (a : Analysis) : a.diagnostics = a.placed.map Prod.snd := by
  rw [diagnostics, placed, List.map_append, List.map_map, List.map_map]
  rfl

theorem exists_label_of_mem_placed {a : Analysis} {e : Span × Diagnostic} (he : e ∈ a.placed) :
    (∃ l, e.2.labels = [l] ∧ e.2.primarySpan = some l.span ∧ l.span = e.1) ∧
      ∀ x, e.2.suggestion? = some x → x.span = e.1 := by
  have hlabel {d : Diagnostic} {span : Span}
      (h : ∃ message, d.labels = [⟨span, .primary, message⟩]) :
      ∃ l, d.labels = [l] ∧ d.primarySpan = some l.span ∧ l.span = span := by
    obtain ⟨message, hlabels⟩ := h
    exact ⟨_, hlabels, by rw [Diagnostic.primarySpan, hlabels]; rfl, rfl⟩
  rcases List.mem_append.mp he with he | he <;> obtain ⟨e, -, rfl⟩ := List.mem_map.mp he
  · obtain ⟨hlabels, hnone⟩ := e.kind.exists_label e.span
    exact ⟨hlabel hlabels, fun x hx => by rw [TypeError.diagnostic, hnone] at hx; cases hx⟩
  · obtain ⟨hlabels, hsuggested⟩ := e.kind.exists_label e.span
    exact ⟨hlabel hlabels, hsuggested⟩

/-- Text and report go through the errors of a run in the same order, and tell the same of each. -/
theorem reports_agree (a : Analysis) (source file : String) :
    let page := Terminal.Page.ofSource source file false
    let s := Report.Source.ofText source
    a.render source file false = "\n".intercalate (a.placed.map fun e => page.render e.2) ∧
      (∃ json : Json.Value, a.report source file = json.indented ∧
        json.field? "diagnostics" = some (.arr (a.placed.map fun e => Report.diagnostic s e.2))) ∧
      ∀ e ∈ a.placed, e.1.start.toNat < 2 ^ 64 - 1 → page.AgreesOn s e.1 e.2 := by
  refine ⟨?_, ⟨_, rfl, ?_⟩, fun e he hstart => ?_⟩
  · rw [render, Terminal.Page.renderAll, diagnostics_eq, List.map_map]
    rfl
  · rw [Report.ofDiagnostics, Json.Value.field?_record, diagnostics_eq]
    simp [List.lookup_cons, Json.Value.ofList, Function.comp_def]
  · obtain ⟨⟨l, hlabels, hprimary, hspan⟩, hsuggested⟩ := exists_label_of_mem_placed he
    rw [← hspan] at hsuggested hstart ⊢
    exact Terminal.Page.agreesOn hlabels hprimary hsuggested hstart

end Analysis

/-! ## A misplaced annotation

A method of a class is annotated, behind a line with a character of two bytes. -/

namespace Mugs

/-- A method that is annotated at `span`. -/
def sip (span : Span) : FnDecl :=
  ⟨2, "Sip", .method, default, [], [], .nothing, [⟨.unscopedRef, span⟩], none, none, none, .zero⟩

/-- A class with the method. -/
def program (span : Span) : Program :=
  ⟨[⟨1, "Mug", .classType, false, false, [], [], [], [], [sip span], .zero⟩]⟩

/-- The text of the method. -/
def text : String := "// Mug ü\n  [UnscopedRef] void Sip();"

/-- The annotation in the text. -/
def here : Span := ⟨12, 25⟩

/-- What is said of the annotation. -/
def misplaced (span : Span) : Diagnostic :=
  EscapeErrorKind.diagnostic (.unscopedRefNotAllowed "Mug.Sip") span

theorem placed_program (span : Span) :
    ((program span).analyze {}).placed = [(span, misplaced span)] := rfl

theorem reports_agree_sip :
    (here, misplaced here) ∈ ((program here).analyze {}).placed ∧
      here.start.toNat < 2 ^ 64 - 1 ∧
      (Terminal.Page.ofSource text "Mug.cs" false).AgreesOn (.ofText text) here
        (misplaced here) :=
  have he : (here, misplaced here) ∈ ((program here).analyze {}).placed := by
    rw [placed_program]
    exact List.mem_singleton.mpr rfl
  ⟨he, by decide, (Analysis.reports_agree _ text "Mug.cs").2.2 _ he (by decide)⟩

example : ((program here).analyze {}).render text "Mug.cs" false =
    "error[R0110]: UnscopedRef cannot be applied to `Mug.Sip`; it is only valid on struct or " ++
    "virtual interface instance methods and properties, and not on constructors or init-only " ++
    "members\n" ++
    "  --> Mug.cs:2:3\n" ++
    "    |\n" ++
    "  2 |   [UnscopedRef] void Sip();\n" ++
    "    |   ^^^^^^^^^^^^^ attribute not allowed here\n" ++
    "   = help: remove the attribute\n" ++
    "    |\n" ++
    "  2 |    void Sip();\n" := by
  decide +kernel

end Mugs

end StackEscape
