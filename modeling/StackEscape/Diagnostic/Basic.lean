import StackEscape.Source.Span

/-!
# Diagnostics

An error in the form in which it is shown: a message with a code, places in the source, notes, and
perhaps a piece of advice with a replacement.

## Main definitions

* `StackEscape.Diagnostic` — a diagnostic; `StackEscape.Label`, `Help`, `Suggestion` — its parts.
* `StackEscape.Diagnostic.error`, `withCode`, `withPrimary`, `withNote`, `withHelp`,
  `withSuggestion` — building one step by step.
* `StackEscape.Diagnostic.primarySpan` — the place that a diagnostic is about.
-/

set_option autoImplicit false

namespace StackEscape

/-- How bad it is. -/
inductive Severity where
  /-- An error. -/
  | error
  /-- A warning. -/
  | warning
  /-- A remark. -/
  | note
  deriving DecidableEq, Inhabited, Repr

/-- The word for a severity. -/
def Severity.word : Severity → String
  | error => "error"
  | warning => "warning"
  | note => "note"

/-- What a label points at. -/
inductive LabelStyle where
  /-- Where a rule was broken. -/
  | primary
  /-- A related place. -/
  | secondary
  deriving DecidableEq, Inhabited, Repr

/-- The word for a style. -/
def LabelStyle.word : LabelStyle → String
  | primary => "primary"
  | secondary => "secondary"

/-- A place in the source with a remark. -/
structure Label where
  /-- The place. -/
  span : Span
  /-- What it points at. -/
  style : LabelStyle
  /-- The remark. -/
  message : Option String
  deriving DecidableEq, Inhabited, Repr

/-- A replacement for a piece of the source. -/
structure Suggestion where
  /-- The piece to replace. -/
  span : Span
  /-- What to put in its place. -/
  replacement : String
  deriving DecidableEq, Inhabited, Repr

/-- Advice. -/
structure Help where
  /-- The advice. -/
  message : String
  /-- A replacement that follows it. -/
  suggestion : Option Suggestion
  deriving DecidableEq, Inhabited, Repr

/-- Something to show. -/
structure Diagnostic where
  /-- How bad it is. -/
  severity : Severity
  /-- The code under which the rule is known. -/
  code : Option String := none
  /-- What is wrong. -/
  message : String
  /-- The places concerned. -/
  labels : List Label := []
  /-- Explanations. -/
  notes : List String := []
  /-- Advice. -/
  help : Option Help := none
  deriving DecidableEq, Inhabited, Repr

namespace Diagnostic

/-- An error with a message and nothing else. -/
def error (message : String) : Diagnostic := { severity := .error, message }

/-- The diagnostic with a code. -/
def withCode (d : Diagnostic) (code : String) : Diagnostic := { d with code := some code }

/-- The diagnostic with one more label. -/
def withLabel (d : Diagnostic) (span : Span) (style : LabelStyle) (message : String) :
    Diagnostic :=
  { d with labels := d.labels ++ [⟨span, style, some message⟩] }

/-- The diagnostic with one more place where a rule was broken. -/
def withPrimary (d : Diagnostic) (span : Span) (message : String) : Diagnostic :=
  d.withLabel span .primary message

/-- The diagnostic with one more note. -/
def withNote (d : Diagnostic) (note : String) : Diagnostic := { d with notes := d.notes ++ [note] }

/-- The diagnostic with other advice. -/
def withHelp (d : Diagnostic) (message : String) : Diagnostic :=
  { d with help := some ⟨message, none⟩ }

/-- The diagnostic with a replacement, if there is advice that it can follow. -/
def withSuggestion (d : Diagnostic) (span : Span) (replacement : String) : Diagnostic :=
  { d with help := d.help.map fun h => { h with suggestion := some ⟨span, replacement⟩ } }

/-- The replacement that is suggested. -/
def suggestion? (d : Diagnostic) : Option Suggestion := d.help.bind Help.suggestion

/-- The place that a diagnostic is about: its first primary label, or else its first label. -/
def primarySpan (d : Diagnostic) : Option Span :=
  ((d.labels.find? fun l => decide (l.style = .primary)).or d.labels.head?).map Label.span

/-- Is it an error? -/
def isError (d : Diagnostic) : Bool := decide (d.severity = .error)

end Diagnostic

end StackEscape
