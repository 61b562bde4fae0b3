/-
**Reports: diagnostics shown under the line that they concern.**

An entry has three lines: the message, the line, and carets under the characters of the span. The
carets stand in columns of characters, not of bytes. Any span can be shown: one that does not fit
the line counts as having no characters, and at least one caret is always drawn.
-/
import IntCalc.Diagnostic.Basic
import IntCalc.Text.Slice

namespace IntCalc

/-- Diagnostics together with the line that they concern. -/
structure Report where
  line : String
  diagnostics : List Diagnostic
  /-- What each message is announced as. -/
  kind : String := "error"

namespace Report

/-- The number of characters in a span of the line, none if the span does not fit the line. -/
def width (line : List Char) (span : Span) : Nat :=
  match Text.slice? line span with
  | some slice => slice.length
  | none => 0

/-- The blanks before a span and the carets under it. -/
def underline (line : List Char) (span : Span) : String :=
  String.ofList
    (List.replicate (width line ⟨0, span.start⟩) ' ' ++
      List.replicate (max (width line span) 1) '^')

def entry (report : Report) (diagnostic : Diagnostic) : List String :=
  [report.kind ++ ": " ++ diagnostic.message,
    "  | " ++ report.line,
    "  | " ++ underline report.line.toList diagnostic.span]

def lines (report : Report) : List String := report.diagnostics.flatMap report.entry

/-- A report as text, each line ended by a line feed. -/
def render (report : Report) : String := String.join (report.lines.map (· ++ "\n"))

end Report

end IntCalc
