/-
**Diagnostics: messages about spans of a line.**

A diagnostic is what is shown of a fault: its message and the span that it concerns. Lists of them
keep the order in which the faults were met.
-/
import IntCalc.Span

namespace IntCalc

/-- A message about a span of the line. -/
structure Diagnostic where
  message : String
  span : Span
  deriving DecidableEq, Repr

/-- The diagnostic of a fault, whose kind of fault has the given wording. -/
def Located.diagnostic {α : Type} (message : α → String) (fault : Located α) : Diagnostic :=
  ⟨message fault.value, fault.span⟩

namespace Diagnostic

def describe (diagnostic : Diagnostic) : String :=
  diagnostic.message ++ " at " ++ diagnostic.span.render

/-- All diagnostics on one line, each with its place, separated by semicolons. -/
def summary (diagnostics : List Diagnostic) : String :=
  "; ".intercalate (diagnostics.map describe)

end Diagnostic

end IntCalc
