/-
**Spans: stretches of a line, counted in bytes of its UTF-8 form.**

A span is a start and a length. `Span.through` joins two of them, and the join never ends before
either (`Span.stop_through`). `Located` pairs anything with the span that it concerns.
-/

namespace IntCalc

/-- A stretch of a line: where it starts and how many bytes it takes. -/
@[ext]
structure Span where
  start : Nat
  length : Nat
  deriving DecidableEq, Repr

namespace Span

/-- The span without bytes at a position. -/
def empty (position : Nat) : Span := ⟨position, 0⟩

/-- The position just past the span. -/
def stop (span : Span) : Nat := span.start + span.length

def isEmpty (span : Span) : Bool := span.length == 0

/-- The span from the start of the first to the end of the last, or to the end of the first where
that comes later. -/
def through (first last : Span) : Span := ⟨first.start, max last.stop first.stop - first.start⟩

theorem start_le_stop (span : Span) : span.start ≤ span.stop := Nat.le_add_right ..

@[simp]
theorem start_through (first last : Span) : (first.through last).start = first.start := rfl

@[simp]
theorem stop_through (first last : Span) :
    (first.through last).stop = max last.stop first.stop := by
  simp only [stop, through]
  omega

/-- A span of at most one byte is shown by its start, a longer one by its first and last byte. -/
def render (span : Span) : String :=
  if span.length ≤ 1 then
    span.start.repr
  else
    "[" ++ span.start.repr ++ "-" ++ (span.stop - 1).repr ++ "]"

instance : ToString Span := ⟨render⟩

end Span

/-- Something that concerns a span of the line. -/
structure Located (α : Type) where
  value : α
  span : Span
  deriving DecidableEq, Repr

end IntCalc
