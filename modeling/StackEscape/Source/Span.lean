/-!
# Spans

A span is a half-open range of byte offsets in the text that a program was bound from. Offsets are
64-bit words and are taken as they come: a span may be reversed or lie outside of the text.

## Main definitions

* `StackEscape.Span` — the range `[start, stop)`.
* `StackEscape.Span.cover`, `isEmpty`, `contains` — the smallest common span, emptiness, inclusion.
-/

set_option autoImplicit false

namespace StackEscape

/-- A range of byte offsets, `stop` excluded. -/
structure Span where
  /-- The first byte. -/
  start : UInt64
  /-- One past the last byte. -/
  stop : UInt64
  deriving DecidableEq, Inhabited, Repr

namespace Span

/-- The span that stands where no location is known. -/
def zero : Span := ⟨0, 0⟩

/-- The smallest span that covers both. -/
def cover (a b : Span) : Span :=
  ⟨if a.start ≤ b.start then a.start else b.start, if a.stop ≤ b.stop then b.stop else a.stop⟩

/-- A span is empty if it ends where it starts, or before. -/
def isEmpty (s : Span) : Bool := decide (s.stop ≤ s.start)

/-- Does `a` contain `b`? An empty span contains nothing, not even itself. -/
def contains (a b : Span) : Bool :=
  !a.isEmpty && decide (a.start ≤ b.start) && decide (b.stop ≤ a.stop)

/-- The number of bytes, zero for a reversed span. -/
def length (s : Span) : Nat := s.stop.toNat - s.start.toNat

end Span

end StackEscape
