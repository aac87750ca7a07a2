/-!
# Spans

A span is a half-open range of byte offsets inside one file. Offsets are 32-bit quantities: the
length of a span whose end lies before its start wraps around.
-/

namespace CircuitCompiler

/-- The number of values of a 32-bit offset. -/
def offsetLimit : Nat := 4294967296

/-- A half-open range of byte offsets inside one file. -/
structure Span where
  file : Nat
  start : Nat
  stop : Nat
  deriving DecidableEq, Repr, Inhabited

namespace Span

/-- The span of file zero that starts and ends at its first byte. -/
def zero : Span := ⟨0, 0, 0⟩

/-- The empty span at an offset. -/
def point (file off : Nat) : Span := ⟨file, off, off⟩

/-- Whether the span covers no byte. -/
def isEmpty (s : Span) : Bool := s.start == s.stop

/-- The number of bytes covered, as a 32-bit difference. -/
def length (s : Span) : Nat := (s.stop + offsetLimit - s.start) % offsetLimit

/-- The span as text, `file:start-stop`. -/
def text (s : Span) : String :=
  toString s.file ++ ":" ++ toString s.start ++ "-" ++ toString s.stop

/-- The smallest span of the file of `s` that contains both; a span of another file adds nothing. -/
def cover (s t : Span) : Span :=
  if s.file == t.file then ⟨s.file, min s.start t.start, max s.stop t.stop⟩ else s

/-- Whether the offset lies inside the span. -/
def contains (s : Span) (off : Nat) : Bool := s.start ≤ off && off < s.stop

/-- Whether `s` lies inside `t`. -/
def within (s t : Span) : Bool := s.file == t.file && t.start ≤ s.start && s.stop ≤ t.stop

/-- The span with both ends moved `d` bytes to the right. -/
def shift (s : Span) (d : Nat) : Span := ⟨s.file, s.start + d, s.stop + d⟩

end Span
end CircuitCompiler
