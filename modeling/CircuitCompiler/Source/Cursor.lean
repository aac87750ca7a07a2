import CircuitCompiler.Source.File

/-!
# Byte cursors

A cursor is a reading position inside a range of a file. It never reads at or beyond the end of the
range: there every look is zero and every step stays where it is.
-/

namespace CircuitCompiler

/-- A reading position `off` in the bytes of a file before `limit`. -/
structure Cursor where
  file : SourceFile
  off : Nat
  limit : Nat
  deriving Inhabited

namespace Cursor

/-- A cursor over the bytes from `start` to `stop`, cut down to what the file has. -/
def ofRange (f : SourceFile) (start stop : Nat) : Cursor :=
  let limit := min stop f.content.length
  ⟨f, min start limit, limit⟩

/-- A cursor over the whole file. -/
def ofFile (f : SourceFile) : Cursor := ⟨f, 0, f.content.length⟩

/-- The bytes that are still to be read. -/
def rest (c : Cursor) : Bytes := c.file.content.slice c.off c.limit

/-- Whether nothing is left to read. -/
def atEnd (c : Cursor) : Bool := c.limit ≤ c.off

/-- The byte under the cursor, or zero at the end. -/
def peek (c : Cursor) : UInt8 := c.rest.headD 0

/-- The byte under the cursor and the one after it, if both are in the range. -/
def peek2 (c : Cursor) : Option (UInt8 × UInt8) :=
  match c.rest with
  | b0 :: b1 :: _ => some (b0, b1)
  | _ => none

/-- The cursor `n` bytes further on. -/
def advance (c : Cursor) (n : Nat) : Cursor := { c with off := c.off + n }

/-- The byte under the cursor and the cursor behind it; at the end, zero and the cursor itself. -/
def bump (c : Cursor) : UInt8 × Cursor :=
  if c.atEnd then (0, c) else (c.peek, c.advance 1)

/-- Steps over the byte `b` if it is under the cursor. -/
def eat (c : Cursor) (b : UInt8) : Bool × Cursor :=
  if !c.atEnd && c.peek == b then (true, c.advance 1) else (false, c)

/-- The cursor put back to an offset it had before. -/
def reset (c : Cursor) (mark : Nat) : Cursor := { c with off := mark }

/-- The span from an earlier offset to the cursor. -/
def spanFrom (c : Cursor) (mark : Nat) : Span := ⟨c.file.id, mark, c.off⟩

/-- The empty span at the cursor. -/
def point (c : Cursor) : Span := .point c.file.id c.off

end Cursor
end CircuitCompiler
