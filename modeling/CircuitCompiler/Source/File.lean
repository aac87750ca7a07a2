import CircuitCompiler.Source.Span
import CircuitCompiler.Text.Digest
import CircuitCompiler.Text.PathName

/-!
# Source files

A `SourceFile` is the normalized content of one source with the offsets of its newlines, and a
`FileSet` numbers the files of one run in the order they were added. Adding a path again stores a
new version: old spans keep their meaning, and `FileSet.latest?` finds the newest.

`SourceFile.position` turns an offset into a line and a column, `SourceFile.line` a line number into
the text of that line.
-/

namespace CircuitCompiler

/-- A line and a column, both counted from one. -/
structure Position where
  line : Nat
  column : Nat
  deriving DecidableEq, Repr, Inhabited

/-- One version of a source. -/
structure SourceFile where
  id : Nat
  path : String
  content : Bytes
  flags : Nat
  deriving Inhabited

namespace SourceFile

/-- Marks a file that was added from memory. -/
def fromMemory : Nat := 1

/-- Marks a file whose byte order mark was dropped. -/
def hadMark : Nat := 2

/-- Marks a file whose line ends were unified. -/
def unified : Nat := 4

/-- Turns every carriage return with line feed into a line feed; a lone carriage return stays. -/
def unifyNewlines : Bytes → Bytes
  | 13 :: 10 :: rest => 10 :: unifyNewlines rest
  | b :: rest => b :: unifyNewlines rest
  | [] => []

/-- Whether some line ends in a carriage return and a line feed. -/
def hasCarriageReturns : Bytes → Bool
  | 13 :: 10 :: _ => true
  | _ :: rest => hasCarriageReturns rest
  | [] => false

/-- The byte order mark. -/
def byteOrderMark : Bytes := [0xEF, 0xBB, 0xBF]

/-- The offsets of the newlines of `b`, counted from `off`. -/
def newlinesFrom (off : Nat) : Bytes → List Nat
  | [] => []
  | b :: rest => if b == 10 then off :: newlinesFrom (off + 1) rest else newlinesFrom (off + 1) rest

/-- The offsets of the newlines of the file. -/
def newlines (f : SourceFile) : List Nat := newlinesFrom 0 f.content

/-- The number of newlines before an offset, given that it lies between `lo` and `hi`; the range is
halved until one number is left. -/
def newlinesBefore (newlines : Array Nat) (off lo hi : Nat) : Nat :=
  if lo < hi then
    let mid := (lo + hi) / 2
    if newlines.getD mid 0 < off then newlinesBefore newlines off (mid + 1) hi
    else newlinesBefore newlines off lo mid
  else lo
termination_by hi - lo

/-- The position of an offset, given the newlines; columns are 32-bit quantities. -/
def positionIn (newlines : Array Nat) (off : Nat) : Position :=
  let before := newlinesBefore newlines off 0 newlines.size
  let lineStart := if before == 0 then 0 else newlines.getD (before - 1) 0 + 1
  ⟨before + 1, (off - lineStart + 1) % offsetLimit⟩

/-- The line and column of an offset. -/
def position (f : SourceFile) (off : Nat) : Position := positionIn f.newlines.toArray off

/-- The text of line `n` without its newline; empty when there is no such line. -/
def line (f : SourceFile) (n : Nat) : Bytes :=
  let ends := f.newlines
  if n == 0 || ends.length + 1 < n then []
  else
    let start := if n == 1 then 0 else ends.getD (n - 2) 0 + 1
    f.content.slice start (ends.getD (n - 1) f.content.length)

/-- The SHA-256 digest of the content. -/
def digest (f : SourceFile) : Digest := Digest.ofBytes f.content

end SourceFile

/-- The files of one run; a file's number is its place. -/
structure FileSet where
  files : List SourceFile := []
  deriving Inhabited

namespace FileSet

/-- The set without files. -/
def empty : FileSet := {}

/-- The number of stored versions. -/
def size (s : FileSet) : Nat := s.files.length

/-- The file with a number. -/
def get? (s : FileSet) (id : Nat) : Option SourceFile := s.files[id]?

/-- Adds content as it is and returns its number. -/
def add (s : FileSet) (path : String) (content : Bytes) (flags : Nat) : Nat × FileSet :=
  (s.size, ⟨s.files ++ [⟨s.size, PathName.clean path, content, flags⟩]⟩)

/-- Adds an in-memory file, with unified line ends. -/
def addVirtual (s : FileSet) (path : String) (content : Bytes) : Nat × FileSet :=
  s.add path (SourceFile.unifyNewlines content) SourceFile.fromMemory

/-- Adds the bytes of a file on disk, without its byte order mark and with unified line ends. -/
def addLoaded (s : FileSet) (path : String) (raw : Bytes) : Nat × FileSet :=
  let marked := raw.startsWith SourceFile.byteOrderMark
  let body := if marked then raw.drop 3 else raw
  let returns := SourceFile.hasCarriageReturns body
  s.add path (SourceFile.unifyNewlines body)
    ((if marked then SourceFile.hadMark else 0) + (if returns then SourceFile.unified else 0))

/-- The newest number stored for a path. -/
def latest? (s : FileSet) (path : String) : Option Nat :=
  (s.files.reverse.find? fun f => f.path == PathName.clean path).map (·.id)

/-- The positions of both ends of a span. -/
def resolve (s : FileSet) (sp : Span) : Option (Position × Position) :=
  (s.get? sp.file).map fun f => (f.position sp.start, f.position sp.stop)

/-- The source text under a span. -/
def slice (s : FileSet) (sp : Span) : Bytes :=
  match s.get? sp.file with
  | some f => f.content.slice sp.start sp.stop
  | none => []

end FileSet
end CircuitCompiler
