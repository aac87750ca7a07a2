import CircuitCompiler.Diagnostic.Bag
import CircuitCompiler.Diagnostic.Place
import CircuitCompiler.Text.Columns
import CircuitCompiler.Text.Layout
import CircuitCompiler.Text.Style

/-!
# Diagnostics for readers

Each diagnostic is shown with its place, the source lines that lead to it and a caret under the
first byte of its span; the part of the span on that line is underlined. Columns are counted as a
terminal shows them, a tab being four spaces.
-/

namespace CircuitCompiler

/-- How diagnostics are shown to a reader. -/
structure SnippetView where
  color : Bool := false
  /-- The number of lines shown before the line of the span; the line itself is left out as well if
  it is negative. -/
  context : Int := 0
  paths : PathView := {}
  notes : Bool := false
  deriving DecidableEq, Repr, Inhabited

namespace Snippet

open Text

/-- The style of a severity. -/
def severityStyle (s : Severity) : List Attribute :=
  if s == .error then [.red, .bold] else if s == .warning then [.yellow, .bold] else [.cyan, .bold]

/-- Every tab as four spaces. -/
def expandTabs (b : Bytes) : Bytes := b.flatMap fun x => if x == 9 then [32, 32, 32, 32] else [x]

/-- `n` spaces. -/
def blanks (n : Nat) : Bytes := List.replicate n 32

/-- A source line behind its number, which is filled up to the width of the margin. -/
def sourceLine (color : Bool) (margin : Nat) (f : SourceFile) (n : Nat) : Bytes :=
  Bytes.ofString (styledIf color [.blue] (padLeft margin (toString n) ++ " |")) ++ [32] ++
    expandTabs (f.line n) ++ [10]

/-- The lines shown: the line of the span and some before it. -/
def shownLines (context : Int) (line : Nat) : List Nat :=
  (List.range (line + 1)).filter fun n => 0 < n && (line : Int) - context ≤ n

/-- The part of the line before the span, and the part of the span on the line. -/
def splitLine (f : SourceFile) (span : Span) : Bytes × Bytes :=
  let start := f.position span.start
  let stop := f.position span.stop
  let line := f.line start.line
  let col := min (start.column - 1) line.length
  let last := if stop.line == start.line then min (stop.column - 1) line.length else line.length
  (line.take col, line.slice col last)

/-- The underline of a part of a line: a caret and a tilde for each further column. -/
def underline (part : Bytes) : String :=
  String.ofList ('^' :: List.replicate (columns (expandTabs part) - 1) '~')

/-- The caret line. -/
def caretLine (color : Bool) (margin : Nat) (f : SourceFile) (span : Span) : Bytes :=
  let (before, part) := splitLine f span
  Bytes.ofString (styledIf color [.blue] (spaces margin ++ " |")) ++ [32] ++
    blanks (columns (expandTabs before)) ++
    Bytes.ofString (styledIf color [.green, .bold] (underline part)) ++ [10]

/-- The source lines of a span and the caret line. -/
def snippet (v : SnippetView) (f : SourceFile) (span : Span) : Bytes :=
  let line := (f.position span.start).line
  let margin := (toString line).length
  (shownLines v.context line).flatMap (sourceLine v.color margin f) ++
    caretLine v.color margin f span

/-- The place of a span: file, line and column. -/
def placeText (v : SnippetView) (f : SourceFile) (span : Span) : String :=
  let p := f.position span.start
  v.paths.show f.path ++ ":" ++ toString p.line ++ ":" ++ toString p.column

/-- A note, with its place if it has one. -/
def noteLine (v : SnippetView) (files : Option FileSet) (d : Diagnostic) (n : Note) : String :=
  let place := match d.fileOf? files n.span with
    | some f => if n.span == .zero then "" else placeText v f n.span ++ ": "
    | none => ""
  "  " ++ styledIf v.color [.blue, .bold] "note:" ++ " " ++ place ++ n.message ++ "\n"

/-- One diagnostic. Its notes are shown if they are wanted or say which dependency failed. -/
def diagnostic (v : SnippetView) (files : Option FileSet) (d : Diagnostic) : Bytes :=
  let head := styledIf v.color (severityStyle d.severity) (d.severity.name ++ " " ++ d.code.id) ++
    ": " ++ d.message ++ "\n"
  let body := match d.fileOf? files d.primary with
    | some f =>
      Bytes.ofString (styledIf v.color [.bold] (placeText v f d.primary) ++ ": " ++ head) ++
        snippet v f d.primary
    | none => Bytes.ofString head
  let notes := if v.notes || d.code == .dependencyFailed then d.notes else []
  body ++ Bytes.ofString (String.join (notes.map (noteLine v files d)))

end Snippet

/-- The diagnostics of a bag as a reader sees them, one after the other. -/
def Bag.pretty (b : Bag) (files : Option FileSet) (v : SnippetView) : Bytes :=
  b.items.flatMap (Snippet.diagnostic v files)

end CircuitCompiler
