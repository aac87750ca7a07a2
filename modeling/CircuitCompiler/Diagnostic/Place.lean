import CircuitCompiler.Diagnostic.Basic
import CircuitCompiler.Source.File

/-!
# Where diagnostics point

Whether a span of a diagnostic points into a file, and how the name of that file is shown. The zero
span means "no place" for diagnostics that are not about the text of a component.
-/

namespace CircuitCompiler

/-- How file names are shown. -/
inductive PathStyle where
  /-- Long absolute names are cut to their last element. -/
  | auto
  | absolute
  /-- Names below a base directory are shown as seen from there. -/
  | relative
  /-- Only the last element. -/
  | base
  /-- As the file was added. -/
  | asGiven
  deriving DecidableEq, Repr, Inhabited

namespace PathStyle

/-- The longest absolute name, in bytes, that is shown whole. -/
def longest : Nat := 40

/-- The name of a file as it is shown; `cwd` is the current directory and `base` the base directory.
-/
def render (style : PathStyle) (cwd base path : String) : String :=
  match style with
  | auto =>
    if PathName.isAbsolute path && longest < path.utf8ByteSize then PathName.base path else path
  | absolute => PathName.absolute cwd path
  | relative =>
    let origin := PathName.absolute cwd (if base == "" then "." else base)
    match PathName.relative origin (PathName.absolute cwd path) with
    | some seen => if seen.startsWith ".." then path else seen
    | none => path
  | .base => PathName.base path
  | asGiven => path

end PathStyle

/-- How the places of diagnostics are shown. -/
structure PathView where
  style : PathStyle := .auto
  /-- The base directory of relative names. -/
  base : String := ""
  /-- The current directory. -/
  cwd : String := "/"
  deriving DecidableEq, Repr, Inhabited

/-- The name of a file as it is shown. -/
def PathView.show (v : PathView) (path : String) : String := v.style.render v.cwd v.base path

/-- Whether diagnostics with this code are always about the text of a component. -/
def Code.isAboutComponent (c : Code) : Bool :=
  Code.notAVector.number ≤ c.number && c.number ≤ Code.dependencyFailed.number && c != .unknownTop

/-- The first code from which on the zero span may mean "no place". -/
def Code.firstPlaceless : Nat := 3000

/-- The file a span of a diagnostic points into, if it points into one. -/
def Diagnostic.fileOf? (d : Diagnostic) (files : Option FileSet) (span : Span) :
    Option SourceFile :=
  if span == .zero && Code.firstPlaceless ≤ d.code.number && !d.code.isAboutComponent then none
  else files.bind fun fs => fs.get? span.file

end CircuitCompiler
