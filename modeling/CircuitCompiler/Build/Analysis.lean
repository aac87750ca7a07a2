import CircuitCompiler.Build.Chunk
import CircuitCompiler.Build.Source
import CircuitCompiler.Design.Check
import CircuitCompiler.Trace.Span

/-!
# Analysis

The first half of a build: sources are read and cut into chunks, every chunk is read, the components
are registered in the order of their chunks, and the design is checked. A failure removes its
component and those that use it; the rest goes on.
-/

namespace CircuitCompiler.Build

/-- The failed components, or chunks, by label and in the order of their discovery; the first error
of a label counts. -/
abbrev Failures := List (String × CompileError)

/-- Records an error, unless the label has one. -/
def Failures.record (fs : Failures) (label : String) (e : CompileError) : Failures :=
  if fs.any fun f => f.1 == label then fs else fs ++ [(label, e)]

/-! ## Registering -/

/-- The state of registering components. -/
structure Registration where
  design : Design := {}
  /-- The chunk of each registered component. -/
  origins : List (String × Chunk) := []
  failures : Failures := []
  /-- The errors of components that were declared before. -/
  duplicates : List CompileError := []
  deriving Repr, Inhabited

namespace Registration

/-- The result of reading a chunk, with its number among all chunks. -/
structure Entry where
  number : Nat
  chunk : Chunk
  result : Except CompileError Component

/-- Registers the component of a chunk. -/
def add (s : Registration) (e : Entry) : Registration :=
  match e.result with
  | .error err => { s with failures := s.failures.record e.chunk.label err }
  | .ok c =>
    match s.design.add? c with
    | some d => { s with design := d, origins := s.origins ++ [(c.name, e.chunk)] }
    | none =>
      let err : CompileError := ⟨.duplicateComponent c.name, c.nameSpan⟩
      { s with
        failures := s.failures.record (e.chunk.label ++ "@" ++ toString e.number) err
        duplicates := s.duplicates ++ [err] }

/-- Registers components one after the other. -/
def ofEntries (es : List Entry) : Registration := es.foldl add {}

end Registration

/-! ## The whole analysis -/

/-- Everything known about a set of sources once they are checked. -/
structure Analysis where
  sources : Sources
  chunks : List Chunk
  results : List (Except CompileError Component)
  registration : Registration
  verdict : Verdict
  /-- The name of the top-level component, or nothing. -/
  top : String

namespace Analysis

/-- The chunks of all files. -/
def chunksOf (files : FileSet) : List Chunk := files.files.flatMap Chunk.split

/-- Reads a chunk of one of the files. -/
def parseChunk (files : FileSet) (keepText : Bool) (c : Chunk) : Except CompileError Component :=
  match files.get? c.file with
  | some f => c.parse f keepText
  | none => .error ⟨.parseFailed, .zero⟩

/-- The entries for registration. -/
def entries (chunks : List Chunk) (results : List (Except CompileError Component)) :
    List Registration.Entry :=
  (chunks.zip results).mapIdx fun i r => ⟨i, r.1, r.2⟩

/-- Analyses sources; `top` names the top-level component or is empty, `keepText` keeps the text of
raw blocks. -/
def ofSources (sources : Sources) (top : String) (keepText : Bool) : Analysis :=
  let chunks := chunksOf sources.files
  let results := chunks.map (parseChunk sources.files keepText)
  let registration := Registration.ofEntries (entries chunks results)
  { sources, chunks, results, registration, top, verdict := registration.design.check top }

/-- The registered components. -/
def design (a : Analysis) : Design := a.registration.design

/-- The chunk a component was read from. -/
def chunk? (a : Analysis) (name : String) : Option Chunk := a.registration.origins.lookup name

/-- The errors of chunks that could not be read, in the order of the chunks. -/
def parseErrors (a : Analysis) : List (Chunk × CompileError) :=
  (a.chunks.zip a.results).filterMap fun (c, r) => match r with
    | .error e => some (c, e)
    | .ok _ => none

/-- What did not survive the analysis. -/
def failures (a : Analysis) : Failures :=
  let fs := a.verdict.failed.foldl (fun fs (name, e) => fs.record name e) a.registration.failures
  match a.verdict.topError with
  | some e => fs.record ("top:" ++ a.top) e
  | none => fs

/-- All errors of the analysis. -/
def errors (a : Analysis) : List Failure :=
  a.sources.failures ++ a.failures.map fun f => .compile f.2

/-- What is reported, in order. -/
def diagnostics (a : Analysis) : List Diagnostic :=
  a.sources.diagnostics ++ a.parseErrors.map (fun e => e.2.diagnostic []) ++
    a.registration.duplicates.map (·.diagnostic []) ++ a.verdict.diagnostics

/-- The reports on progress, in order. -/
def progress (a : Analysis) : List Progress :=
  a.chunks.map (fun c => .plain c.label .parse .working) ++
    a.parseErrors.map (fun e => .failed e.1.label .parse e.2) ++
    a.design.names.map (fun name => .plain name .parse .done) ++
    a.verdict.failed.map fun f => .failed f.1 .check f.2

/-! ## Phases -/

/-- The remark on the sources that were read. -/
def loadNote (a : Analysis) : String :=
  toString a.sources.files.size ++ " files, " ++ toString a.chunks.length ++ " components"

/-- The remark on the components that were read. -/
def parseNote (a : Analysis) : String := toString a.design.components.length ++ " parsed"

/-- The phases of the analysis with the remarks on them. -/
def phases (a : Analysis) : List (String × String) :=
  [("load", a.loadNote), ("parse", a.parseNote),
    ("check", toString a.verdict.order.length ++ " ok")]

/-- The trace of the analysis. -/
def span (a : Analysis) : Trace.Span :=
  let chunks := a.chunks.map fun c => Trace.Span.leaf .component ("parse:" ++ c.label) ""
  .mk .driver "analyze" "" []
    [.leaf .phase "load" a.loadNote, .mk .phase "parse" a.parseNote [] chunks,
    .leaf .phase "check" ""]

end Analysis
end CircuitCompiler.Build
