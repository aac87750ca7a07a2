import CircuitCompiler.Build.Emission
import CircuitCompiler.Diagnostic.Bag

/-!
# The whole build

Analysis, emission and, where a directory is given, writing the outputs to files. The run of a build
is a value: the reports on its progress, the notes on its phases and its trace are read off from it.
-/

namespace CircuitCompiler.Build

/-- What to build and how. -/
structure Request where
  /-- Files, or directories in which sources are looked for. -/
  roots : List String
  /-- The directory for the outputs; nothing is written if it is empty. -/
  outDir : String := ""
  /-- The top-level component, or nothing. -/
  top : String := ""
  /-- The width of one step of indentation; zero stands for the default. -/
  indent : Int := 0
  keepText : Bool := false
  /-- The number of diagnostics kept; a limit that is not positive stands for none. -/
  limit : Int := 0

/-! ## Writing -/

/-- The state of writing outputs. -/
structure Writing where
  tree : FileTree
  written : List String := []
  failures : List Failure := []
  progress : List Progress := []

/-- Writes one output into a directory. -/
def Writing.output (dir : String) (w : Writing) (o : Output) : Writing :=
  let path := PathName.join [dir, o.name ++ ".vhd"]
  match w.tree.write path (Bytes.ofString o.vhdl) with
  | .ok tree => { w with
      tree, written := w.written ++ [path],
      progress := w.progress ++ [.plain o.name .write .done] }
  | .error cause =>
    let failure := Failure.write path cause
    { w with
      failures := w.failures ++ [failure],
      progress := w.progress ++ [⟨o.name, .write, .error, [failure]⟩] }

/-- Writes outputs into a directory, which is made if need be. -/
def writeOutputs (t : FileTree) (dir : String) (outputs : List Output) : Writing :=
  match t.makeDirs dir with
  | .error cause => { tree := t, failures := [.makeDirectory cause] }
  | .ok t => outputs.foldl (Writing.output dir) { tree := t }

/-! ## Runs -/

/-- A finished build. -/
structure Run where
  analysis : Analysis
  emission : Emission
  /-- The writing of outputs, where a directory was given. -/
  writing? : Option Writing
  limit : Int

/-- Builds, with a cache if there is one. -/
def run (t : FileTree) (cache? : Option Cache) (r : Request) : Run :=
  let analysis := Analysis.ofSources (loadSources t r.roots) r.top r.keepText
  let emission := analysis.emit r.indent cache?
  { analysis, emission, limit := r.limit
    writing? := if r.outDir == "" then none else some (writeOutputs t r.outDir emission.outputs) }

namespace Run

/-- The outputs in order. -/
def outputs (r : Run) : List Output := r.emission.outputs

/-- The files after the build. -/
def tree (r : Run) (before : FileTree) : FileTree := (r.writing?.map (·.tree)).getD before

/-- The paths of the files written. -/
def written (r : Run) : List String := (r.writing?.map (·.written)).getD []

/-- All errors: of the analysis, of emission, of writing. -/
def errors (r : Run) : List Failure :=
  r.analysis.errors ++ r.emission.errors.map (fun e => .compile e.2) ++
    (r.writing?.map (·.failures)).getD []

/-- The components that did not survive the build, in the order of discovery. -/
def failures (r : Run) : Failures :=
  r.emission.errors.foldl (fun fs (name, e) => fs.record name e) r.analysis.failures

/-- The diagnostics, in the order in which they are shown. -/
def bag (r : Run) : Bag :=
  ((Bag.new r.limit).addAll (r.analysis.diagnostics ++
    r.emission.errors.map fun e => e.2.diagnostic [])).sort

/-- The reports on progress, in order. -/
def progress (r : Run) : List Progress :=
  [.plain "" .load .working] ++ r.analysis.progress ++ [.plain "" .emit .working] ++
    r.emission.progress ++
    (match r.writing? with
      | some w => .plain "" .write .working :: w.progress
      | none => []) ++
    [⟨"", .write, if r.errors.isEmpty then .done else .error, r.errors⟩]

/-! ## Phases -/

/-- The remark on the files that were written. -/
def writeNote (r : Run) : String := toString r.written.length ++ " files"

/-- The phases of the build with the remarks on them. -/
def phases (r : Run) : List (String × String) :=
  r.analysis.phases ++ [("emit", r.emission.note)] ++
    (if r.writing?.isSome then [("write", r.writeNote)] else [])

/-- The trace of the build. -/
def spans (r : Run) : List Trace.Span :=
  let units := r.emission.emitted.map fun e =>
    let cached := if e.cached then "true" else "false"
    Trace.Span.mk .component ("emit:" ++ e.name) "" [("cached", cached)] []
  [r.analysis.span, .mk .phase "emit" r.emission.note [] units] ++
    (if r.writing?.isSome then [.leaf .phase "write" r.writeNote] else [])

end Run
end CircuitCompiler.Build
