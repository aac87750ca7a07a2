import CircuitCompiler.Diagnostic.Error
import CircuitCompiler.FileTree

/-!
# Progress of a build

What a build reports while it runs, and the errors it ends with.
-/

namespace CircuitCompiler.Build

/-- A stage of a build, by its name. -/
structure Stage where
  name : String
  deriving DecidableEq, Repr, Inhabited

namespace Stage

/-- Sources are read and cut into chunks. -/
def load : Stage := ⟨"load"⟩

/-- Chunks are read. -/
def parse : Stage := ⟨"parse"⟩

/-- Components are checked against each other. -/
def check : Stage := ⟨"check"⟩

/-- VHDL is generated. -/
def emit : Stage := ⟨"emit"⟩

/-- VHDL is written to files. -/
def write : Stage := ⟨"write"⟩

end Stage

/-- How far a component is in a stage, by its name. -/
structure Status where
  name : String
  deriving DecidableEq, Repr, Inhabited

namespace Status

/-- Known but not started. -/
def queued : Status := ⟨"queued"⟩

/-- In the stage. -/
def working : Status := ⟨"working"⟩

/-- The output came from the cache. -/
def cached : Status := ⟨"cached"⟩

/-- Finished. -/
def done : Status := ⟨"done"⟩

/-- Failed. -/
def error : Status := ⟨"error"⟩

end Status

/-- An error of a build. -/
inductive Failure where
  | compile (error : CompileError)
  /-- The sources under a root could not be found. -/
  | list (root : String) (cause : FileError)
  /-- A source could not be read. -/
  | load (path : String) (cause : FileError)
  /-- The directory for the output could not be made. -/
  | makeDirectory (cause : FileError)
  /-- An output could not be written. -/
  | write (path : String) (cause : FileError)
  deriving DecidableEq, Repr

namespace Failure

/-- The error in one line. -/
def text : Failure → String
  | compile e => e.text
  | list root cause => "list " ++ root ++ ": " ++ cause.text
  | load path cause => "load " ++ path ++ ": " ++ cause.text
  | makeDirectory cause => "create output directory: " ++ cause.text
  | write path cause => "write " ++ path ++ ": " ++ cause.text

/-- Errors, one a line. -/
def textAll (fs : List Failure) : String := String.intercalate "\n" (fs.map text)

end Failure

/-- A report on a component, or on the build as a whole where the name is empty. -/
structure Progress where
  component : String
  stage : Stage
  status : Status
  errors : List Failure := []
  deriving DecidableEq, Repr

namespace Progress

/-- A report without errors. -/
def plain (component : String) (stage : Stage) (status : Status) : Progress :=
  { component := component, stage := stage, status := status }

/-- A report on a compile error. -/
def failed (component : String) (stage : Stage) (e : CompileError) : Progress :=
  { component, stage, status := .error, errors := [.compile e] }

end Progress
end CircuitCompiler.Build
