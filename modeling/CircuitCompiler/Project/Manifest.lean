import CircuitCompiler.FileTree
import CircuitCompiler.Project.Config

/-!
# Project manifests

A manifest is the file that marks the root of a project and holds its settings. Paths in the
settings start from the directory of the manifest. A project is found from any directory inside it.
-/

namespace CircuitCompiler

/-- A project: the absolute path of its manifest, and its settings. -/
structure Manifest where
  path : String
  config : Config
  deriving DecidableEq, Repr, Inhabited

/-- Why a project could not be loaded. -/
inductive ManifestError where
  /-- Looking for the manifest at a path failed. -/
  | search (candidate : String) (cause : FileError)
  | invalid (path : String) (fault : ManifestFault)
  deriving DecidableEq, Repr, Inhabited

/-- The error in one line. -/
def ManifestError.message : ManifestError → String
  | search candidate cause =>
    "failed to stat " ++ Text.Quoted.ofString candidate ++ ": " ++ cause.text
  | invalid path fault => path ++ ": " ++ fault.message

namespace Manifest

/-- The name of the file that marks the root of a project. -/
def fileName : String := "cdl.toml"

/-- The directory of the project. -/
def root (m : Manifest) : String := PathName.dir m.path

/-- A path of the settings. -/
def resolve (m : Manifest) (path : String) : String :=
  if PathName.isAbsolute path then path else PathName.join [m.root, path]

/-- The files and directories with sources. -/
def sourcePaths (m : Manifest) : List String := m.config.sources.map m.resolve

/-- The directory for outputs. -/
def outDir (m : Manifest) : String := m.resolve m.config.out

/-- Reads the manifest at a path. -/
def read (t : FileTree) (path : String) : Except ManifestError Manifest :=
  let full := PathName.absolute t.cwdName path
  match t.read full with
  | .error _ => .error (.invalid path .unreadable)
  | .ok text =>
    match Config.parse text with
    | .ok config => .ok ⟨full, config⟩
    | .error fault => .error (.invalid path fault)

/-- The first directory of a list that holds a manifest, with the manifest's path. -/
def findIn (t : FileTree) : List String → Except ManifestError (Option String)
  | [] => .ok none
  | dir :: rest =>
    let candidate := PathName.join [dir, fileName]
    match t.stat candidate with
    | .ok _ => .ok (some candidate)
    | .error e => if e.fault = .missing then findIn t rest else .error (.search candidate e)

/-- The path of the manifest at or above a directory, if there is one. -/
def find (t : FileTree) (start : String) : Except ManifestError (Option String) :=
  findIn t (PathName.ancestors (PathName.absolute t.cwdName (if start == "" then "." else start)))

/-- Loads the project at or above a directory, if there is one. -/
def load (t : FileTree) (start : String) : Except ManifestError (Option Manifest) := do
  match ← find t start with
  | some path => return some (← read t path)
  | none => return none

end Manifest
end CircuitCompiler
