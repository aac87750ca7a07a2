import CircuitCompiler.Build.Progress
import CircuitCompiler.Design.Basic
import CircuitCompiler.Source.File

/-!
# Finding and reading sources

A root is a file, which is taken as it is, or a directory, in which the source files are looked for.
All files found are sorted and each is read once. A root that is missing or a file that cannot be
read is reported, and the others are still compiled.
-/

namespace CircuitCompiler.Build

/-- How the names of source files end. -/
def sourceExtension : String := ".cdl"

/-- The cleaned names of the source files under a root. -/
def listRoot (t : FileTree) (root : String) : Except FileError (List String) := do
  match ← t.stat root with
  | .file _ => .ok [PathName.clean root]
  | .dir =>
    let place := (t.locate root).toOption.getD []
    let names := (t.filesBelow place).map fun f => PathName.join (root :: f.1)
    .ok (names.filter fun n => n.endsWith sourceExtension)

/-- Names in order, each once. -/
def distinct (names : List String) : List String := (sortNames names).eraseDups

/-- The source files under all roots, and the roots that failed. -/
def listRoots (t : FileTree) (roots : List String) : List String × List (String × FileError) :=
  let results := roots.map fun root => (root, listRoot t root)
  (distinct (results.flatMap fun r => (r.2.toOption.getD [])),
    results.filterMap fun r => match r.2 with
      | .error e => some (r.1, e)
      | .ok _ => none)

/-- The sources of a build: the files that were read, and what went wrong. -/
structure Sources where
  files : FileSet := {}
  /-- The errors of listing and the first of reading. -/
  failures : List Failure := []
  diagnostics : List Diagnostic := []

/-- A diagnostic about a file that has no place in a file. -/
def fileDiagnostic (what path : String) (e : FileError) : Diagnostic :=
  .ofError .cannotLoad .zero ("failed to " ++ what ++ " " ++ path ++ ": " ++ e.text)

/-- Reads a source, or notes why it cannot be read. -/
def readSource (t : FileTree) (s : FileSet × List (String × FileError)) (path : String) :
    FileSet × List (String × FileError) :=
  match t.read path with
  | .ok raw => ((s.1.addLoaded path raw).2, s.2)
  | .error e => (s.1, s.2 ++ [(path, e)])

/-- Finds and reads the sources under some roots. -/
def loadSources (t : FileTree) (roots : List String) : Sources :=
  let (paths, unlisted) := listRoots t roots
  let (files, unread) := paths.foldl (readSource t) ({}, [])
  { files
    failures := unlisted.map (fun u => .list u.1 u.2) ++
      (unread.take 1).map fun u => .load u.1 u.2
    diagnostics := unlisted.map (fun u => fileDiagnostic "list" u.1 u.2) ++
      unread.map fun u => fileDiagnostic "read" u.1 u.2 }

end CircuitCompiler.Build
