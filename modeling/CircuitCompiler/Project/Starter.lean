import CircuitCompiler.Project.Manifest

/-!
# Starting a project

A new project has a manifest with the default settings and one example component. A manifest that is
there already is never overwritten, and neither is a source.
-/

namespace CircuitCompiler

/-- Why a project could not be started. -/
inductive StartError where
  | manifestExists
  | file (cause : FileError)
  deriving DecidableEq, Repr, Inhabited

/-- The error in one line. -/
def StartError.message : StartError → String
  | manifestExists => "cdl.toml already exists"
  | file cause => cause.text

namespace Manifest

/-- The example component of a new project. -/
def exampleSource : String :=
  "component Top \x7b\n" ++
  "    port \x7b\n" ++
  "        input vec a;\n" ++
  "        input vec b;\n" ++
  "        output vec y;\n" ++
  "    \x7d\n" ++
  "    arch \x7b\n" ++
  "        y <= a and b;\n" ++
  "    \x7d\n" ++
  "\x7d\n"

/-- The path of the example component of a project in a directory. -/
def examplePath (dir : String) : String := PathName.join [dir, "src", "top.cdl"]

/-- An operation on files, whose error stops the start of a project. -/
def orStop {α : Type} : Except FileError α → Except StartError α
  | .ok a => .ok a
  | .error e => .error (.file e)

/-- Writes the files of a new project. -/
def writeStarter (t : FileTree) (dir name path : String) : Except FileError FileTree := do
  let t ← t.makeDirs (PathName.join [dir, "src"])
  let t ← t.write path (Bytes.ofString ({ name : Config }).render)
  match t.stat (examplePath dir) with
  | .error ⟨_, _, .missing⟩ => t.write (examplePath dir) (Bytes.ofString exampleSource)
  | _ => .ok t

/-- Starts a project in a directory: the path of its manifest and the files afterwards. Without a
name the project is named after the directory. -/
def start (t : FileTree) (dir name : String) : Except StartError (String × FileTree) := do
  let path := PathName.join [dir, fileName]
  if t.exists? path then .error .manifestExists
  else
    let t ← orStop (writeStarter t dir (if name == "" then PathName.base dir else name) path)
    return (path, t)

end Manifest
end CircuitCompiler
