import CircuitCompiler.Command.Run

/-!
# The command-line tool

Takes down the files a command can reach, runs the command on them, and carries out what it did: new
and changed files are written, and the outputs printed.
-/

namespace CircuitCompiler.Main

open Command

/-- The directories and files at and below a place, as far as they can be read. -/
partial def scan (place : List String) : IO (List (List String × FileNode)) := do
  let path := (← IO.currentDir) / PathName.ofElements true place
  if ← path.isDir then
    let names ← try
        pure ((← path.readDir).toList.map (·.fileName))
      catch _ => pure []
    let inner ← names.mapM fun name => scan (place ++ [name])
    return (place, .dir) :: inner.flatten
  else if ← path.pathExists then
    try
      return [(place, .file (← IO.FS.readBinFile path).toList)]
    catch _ => return []
  else return []

/-- A place and those above it as far as they are directories, with their manifests. -/
def scanAbove (place : List String) : IO (List (List String × FileNode)) := do
  let dirs ← ((List.range (place.length + 1)).map fun n => place.take n).filterM fun d => do
    ((← IO.currentDir) / PathName.ofElements true d).isDir
  let manifests ← dirs.mapM fun d => scan (d ++ [Manifest.fileName])
  return dirs.map (·, .dir) ++ manifests.flatten

/-- The paths that a command can reach: its arguments, the cache, and the sources, the example and
the outputs of the projects around the current directory or named by an argument. -/
def reach (t : FileTree) (args : List String) (cache : String) : List String :=
  let projects := ((Manifest.load t t.cwdName).toOption.bind id).toList ++
    args.filterMap fun a => (Manifest.read t (PathName.join [a, Manifest.fileName])).toOption
  [cache, Manifest.examplePath t.cwdName] ++ args ++ args.map Manifest.examplePath ++
    projects.flatMap fun m => m.outDir :: m.sourcePaths

/-- Takes down the files a command can reach. -/
def survey (cwd : List String) (args : List String) (cache : String) : IO FileTree := do
  let place (path : String) : List String :=
    PathName.elements (PathName.absolute (PathName.ofElements true cwd) path)
  let above ← (cwd :: args.map place).mapM scanAbove
  let near : FileTree := ⟨cwd, above.flatten⟩
  let places := (reach near args cache).map place
  let more ← places.mapM scanAbove
  let below ← places.mapM scan
  return { near with entries := near.entries ++ more.flatten ++ below.flatten }

/-- Writes the files that a command made or changed. -/
def carryOut (before after : FileTree) : IO Unit :=
  after.entries.forM fun (place, node) => do
    if before.node? place != some node then
      let path := (← IO.currentDir) / PathName.ofElements true place
      match node with
      | .dir => IO.FS.createDirAll path
      | .file content => IO.FS.writeBinFile path ⟨content.toArray⟩

/-- What can be known about the surroundings. -/
def surroundings : IO Environment := do
  return {
    home := (← IO.getEnv "HOME").getD ""
    cacheHome := (← IO.getEnv "XDG_CACHE_HOME").getD ""
    outTerminal := ← (← IO.getStdout).isTty
    errTerminal := ← (← IO.getStderr).isTty }

end CircuitCompiler.Main

/-- Runs a command line; the result is the exit status. -/
def main (args : List String) : IO UInt32 := do
  let env ← CircuitCompiler.Main.surroundings
  let cwd := CircuitCompiler.PathName.elements (← IO.currentDir).toString
  let cache := if env.cacheHome == "" then CircuitCompiler.PathName.join [env.home, ".cache", "cdl"]
    else CircuitCompiler.PathName.join [env.cacheHome, "cdl"]
  let tree ← CircuitCompiler.Main.survey cwd args cache
  let outcome := CircuitCompiler.Command.run env tree args
  CircuitCompiler.Main.carryOut tree outcome.session.tree
  (← IO.getStdout).write ⟨outcome.session.out.toArray⟩
  (← IO.getStderr).write ⟨outcome.session.err.toArray⟩
  return outcome.status
