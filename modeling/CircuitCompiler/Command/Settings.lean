import CircuitCompiler.Command.Session

/-!
# Build settings

What a command compiles, and how: the settings of the project, overridden by the options. Without
arguments the project is looked for at and above the current directory; a single directory that
holds a manifest is a project, too.
-/

namespace CircuitCompiler.Command

/-- What to compile, and how. -/
structure Settings where
  roots : List String := []
  outDir : String
  top : String := ""
  cache : Bool := true
  indent : Int := 4
  deriving Repr, Inhabited

namespace Settings

/-- The settings of a project. -/
def ofManifest (m : Manifest) : Settings where
  roots := m.sourcePaths
  outDir := m.outDir
  top := m.config.top
  cache := m.config.cache
  indent := m.config.indent

/-- The project that the arguments of a command name, if any. -/
def manifest? (t : FileTree) (operands : List String) : Except CommandError (Option Manifest) :=
  match operands with
  | [] =>
    match Manifest.load t t.cwdName with
    | .ok (some m) => .ok (some m)
    | .ok none => .error .noSources
    | .error e => .error (.manifest e)
  | [dir] =>
    let candidate := PathName.join [dir, Manifest.fileName]
    if t.isDirectory dir && t.exists? candidate then
      match Manifest.read t candidate with
      | .ok m => .ok (some m)
      | .error e => .error (.manifest e)
    else .ok none
  | _ => .ok none

/-- The settings of a call. -/
def ofCall (c : Call) (t : FileTree) : Except CommandError Settings := do
  let base := match ← manifest? t c.operands with
    | some m => ofManifest m
    | none => { roots := c.operands, outDir := t.cwdName }
  let s := { base with
    outDir := if c.args.has "out" then c.text "out" else base.outDir
    top := if c.args.has "top" then c.text "top" else base.top
    cache := if c.args.has "no-cache" then !c.isOn "no-cache" else base.cache }
  if s.roots.isEmpty then .error .noSources else .ok s

end Settings
end CircuitCompiler.Command
