import CircuitCompiler.Build.CacheStore
import CircuitCompiler.Build.Pipeline
import CircuitCompiler.Build.Timer
import CircuitCompiler.Command.Settings
import CircuitCompiler.Component.Outline
import CircuitCompiler.Design.Parse
import CircuitCompiler.Facts.Schema
import CircuitCompiler.Facts.Tables
import CircuitCompiler.Token.Listing

/-!
# Running commands

What each command does in a session, and the run of a whole command line: the choice of the command,
its options and arguments, profiles and traces around it, the message it may end with, and its exit
status. Durations are not measured.
-/

namespace CircuitCompiler.Command

/-! ## Reading a single file -/

/-- A file set with one file read from a path. -/
def loadFile (error : FileError → CommandError) (path : String) :
    Action (SourceFile × FileSet) := do
  let raw ← orFail error ((← files).read path)
  let (id, fs) := FileSet.empty.addLoaded path raw
  return ((fs.get? id).getD default, fs)

/-- The first argument of a command. -/
def Call.path (c : Call) : String := c.operands.head?.getD ""

/-- The scope a word names. -/
def scopeOf : String → Action Scope
  | "general" | "" => return .general
  | "relational" => return .relational
  | "index" => return .index
  | s => throw (.badScope s)

/-- Prints the tokens of a file. -/
def Call.tokenize (c : Call) : Action Unit := do
  let scope ← scopeOf (c.text "scope")
  let (file, fs) ← loadFile .tokenizeFile c.path
  let (tokens, lx) := ((Lexer.ofFile file (c.isOn "trivia")).setScope scope).drain
  let bag := (Bag.new (c.whole "max-diagnostics")).addAll lx.diagnostics
  c.printDiagnostics bag fs
  match c.text "format" with
  | "pretty" => print (Bytes.ofString (Token.listing file tokens))
  | "json" => print (Bytes.ofString (Token.listingJson tokens))
  | format => throw (.badFormat format)
  if bag.hasErrors then throw .tokenizeErrors

/-- Prints the components of a file. -/
def Call.parse (c : Call) : Action Unit := do
  let (file, fs) ← loadFile .parseFile c.path
  match Design.parse file (c.isOn "keep-placeholders") with
  | .error e =>
    c.printDiagnostics ((Bag.new (c.whole "max-diagnostics")).add (e.diagnostic [])) fs
    throw (.parseError e)
  | .ok design =>
    match c.text "format" with
    | "tree" | "pretty" => print (Outline.tree file design)
    | "json" => print (Bytes.ofString (Outline.json design))
    | format => throw (.badFormat format)

/-! ## Building -/

/-- The directory of the cache, made if need be; none if there is no cache. -/
def Call.cacheDir? (c : Call) (s : Settings) : Action (Option String) := do
  if !s.cache then return none
  let warn (cause : String) : Action (Option String) := do
    report (Bytes.ofString ("warning: disk cache disabled: " ++ cause ++ "\n"))
    return none
  if c.env.cacheHome == "" && c.env.home == "" then warn "$HOME is not defined"
  else
    let base :=
      if c.env.cacheHome == "" then PathName.join [c.env.home, ".cache"] else c.env.cacheHome
    let dir := PathName.join [base, "cdl"]
    match (← files).makeDirs dir with
    | .ok t => setFiles t; return some dir
    | .error e => warn e.text

/-- The words for the stages of a build that is over. -/
def stageWords : List (String × String) :=
  [("load", "loaded"), ("parse", "parsed"), ("check", "checked"), ("emit", "emitted"),
    ("write", "written")]

/-- The durations of the stages of a build. -/
def stageTimings (phases : List (String × String)) : String :=
  String.join (stageWords.filterMap fun (stage, word) =>
    (phases.lookup stage).map fun _ => word ++ " 0.0 ms\n")

/-- Compiles sources to VHDL. -/
def Call.build (c : Call) (tracer : Tracer) : Action Unit := do
  let s ← orFail id (Settings.ofCall c (← files))
  let toOutput := c.isOn "stdout"
  let _ ← c.isEnabled "ui" c.env.outTerminal
  let dir? ← c.cacheDir? s
  let before ← files
  let run := Build.run before (dir?.map (Cache.load before)) {
    roots := s.roots
    outDir := if toOutput then "" else s.outDir
    top := s.top
    indent := s.indent
    keepText := c.isOn "keep-placeholders"
    limit := c.whole "max-diagnostics" }
  setFiles (match dir?, run.emission.cache? with
    | some dir, some cache => cache.save (run.tree before) dir
    | _, _ => run.tree before)
  tracer.write run.spans
  c.printDiagnostics run.bag run.analysis.sources.files
  if toOutput then
    print (Bytes.ofString (String.intercalate "\n" (run.outputs.map (·.vhdl))))
  if c.isOn "timings" then report (Bytes.ofString (stageTimings run.phases))
  if !c.isOn "quiet" && !toOutput then
    report (Bytes.ofString
      ("wrote " ++ toString run.written.length ++ " files to " ++ s.outDir ++ " (" ++
        toString (run.outputs.filter (·.cached)).length ++ " cached)\n"))
  if !run.errors.isEmpty then throw (.buildFailed (run.failures.map (·.1)) run.errors)

/-- Prints the facts about the components that pass the check. -/
def Call.facts (c : Call) (tracer : Tracer) : Action Unit := do
  let s ← orFail id (Settings.ofCall c (← files))
  let a := Build.Analysis.ofSources (Build.loadSources (← files) s.roots) s.top false
  tracer.write [a.span]
  let tables := Facts.extract (some a.sources.files) a.verdict
  if !Facts.Schema.tables.accepts tables.json then throw .invalidFacts
  let phases := a.phases ++ [("facts", toString tables.components.length ++ " components")]
  let timer : Build.Timer := ⟨phases.map fun p => { name := p.1, note := p.2 }⟩
  let bag := (Bag.new (c.whole "max-diagnostics")).addAll a.diagnostics
  let bag := if c.isOn "timings" then (Build.TimingReport.ofTimer timer).addTo "facts" bag else bag
  c.printDiagnostics bag a.sources.files
  if !a.errors.isEmpty && !c.isOn "allow-errors" then throw (.analysisFailed a.errors)
  print (Bytes.ofString tables.json.pretty)

/-! ## Projects and versions -/

/-- The directory a project is started in. -/
def projectDir (t : FileTree) (operands : List String) : String :=
  match operands with
  | [] | ["."] => t.cwdName
  | dir :: _ => if PathName.isAbsolute dir then dir else PathName.join [t.cwdName, dir]

/-- The name of a project in a directory. -/
def projectName (dir : String) : String :=
  let name := Text.trimmed (PathName.base dir)
  if name == "" || name == "." || name == "/" then "cdl-project" else name

/-- Starts a project. -/
def Call.startProject (c : Call) : Action Unit := do
  let dir := projectDir (← files) c.operands
  match (← files).stat dir with
  | .ok .dir => pure ()
  | .ok (.file _) => throw (.notDirectory dir)
  | .error e =>
    if e.fault = .missing then setFiles (← orFail (.makeDirectory dir) ((← files).makeDirs dir))
    else throw (.file e)
  match Manifest.start (← files) dir (projectName dir) with
  | .error .manifestExists => throw (.alreadyStarted (PathName.join [dir, Manifest.fileName]))
  | .error (.file e) => throw (.file e)
  | .ok (path, t) =>
    setFiles t
    if !c.isOn "quiet" then
      print (Bytes.ofString
        ("created " ++ path ++ "\ncreated " ++ Manifest.examplePath dir ++ "\n"))

/-- A release in JSON; what is not known is left out. -/
def releaseJson (r : Release) : Text.Json :=
  let known (name value : String) : List (String × Text.Json) :=
    if value == "" then [] else [(name, .ofString value)]
  .object ([("tool", .ofString "cdlc"), ("version", .ofString r.version)] ++
    known "git_commit" r.commit ++ known "build_date" r.date)

/-- Prints the version. -/
def Call.version (c : Call) : Action Unit := do
  match Text.lowered (c.text "format") with
  | "json" => print (Bytes.ofString (releaseJson c.env.release).pretty)
  | "pretty" =>
    let color ← c.isEnabled "color" c.env.outTerminal
    print (Bytes.ofString (c.env.release.banner color))
  | _ => throw (.badVersionFormat (c.text "format"))

/-! ## Command lines -/

/-- How many plain arguments a command takes. -/
def Verb.arity : Verb → Arity
  | .tokenize | .parse => .exactly 1
  | .init => .atMost 1
  | .build | .facts | .version | .help | .completion => .any

/-- A short guide to the commands. -/
def usage : String :=
  "cdlc compiles Component Description Language sources into VHDL entities and architectures\n\n" ++
    "Usage:\n  cdlc [command]\n\nAvailable Commands:\n" ++
    String.join (Verb.all.map fun v => "  " ++ Text.padRight 12 v.name ++ v.summary ++ "\n")

/-- Does what a command is for. -/
def Verb.run (v : Verb) (c : Call) (tracer : Tracer) : Action Unit :=
  match v with
  | .tokenize => c.tokenize
  | .parse => c.parse
  | .build => c.build tracer
  | .facts => c.facts tracer
  | .init => c.startProject
  | .version => c.version
  | .help | .completion => print (Bytes.ofString usage)

/-- The end of a command: an exit status, and the session. -/
structure Outcome where
  status : UInt32
  session : Session

/-- Ends a session with an error. -/
def fail (s : Session) (message : String) : Outcome :=
  ⟨1, { s with err := s.err ++ Bytes.ofString ("Error: " ++ message ++ "\n") }⟩

/-- The end of an action. -/
def finish : Except CommandError Unit × Session → Outcome
  | (.ok _, s) => ⟨0, s⟩
  | (.error e, s) => fail s e.message

/-- Runs a command on its arguments. -/
def runVerb (env : Environment) (s : Session) (v : Verb) (args : List String) : Outcome :=
  let specs := optionsOf (some v)
  match Arguments.read specs {} args with
  | .error e => fail s (CommandError.options e).message
  | .ok args =>
    let c : Call := ⟨env, specs, args⟩
    if c.isOn "help" then ⟨0, { s with out := s.out ++ Bytes.ofString usage }⟩
    else if !v.arity.accepts c.operands.length then
      fail s (CommandError.arguments v.arity c.operands.length).message
    else
      match c.startProfiles.run s with
      | (.error e, s) => fail s e.message
      | (.ok _, s) =>
        let o := finish ((do v.run c (← c.startTrace) : Action Unit).run s)
        { o with session := c.stopProfiles o.session }

/-- Runs without a command: only the version can be asked for. -/
def runBare (env : Environment) (s : Session) (args : List String) : Outcome :=
  let specs := optionsOf none
  match Arguments.read specs {} args with
  | .error e => fail s (CommandError.options e).message
  | .ok args =>
    let c : Call := ⟨env, specs, args⟩
    let text :=
      if c.isOn "version" && !c.isOn "help" then "cdlc version " ++ env.release.version ++ "\n"
      else usage
    ⟨0, { s with out := s.out ++ Bytes.ofString text }⟩

/-- Runs a command line on some files. -/
def run (env : Environment) (t : FileTree) (args : List String) : Outcome :=
  let s : Session := { tree := t }
  match choose args with
  | .error word =>
    let o := fail s (unknownCommand word)
    { o with session.err := o.session.err ++ Bytes.ofString "Run 'cdlc --help' for usage.\n" }
  | .ok (some v, args) => runVerb env s v args
  | .ok (none, args) => runBare env s args

end CircuitCompiler.Command
