import CircuitCompiler.Command.Error
import CircuitCompiler.Command.Release
import CircuitCompiler.Command.Verb
import CircuitCompiler.Diagnostic.Snippet
import CircuitCompiler.Trace.Span

/-!
# Sessions

A command runs in a session: the files, what it has printed so far on its two outputs, and what it
can know about its surroundings. A command that fails keeps what it has done before.
-/

namespace CircuitCompiler.Command

/-- What a command knows about its surroundings. -/
structure Environment where
  /-- The home directory, or nothing. -/
  home : String := ""
  /-- The directory for caches, or nothing. -/
  cacheHome : String := ""
  /-- Whether the output is shown on a terminal. -/
  outTerminal : Bool := false
  /-- Whether the messages are shown on a terminal. -/
  errTerminal : Bool := false
  release : Release := {}
  deriving DecidableEq, Repr, Inhabited

/-- The state of a running command. -/
structure Session where
  tree : FileTree
  out : Bytes := []
  err : Bytes := []
  deriving Repr, Inhabited

/-- What a command does: it changes the session and may fail. -/
abbrev Action := ExceptT CommandError (StateM Session)

/-- Prints output. -/
def print (b : Bytes) : Action Unit := modify fun s => { s with out := s.out ++ b }

/-- Prints a message. -/
def report (b : Bytes) : Action Unit := modify fun s => { s with err := s.err ++ b }

/-- The files as they are now. -/
def files : Action FileTree := return (← get).tree

/-- Replaces the files. -/
def setFiles (t : FileTree) : Action Unit := modify fun s => { s with tree := t }

/-- The result of an operation, or an error made from its cause. -/
def orFail {ε α : Type} (error : ε → CommandError) : Except ε α → Action α
  | .ok a => return a
  | .error e => throw (error e)

/-! ## The call of a command -/

/-- A command with its options and arguments. -/
structure Call where
  env : Environment
  specs : List OptionSpec
  args : Arguments

namespace Call

/-- The value of an option. -/
def text (c : Call) (name : String) : String := c.args.text c.specs name

/-- Whether an option is on. -/
def isOn (c : Call) (name : String) : Bool := c.text name == "true"

/-- The value of an option that takes a whole number. -/
def whole (c : Call) (name : String) : Int := (Command.whole (c.text name)).toOption.getD 0

/-- The arguments that are not options. -/
def operands (c : Call) : List String := c.args.operands

/-- Whether an option that is automatic, on or off is on; automatic means whether there is a
terminal. -/
def isEnabled (c : Call) (name : String) (terminal : Bool) : Action Bool :=
  match Text.trimmed (Text.lowered (c.text name)) with
  | "" | "auto" => return terminal
  | "on" => return true
  | "off" => return false
  | _ => throw (.badSwitch name (c.text name))

/-- Prints diagnostics, in order and with the lines around them. -/
def printDiagnostics (c : Call) (bag : Bag) (fs : FileSet) : Action Unit := do
  if bag.items.isEmpty then return
  let color ← c.isEnabled "color" c.env.errTerminal
  let view : SnippetView :=
    { color, context := 2, notes := true, paths := { cwd := (← files).cwdName } }
  report (bag.sort.pretty (some fs) view)

end Call

/-! ## Profiles and traces -/

/-- Creates an empty file. -/
def createFile (error : FileError → CommandError) (path : String) : Action Unit := do
  setFiles (← orFail error ((← files).write path []))

/-- Creates the file of a profile, if one is asked for. -/
def Call.startProfile (c : Call) (which : Profile) (option : String) : Action Unit :=
  if c.text option == "" then return else createFile (.profile which) (c.text option)

/-- Begins the profiles that are asked for. -/
def Call.startProfiles (c : Call) : Action Unit := do
  c.startProfile .cpu "cpuprofile"
  c.startProfile .scheduler "runtime-trace"

/-- Ends the profiles: the one of the heap is taken last, and a failure is only reported. -/
def Call.stopProfiles (c : Call) (s : Session) : Session :=
  let path := c.text "memprofile"
  if path == "" then s
  else match s.tree.write path [] with
    | .ok tree => { s with tree }
    | .error e =>
      let message := "profile: " ++ (CommandError.profile .heap e).message ++ "\n"
      { s with err := s.err ++ Bytes.ofString message }

/-- Where a trace goes and what it shows. -/
structure Tracer where
  level : Trace.Level := .off
  format : Trace.Format := .text
  /-- The file of the trace; none stands for the messages. -/
  path? : Option String := none
  deriving Repr, Inhabited

/-- Whether a path names a file of JSON lines. -/
def isJsonLines (path : String) : Bool := path.endsWith ".ndjson" || path.endsWith ".jsonl"

/-- Begins the trace that is asked for. A file without a level asks for phases. -/
def Call.startTrace (c : Call) : Action Tracer := do
  let path := c.text "trace"
  let level ← orFail .traceLevel (Trace.Level.parse (c.text "trace-level"))
  let level := if level == .off && path != "" && !c.args.has "trace-level" then .phase else level
  if level == .off then return {}
  let format ← orFail .traceFormat (Trace.Format.parse (c.text "trace-format"))
  let format := if format == .auto then if isJsonLines path then .ndjson else .text else format
  if path == "" || path == "-" then return { level := level, format := format }
  createFile .traceOutput path
  return { level, format, path? := some path }

/-- Writes the trace of what was done. -/
def Tracer.write (t : Tracer) (spans : List Trace.Span) : Action Unit := do
  let events := (Trace.Span.eventsOf t.level spans).mapIdx fun i e => { e with seq := i + 1 }
  let text := Bytes.ofString (String.join (events.map fun e => e.render t.format 0))
  match t.path? with
  | none => report text
  | some path =>
    match (← files).write path text with
    | .ok tree => setFiles tree
    | .error _ => return

end CircuitCompiler.Command
