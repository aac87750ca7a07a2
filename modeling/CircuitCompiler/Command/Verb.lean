import CircuitCompiler.Command.Option
import CircuitCompiler.Text.Blank

/-!
# Commands and their options

The commands of the tool, the options of each, and how an argument list chooses one: its first
argument that is neither an option nor the value of one. Where there is no such command, those with
a similar name are suggested.
-/

namespace CircuitCompiler.Command

/-- A command of the tool. -/
inductive Verb where
  | tokenize
  | parse
  | build
  | facts
  | init
  | version
  | help
  | completion
  deriving DecidableEq, Repr, Inhabited

namespace Verb

/-- The word for a command. -/
def name : Verb → String
  | tokenize => "tokenize"
  | parse => "parse"
  | build => "build"
  | facts => "facts"
  | init => "init"
  | version => "version"
  | help => "help"
  | completion => "completion"

/-- All commands. -/
def all : List Verb := [tokenize, parse, build, facts, init, version, help, completion]

/-- The command of a word. -/
def ofName? (s : String) : Option Verb := all.find? (·.name == s)

/-- What a command is for, in a few words. -/
def summary : Verb → String
  | tokenize => "Tokenize a CDL source file"
  | parse => "Parse a CDL source file and print its syntax tree"
  | build => "Compile CDL sources to VHDL"
  | facts => "Print component interface facts as JSON"
  | init => "Initialize a new CDL project"
  | version => "Show cdlc build information"
  | help => "Help about any command"
  | completion => "Generate the autocompletion script for the specified shell"

end Verb

/-! ## Options -/

/-- An option that takes a text. -/
def textOption (name initial : String) : OptionSpec := { name, kind := .text, initial }

/-- An option that takes a whole number. -/
def wholeOption (name initial : String) : OptionSpec := { name, kind := .whole, initial }

/-- An option that is on or off. -/
def switchOption (name : String) : OptionSpec := { name, kind := .switch, initial := "false" }

/-- The options of all commands. -/
def commonOptions : List OptionSpec :=
  [textOption "color" "auto", switchOption "quiet", switchOption "timings",
    wholeOption "max-diagnostics" "100", wholeOption "jobs" "0", textOption "trace" "",
    textOption "trace-level" "off", textOption "trace-format" "auto", textOption "cpuprofile" "",
    textOption "memprofile" "", textOption "runtime-trace" ""]

/-- The options of one command alone. -/
def Verb.ownOptions : Verb → List OptionSpec
  | .tokenize => [textOption "format" "pretty", textOption "scope" "general", switchOption "trivia"]
  | .parse => [textOption "format" "tree", switchOption "keep-placeholders"]
  | .build =>
    [textOption "out" "", textOption "top" "", switchOption "no-cache", switchOption "stdout",
      textOption "ui" "auto", switchOption "keep-placeholders"]
  | .facts => [textOption "top" "", switchOption "allow-errors"]
  | .version => [textOption "format" "pretty"]
  | .init | .help | .completion => []

/-- The option that asks for help. -/
def helpOption : OptionSpec := { switchOption "help" with letter := some 'h' }

/-- The option that asks for the version, known without a command only. -/
def versionOption : OptionSpec := { switchOption "version" with letter := some 'v' }

/-- The options of a command, or those without a command. -/
def optionsOf : Option Verb → List OptionSpec
  | some v => v.ownOptions ++ commonOptions ++ [helpOption]
  | none => commonOptions ++ [helpOption, versionOption]

/-! ## The choice of a command -/

/-- Whether an argument has the form of an option whose value is the next argument. A name that is
not known counts as one that takes a value. -/
def takesNext (specs : List OptionSpec) (s : String) : Bool :=
  let isSwitch (p : OptionSpec → Bool) : Bool :=
    ((specs.find? p).map (·.kind == .switch)).getD false
  match s.toList with
  | '-' :: '-' :: name =>
    !s.toList.contains '=' && !isSwitch (·.name == String.ofList name)
  | ['-', c] => c != '=' && c.toNat < 0x80 && !isSwitch (·.letter == some c)
  | _ => false

/-- The arguments that are neither options nor their values. The value of an option is passed over
only if another argument follows it. -/
def plainArguments (specs : List OptionSpec) : List String → List String
  | [] => []
  | s :: rest =>
    if s == "--" then []
    else if takesNext specs s then
      match rest with
      | _ :: next :: more => plainArguments specs (next :: more)
      | _ => []
    else if s != "" && !s.startsWith "-" then s :: plainArguments specs rest
    else plainArguments specs rest

/-- The arguments without the first plain one that is this word. -/
def withoutWord (specs : List OptionSpec) (word : String) : List String → List String
  | [] => []
  | s :: rest =>
    if s == "--" then s :: rest
    else if takesNext specs s then
      match rest with
      | value :: more => s :: value :: withoutWord specs word more
      | [] => [s]
    else if !s.startsWith "-" && s == word then rest
    else s :: withoutWord specs word rest

/-! ## Suggestions -/

/-- The next row of the table of distances: for the prefixes of `t`, from the row before. -/
def distanceRow (c : UInt8) : Bytes → List Nat → Nat → List Nat
  | b :: t, diagonal :: up :: row, left =>
    let d := if c == b then diagonal else 1 + min up (min left diagonal)
    d :: distanceRow c t (up :: row) d
  | _, _, _ => []

/-- The number of bytes to insert, delete or replace that leads from one text to another. -/
def distance (s t : Bytes) : Nat :=
  let rows := s.foldl (fun (i, row) c => (i + 1, (i + 1) :: distanceRow c t row (i + 1)))
    (0, List.range (t.length + 1))
  rows.2.getLast?.getD 0

/-- Whether a command is suggested for a word: its name is at most two steps away, or begins with
the word. -/
def isSimilar (word : String) (v : Verb) : Bool :=
  let word := Text.lowered word
  v != .help &&
    (distance (Bytes.ofString word) (Bytes.ofString v.name) ≤ 2 || v.name.startsWith word)

/-- What to say where a word is no command. -/
def unknownCommand (word : String) : String :=
  let similar := Verb.all.filter (isSimilar word)
  "unknown command " ++ Text.Quoted.ofString word ++ " for \"cdlc\"" ++
    (if similar.isEmpty then ""
      else "\n\nDid you mean this?\n" ++ String.join (similar.map fun v => "\t" ++ v.name ++ "\n"))

/-- What an argument list asks for: a command, or none, with the other arguments; or a word that is
no command. -/
def choose (args : List String) : Except String (Option Verb × List String) :=
  match plainArguments commonOptions args with
  | [] => .ok (none, args)
  | word :: _ =>
    match Verb.ofName? word with
    | some v => .ok (some v, withoutWord commonOptions word args)
    | none => .error word

end CircuitCompiler.Command
