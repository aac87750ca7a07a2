import CircuitCompiler.Text.Blank
import CircuitCompiler.Toml.Document

/-!
# Project settings

The settings of a project, their written form in two tables, and how a document sets them. Names of
tables and settings match in any case, except that the table `project` and its `name` have to be
there in this spelling.
-/

namespace CircuitCompiler

open Toml (Value Entries Document)

/-- The settings of a project. -/
structure Config where
  name : String
  sources : List String := ["src"]
  out : String := "build/vhdl"
  top : String := ""
  /-- The number of workers; zero leaves it open. -/
  jobs : Int := 0
  cache : Bool := true
  indent : Int := 4
  deriving DecidableEq, Repr, Inhabited

namespace Config

/-- The written form: a table a group of settings. -/
def render (c : Config) : String :=
  let line (name value : String) : String := "  " ++ name ++ " = " ++ value ++ "\n"
  "[project]\n" ++ line "name" (Toml.quote c.name) ++
    line "sources" ("[" ++ String.intercalate ", " (c.sources.map Toml.quote) ++ "]") ++
    line "out" (Toml.quote c.out) ++ line "top" (Toml.quote c.top) ++
  "\n[build]\n" ++ line "jobs" (toString c.jobs) ++ line "cache" (toString c.cache) ++
    line "indent" (toString c.indent)

/-! ## Setting by name -/

/-- A letter without regard to case, as far as case leads to a letter of ASCII. -/
def foldChar (c : Char) : Char :=
  if c.toNat == 0x17F then 's' else if c.toNat == 0x212A then 'k' else c.toLower

/-- Whether two names differ in case only. -/
def sameName (a b : String) : Bool := a.toList.map foldChar == b.toList.map foldChar

/-- The texts of an array of texts. -/
def texts? (items : List Value) : Option (List String) :=
  items.mapM fun v => match v with
    | .text s => some s
    | _ => none

/-- How a setting takes its value. -/
structure Setting where
  table : String
  name : String
  /-- Takes a value; none if it is of the wrong kind. -/
  assign : Config → Value → Option Config

/-- A setting that takes a text. -/
def textSetting (table name : String) (set : Config → String → Config) : Setting :=
  ⟨table, name, fun c v => match v with
    | .text s => some (set c s)
    | _ => none⟩

/-- A setting that takes a whole number. -/
def integerSetting (table name : String) (set : Config → Int → Config) : Setting :=
  ⟨table, name, fun c v => match v with
    | .integer n => some (set c n)
    | _ => none⟩

/-- All settings. -/
def settings : List Setting :=
  [textSetting "project" "name" fun c s => { c with name := s },
    ⟨"project", "sources", fun c v => match v with
      | .array items => (texts? items).map fun ss => { c with sources := ss }
      | _ => none⟩,
    textSetting "project" "out" fun c s => { c with out := s },
    textSetting "project" "top" fun c s => { c with top := s },
    integerSetting "build" "jobs" fun c n => { c with jobs := n },
    ⟨"build", "cache", fun c v => match v with
      | .boolean b => some { c with cache := b }
      | _ => none⟩,
    integerSetting "build" "indent" fun c n => { c with indent := n }]

/-- The table of settings with a name. -/
def table? (name : String) : Option String := ["project", "build"].find? (sameName · name)

/-- The setting with a name in a table. -/
def setting? (table name : String) : Option Setting :=
  settings.find? fun s => s.table == table && sameName s.name name

/-- The keys of a document that are tables of settings or settings. -/
def knownKeys (root : Entries) : List Toml.Key :=
  root.flatMap fun e => match table? e.1, e.2 with
    | some t, .table es =>
      [e.1] :: (es.filter fun s => (setting? t s.1).isSome).map fun s => [e.1, s.1]
    | some _, _ => [[e.1]]
    | none, _ => []

/-- Sets the settings of one table; unknown names are passed over. -/
def assignTable? (c : Config) (table : String) (es : Entries) : Option Config :=
  es.foldlM (fun c e => match setting? table e.1 with
    | some s => s.assign c e.2
    | none => some c) c

/-- Sets the settings of all tables; unknown names are passed over. -/
def assignAll? (c : Config) (root : Entries) : Option Config :=
  root.foldlM (fun c e => match table? e.1, e.2 with
    | some t, .table es => assignTable? c t es
    | some _, _ => none
    | none, _ => some c) c

end Config

/-! ## Reading a manifest -/

/-- What can be wrong with the text of a manifest. -/
inductive ManifestFault where
  /-- The file cannot be read, is not TOML, or has a value of the wrong kind. -/
  | unreadable
  | noProject
  | noName
  | unknownKey (key : Toml.Key)
  | noSources
  | negativeJobs
  | indentOutOfRange
  deriving DecidableEq, Repr, Inhabited

/-- The fault in words. -/
def ManifestFault.message : ManifestFault → String
  | unreadable => "failed to parse TOML"
  | noProject => "missing [project]"
  | noName => "missing [project].name"
  | unknownKey key => "unknown key " ++ key.text
  | noSources => "[project].sources is empty"
  | negativeJobs => "[build].jobs must not be negative"
  | indentOutOfRange => "[build].indent must be between 1 and 16"

namespace Config

/-- Whether the document has a name in the table of the project. -/
def namesProject (d : Document) : Bool :=
  match Toml.entriesAt? ["project"] d.root with
  | some es => (es.lookup "name").isSome
  | none => false

/-- The settings of a document, checked one after the other. -/
def ofDocument (d : Document) : Except ManifestFault Config := do
  match assignAll? { name := "" } d.root with
  | none => .error .unreadable
  | some c =>
    if (d.root.lookup "project").isNone then .error .noProject
    else if !namesProject d || Text.trimmed c.name == "" then .error .noName
    else match d.keys.find? (!(knownKeys d.root).contains ·) with
      | some key => .error (.unknownKey key)
      | none =>
        if c.sources.isEmpty then .error .noSources
        else if c.jobs < 0 then .error .negativeJobs
        else if c.indent < 1 || 16 < c.indent then .error .indentOutOfRange
        else .ok c

/-- The settings a text holds. -/
def parse (text : Bytes) : Except ManifestFault Config :=
  match Document.parse? text with
  | some d => ofDocument d
  | none => .error .unreadable

end Config
end CircuitCompiler
