import CircuitCompiler.Design.Check
import CircuitCompiler.Source.File
import CircuitCompiler.Text.Json

/-!
# Interface facts

The relational view of a checked design: one table for each relation, with a row for each component,
generic, port, declaration, instance and dependency of the components that passed the check. Rows
are sorted, so equal designs have equal tables.
-/

namespace CircuitCompiler.Facts

open Text (Json)

/-- A component with its place in the order of generation. -/
structure ComponentRow where
  name : String
  file : String
  line : Nat
  /-- The name of the architecture, or nothing where there is none. -/
  arch : String
  order : Nat
  deriving DecidableEq, Repr, Inhabited

/-- A generic of a component. -/
structure GenericRow where
  component : String
  name : String
  type : DataType
  deriving DecidableEq, Repr, Inhabited

/-- A port of a component. -/
structure PortRow where
  component : String
  name : String
  direction : Direction
  type : DataType
  width : Width
  line : Nat
  deriving DecidableEq, Repr, Inhabited

/-- A declaration inside an architecture. -/
structure SignalRow where
  component : String
  name : String
  kind : String
  type : DataType
  width : Width
  deriving DecidableEq, Repr, Inhabited

/-- An instance with the values of its generics, in the order of their names. -/
structure InstanceRow where
  component : String
  name : String
  target : String
  generics : List (String × String)
  line : Nat
  deriving DecidableEq, Repr, Inhabited

/-- A component and one that it instantiates. -/
structure DependencyRow where
  user : String
  used : String
  deriving DecidableEq, Repr, Inhabited

/-- All tables of a design. -/
structure Tables where
  components : List ComponentRow
  generics : List GenericRow
  ports : List PortRow
  signals : List SignalRow
  instances : List InstanceRow
  dependencies : List DependencyRow
  deriving DecidableEq, Repr, Inhabited

/-! ## Rows -/

/-- The line a span starts on; zero where no files are at hand. -/
def lineOf (files : Option FileSet) (span : Span) : Nat :=
  ((files.bind fun fs => fs.resolve span).map (·.1.line)).getD 0

/-- The path of a file; empty where no files are at hand. -/
def pathOf (files : Option FileSet) (file : Nat) : String :=
  ((files.bind fun fs => fs.get? file).map (·.path)).getD ""

/-- The row of a component. -/
def componentRow (files : Option FileSet) (c : Component) (order : Nat) : ComponentRow where
  name := c.name
  file := pathOf files c.file
  line := lineOf files c.nameSpan
  arch := (c.arch?.map (·.name)).getD ""
  order

/-- The rows of the generics of a component. -/
def genericRows (c : Component) : List GenericRow :=
  c.generics.map fun d => ⟨c.name, d.name, d.type⟩

/-- The direction of a port. -/
def directionOf : Role → Direction
  | .port d => d
  | _ => .input

/-- The rows of the ports of a component. -/
def portRows (files : Option FileSet) (c : Component) : List PortRow :=
  c.ports.map fun d =>
    ⟨c.name, d.name, directionOf d.role, d.type, d.width, lineOf files d.nameSpan⟩

/-- The word for what a declaration introduces. -/
def kindOf : Role → String
  | .variableRole => "variable"
  | .constant _ => "const"
  | _ => "signal"

/-- The rows of the declarations of a component. -/
def signalRows (c : Component) : List SignalRow :=
  c.innerDecls.map fun d => ⟨c.name, d.name, kindOf d.role, d.type, d.width⟩

/-- Whether a pair comes before or beside another, by first and then by second part. -/
def pairLe (a b : String × String) : Bool := if a.1 == b.1 then nameLe a.2 b.2 else nameLe a.1 b.1

/-- The values of the generics of an instance, one for each name and in the order of names; of
several for one name the last counts. -/
def genericValues (bs : List Binding) : List (String × String) :=
  let pairs := bs.reverse.map fun b => (b.name.name, b.value.text)
  (pairs.eraseDupsBy fun a b => a.1 == b.1).mergeSort fun a b => nameLe a.1 b.1

/-- The rows of the instances of a component. -/
def instanceRows (files : Option FileSet) (c : Component) : List InstanceRow :=
  c.instances.map fun i =>
    ⟨c.name, i.name, i.type, genericValues i.bindings, lineOf files i.nameSpan⟩

/-! ## Extraction -/

/-- The tables of the components that passed a check; `files` gives their places. -/
def extract (files : Option FileSet) (v : Verdict) : Tables :=
  let cs := v.order.filterMap v.design.get?
  { components := cs.mapIdx fun i c => componentRow files c i
    generics := (cs.flatMap genericRows).mergeSort fun a b =>
      pairLe (a.component, a.name) (b.component, b.name)
    ports := (cs.flatMap (portRows files)).mergeSort fun a b => nameLe a.component b.component
    signals := (cs.flatMap signalRows).mergeSort fun a b => nameLe a.component b.component
    instances := (cs.flatMap (instanceRows files)).mergeSort fun a b =>
      nameLe a.component b.component
    dependencies := (v.order.flatMap fun name =>
      (v.design.depNames name).map fun dep => (⟨name, dep⟩ : DependencyRow)).mergeSort fun a b =>
        pairLe (a.user, a.used) (b.user, b.used) }

/-! ## Written form -/

/-- A text field. -/
def field (name value : String) : String × Json := (name, .ofString value)

/-- A text field that is left out when it is empty. -/
def optional (name value : String) : List (String × Json) :=
  if value == "" then [] else [field name value]

/-- The written form of a component row. -/
def ComponentRow.json (r : ComponentRow) : Json :=
  .object ([field "name" r.name, field "file" r.file, ("line", .ofNat r.line)] ++
    optional "arch" r.arch ++ [("order", .ofNat r.order)])

/-- The written form of a generic row. -/
def GenericRow.json (r : GenericRow) : Json :=
  .object [field "component" r.component, field "name" r.name, field "type" r.type.name]

/-- The written form of a port row. -/
def PortRow.json (r : PortRow) : Json :=
  .object ([field "component" r.component, field "name" r.name, field "direction" r.direction.name,
    field "type" r.type.name] ++ optional "width" r.width.text ++ [("line", .ofNat r.line)])

/-- The written form of a declaration row. -/
def SignalRow.json (r : SignalRow) : Json :=
  .object ([field "component" r.component, field "name" r.name, field "kind" r.kind,
    field "type" r.type.name] ++ optional "width" r.width.text)

/-- The written form of an instance row. -/
def InstanceRow.json (r : InstanceRow) : Json :=
  .object ([field "component" r.component, field "name" r.name, field "target" r.target] ++
    (if r.generics.isEmpty then []
      else [("generics", .object (r.generics.map fun g => field g.1 g.2))]) ++
    [("line", .ofNat r.line)])

/-- The written form of a dependency row. -/
def DependencyRow.json (r : DependencyRow) : Json :=
  .object [field "from" r.user, field "to" r.used]

/-- The written form of all tables. -/
def Tables.json (t : Tables) : Json :=
  .object [("components", .array (t.components.map ComponentRow.json)),
    ("generics", .array (t.generics.map GenericRow.json)),
    ("ports", .array (t.ports.map PortRow.json)),
    ("signals", .array (t.signals.map SignalRow.json)),
    ("instances", .array (t.instances.map InstanceRow.json)),
    ("dependencies", .array (t.dependencies.map DependencyRow.json))]

end CircuitCompiler.Facts
