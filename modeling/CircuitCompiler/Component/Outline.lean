import CircuitCompiler.Design.Basic
import CircuitCompiler.Source.File
import CircuitCompiler.Token.Listing

/-!
# Outlines

The tree of a component for people and for other tools: every part is a node with a type, a name, a
place and fields. `Outline.tree` draws the nodes with branches, `Outline.json` writes them as JSON.
-/

namespace CircuitCompiler

open Text

/-- A node of an outline. -/
inductive Outline where
  | node (type name : String) (span : Span) (fields : List (String × Bytes))
      (children : List Outline)

namespace Outline

/-- The type of a node. -/
def type : Outline → String
  | node type _ _ _ _ => type

/-- The place of a node. -/
def span : Outline → Span
  | node _ _ span _ _ => span

/-- A node of a declaration. -/
def ofDecl (d : Decl) : Outline :=
  let str := Bytes.ofString
  let direction := match d.role with
    | .port dir => [("dir", str dir.name)]
    | _ => []
  let width := if d.width == .scalar then [] else [("width", str d.width.text)]
  let value := match d.role with
    | .constant value => [("value", str value.text)]
    | _ => []
  .node d.role.name d.name d.span (direction ++ [("type", str d.type.name)] ++ width ++ value) []

/-- A node of a statement. -/
def ofStmt : Stmt → Outline
  | .decl d => ofDecl d
  | .inst span i =>
    .node "Instance" i.name span (("of", Bytes.ofString i.type) ::
      if i.bindings.isEmpty then []
      else [("generics", Bytes.ofString (Binding.listFormAll i.bindings))]) []
  | .assign span target value =>
    .node "Assign" "" span
      [("expr", Bytes.ofString (Joint.assign.listForm target.listForm value.listForm))] []
  | .block span kind body =>
    .node "Placeholder" kind.name span (if body.isEmpty then [] else [("body", body)]) []

/-- The span from the first to the last node. -/
def spanOf : List Outline → Span
  | [] => .zero
  | first :: rest => first.span.cover ((rest.getLast?.getD first).span)

/-- The node of a component: its generics, its ports and its architecture. -/
def ofComponent (c : Component) : Outline :=
  let ports := c.ports.map ofDecl
  let arch := match c.arch? with
    | some a => [.node "Arch" a.name a.nameSpan [] (a.stmts.map ofStmt)]
    | none => []
  .node "Component" c.name c.span [] (c.generics.map ofDecl ++
    (if ports.isEmpty then [] else [.node "Ports" "" (spanOf ports) [] ports]) ++ arch)

/-! ## Drawn -/

/-- The line of a node without what is drawn before it. -/
def label (f : SourceFile) (type name : String) (span : Span) (fields : List (String × Bytes)) :
    Bytes :=
  let str := Bytes.ofString
  let shown := fields.map fun (key, value) => str (key ++ "=") ++ value
  let start := f.position span.start
  let stop := f.position span.stop
  str type ++ (if name == "" then [] else str (" " ++ name)) ++
    (if fields.isEmpty then [] else str " \x7b" ++ (str ", ").intercalate shown ++ str "\x7d") ++
    (if span == .zero then [] else str (" (" ++ toString start.line ++ ":" ++
      toString start.column ++ "-" ++ toString stop.line ++ ":" ++ toString stop.column ++ ")")) ++
    str "\n"

mutual

/-- A node with the nodes below it; `head` is drawn before its line and `indent` before theirs. -/
def draw (f : SourceFile) (head indent : String) : Outline → Bytes
  | .node type name span fields children =>
    Bytes.ofString head ++ label f type name span fields ++ drawAll f indent children

/-- Nodes below one node. -/
def drawAll (f : SourceFile) (indent : String) : List Outline → Bytes
  | [] => []
  | [last] => draw f (indent ++ "└─ ") (indent ++ "   ") last
  | n :: rest => draw f (indent ++ "├─ ") (indent ++ "│  ") n ++ drawAll f indent rest

end

/-- The drawn outlines of a design whose components stand in one file. -/
def tree (f : SourceFile) (d : Design) : Bytes :=
  d.components.flatMap fun c => draw f "" "" (ofComponent c)

/-! ## JSON -/

mutual

/-- A node as a JSON value; empty parts are left out, and fields stand in the order of their names.
-/
def toJson : Outline → Json
  | .node type name span fields children =>
    let sorted := fields.mergeSort fun a b => nameLe a.1 b.1
    .object ([("type", .ofString type)] ++
      (if name == "" then [] else [("name", .ofString name)]) ++
      [("span", Token.spanJson span)] ++
      (if fields.isEmpty then []
        else [("fields", .object (sorted.map fun (key, value) => (key, .string value)))]) ++
      (match children with
        | [] => []
        | c :: rest => [("children", .array (c.toJson :: toJsonAll rest))]))

/-- Nodes as JSON values. -/
def toJsonAll : List Outline → List Json
  | [] => []
  | n :: rest => n.toJson :: toJsonAll rest

end

/-- The outlines of a design as JSON text. -/
def json (d : Design) : String :=
  (Json.array (d.components.map fun c => (ofComponent c).toJson)).pretty

end Outline
end CircuitCompiler
