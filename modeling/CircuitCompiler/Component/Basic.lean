import CircuitCompiler.Expr.ListForm
import CircuitCompiler.Expr.Nodes
import CircuitCompiler.Text.Bytes

/-!
# Components

The tree of one component: its generics, its ports and its architecture in source order.
-/

namespace CircuitCompiler

/-- The declared size of a vector. -/
inductive Width where
  /-- No size written: one bit. -/
  | scalar
  /-- A number of bits. -/
  | literal (bits : Nat)
  /-- The value of a generic. -/
  | generic (name : String)
  deriving DecidableEq, Repr, Inhabited

namespace Width

/-- The width a number of bits stands for: it must be positive and fit into 32 bits. -/
def ofNat? (n : Nat) : Option Width :=
  if 0 < n && n < 4294967296 then some (.literal n) else none

/-- The number of bits, or zero where only a generic knows it. -/
def bits : Width → Nat
  | scalar => 1
  | literal n => n
  | generic _ => 0

/-- The width as text; nothing for one bit. -/
def text : Width → String
  | scalar => ""
  | literal n => toString n
  | generic name => name

end Width

/-- The declared vectors and their widths, in source order. -/
abbrev Widths := List (String × Width)

namespace Widths

/-- Whether a name is a declared vector. -/
def has (ws : Widths) (name : String) : Bool := ws.any fun w => w.1 == name

/-- Adds a vector; a name that is there already keeps its place and gets the new width. -/
def declare (ws : Widths) (name : String) (width : Width) : Widths :=
  if ws.has name then ws.map fun w => if w.1 == name then (name, width) else w
  else ws ++ [(name, width)]

end Widths

/-- A value that is known before the circuit runs: a literal, or a generic passed on. -/
inductive Setting where
  | name (segment : Segment)
  | literal (span : Span) (value : Constant)
  deriving DecidableEq, Repr, Inhabited

namespace Setting

/-- The span of a value. -/
def span : Setting → Span
  | name s => s.span
  | literal span _ => span

/-- The value as it is written. -/
def text : Setting → String
  | name s => s.name
  | literal _ value => value.text

end Setting

/-- What a declaration introduces. -/
inductive Role where
  | generic
  | signal
  | variableRole
  | constant (value : Setting)
  | port (direction : Direction)
  deriving DecidableEq, Repr, Inhabited

/-- The name of a role. -/
def Role.name : Role → String
  | generic => "Generic"
  | signal => "Signal"
  | variableRole => "Variable"
  | constant _ => "Const"
  | port _ => "Port"

/-- A typed declaration. -/
structure Decl where
  role : Role
  name : String
  nameSpan : Span
  type : DataType
  width : Width
  span : Span
  deriving DecidableEq, Repr, Inhabited

/-- What is declared, before its role is known. -/
structure Declarator where
  name : String
  nameSpan : Span
  type : DataType
  width : Width
  span : Span
  deriving DecidableEq, Repr, Inhabited

/-- The declaration that a role makes of it. -/
def Declarator.decl (d : Declarator) (role : Role) : Decl :=
  ⟨role, d.name, d.nameSpan, d.type, d.width, d.span⟩

/-- The value given to a generic of an instance. -/
structure Binding where
  name : Segment
  value : Setting
  deriving DecidableEq, Repr, Inhabited

/-- The list form of a binding. -/
def Binding.listForm (b : Binding) : String := Joint.binding.listForm b.name.name b.value.text

/-- A named use of another component. -/
structure Instance where
  name : String
  nameSpan : Span
  type : String
  typeSpan : Span
  bindings : List Binding
  deriving DecidableEq, Repr, Inhabited

/-- The list form of bindings, which nests to the right. -/
def Binding.listFormAll : List Binding → String
  | [] => ""
  | [b] => b.listForm
  | b :: rest => Joint.list.listForm b.listForm (listFormAll rest)

/-- A statement of an architecture. -/
inductive Stmt where
  | decl (decl : Decl)
  | inst (span : Span) (inst : Instance)
  | assign (span : Span) (target value : Expr)
  /-- A raw block; the text is empty unless it was asked for. -/
  | block (span : Span) (kind : BlockKind) (body : Bytes)
  deriving DecidableEq, Repr, Inhabited

namespace Stmt

/-- The span of a statement. -/
def span : Stmt → Span
  | decl d => d.span
  | inst span _ | assign span .. | block span .. => span

end Stmt

/-- The body of a component; an architecture without a name has no name span. -/
structure Architecture where
  span : Span
  name : String
  nameSpan : Span
  stmts : List Stmt
  deriving DecidableEq, Repr, Inhabited

/-- The name of an architecture that is given none. -/
def Architecture.defaultName : String := "implementation"

/-- A part of a component. -/
inductive Item where
  | generic (span : Span) (decl : Decl)
  | ports (span : Span) (decls : List Decl)
  | arch (arch : Architecture)
  deriving DecidableEq, Repr, Inhabited

namespace Item

/-- The span of a part. -/
def span : Item → Span
  | generic span _ | ports span _ => span
  | arch a => a.span

/-- The generic a part declares. -/
def generic? : Item → Option Decl
  | generic _ d => some d
  | _ => none

/-- The ports a part declares. -/
def ports? : Item → Option (List Decl)
  | ports _ ds => some ds
  | _ => none

/-- The architecture a part is. -/
def arch? : Item → Option Architecture
  | arch a => some a
  | _ => none

end Item

/-- One component with its parts in source order. -/
structure Component where
  name : String
  nameSpan : Span
  span : Span
  file : Nat
  items : List Item
  widths : Widths
  deriving DecidableEq, Repr, Inhabited

namespace Component

/-- The generics in source order. -/
def generics (c : Component) : List Decl := c.items.filterMap Item.generic?

/-- The ports in source order. -/
def ports (c : Component) : List Decl := (c.items.findSome? Item.ports?).getD []

/-- The architecture, if there is one. -/
def arch? (c : Component) : Option Architecture := c.items.findSome? Item.arch?

/-- The statements of the architecture. -/
def stmts (c : Component) : List Stmt := (c.arch?.map (·.stmts)).getD []

/-- The port with a name. -/
def port? (c : Component) (name : String) : Option Decl := c.ports.find? fun d => d.name == name

/-- The instances in source order. -/
def instances (c : Component) : List Instance :=
  c.stmts.filterMap fun s => match s with
    | .inst _ i => some i
    | _ => none

/-- Targets and values of the assignments in source order. -/
def assignments (c : Component) : List (Expr × Expr) :=
  c.stmts.filterMap fun s => match s with
    | .assign _ target value => some (target, value)
    | _ => none

/-- The declarations among the statements. -/
def innerDecls (c : Component) : List Decl :=
  c.stmts.filterMap fun s => match s with
    | .decl d => some d
    | _ => none

/-! ## Sizes -/

/-- The number of expression nodes of bindings: three for each and one for each joint between. -/
def bindingNodes (bs : List Binding) : Nat := 3 * bs.length + (bs.length - 1)

/-- The number of expression nodes of a statement; the type of an instance is one of them. -/
def stmtNodes : Stmt → Nat
  | .decl d => match d.role with
    | .constant _ => 1
    | _ => 0
  | .inst _ i => 1 + bindingNodes i.bindings
  | .assign _ target value => target.size + value.size + 1
  | .block .. => 0

/-- The number of expression nodes of a component. -/
def exprCount (c : Component) : Nat := (c.stmts.map stmtNodes).foldr (· + ·) 0

/-- The number of declarations of a component. -/
def declCount (c : Component) : Nat := c.generics.length + c.ports.length + c.innerDecls.length

end Component

end CircuitCompiler
