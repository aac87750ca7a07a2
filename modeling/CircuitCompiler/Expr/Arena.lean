import CircuitCompiler.Expr.ListForm
import CircuitCompiler.Expr.Nodes

/-!
# Expressions in tables

An expression as it is kept while it is read: numbered nodes, of which each has the numbers of those
below it. An `Arena` has a head for every node, with its kind, its place and the number of its
content in the table of that kind; `Arena.new` allocates a node, `Arena.content?` looks one up.

Nothing keeps a node from standing below itself or a number from leading nowhere. So a pass over the
nodes is an `Option`: it has no result where it looks up what is not there, and none if it does not
come to an end. A pass goes from a node to those below it by its step (`Arena.pass`), and one that
goes deeper than there are nodes has met a node below itself.
-/

namespace CircuitCompiler

/-- A table whose entries are numbered from one on. -/
structure Table (α : Type) where
  entries : Array α := #[]
  deriving Repr, Inhabited

namespace Table

variable {α : Type}

/-- The number of entries, which is the last number. -/
def size (t : Table α) : Nat := t.entries.size

/-- The entry with a number; zero stands for none. -/
def get? (t : Table α) (n : Nat) : Option α := if n = 0 then none else t.entries[n - 1]?

/-- Adds an entry and gives its number. -/
def push (t : Table α) (x : α) : Nat × Table α := (t.size + 1, ⟨t.entries.push x⟩)

end Table

/-- What joins the two parts of a node. -/
inductive Connective where
  | operator (op : Operator)
  | joint (joint : Joint)
  deriving DecidableEq, Repr, Inhabited

/-- The spelling of what joins two parts. -/
def Connective.spelling : Connective → String
  | operator op => op.spelling
  | joint j => j.spelling

/-- What is written on a node. -/
inductive Content where
  | ident (name : String)
  | const (value : Constant)
  | binary (op : Connective) (left right : Nat)
  | unary (op : UnaryOperator) (operand : Nat)
  | ternary (cond yes no : Nat)
  /-- Bits of a vector; a single bit has the same node as both bounds. -/
  | splice (target high low : Nat)
  deriving DecidableEq, Repr, Inhabited

namespace Content

/-- The kind of a node. -/
def kind : Content → NodeKind
  | ident _ => .identifier
  | const _ => .constant
  | binary .. => .binary
  | unary .. => .unary
  | ternary .. => .ternary
  | splice .. => .splice

/-- The nodes below, each once. -/
def below : Content → List Nat
  | ident _ | const _ => []
  | binary _ left right => [left, right]
  | unary _ operand => [operand]
  | ternary cond yes no => [cond, yes, no]
  | splice target high low => if low = high then [target, high] else [target, high, low]

/-- What is shown of a node. -/
def label : Content → String
  | ident name => name
  | const value => value.text
  | binary op _ _ => op.spelling
  | unary op _ => op.spelling
  | ternary .. | splice .. => ""

/-- Whether a content joins the names of a path. -/
def isMember : Content → Bool
  | binary (.joint .member) _ _ => true
  | _ => false

end Content

/-- The head of a node: its kind, its place and the number of its content among those of its kind. -/
structure NodeHead where
  kind : NodeKind
  span : Span
  payload : Nat
  deriving DecidableEq, Repr, Inhabited

/-- Numbered nodes. -/
structure Arena where
  heads : Table NodeHead := {}
  idents : Table String := {}
  consts : Table Constant := {}
  binaries : Table (Connective × Nat × Nat) := {}
  unaries : Table (UnaryOperator × Nat) := {}
  ternaries : Table (Nat × Nat × Nat) := {}
  splices : Table (Nat × Nat × Nat) := {}
  deriving Repr, Inhabited

namespace Arena

/-- The number of nodes. -/
def size (a : Arena) : Nat := a.heads.size

/-- Adds a content to the table of its kind and gives its number there. -/
def addContent (a : Arena) : Content → Nat × Arena
  | .ident name =>
    let (n, idents) := a.idents.push name
    (n, { a with idents })
  | .const value =>
    let (n, consts) := a.consts.push value
    (n, { a with consts })
  | .binary op left right =>
    let (n, binaries) := a.binaries.push (op, left, right)
    (n, { a with binaries })
  | .unary op operand =>
    let (n, unaries) := a.unaries.push (op, operand)
    (n, { a with unaries })
  | .ternary cond yes no =>
    let (n, ternaries) := a.ternaries.push (cond, yes, no)
    (n, { a with ternaries })
  | .splice target high low =>
    let (n, splices) := a.splices.push (target, high, low)
    (n, { a with splices })

/-- Allocates a node: first its content, then its head. -/
def new (a : Arena) (span : Span) (c : Content) : Nat × Arena :=
  let (payload, a) := a.addContent c
  let (id, heads) := a.heads.push ⟨c.kind, span, payload⟩
  (id, { a with heads })

/-- The place of a node. -/
def span? (a : Arena) (id : Nat) : Option Span := (a.heads.get? id).map (·.span)

/-- The content with a number in the table of a kind. -/
def contentOf? (a : Arena) (kind : NodeKind) (n : Nat) : Option Content :=
  match kind with
  | .identifier => (a.idents.get? n).map .ident
  | .constant => (a.consts.get? n).map .const
  | .binary => (a.binaries.get? n).map fun (op, left, right) => .binary op left right
  | .unary => (a.unaries.get? n).map fun (op, operand) => .unary op operand
  | .ternary => (a.ternaries.get? n).map fun (cond, yes, no) => .ternary cond yes no
  | .splice => (a.splices.get? n).map fun (target, high, low) => .splice target high low

/-- What is written on a node. -/
def content? (a : Arena) (id : Nat) : Option Content :=
  (a.heads.get? id).bind fun h => a.contentOf? h.kind h.payload

/-- What is written on a node, if the number stands for one. -/
def look? (a : Arena) (id : Nat) : Option (Option Content) :=
  if id = 0 then some none else (a.content? id).map some

/-! ## Passes -/

/-- A pass that is cut off at a depth; its step is given the pass over the nodes below. -/
def passUpTo {β : Type} (endless : β) (step : (Nat → β) → Nat → β) : Nat → Nat → β
  | 0, _ => endless
  | depth + 1, id => step (passUpTo endless step depth) id

/-- A pass from a node on; one that goes deeper than there are nodes is endless. -/
def pass {β : Type} (a : Arena) (endless : β) (step : (Nat → β) → Nat → β) (id : Nat) : β :=
  passUpTo endless step (a.size + 1) id

/-- The step of visiting nodes. -/
def walkStep (a : Arena) (enters : Nat → Bool) (walk : Nat → Option (List Nat)) (id : Nat) :
    Option (List Nat) := do
  match ← a.look? id with
  | none => return []
  | some c =>
    if enters id then
      match c with
      | .ident _ | .const _ => return [id]
      | .binary _ left right =>
        let left ← walk left
        let right ← walk right
        return id :: (left ++ right)
      | .unary _ operand => return id :: (← walk operand)
      | .ternary cond yes no =>
        let cond ← walk cond
        let yes ← walk yes
        let no ← walk no
        return id :: (cond ++ yes ++ no)
      | .splice target high low =>
        let target ← walk target
        let high' ← walk high
        if low = high then return id :: (target ++ high')
        else return id :: (target ++ high' ++ (← walk low))
    else return [id]

/-- The nodes visited from a node on, each before those below it; below a node that is not entered
nothing is visited. -/
def walk (a : Arena) (enters : Nat → Bool) : Nat → Option (List Nat) :=
  a.pass none (a.walkStep enters)

/-- Whether a node joins the names of a path. -/
def isMember (a : Arena) (id : Nat) : Bool := (a.content? id).any Content.isMember

/-- The dotted paths from a node on, in source order; parts of a path do not count. -/
def dotted (a : Arena) (id : Nat) : Option (List Nat) :=
  (a.walk (fun id => !a.isMember id) id).map fun visited => visited.filter a.isMember

/-- The step of collecting the names of a path. -/
def namesStep (a : Arena) (names? : Nat → Option (Option (List String))) (id : Nat) :
    Option (Option (List String)) := do
  match ← a.look? id with
  | some (.ident name) => return some [name]
  | some (.binary (.joint .member) left right) =>
    match ← a.look? left with
    | some (.ident name) => return (← names? right).map (name :: ·)
    | _ => return none
  | _ => return none

/-- The names of a path, if the node is one: a name, or a name joined to a path. -/
def names? (a : Arena) : Nat → Option (Option (List String)) := a.pass none a.namesStep

/-- A path as it is written, and no text for any other node. -/
def pathText (a : Arena) (id : Nat) : Option String :=
  (a.names? id).map fun names? => (names?.map (String.intercalate ".")).getD ""

/-- The step of writing an expression in list form. -/
def listFormStep (a : Arena) (listForm : Nat → Option String) (id : Nat) : Option String := do
  match ← a.content? id with
  | .ident name => return name
  | .const value => return value.text
  | .binary (.joint .member) left right => return (← listForm left) ++ "." ++ (← listForm right)
  | .binary op left right =>
    return "(" ++ op.spelling ++ " " ++ (← listForm left) ++ " " ++ (← listForm right) ++ ")"
  | .unary .paren operand => return "(paren " ++ (← listForm operand) ++ ")"
  | .unary op operand => return "(" ++ op.spelling ++ " " ++ (← listForm operand) ++ ")"
  | .ternary cond yes no =>
    return "(? " ++ (← listForm cond) ++ " " ++ (← listForm yes) ++ " " ++ (← listForm no) ++ ")"
  | .splice target high low =>
    let text := "(splice " ++ (← listForm target) ++ " " ++ (← listForm high)
    if low = high then return text ++ ")"
    else return text ++ " " ++ (← listForm low) ++ ")"

/-- The list form of an expression. -/
def listForm (a : Arena) : Nat → Option String := a.pass none a.listFormStep

end Arena
end CircuitCompiler
