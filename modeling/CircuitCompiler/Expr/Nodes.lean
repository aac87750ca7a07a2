import CircuitCompiler.Expr.Basic

/-!
# The nodes of an expression

An expression read as a plain tree of labelled nodes: a dotted path is a chain of joints that nests
to the right, everything else is one node a constructor. `Expr.nodes` lists them from the root in
source order and `Expr.size` counts them.
-/

namespace CircuitCompiler

/-- The kinds of nodes. -/
inductive NodeKind where
  | identifier
  | constant
  | binary
  | unary
  | ternary
  | splice
  deriving DecidableEq, Repr, Inhabited

/-- The name of a kind of nodes. -/
def NodeKind.name : NodeKind → String
  | identifier => "Identifier"
  | constant => "Constant"
  | binary => "BinaryOp"
  | unary => "UnaryOp"
  | ternary => "TernaryOp"
  | splice => "Splice"

/-- A node: its kind, what is written on it, and its place. -/
structure ExprNode where
  kind : NodeKind
  label : String
  span : Span
  deriving DecidableEq, Repr, Inhabited

namespace Path

/-- The nodes of a segment and those behind it. -/
def nodesOver : Segment → List Segment → List ExprNode
  | s, [] => [⟨.identifier, s.name, s.span⟩]
  | s, t :: rest =>
    ⟨.binary, Joint.member.spelling, spanOver s (t :: rest)⟩ ::
      ⟨.identifier, s.name, s.span⟩ :: nodesOver t rest

/-- The nodes of a path. -/
def nodes (p : Path) : List ExprNode := nodesOver p.head p.tail

/-- The number of nodes of a path: its names and the joints between them. -/
def size (p : Path) : Nat := 2 * p.tail.length + 1

end Path

namespace Expr

/-- The nodes of an expression, each before the nodes below it. -/
def nodes : Expr → List ExprNode
  | ref path => path.nodes
  | const span value => [⟨.constant, value.text, span⟩]
  | binary span op left right => ⟨.binary, op.spelling, span⟩ :: (left.nodes ++ right.nodes)
  | unary span op operand => ⟨.unary, op.spelling, span⟩ :: operand.nodes
  | choice span cond yes no => ⟨.ternary, "", span⟩ :: (cond.nodes ++ yes.nodes ++ no.nodes)
  | index span target bit => ⟨.splice, "", span⟩ :: (target.nodes ++ bit.nodes)
  | range span target high low => ⟨.splice, "", span⟩ :: (target.nodes ++ high.nodes ++ low.nodes)

/-- The number of nodes. -/
def size : Expr → Nat
  | ref path => path.size
  | const .. => 1
  | binary _ _ left right => left.size + right.size + 1
  | unary _ _ operand => operand.size + 1
  | choice _ cond yes no => cond.size + yes.size + no.size + 1
  | index _ target bit => target.size + bit.size + 1
  | range _ target high low => target.size + high.size + low.size + 1

end Expr
end CircuitCompiler
