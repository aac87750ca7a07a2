import CircuitCompiler.Language
import CircuitCompiler.Source.Span

/-!
# Expressions

The tree of an expression, with the span of every node. A dotted path such as `unit.port` is one
leaf: it can only be made of names. Bits of a vector are taken by a single index or by a range, and
the two are told apart even where their bounds agree.
-/

namespace CircuitCompiler

/-- A name in its place. -/
structure Segment where
  name : String
  span : Span
  deriving DecidableEq, Repr, Inhabited

/-- A name, or names joined by dots. -/
structure Path where
  head : Segment
  tail : List Segment := []
  deriving DecidableEq, Repr, Inhabited

namespace Path

/-- The segments of a path. -/
def segments (p : Path) : List Segment := p.head :: p.tail

/-- The names of a path. -/
def names (p : Path) : List String := p.segments.map (·.name)

/-- The path as it is written, without blanks. -/
def text (p : Path) : String := String.intercalate "." p.names

/-- Whether the path is a single name. -/
def isPlain (p : Path) : Bool := p.tail.isEmpty

/-- The span over a segment and those behind it. -/
def spanOver : Segment → List Segment → Span
  | s, [] => s.span
  | s, t :: rest => s.span.cover (spanOver t rest)

/-- The span of a path. -/
def span (p : Path) : Span := spanOver p.head p.tail

end Path

/-- A literal constant: its form and its digits as written, without radix mark and quotes. -/
structure Constant where
  form : ConstForm
  digits : String
  deriving DecidableEq, Repr, Inhabited

/-- The constant as it is written in source text. -/
def Constant.text (c : Constant) : String :=
  match c.form with
  | .hexInt => "0x" ++ c.digits
  | .binInt => "0b" ++ c.digits
  | .binVec => "\"" ++ c.digits ++ "\""
  | .hexVec => "x\"" ++ c.digits ++ "\""
  | .int | .bool => c.digits

/-- An expression with the span of every node. -/
inductive Expr where
  /-- A name or a dotted path. -/
  | ref (path : Path)
  | const (span : Span) (value : Constant)
  | binary (span : Span) (op : Operator) (left right : Expr)
  | unary (span : Span) (op : UnaryOperator) (operand : Expr)
  /-- One of two values, by a condition. -/
  | choice (span : Span) (cond yes no : Expr)
  /-- One bit of a vector. -/
  | index (span : Span) (target : Path) (bit : Expr)
  /-- The bits of a vector from `high` down to `low`. -/
  | range (span : Span) (target : Path) (high low : Expr)
  deriving DecidableEq, Repr, Inhabited

namespace Expr

/-- The span of the whole expression. -/
def span : Expr → Span
  | ref path => path.span
  | const span _ | binary span .. | unary span .. | choice span .. | index span ..
  | range span .. =>
    span

/-- The path an expression consists of, if it is one. -/
def path? : Expr → Option Path
  | ref path => some path
  | _ => none

/-- The dotted references in an expression, in source order. -/
def paths : Expr → List Path
  | ref path => dotted path
  | const .. => []
  | binary _ _ left right => left.paths ++ right.paths
  | unary _ _ operand => operand.paths
  | choice _ cond yes no => cond.paths ++ yes.paths ++ no.paths
  | index _ target bit => dotted target ++ bit.paths
  | range _ target high low => dotted target ++ high.paths ++ low.paths
where
  /-- A path counts if it has a dot. -/
  dotted (path : Path) : List Path := if path.isPlain then [] else [path]

end Expr
end CircuitCompiler
