import CircuitCompiler.Component.Basic
import CircuitCompiler.Token.Basic
import CircuitCompiler.Trace.Event

/-!
# Numbered names

Tools that talk in numbers count the members of each closed set from a first number. A catalog gives
the name under a number, and says what is shown for a number that no member has.
-/

namespace CircuitCompiler

/-- The names of a closed set by number. -/
structure Catalog where
  first : Nat
  names : List String
  other : String

namespace Catalog

/-- The name under a number. -/
def name (c : Catalog) (n : Nat) : String :=
  if n < c.first then c.other else c.names.getD (n - c.first) c.other

/-- The classes of compile errors. -/
def errorKinds : Catalog :=
  ⟨1, [ErrorKind.lexical, .grammar, .typing, .naming, .port, .circular, .generic].map
    ErrorKind.name, "Error"⟩

/-- The catalogs by what they number. -/
def all : List (String × Catalog) := [
  ("error_kind", errorKinds),
  ("trivia_kind", ⟨0, [TriviaKind.space, .newline, .lineComment, .blockComment].map
    TriviaKind.name, "Trivia(?)"⟩),
  ("scope", ⟨0, [Scope.general, .relational, .index].map Scope.name, "general"⟩),
  ("decl_kind", ⟨1, ["Generic", "Signal", "Variable", "Const", "Port"], "Decl(?)"⟩),
  ("type_kind", ⟨1, [DataType.int, .uint, .vec, .bool].map DataType.name, "?"⟩),
  ("port_dir", ⟨1, [Direction.input, .output].map Direction.name, ""⟩),
  ("expr_kind", ⟨1, [NodeKind.identifier, .constant, .binary, .unary, .ternary, .splice].map
    NodeKind.name, "Expr(?)"⟩),
  ("binary_op", ⟨1, [Operator.add, .sub, .mul, .div, .mod, .pow, .wordAnd, .wordOr, .wordNand,
    .wordNor, .wordXor, .wordXnor, .boolAnd, .boolOr, .boolXor, .lt, .gt, .le, .ge, .eq, .ne].map
    Operator.spelling ++ [Joint.member, .binding, .list, .assign].map Joint.spelling, "?"⟩),
  ("unary_op", ⟨1, [UnaryOperator.neg, .not, .bang, .paren].map UnaryOperator.spelling, "?"⟩),
  ("placeholder_kind", ⟨1, [BlockKind.process, .generate, .connect].map BlockKind.name, "?"⟩),
  ("trace_level", ⟨0, Trace.Level.all.map Trace.Level.name, "unknown"⟩),
  ("trace_scope", ⟨1, ["driver", "phase", "component", "detail"], "unknown"⟩),
  ("trace_kind", ⟨1, ["begin", "end", "point"], "unknown"⟩)]

end Catalog
end CircuitCompiler
