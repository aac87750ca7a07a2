/-!
# The closed sets of the description language

A circuit description is written with four value types, two port directions, three kinds of raw
blocks, six forms of constants and a fixed set of operators. Each set is an enumeration here, with
the spelling its members have in source text.
-/

namespace CircuitCompiler

/-- How the two context-dependent lexemes `<=` and `:` are read. -/
inductive Scope where
  /-- `<=` assigns a signal and `:` parts the branches of a choice. -/
  | general
  /-- `<=` compares. -/
  | relational
  /-- `:` parts the bounds of a bit range. -/
  | index
  deriving DecidableEq, Repr, Inhabited

/-- The word shown for a scope. -/
def Scope.name : Scope → String
  | .general => "general"
  | .relational => "relational"
  | .index => "index"

/-- The types a declaration can name. -/
inductive DataType where
  | int
  | uint
  | vec
  | bool
  deriving DecidableEq, Repr, Inhabited

/-- The spelling of a type. -/
def DataType.name : DataType → String
  | .int => "int"
  | .uint => "uint"
  | .vec => "vec"
  | .bool => "bool"

/-- Which way a port carries its value. -/
inductive Direction where
  | input
  | output
  deriving DecidableEq, Repr, Inhabited

/-- The spelling of a direction. -/
def Direction.name : Direction → String
  | .input => "input"
  | .output => "output"

/-- The blocks that are kept as raw text. -/
inductive BlockKind where
  | process
  | generate
  | connect
  deriving DecidableEq, Repr, Inhabited

/-- The spelling of the word that opens a raw block. -/
def BlockKind.name : BlockKind → String
  | .process => "process"
  | .generate => "generate"
  | .connect => "connect"

/-- The lexical forms of a constant. -/
inductive ConstForm where
  | int
  | hexInt
  | binInt
  | binVec
  | hexVec
  | bool
  deriving DecidableEq, Repr, Inhabited

/-- The operators that join two expressions. -/
inductive Operator where
  | add
  | sub
  | mul
  | div
  | mod
  | pow
  | wordAnd
  | wordOr
  | wordNand
  | wordNor
  | wordXor
  | wordXnor
  | boolAnd
  | boolOr
  | boolXor
  | lt
  | gt
  | le
  | ge
  | eq
  | ne
  deriving DecidableEq, Repr, Inhabited

/-- The spelling of an operator. -/
def Operator.spelling : Operator → String
  | .add => "+"
  | .sub => "-"
  | .mul => "*"
  | .div => "/"
  | .mod => "%"
  | .pow => "**"
  | .wordAnd => "and"
  | .wordOr => "or"
  | .wordNand => "nand"
  | .wordNor => "nor"
  | .wordXor => "xor"
  | .wordXnor => "xnor"
  | .boolAnd => "&"
  | .boolOr => "|"
  | .boolXor => "^"
  | .lt => "<"
  | .gt => ">"
  | .le => "<="
  | .ge => ">="
  | .eq => "=="
  | .ne => "!="

/-- The joints of the tree that are no operators: a dotted path, a generic binding, a list of
bindings and a signal assignment. -/
inductive Joint where
  | member
  | binding
  | list
  | assign
  deriving DecidableEq, Repr, Inhabited

/-- The spelling of a joint. -/
def Joint.spelling : Joint → String
  | .member => "."
  | .binding => "="
  | .list => ","
  | .assign => "<="

/-- The operators on one expression; parentheses are kept as one of them. -/
inductive UnaryOperator where
  | neg
  | not
  | bang
  | paren
  deriving DecidableEq, Repr, Inhabited

/-- The spelling of a unary operator. -/
def UnaryOperator.spelling : UnaryOperator → String
  | .neg => "-"
  | .not => "not"
  | .bang => "!"
  | .paren => "()"

end CircuitCompiler
