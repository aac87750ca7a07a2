import CircuitCompiler.Notation.Number

/-!
# Expressions of the notation

The notation describes values by constraints: a value, a kind of value and a bound are all
expressions, and an expression stands for the values that satisfy it. Records hold declarations:
fields, patterns for the names of fields, values that stand in the record without a name, and local
names.
-/

namespace CircuitCompiler.Notation

/-- A value without parts. -/
inductive Atom where
  | null
  | bool (b : Bool)
  | number (n : Number)
  | string (b : Bytes)
  | bytes (b : Bytes)
  deriving DecidableEq, Repr, Inhabited

/-- A text. -/
def Atom.ofString (s : String) : Atom := .string (Bytes.ofString s)

/-- The name of a field. A name without quotes can be that of a definition or of a hidden field. -/
structure Label where
  name : String
  quoted : Bool := false
  deriving DecidableEq, Repr, Inhabited

namespace Label

/-- Whether the field is a definition, whose records are closed. -/
def isDefinition (l : Label) : Bool :=
  !l.quoted && (l.name.startsWith "#" || l.name.startsWith "_#")

/-- Whether the field belongs to the data of a record. -/
def isRegular (l : Label) : Bool := l.quoted || !(l.name.startsWith "#" || l.name.startsWith "_")

/-- Whether two labels name the same field. -/
def same (a b : Label) : Bool := a.name == b.name && a.isRegular == b.isRegular

end Label

/-- Whether a field is there. -/
inductive Presence where
  | present
  /-- The field has to be there, though this declaration does not provide it. -/
  | required
  /-- The declaration holds if the field is there. -/
  | optional
  deriving DecidableEq, Repr, Inhabited

/-- The presence of a field that is declared twice. -/
def Presence.meet : Presence → Presence → Presence
  | .present, _ | _, .present => .present
  | .required, _ | _, .required => .required
  | .optional, .optional => .optional

/-- An operator with one operand. -/
inductive UnaryOp where
  | plus
  | minus
  | not
  /-- Marks the preferred one of several values. -/
  | prefer
  | below
  | atMost
  | above
  | atLeast
  | differs
  | like
  | unlike
  deriving DecidableEq, Repr, Inhabited

/-- An operator with two operands. -/
inductive BinaryOp where
  | either
  | both
  | or
  | and
  | equal
  | differs
  | below
  | atMost
  | above
  | atLeast
  | like
  | unlike
  | add
  | subtract
  | multiply
  | divide
  /-- Division of whole numbers toward the floor of the Euclidean quotient, and its remainder. -/
  | div
  | mod
  /-- Division of whole numbers toward zero, and its remainder. -/
  | quo
  | rem
  deriving DecidableEq, Repr, Inhabited

namespace UnaryOp

/-- The operators by their marks. -/
def table : List (String × UnaryOp) :=
  [("+", plus), ("-", minus), ("!", not), ("*", prefer), ("<", below), ("<=", atMost), (">", above),
    (">=", atLeast), ("!=", differs), ("=~", like), ("!~", unlike)]

end UnaryOp

namespace BinaryOp

/-- The operators by their marks, with how tightly they bind. -/
def table : List (String × BinaryOp × Nat) :=
  [("|", either, 1), ("&", both, 2), ("||", or, 3), ("&&", and, 4), ("==", equal, 5),
    ("!=", differs, 5), ("<", below, 5), ("<=", atMost, 5), (">", above, 5),
    (">=", atLeast, 5), ("=~", like, 5),
    ("!~", unlike, 5), ("+", add, 6), ("-", subtract, 6), ("*", multiply, 7), ("/", divide, 7)]

/-- The operators that are names. -/
def named : List (String × BinaryOp) := [("div", div), ("mod", mod), ("quo", quo), ("rem", rem)]

end BinaryOp

mutual

/-- An expression. -/
inductive Expr where
  | atom (a : Atom)
  /-- Any value. -/
  | anything
  /-- No value. -/
  | nothing
  | name (s : String)
  | record (decls : List Decl)
  /-- A list; one with a rest may go on with values that satisfy it. -/
  | list (items : List Expr) (rest : Option Expr)
  | unary (op : UnaryOp) (e : Expr)
  | binary (op : BinaryOp) (a b : Expr)
  /-- One of several values, with the preferred ones marked. -/
  | choice (options : List (Bool × Expr))
  | select (e : Expr) (label : Label)
  | index (e i : Expr)
  | slice (e : Expr)
  | call (f : Expr) (args : List Expr)
  /-- Text with expressions in it. -/
  | template (bytes : Bool) (parts : List Expr)
  /-- An expression with a local name for its value. -/
  | named (s : String) (e : Expr)
  | paren (e : Expr)
  /-- A record for each way to satisfy the clauses. -/
  | each (clauses : List Clause) (body : List Decl)

/-- A declaration of a record. -/
inductive Decl where
  | field (label : Label) (handle : Option String) (presence : Presence) (value : Expr)
  /-- A field whose name is computed. -/
  | computed (label : Expr) (handle : Option String) (presence : Presence) (value : Expr)
  /-- What holds of all fields whose name satisfies an expression. -/
  | pattern (binder : Option String) (label : Expr) (value : Expr)
  /-- A value that the record also is. -/
  | embed (e : Expr)
  | bind (s : String) (e : Expr)
  /-- The record may have further fields. -/
  | further

/-- A clause of a comprehension. -/
inductive Clause where
  | forEach (key : Option String) (value : String) (source : Expr)
  | provided (condition : Expr)
  | bind (s : String) (e : Expr)

end

deriving instance Inhabited for Expr
deriving instance Inhabited for Decl
deriving instance Inhabited for Clause

end CircuitCompiler.Notation
