import CircuitCompiler.Notation.Expr
import CircuitCompiler.Notation.Pattern

/-!
# Constraints on values without parts

A constraint is a set of kinds with bounds, or a single value. Two constraints meet in the one that
both allow; where there is none, they contradict each other. The operators work on single values; an
operator that has no result for its operands gives none.
-/

namespace CircuitCompiler.Notation

/-- The kinds of values. -/
inductive Kind where
  | null
  | bool
  | whole
  | fraction
  | text
  | bytes
  | list
  | record
  deriving DecidableEq, Repr, Inhabited

/-- All kinds. -/
def Kind.all : List Kind := [.null, .bool, .whole, .fraction, .text, .bytes, .list, .record]

/-- The kinds of numbers. -/
def Kind.numbers : List Kind := [.whole, .fraction]

namespace Atom

/-- The kind of a value. -/
def kind : Atom → Kind
  | null => .null
  | bool _ => .bool
  | number n => if n.whole then .whole else .fraction
  | string _ => .text
  | bytes _ => .bytes

/-- Whether two values are of one kind and equal. -/
def same (a b : Atom) : Bool :=
  match a, b with
  | number m, number n => m.whole == n.whole && m.same n
  | _, _ => a == b

/-- Whether a value is below another of its kind; none if the kind has no order. -/
def less? : Atom → Atom → Option Bool
  | number m, number n => some (m.less n)
  | string a, string b | bytes a, bytes b => some (Bytes.le a b && a != b)
  | _, _ => none

/-- Whether two values are equal; none if they cannot be compared. -/
def equal? : Atom → Atom → Option Bool
  | null, null => some true
  | null, _ | _, null => some false
  | bool a, bool b => some (a == b)
  | number m, number n => some (m.same n)
  | string a, string b | bytes a, bytes b => some (a == b)
  | _, _ => none

/-- Whether a text has a match of the pattern that another text is. -/
def like? : Atom → Atom → Option Bool
  | string a, string p | string a, bytes p | bytes a, string p | bytes a, bytes p =>
    (Pattern.parse? p.text).map (·.isIn a.text)
  | _, _ => none

end Atom

/-! ## Bounds -/

/-- A bound: how a value compares with another. -/
structure Bound where
  op : UnaryOp
  value : Atom
  deriving DecidableEq, Repr, Inhabited

namespace Bound

/-- Whether a value is within a bound. -/
def allows (b : Bound) (a : Atom) : Bool :=
  match b.op with
  | .below => a.less? b.value == some true
  | .atMost => b.value.less? a == some false
  | .above => b.value.less? a == some true
  | .atLeast => a.less? b.value == some false
  | .differs => a.equal? b.value != some true
  | .like => a.like? b.value == some true
  | .unlike => a.like? b.value == some false
  | _ => false

/-- The kinds of values that a bound speaks of; none if there is no such bound. -/
def kinds? (b : Bound) : Option (List Kind) :=
  match b.op, b.value with
  | .differs, .null => some (Kind.all.filter (· != .null))
  | .differs, .number _ => some Kind.numbers
  | .differs, a => some [a.kind]
  | .like, .string p | .unlike, .string p => (Pattern.parse? p.text).map fun _ => [.text]
  | .like, .bytes p | .unlike, .bytes p => (Pattern.parse? p.text).map fun _ => [.bytes]
  | .like, _ | .unlike, _ => none
  | _, .number _ => some Kind.numbers
  | _, .string _ => some [.text]
  | _, .bytes _ => some [.bytes]
  | _, _ => none

/-- Whether a bound is from below and a second one from above with nothing between them. -/
def excludes (a b : Bound) : Bool :=
  match a.op, b.op with
  | .atLeast, .atMost => b.value.less? a.value == some true
  | .atLeast, .below | .above, .atMost | .above, .below => a.value.less? b.value == some false
  | _, _ => false

end Bound

/-! ## Constraints -/

/-- A constraint on values. -/
structure Constraint where
  kinds : List Kind := Kind.all
  bounds : List Bound := []
  /-- The only value, if there is one. -/
  atom : Option Atom := none
  deriving DecidableEq, Repr, Inhabited

namespace Constraint

/-- No constraint. -/
def any : Constraint := {}

/-- A single value. -/
def only (a : Atom) : Constraint := { kinds := [a.kind], atom := some a }

/-- A bound; none if there is no such bound. -/
def ofBound? (b : Bound) : Option Constraint :=
  b.kinds?.map fun ks => { kinds := ks, bounds := [b] }

/-- Whether a value satisfies a constraint. -/
def allows (c : Constraint) (a : Atom) : Bool :=
  c.kinds.contains a.kind && c.bounds.all (·.allows a) && c.atom.all (·.same a)

/-- What two constraints both allow; none if they contradict each other. -/
def meet? (c d : Constraint) : Option Constraint :=
  match c.atom, d.atom with
  | some a, _ => if d.allows a then some (only a) else none
  | none, some a => if c.allows a then some (only a) else none
  | none, none =>
    let kinds := c.kinds.filter d.kinds.contains
    let bounds := c.bounds ++ d.bounds
    if kinds.isEmpty || bounds.any fun a => bounds.any a.excludes then none
    else some { kinds := kinds, bounds := bounds }

/-- Whole numbers between two. -/
def between (low high : Int) : Constraint :=
  { kinds := [.whole],
    bounds := [⟨.atLeast, .number { digits := low }⟩, ⟨.atMost, .number { digits := high }⟩] }

/-- Whole numbers of so many bits. -/
def bits (n : Nat) (signed : Bool) : Constraint :=
  if signed then between (-(Nat.pow 2 (n - 1) : Int)) (Nat.pow 2 (n - 1) - 1)
  else between 0 (Nat.pow 2 n - 1)

/-- The kinds of values that have names. -/
def named : List (String × Constraint) :=
  [("_", any), ("string", { kinds := [.text] }), ("bytes", { kinds := [.bytes] }),
    ("bool", { kinds := [.bool] }), ("int", { kinds := [.whole] }),
    ("float", { kinds := [.fraction] }), ("number", { kinds := Kind.numbers }),
    ("uint", { kinds := [.whole], bounds := [⟨.atLeast, .number { digits := 0 }⟩] }),
    ("rune", between 0 0x10FFFF), ("uint8", bits 8 false), ("int8", bits 8 true),
    ("uint16", bits 16 false), ("int16", bits 16 true), ("uint32", bits 32 false),
    ("int32", bits 32 true), ("uint64", bits 64 false), ("int64", bits 64 true),
    ("uint128", bits 128 false), ("int128", bits 128 true),
    ("float32", { kinds := Kind.numbers }), ("float64", { kinds := Kind.numbers })]

end Constraint

/-! ## Operators -/

/-- The result of an operator with one operand. -/
def UnaryOp.result? (op : UnaryOp) (a : Atom) : Option Atom :=
  match op, a with
  | .plus, .number n => some (.number n)
  | .minus, .number n => some (.number n.negated)
  | .not, .bool b => some (.bool !b)
  | _, _ => none

namespace BinaryOp

/-- The result of an operator on two numbers. -/
def ofNumbers? (op : BinaryOp) (m n : Number) : Option Number :=
  match op with
  | .add => some (m.combine 1 n)
  | .subtract => some (m.combine (-1) n)
  | .multiply => some (m.times n)
  | .divide => m.quotient? n
  | _ => do
    let a ← if m.whole then m.integer? else none
    let b ← if n.whole then n.integer? else none
    if b == 0 then none
    else match op with
      | .div => some { digits := a / b }
      | .mod => some { digits := a % b }
      | .quo => some { digits := Int.tdiv a b }
      | .rem => some { digits := Int.tmod a b }
      | _ => none

/-- The longest text that repetition makes. -/
def longestRepetition : Nat := 1000000

/-- Text repeated a number of times. -/
def repeated? (b : Bytes) (n : Number) : Option Bytes := do
  let times ← if n.whole then n.integer? else none
  if times < 0 || longestRepetition < times.toNat * b.length then none
  else some (List.replicate times.toNat b).flatten

/-- The result of an operator with two operands. -/
def result? (op : BinaryOp) (a b : Atom) : Option Atom :=
  match op with
  | .equal => (a.equal? b).map .bool
  | .differs => (a.equal? b).map fun e => .bool !e
  | .below => (a.less? b).map .bool
  | .atMost => (b.less? a).map fun l => .bool !l
  | .above => (b.less? a).map .bool
  | .atLeast => (a.less? b).map fun l => .bool !l
  | .like => (a.like? b).map .bool
  | .unlike => (a.like? b).map fun l => .bool !l
  | .and => match a, b with
    | .bool a, .bool b => some (.bool (a && b))
    | _, _ => none
  | .or => match a, b with
    | .bool a, .bool b => some (.bool (a || b))
    | _, _ => none
  | _ => match op, a, b with
    | _, .number m, .number n => (ofNumbers? op m n).map .number
    | .add, .string a, .string b => some (.string (a ++ b))
    | .add, .bytes a, .bytes b => some (.bytes (a ++ b))
    | .multiply, .string b, .number n | .multiply, .number n, .string b =>
      (repeated? b n).map .string
    | .multiply, .bytes b, .number n | .multiply, .number n, .bytes b => (repeated? b n).map .bytes
    | _, _, _ => none

end BinaryOp
end CircuitCompiler.Notation
