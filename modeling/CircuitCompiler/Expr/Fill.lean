import CircuitCompiler.Expr.Arena
import CircuitCompiler.Expr.Parse

/-!
# Reading expressions into tables

The grammar of expressions once more, with an arena that is filled on the way: a step allocates a
node as soon as all nodes below it are there, and goes on with its number. The place of a node is
made from the places of the nodes below it, which are looked up in the arena, and so is the name of
the vector that bits are taken of.
-/

namespace CircuitCompiler

/-- A step of the grammar that fills an arena. -/
abbrev Fill (α : Type) : Type := StateT Arena Parse α

namespace Fill

/-- Allocates a node. -/
def allocate (span : Span) (c : Content) : Fill Nat := fun a => Parse.succeed (a.new span c)

/-- What is looked up in the arena; the grammar never looks up what is not there. -/
def look {α : Type} (find? : Arena → Option α) : Fill α := fun a =>
  match find? a with
  | some x => Parse.succeed (x, a)
  | none => fun r => Parse.fail .parseFailed r.last r

/-- The place of a node. -/
def spanOf (id : Nat) : Fill Span := look (·.span? id)

/-- The path that a node is, as it is written. -/
def nameOf (id : Nat) : Fill String := look (·.pathText id)

/-- Runs a step in a scope. -/
def withScope {α : Type} (scope : Scope) (p : Fill α) : Fill α := fun a =>
  Parse.withScope scope (p a)

/-- Where a bound on rounds is used up; the bounds are never reached. -/
def outOfTokens {α : Type} : Fill α := fun _ r => Parse.fail .parseFailed r.last r

/-- Allocates a node for two parts with an operator between them. -/
def join (op : Operator) (left right : Nat) : Fill Nat := do
  let front ← spanOf left
  let back ← spanOf right
  allocate (front.cover back) (.binary (.operator op) left right)

/-- The rounds of `leftAssoc` behind a left operand; the tokens left bound their number. -/
def leftRounds (next : Fill Nat) (op? : Kind → Option Operator) : Nat → Nat → Fill Nat
  | 0, _ => outOfTokens
  | fuel + 1, left => do
    match op? (← Parse.peek).kind with
    | none => return left
    | some op =>
      let _ ← Parse.advance
      let right ← next
      let both ← join op left right
      leftRounds next op? fuel both

/-- Operands joined by the operators of one level, grouped to the left. -/
def leftAssoc (next : Fill Nat) (op? : Kind → Option Operator) : Fill Nat := do
  let left ← next
  let n ← Parse.remaining
  leftRounds next op? (n + 1) left

/-- The names of a path, each joined to the path behind it; the tokens left bound their number. -/
def segments : Nat → Fill Nat
  | 0 => outOfTokens
  | fuel + 1 => do
    let t ← Parse.expect .ident .identifier
    let left ← allocate t.span (.ident t.name)
    if ← Parse.isAt (.symbol .dot) then
      let _ ← Parse.advance
      let right ← segments fuel
      let back ← spanOf right
      allocate (t.span.cover back) (.binary (.joint .member) left right)
    else return left

/-- A name or a dotted path. -/
def path : Fill Nat := do
  let n ← Parse.remaining
  segments (n + 1)

/-- The bounds between the brackets of a bit selection; a single index is both. -/
def bounds (expr : Fill Nat) : Fill (Nat × Nat) := do
  let _ ← Parse.advance
  let high ← expr
  if ← Parse.isAt (.symbol .rangeSep) then
    let _ ← Parse.advance
    let low ← expr
    return (high, low)
  else return (high, high)

/-- A bit selection behind its target, which must be a declared vector. -/
def splice (expr : Fill Nat) (target : Nat) : Fill Nat := do
  let name ← nameOf target
  if ← Parse.isVector name then
    let (high, low) ← withScope .index (bounds expr)
    let close ← Parse.expect (.symbol .rbracket) .closeSplice
    let front ← spanOf target
    allocate (front.cover close.span) (.splice target high low)
  else
    let place ← spanOf target
    Parse.fail (.notAVector name) place

/-- A path with an optional bit selection. -/
def reference (expr : Fill Nat) : Fill Nat := do
  let target ← path
  if ← Parse.isAt (.symbol .lbracket) then splice expr target
  else return target

/-- An expression in parentheses. -/
def parenthesized (expr : Fill Nat) : Fill Nat := do
  let opening ← Parse.advance
  let inner ← expr
  let close ← Parse.expect (.symbol .rparen) .closeParen
  allocate (opening.span.cover close.span) (.unary .paren inner)

/-- A constant, an expression in parentheses or a reference. -/
def atom (expr : Fill Nat) : Fill Nat := do
  let t ← Parse.peek
  match t.kind.constForm? with
  | some form =>
    let _ ← Parse.advance
    allocate t.span (.const ⟨form, t.name⟩)
  | none =>
    if t.kind = .symbol .lparen then withScope .general (parenthesized expr)
    else if t.kind = .ident then reference expr
    else Parse.unexpected .expression

/-- Powers of atoms. -/
def power (expr : Fill Nat) : Fill Nat := leftAssoc (atom expr) Kind.powerOp?

/-- An operand behind an operator that is next. -/
def behindUnary (op : UnaryOperator) (operand : Fill Nat) : Fill Nat := do
  let t ← Parse.advance
  let e ← operand
  let back ← spanOf e
  allocate (t.span.cover back) (.unary op e)

/-- A power with an optional sign or negation. -/
def factor (expr : Fill Nat) : Fill Nat := do
  let t ← Parse.peek
  if t.kind = .symbol .minus then behindUnary .neg (power expr)
  else if t.kind = .keyword .not then behindUnary .not (power expr)
  else power expr

/-- Products of factors. -/
def product (expr : Fill Nat) : Fill Nat := leftAssoc (factor expr) Kind.productOp?

/-- Sums of products. -/
def sum (expr : Fill Nat) : Fill Nat := leftAssoc (product expr) Kind.sumOp?

/-- A truth value, or a sum that may be compared with another. -/
def comparison (expr : Fill Nat) : Fill Nat := do
  let t ← Parse.peek
  if t.kind = .keyword .trueWord ∨ t.kind = .keyword .falseWord then
    let _ ← Parse.advance
    allocate t.span (.const ⟨.bool, t.name⟩)
  else
    let left ← sum expr
    match Kind.relationOp? (← Parse.peek).kind with
    | none => return left
    | some op =>
      let _ ← Parse.advance
      let right ← sum expr
      join op left right

/-- A comparison, for which `<=` compares; inside an index the scope stays. -/
def relation (expr : Fill Nat) : Fill Nat := do
  if (← Parse.currentScope) = .index then comparison expr
  else withScope .relational (comparison expr)

/-- A relation with an optional negation in front. -/
def boolFactor (expr : Fill Nat) : Fill Nat := do
  let t ← Parse.peek
  if t.kind = .symbol .bang then behindUnary .bang (relation expr)
  else if t.kind = .keyword .not then behindUnary .not (relation expr)
  else relation expr

/-- Relations joined by boolean operators. -/
def boolExpr (expr : Fill Nat) : Fill Nat := leftAssoc (boolFactor expr) Kind.boolOp?

/-- A boolean expression that may choose between two expressions. -/
def choice (expr : Fill Nat) : Fill Nat := do
  let cond ← boolExpr expr
  if ← Parse.isAt (.symbol .question) then
    let _ ← Parse.advance
    let yes ← expr
    let _ ← Parse.expect (.symbol .colon) .choiceColon
    let no ← expr
    let front ← spanOf cond
    let back ← spanOf no
    allocate (front.cover back) (.ternary cond yes no)
  else return cond

/-- Expressions that nest at most to a depth. -/
def expressionUpTo : Nat → Fill Nat
  | 0 => outOfTokens
  | depth + 1 => choice (expressionUpTo depth)

/-- A whole expression; the tokens left bound how deep it nests. -/
def expression : Fill Nat := do
  let n ← Parse.remaining
  expressionUpTo (n + 1)

/-- An expression that takes all tokens. -/
def wholeExpression : Fill Nat := do
  let e ← expression
  let _ ← Parse.expect .eof .endOfExpression
  return e

end Fill

/-- Reads a whole range of a file as one expression into an empty arena; bits may be taken of the
given vectors. -/
def Arena.parse (c : Cursor) (widths : Widths) : Except CompileError (Nat × Arena) × Reading :=
  Fill.wholeExpression {} { Reading.ofStream (.ofCursor c) c.point none with widths }

end CircuitCompiler
