import CircuitCompiler.Expr.Basic
import CircuitCompiler.Token.Parse

/-!
# The grammar of expressions

```text
expression := boolexpr ('?' expression ':' expression)?
boolexpr   := boolfactor (('&' | '|' | '^') boolfactor)*
boolfactor := ('!' | 'not')? relation
relation   := 'true' | 'false' | sum (relop sum)?
sum        := product (('+' | '-' | 'or' | 'nor') product)*
product    := factor (('*' | '/' | '%' | 'and' | 'nand' | 'xor' | 'xnor') factor)*
factor     := ('-' | 'not')? power
power      := atom ('**' atom)*
atom       := constant | '(' expression ')' | path ('[' expression (':' expression)? ']')?
```

Each level is a parser of its own over the parser of whole expressions, which it calls only behind a
token it has taken; so the tokens left bound how deep expressions nest. Inside a relation `<=`
compares, and inside an index `:` parts the bounds; parentheses return to the general scope.
-/

namespace CircuitCompiler

namespace Kind

/-- The operators of the boolean level. -/
def boolOp? : Kind → Option Operator
  | symbol .amp => some .boolAnd
  | symbol .pipe => some .boolOr
  | symbol .caret => some .boolXor
  | _ => none

/-- The operators of the relation level. -/
def relationOp? : Kind → Option Operator
  | symbol .lt => some .lt
  | symbol .gt => some .gt
  | symbol .ltEq => some .le
  | symbol .gtEq => some .ge
  | symbol .eqEq => some .eq
  | symbol .bangEq => some .ne
  | _ => none

/-- The operators of the sum level. -/
def sumOp? : Kind → Option Operator
  | symbol .plus => some .add
  | symbol .minus => some .sub
  | keyword .or => some .wordOr
  | keyword .nor => some .wordNor
  | _ => none

/-- The operators of the product level. -/
def productOp? : Kind → Option Operator
  | symbol .star => some .mul
  | symbol .slash => some .div
  | symbol .percent => some .mod
  | keyword .and => some .wordAnd
  | keyword .nand => some .wordNand
  | keyword .xor => some .wordXor
  | keyword .xnor => some .wordXnor
  | _ => none

/-- The operator of the power level. -/
def powerOp? : Kind → Option Operator
  | symbol .starStar => some .pow
  | _ => none

/-- The form of the constant a kind stands for. -/
def constForm? : Kind → Option ConstForm
  | literal .int => some .int
  | literal .hexInt => some .hexInt
  | literal .binInt => some .binInt
  | literal .binVec => some .binVec
  | literal .hexVec => some .hexVec
  | keyword .trueWord | keyword .falseWord => some .bool
  | _ => none

end Kind

namespace Parse

/-- The rounds of `leftAssoc` behind a left operand; the tokens left bound their number. -/
def leftRounds (next : Parse Expr) (op? : Kind → Option Operator) : Nat → Expr → Parse Expr
  | 0, _ => fun r => fail .parseFailed r.last r
  | fuel + 1, left => do
    match op? (← peek).kind with
    | none => succeed left
    | some op =>
      let _ ← advance
      let right ← next
      leftRounds next op? fuel (.binary (left.span.cover right.span) op left right)

/-- Operands joined by the operators of one level, grouped to the left. -/
def leftAssoc (next : Parse Expr) (op? : Kind → Option Operator) : Parse Expr := do
  let left ← next
  let n ← remaining
  leftRounds next op? (n + 1) left

/-- The segments of a path; the tokens left bound their number. -/
def segments : Nat → Parse Path
  | 0 => fun r => fail .parseFailed r.last r
  | fuel + 1 => do
    let t ← expect .ident .identifier
    let head : Segment := ⟨t.name, t.span⟩
    if ← isAt (.symbol .dot) then
      let _ ← advance
      let rest ← segments fuel
      succeed ⟨head, rest.segments⟩
    else succeed ⟨head, []⟩

/-- A name or a dotted path. -/
def path : Parse Path := do
  let n ← remaining
  segments (n + 1)

/-- The bounds between the brackets of a bit selection. -/
def bounds (expr : Parse Expr) : Parse (Expr × Option Expr) := do
  let _ ← advance
  let high ← expr
  if ← isAt (.symbol .rangeSep) then
    let _ ← advance
    let low ← expr
    succeed (high, some low)
  else succeed (high, none)

/-- A bit selection behind its target, which must be a declared vector. -/
def splice (expr : Parse Expr) (target : Path) : Parse Expr := do
  if ← isVector target.text then
    let (high, low?) ← withScope .index (bounds expr)
    let close ← expect (.symbol .rbracket) .closeSplice
    let span := target.span.cover close.span
    match low? with
    | none => succeed (.index span target high)
    | some low => succeed (.range span target high low)
  else fail (.notAVector target.text) target.span

/-- A path with an optional bit selection. -/
def reference (expr : Parse Expr) : Parse Expr := do
  let target ← path
  if ← isAt (.symbol .lbracket) then splice expr target
  else succeed (.ref target)

/-- An expression in parentheses. -/
def parenthesized (expr : Parse Expr) : Parse Expr := do
  let opening ← advance
  let inner ← expr
  let close ← expect (.symbol .rparen) .closeParen
  succeed (.unary (opening.span.cover close.span) .paren inner)

/-- A constant, an expression in parentheses or a reference. -/
def atom (expr : Parse Expr) : Parse Expr := do
  let t ← peek
  match t.kind.constForm? with
  | some form =>
    let _ ← advance
    succeed (.const t.span ⟨form, t.name⟩)
  | none =>
    if t.kind = .symbol .lparen then withScope .general (parenthesized expr)
    else if t.kind = .ident then reference expr
    else unexpected .expression

/-- Powers of atoms. -/
def power (expr : Parse Expr) : Parse Expr := leftAssoc (atom expr) Kind.powerOp?

/-- An operand behind an operator that is next. -/
def behindUnary (op : UnaryOperator) (operand : Parse Expr) : Parse Expr := do
  let t ← advance
  let e ← operand
  succeed (.unary (t.span.cover e.span) op e)

/-- A power with an optional sign or negation. -/
def factor (expr : Parse Expr) : Parse Expr := do
  match (← peek).kind with
  | .symbol .minus => behindUnary .neg (power expr)
  | .keyword .not => behindUnary .not (power expr)
  | _ => power expr

/-- Products of factors. -/
def product (expr : Parse Expr) : Parse Expr := leftAssoc (factor expr) Kind.productOp?

/-- Sums of products. -/
def sum (expr : Parse Expr) : Parse Expr := leftAssoc (product expr) Kind.sumOp?

/-- A truth value, or a sum that may be compared with another. -/
def comparison (expr : Parse Expr) : Parse Expr := do
  let t ← peek
  if t.kind = .keyword .trueWord ∨ t.kind = .keyword .falseWord then
    let _ ← advance
    succeed (.const t.span ⟨.bool, t.name⟩)
  else
    let left ← sum expr
    match Kind.relationOp? (← peek).kind with
    | none => succeed left
    | some op =>
      let _ ← advance
      let right ← sum expr
      succeed (.binary (left.span.cover right.span) op left right)

/-- A comparison, for which `<=` compares; inside an index the scope stays. -/
def relation (expr : Parse Expr) : Parse Expr := do
  if (← currentScope) = .index then comparison expr
  else withScope .relational (comparison expr)

/-- A relation with an optional negation in front. -/
def boolFactor (expr : Parse Expr) : Parse Expr := do
  match (← peek).kind with
  | .symbol .bang => behindUnary .bang (relation expr)
  | .keyword .not => behindUnary .not (relation expr)
  | _ => relation expr

/-- Relations joined by boolean operators. -/
def boolExpr (expr : Parse Expr) : Parse Expr := leftAssoc (boolFactor expr) Kind.boolOp?

/-- A boolean expression that may choose between two expressions. -/
def choice (expr : Parse Expr) : Parse Expr := do
  let cond ← boolExpr expr
  if ← isAt (.symbol .question) then
    let _ ← advance
    let yes ← expr
    let _ ← expect (.symbol .colon) .choiceColon
    let no ← expr
    succeed (.choice (cond.span.cover no.span) cond yes no)
  else succeed cond

/-- Expressions that nest at most to a depth. -/
def expressionUpTo : Nat → Parse Expr
  | 0 => fun r => fail .parseFailed r.last r
  | depth + 1 => choice (expressionUpTo depth)

/-- A whole expression; the tokens left bound how deep it nests. -/
def expression : Parse Expr := do
  let n ← remaining
  expressionUpTo (n + 1)

/-- A path with an optional bit selection, as the target of an assignment. -/
def target : Parse Expr := reference expression

/-- An expression that takes all tokens. -/
def wholeExpression : Parse Expr := do
  let e ← expression
  let _ ← expect .eof .endOfExpression
  succeed e

end Parse

/-- Reads a whole range of a file as one expression; bits may be taken of the given vectors. -/
def Expr.parse (c : Cursor) (widths : Widths) : Except CompileError Expr × Reading :=
  Parse.wholeExpression { Reading.ofStream (.ofCursor c) c.point none with widths }

end CircuitCompiler
