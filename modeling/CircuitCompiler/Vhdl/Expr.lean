import CircuitCompiler.Expr.Basic

/-!
# Expressions in VHDL

The VHDL text of an expression. Operators keep their order and no parentheses are added; where both
bounds of a range are the same text, the range is a single bit.
-/

namespace CircuitCompiler

/-- The VHDL spelling of an operator. -/
def Operator.vhdl : Operator → String
  | .mod => "mod"
  | .boolAnd => "and"
  | .boolOr => "or"
  | .boolXor => "xor"
  | .eq => "="
  | .ne => "/="
  | op => op.spelling

/-- The VHDL text of a constant; integers with a radix mark use based notation. -/
def Constant.vhdl (c : Constant) : String :=
  match c.form with
  | .hexInt => "16#" ++ c.digits ++ "#"
  | .binInt => "2#" ++ c.digits ++ "#"
  | _ => c.text

/-- The VHDL text of a unary operator around an operand. -/
def UnaryOperator.vhdl : UnaryOperator → String → String
  | .paren, operand => "(" ++ operand ++ ")"
  | .bang, operand | .not, operand => "not " ++ operand
  | .neg, operand => "- " ++ operand

/-- The VHDL text of an expression. -/
def Expr.vhdl : Expr → String
  | .ref path => path.text
  | .const _ value => value.vhdl
  | .binary _ op left right => left.vhdl ++ " " ++ op.vhdl ++ " " ++ right.vhdl
  | .unary _ op operand => op.vhdl operand.vhdl
  | .choice _ cond yes no =>
    "(" ++ yes.vhdl ++ ") when (" ++ cond.vhdl ++ ") else (" ++ no.vhdl ++ ")"
  | .index _ target bit => target.text ++ "(" ++ bit.vhdl ++ ")"
  | .range _ target high low =>
    if low.vhdl == high.vhdl then target.text ++ "(" ++ high.vhdl ++ ")"
    else target.text ++ "(" ++ high.vhdl ++ " downto " ++ low.vhdl ++ ")"

end CircuitCompiler
