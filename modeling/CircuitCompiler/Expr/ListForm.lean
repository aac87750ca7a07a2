import CircuitCompiler.Expr.Basic

/-!
# Parenthesized list form

An expression with every operator in front of its operands and every node in parentheses, such as
`(+ 2 (* 3 4))`. The form shows how operators group.
-/

namespace CircuitCompiler

namespace Expr

/-- The list form of an expression. -/
def listForm : Expr → String
  | ref path => path.text
  | const _ value => value.text
  | binary _ op left right =>
    "(" ++ op.spelling ++ " " ++ left.listForm ++ " " ++ right.listForm ++ ")"
  | unary _ .paren operand => "(paren " ++ operand.listForm ++ ")"
  | unary _ op operand => "(" ++ op.spelling ++ " " ++ operand.listForm ++ ")"
  | choice _ cond yes no =>
    "(? " ++ cond.listForm ++ " " ++ yes.listForm ++ " " ++ no.listForm ++ ")"
  | index _ target bit => "(splice " ++ target.text ++ " " ++ bit.listForm ++ ")"
  | range _ target high low =>
    "(splice " ++ target.text ++ " " ++ high.listForm ++ " " ++ low.listForm ++ ")"

end Expr

/-- The list form of two parts under a joint. -/
def Joint.listForm (j : Joint) (left right : String) : String :=
  "(" ++ j.spelling ++ " " ++ left ++ " " ++ right ++ ")"

end CircuitCompiler
