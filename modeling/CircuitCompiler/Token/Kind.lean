import CircuitCompiler.Language

/-!
# Token kinds

A token is an identifier, a reserved word, a literal or a symbol; the end of the source and a
lexical error have kinds of their own. The lexemes `<=` and `:` have two kinds each, and
`Kind.inScope` says which of them a scope selects.
-/

namespace CircuitCompiler

/-- The reserved words. -/
inductive Keyword where
  | component
  | port
  | arch
  | generate
  | process
  | connect
  | signal
  | variableWord
  | const
  | new
  | ifWord
  | elseWord
  | forWord
  | whileWord
  | input
  | output
  | int
  | uint
  | vec
  | bool
  | trueWord
  | falseWord
  | and
  | or
  | not
  | nand
  | nor
  | xor
  | xnor
  | implementation
  | verification
  deriving DecidableEq, Repr, Inhabited

namespace Keyword

/-- The spelling of a reserved word. -/
def spelling : Keyword → String
  | component => "component"
  | port => "port"
  | arch => "arch"
  | generate => "generate"
  | process => "process"
  | connect => "connect"
  | signal => "signal"
  | variableWord => "variable"
  | const => "const"
  | new => "new"
  | ifWord => "if"
  | elseWord => "else"
  | forWord => "for"
  | whileWord => "while"
  | input => "input"
  | output => "output"
  | int => "int"
  | uint => "uint"
  | vec => "vec"
  | bool => "bool"
  | trueWord => "true"
  | falseWord => "false"
  | and => "and"
  | or => "or"
  | not => "not"
  | nand => "nand"
  | nor => "nor"
  | xor => "xor"
  | xnor => "xnor"
  | implementation => "implementation"
  | verification => "verification"

/-- All reserved words. -/
def all : List Keyword := [
  component, port, arch, generate, process, connect, signal, variableWord, const, new, ifWord,
  elseWord, forWord, whileWord, input, output, int, uint, vec, bool, trueWord, falseWord, and,
  or, not, nand, nor, xor, xnor, implementation, verification]

/-- The reserved word with a spelling; the case of letters matters. -/
def ofSpelling? (s : String) : Option Keyword := all.find? fun w => w.spelling == s

end Keyword

/-- The forms of number and vector literals. -/
inductive LiteralForm where
  | int
  | hexInt
  | binInt
  | binVec
  | hexVec
  deriving DecidableEq, Repr, Inhabited

/-- The name of a literal form. -/
def LiteralForm.name : LiteralForm → String
  | int => "IntLit"
  | hexInt => "HexIntLit"
  | binInt => "BinIntLit"
  | binVec => "BinVecLit"
  | hexVec => "HexVecLit"

/-- Operators and punctuation. -/
inductive Symbol where
  | plus
  | minus
  | star
  | starStar
  | slash
  | percent
  | question
  /-- `:` outside an index. -/
  | colon
  /-- `:` inside an index. -/
  | rangeSep
  | amp
  | pipe
  | caret
  | bang
  | lt
  | gt
  /-- `<=` inside a comparison. -/
  | ltEq
  /-- `<=` outside a comparison. -/
  | sigAssign
  | gtEq
  | eqEq
  | bangEq
  | assign
  | lparen
  | rparen
  | lbrace
  | rbrace
  | lbracket
  | rbracket
  | comma
  | dot
  | semicolon
  deriving DecidableEq, Repr, Inhabited

/-- The name of a symbol: its spelling, except where one spelling has two kinds. -/
def Symbol.name : Symbol → String
  | plus => "+"
  | minus => "-"
  | star => "*"
  | starStar => "**"
  | slash => "/"
  | percent => "%"
  | question => "?"
  | colon => "Colon"
  | rangeSep => "RangeSep"
  | amp => "&"
  | pipe => "|"
  | caret => "^"
  | bang => "!"
  | lt => "<"
  | gt => ">"
  | ltEq => "LtEq"
  | sigAssign => "SigAssign"
  | gtEq => ">="
  | eqEq => "=="
  | bangEq => "!="
  | assign => "="
  | lparen => "("
  | rparen => ")"
  | lbrace => "\x7b"
  | rbrace => "\x7d"
  | lbracket => "["
  | rbracket => "]"
  | comma => ","
  | dot => "."
  | semicolon => ";"

/-- All symbols. -/
def Symbol.all : List Symbol := [
  plus, minus, star, starStar, slash, percent, question, colon, rangeSep, amp, pipe, caret, bang,
  lt, gt, ltEq, sigAssign, gtEq, eqEq, bangEq, assign, lparen, rparen, lbrace, rbrace, lbracket,
  rbracket, comma, dot, semicolon]

/-- The category of a token. -/
inductive Kind where
  /-- A lexical error. -/
  | invalid
  /-- The end of the source. -/
  | eof
  | ident
  | keyword (w : Keyword)
  | literal (f : LiteralForm)
  | symbol (s : Symbol)
  deriving DecidableEq, Repr, Inhabited

namespace Kind

/-- The name of a kind. -/
def name : Kind → String
  | invalid => "Invalid"
  | eof => "EOF"
  | ident => "Ident"
  | keyword w => w.spelling
  | literal f => f.name
  | symbol s => s.name

/-- All kinds in the order of their numbers. -/
def all : List Kind :=
  [invalid, eof, ident] ++ Keyword.all.map keyword ++
    [LiteralForm.int, .hexInt, .binInt, .binVec, .hexVec].map literal ++ Symbol.all.map symbol

/-- The number of a kind. -/
def number (k : Kind) : Nat := all.idxOf k

/-- Whether the kind is a constant: a number, a vector or a truth value. -/
def isLiteral : Kind → Bool
  | literal _ => true
  | keyword w => w == .trueWord || w == .falseWord
  | _ => false

/-- The type a kind names. -/
def dataType? : Kind → Option DataType
  | keyword .int => some .int
  | keyword .uint => some .uint
  | keyword .vec => some .vec
  | keyword .bool => some .bool
  | _ => none

/-- The port direction a kind names. -/
def direction? : Kind → Option Direction
  | keyword .input => some .input
  | keyword .output => some .output
  | _ => none

/-- Whether the kind is a reserved word. -/
def isKeyword : Kind → Bool
  | keyword _ => true
  | _ => false

/-- The kind that a scope selects for the same lexeme. -/
def inScope (scope : Scope) : Kind → Kind
  | symbol .ltEq | symbol .sigAssign => symbol (if scope = .relational then .ltEq else .sigAssign)
  | symbol .colon | symbol .rangeSep => symbol (if scope = .index then .rangeSep else .colon)
  | k => k

/-- Whether the kind of the lexeme depends on the scope. -/
def isScoped : Kind → Bool
  | symbol .ltEq | symbol .sigAssign | symbol .colon | symbol .rangeSep => true
  | _ => false

end Kind
end CircuitCompiler
