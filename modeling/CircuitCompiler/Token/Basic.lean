import CircuitCompiler.Diagnostic.Error
import CircuitCompiler.Token.Kind

/-!
# Tokens

A token is a lexeme with its place, and with the white space and comments before it. Its text is the
source under its span; its value is what a literal stands for, that is its digits without radix mark
and quotes, and for every other token the text again.
-/

namespace CircuitCompiler

/-- What can stand between tokens. -/
inductive TriviaKind where
  | space
  | newline
  | lineComment
  | blockComment
  deriving DecidableEq, Repr, Inhabited

/-- The name of a kind of trivia. -/
def TriviaKind.name : TriviaKind → String
  | space => "Space"
  | newline => "Newline"
  | lineComment => "LineComment"
  | blockComment => "BlockComment"

/-- A run of white space or a comment. -/
structure Trivia where
  kind : TriviaKind
  span : Span
  text : Bytes
  deriving DecidableEq, Repr, Inhabited

/-- A lexeme with its place. -/
structure Token where
  kind : Kind
  span : Span
  text : Bytes := []
  value : Bytes := []
  leading : List Trivia := []
  deriving DecidableEq, Repr, Inhabited

namespace Token

/-- The token that ends a source. -/
def eof (span : Span) : Token := { kind := .eof, span }

/-- The token that stands for an earlier lexical error. -/
def invalid (span : Span) : Token := { kind := .invalid, span }

/-- The token without what stands before it. -/
def bare (t : Token) : Token := { t with leading := [] }

/-- The token as a scope reads it. -/
def inScope (scope : Scope) (t : Token) : Token := { t with kind := t.kind.inScope scope }

/-- The name of an identifier, or the digits of a literal. -/
def name (t : Token) : String := t.value.latin

/-- How an error message speaks of a token. -/
def describe (t : Token) : String :=
  match t.kind with
  | .eof => "end of input"
  | .ident => "identifier " ++ Text.Quoted.ofBytes t.text
  | .invalid => "invalid token"
  | kind => if t.text.isEmpty then kind.name else Text.Quoted.ofBytes t.text

end Token
end CircuitCompiler
