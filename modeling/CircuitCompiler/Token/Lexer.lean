import CircuitCompiler.Source.Cursor
import CircuitCompiler.Token.Scan

/-!
# The incremental lexer

A lexer hands out the tokens of a range of a file one by one, with one token of look-ahead, under a
scope that may change between any two tokens. A buffered token whose kind depends on the scope is
put back when the scope changes and read again. The first fault stays: after it every token is
invalid.
-/

namespace CircuitCompiler

/-- A token that was looked at, with the place before the white space in front of it. -/
structure Lookahead where
  token : Token
  mark : Nat
  deriving DecidableEq, Repr

/-- A reading position in a range of a file, with its scope, buffer and first fault. -/
structure Lexer where
  cursor : Cursor
  scope : Scope := .general
  keepTrivia : Bool := false
  look : Option Lookahead := none
  fault : Option CompileError := none

namespace Lexer

/-- A lexer over a whole file. -/
def ofFile (f : SourceFile) (keepTrivia : Bool) : Lexer :=
  { cursor := .ofFile f, keepTrivia }

/-- A lexer over the bytes from `start` to `stop`. -/
def ofRange (f : SourceFile) (start stop : Nat) (keepTrivia : Bool) : Lexer :=
  { cursor := .ofRange f start stop, keepTrivia }

/-- Reads the next token from the source, whatever is buffered. After a fault only white space and
comments are still read over. -/
def readToken (lx : Lexer) : Token × Lexer :=
  let file := lx.cursor.file.id
  match lx.fault with
  | some e =>
    let behind := (Scan.gap file lx.cursor.off lx.cursor.rest).pos
    (.invalid e.span, { lx with cursor := lx.cursor.reset behind })
  | none =>
    let step := Scan.read lx.scope file lx.cursor.off lx.cursor.rest
    (if lx.keepTrivia then step.token else step.token.bare,
      { lx with cursor := lx.cursor.reset step.pos, fault := step.fault })

/-- Takes the next token. -/
def next (lx : Lexer) : Token × Lexer :=
  match lx.look with
  | some l => (l.token, { lx with look := none })
  | none => lx.readToken

/-- Looks at the next token and buffers it. -/
def peek (lx : Lexer) : Token × Lexer :=
  match lx.look with
  | some l => (l.token, lx)
  | none =>
    let (token, behind) := lx.readToken
    (token, { behind with look := some ⟨token, lx.cursor.off⟩ })

/-- Changes the scope. A buffered token whose kind depends on it is put back. -/
def setScope (lx : Lexer) (scope : Scope) : Lexer :=
  let lx' := { lx with scope }
  match lx.look with
  | some l =>
    if lx.scope ≠ scope ∧ l.token.kind.isScoped then
      { lx' with cursor := lx.cursor.reset l.mark, look := none }
    else lx'
  | none => lx'

/-- The diagnostics reported so far: at most the one of the first fault. -/
def diagnostics (lx : Lexer) : List Diagnostic :=
  (lx.fault.map (·.diagnostic [])).toList

/-- Takes `n` tokens. -/
def take (lx : Lexer) : Nat → List Token × Lexer
  | 0 => ([], lx)
  | n + 1 =>
    let (t, lx) := lx.next
    let (ts, lx) := lx.take n
    (t :: ts, lx)

/-- Takes tokens up to and including the first that ends the source or is invalid, `fuel` at most.
-/
def drainUpTo (lx : Lexer) : Nat → List Token × Lexer
  | 0 => ([], lx)
  | fuel + 1 =>
    let (t, lx) := lx.next
    if t.kind = .eof ∨ t.kind = .invalid then ([t], lx)
    else
      let (ts, lx) := lx.drainUpTo fuel
      (t :: ts, lx)

/-- Takes tokens up to and including the first that ends the source or is invalid. Every other token
has at least one byte, so the bytes of the file bound their number. -/
def drain (lx : Lexer) : List Token × Lexer := lx.drainUpTo (lx.cursor.file.content.length + 2)

end Lexer
end CircuitCompiler
