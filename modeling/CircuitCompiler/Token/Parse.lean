import CircuitCompiler.Component.Basic
import CircuitCompiler.Token.Stream

/-!
# Reading tokens

The steps from which the grammar is built. A `Parse` runs on a `Reading`: the tokens that are left,
the scope they are read in, the place behind the last token, and the names declared so far. A step
that fails keeps the reading it failed at, so that what it leaves behind can be stated. A lexical
fault is reported as soon as the grammar looks at it, in place of the grammar's own complaint.
-/

namespace CircuitCompiler

/-- Where the parser stands. -/
structure Reading where
  tokens : List Token
  stop : Stop
  scope : Scope := .general
  /-- The span of the last token taken. -/
  last : Span
  /-- The vectors declared so far. -/
  widths : Widths := []
  /-- The names declared so far and where. -/
  names : List (String × Span) := []
  /-- The source text, if raw blocks are to keep theirs. -/
  source? : Option Bytes := none
  deriving DecidableEq, Repr

namespace Reading

/-- The reading at the start of a stream; `start` is the empty span there. -/
def ofStream (s : Stream) (start : Span) (source? : Option Bytes) : Reading :=
  { tokens := s.tokens, stop := s.stop, last := start, source? }

/-- The token that comes next, as the scope reads it. -/
def current (r : Reading) : Token := (r.tokens.headD r.stop.token).inScope r.scope

end Reading

/-- A step of the grammar: a result or the first error, and the reading behind it. -/
def Parse (α : Type) : Type := Reading → Except CompileError α × Reading

namespace Parse

/-- A step that takes nothing. -/
def succeed {α : Type} (a : α) : Parse α := fun r => (.ok a, r)

/-- One step after another; the first error ends both. -/
def andThen {α β : Type} (p : Parse α) (f : α → Parse β) : Parse β := fun r =>
  match p r with
  | (.ok a, r') => f a r'
  | (.error e, r') => (.error e, r')

instance : Monad Parse where
  pure := succeed
  bind := andThen

/-- Fails for a cause at a place. -/
def fail {α : Type} (cause : Cause) (span : Span) : Parse α := fun r => (.error ⟨cause, span⟩, r)

/-- The token that comes next. -/
def peek : Parse Token := fun r => (.ok r.current, r)

/-- Whether the next token is of a kind. -/
def isAt (k : Kind) : Parse Bool := fun r => (.ok (r.current.kind == k), r)

/-- Takes the next token; at the end of the stream nothing is taken. -/
def advance : Parse Token := fun r =>
  match r.tokens with
  | [] => (.ok r.current, r)
  | t :: rest => (.ok r.current, { r with tokens := rest, last := t.span })

/-- The span of the last token taken. -/
def lastSpan : Parse Span := fun r => (.ok r.last, r)

/-- The number of tokens that are left. -/
def remaining : Parse Nat := fun r => (.ok r.tokens.length, r)

/-- Where an error about a token is shown: the end of the source is shown behind the last token. -/
def errorSpan (r : Reading) (t : Token) : Span :=
  if t.kind == .eof && 0 < r.last.stop then .point r.last.file r.last.stop else t.span

/-- Fails at the next token: with the lexical fault if it is one, else for the given cause. -/
def failHere {α : Type} (cause : Reading → Token → CompileError) : Parse α := fun r =>
  match r.tokens, r.stop with
  | [], .fault e => (.error e, r)
  | _, _ => (.error (cause r r.current), r)

/-- Fails because the next token is not what the grammar wants. -/
def unexpected {α : Type} (wanted : Wanted) : Parse α :=
  failHere fun r t => ⟨.unexpected wanted t.describe, errorSpan r t⟩

/-- Takes a token of a kind, or fails. -/
def expect (k : Kind) (wanted : Wanted) : Parse Token := fun r =>
  if r.current.kind = k then advance r else unexpected wanted r

/-- Runs a step in a scope and returns to the scope before, also when the step fails. -/
def withScope {α : Type} (scope : Scope) (p : Parse α) : Parse α := fun r =>
  let (result, r') := p { r with scope }
  (result, { r' with scope := r.scope })

/-- The scope in force. -/
def currentScope : Parse Scope := fun r => (.ok r.scope, r)

/-- Declares a name of the component; it must be new. -/
def declare (name : String) (span : Span) : Parse Unit := fun r =>
  match r.names.lookup name with
  | some first => (.error ⟨.duplicateDeclaration name first.start, span⟩, r)
  | none => (.ok (), { r with names := r.names ++ [(name, span)] })

/-- Records a vector. -/
def declareWidth (name : String) (width : Width) : Parse Unit := fun r =>
  (.ok (), { r with widths := r.widths.declare name width })

/-- Whether a name is a vector declared so far. -/
def isVector (name : String) : Parse Bool := fun r => (.ok (r.widths.has name), r)

/-- Repeats a step until a closing token is next; the tokens left bound the number of rounds. -/
def untilAt {α : Type} (close : Kind) (step : List α → Parse α) : Nat → List α → Parse (List α)
  | 0, _ => fun r => fail .parseFailed r.last r
  | fuel + 1, done => do
    if ← isAt close then succeed done
    else
      let a ← step done
      untilAt close step fuel (done ++ [a])

/-- Repeats a step, which sees the results so far, until a closing token is next. -/
def manyUntil {α : Type} (close : Kind) (step : List α → Parse α) : Parse (List α) := do
  let n ← remaining
  untilAt close step (n + 1) []

end Parse
end CircuitCompiler
