import CircuitCompiler.Source.Span

/-!
# Diagnostics

A diagnostic is plain data: a severity, a numbered code, a message, the span it is about and further
notes. The thousands of a code name the phase that reports it.
-/

namespace CircuitCompiler

/-- How grave a diagnostic is; a higher rank is graver. -/
structure Severity where
  rank : Nat
  deriving DecidableEq, Repr, Inhabited

namespace Severity

/-- A summary. -/
def info : Severity := ⟨0⟩

/-- A finding that stops nothing. -/
def warning : Severity := ⟨1⟩

/-- A finding that takes its component out of the build. -/
def error : Severity := ⟨2⟩

/-- The word shown for a severity. -/
def name (s : Severity) : String :=
  match s.rank with
  | 0 => "INFO"
  | 1 => "WARNING"
  | 2 => "ERROR"
  | _ => "UNKNOWN"

/-- Whether a diagnostic of this severity takes its component out of the build. -/
def isFatal (s : Severity) : Bool := 2 ≤ s.rank

end Severity

/-- The number of a kind of finding. -/
structure Code where
  number : Nat
  deriving DecidableEq, Repr, Inhabited

namespace Code

def unknownCharacter : Code := ⟨1001⟩
def unterminatedVector : Code := ⟨1002⟩
def unterminatedComment : Code := ⟨1003⟩
def badNumber : Code := ⟨1004⟩
def badVectorDigit : Code := ⟨1005⟩
def unexpectedToken : Code := ⟨2001⟩
def instanceTypeMismatch : Code := ⟨2002⟩
def duplicateArchitecture : Code := ⟨2003⟩
def duplicatePortBlock : Code := ⟨2004⟩
def expectedType : Code := ⟨2005⟩
def expectedConstant : Code := ⟨2006⟩
def expectedExpression : Code := ⟨2007⟩
def unclosedBlock : Code := ⟨2008⟩
def expectedComponent : Code := ⟨2009⟩
def notAVector : Code := ⟨3001⟩
def duplicateDeclaration : Code := ⟨3002⟩
def duplicateComponent : Code := ⟨3003⟩
def unknownComponent : Code := ⟨3004⟩
def unknownInstance : Code := ⟨3005⟩
def unknownPort : Code := ⟨3006⟩
def circularReference : Code := ⟨3007⟩
def topHasGenerics : Code := ⟨3008⟩
def unknownTop : Code := ⟨3009⟩
def dependencyFailed : Code := ⟨3010⟩
def cannotLoad : Code := ⟨4001⟩
def timings : Code := ⟨6001⟩

/-- What each known code is about. -/
def titles : List (Nat × String) := [
  (1000, "Lexical information"),
  (1001, "Unknown character"),
  (1002, "Unterminated vector literal"),
  (1003, "Unterminated block comment"),
  (1004, "Bad number"),
  (1005, "Bad digit in vector literal"),
  (2000, "Syntax information"),
  (2001, "Unexpected token"),
  (2002, "Instance type does not match constructor"),
  (2003, "Component already has an architecture"),
  (2004, "Component already has a port block"),
  (2005, "Expected a type"),
  (2006, "Expected a constant"),
  (2007, "Expected an expression"),
  (2008, "Unclosed block"),
  (2009, "Expected component"),
  (3000, "Semantic information"),
  (3001, "Splice of a non-vector identifier"),
  (3002, "Duplicate declaration"),
  (3003, "Duplicate component"),
  (3004, "Unknown component"),
  (3005, "Unknown instance"),
  (3006, "Unknown port"),
  (3007, "Circular component reference"),
  (3008, "Top-level component declares generics"),
  (3009, "Unknown top-level component"),
  (3010, "Dependency component has errors"),
  (4001, "Cannot load file"),
  (4002, "Cannot write file"),
  (5000, "Project information"),
  (5001, "Bad project manifest"),
  (5002, "No sources"),
  (5003, "Missing input"),
  (6000, "Observability information"),
  (6001, "Timings")]

/-- What a code is about. -/
def title (c : Code) : String := (titles.lookup c.number).getD "Unknown error"

/-- The code as it is shown: the phase and the number. -/
def id (c : Code) : String :=
  match c.number / 1000 with
  | 1 => "LEX" ++ toString c.number
  | 2 => "SYN" ++ toString c.number
  | 3 => "SEM" ++ toString c.number
  | 4 => "IO" ++ toString c.number
  | 5 => "PRJ" ++ toString c.number
  | 6 => "OBS" ++ toString c.number
  | _ => "E0000"

/-- The code with its title. -/
def text (c : Code) : String := "[" ++ c.id ++ "]: " ++ c.title

end Code

/-- A remark on a further place. -/
structure Note where
  span : Span
  message : String
  deriving DecidableEq, Repr, Inhabited

/-- One finding. -/
structure Diagnostic where
  severity : Severity
  code : Code
  message : String
  primary : Span
  notes : List Note := []
  deriving DecidableEq, Repr, Inhabited

/-- An error without notes. -/
def Diagnostic.ofError (code : Code) (primary : Span) (message : String) : Diagnostic :=
  { severity := .error, code, message, primary }

end CircuitCompiler
