import CircuitCompiler.Source.File
import CircuitCompiler.Text.Json
import CircuitCompiler.Text.Layout
import CircuitCompiler.Token.Lexer

/-!
# Token listings

The tokens of a file as a table for people, one line a token, and as JSON text.
-/

namespace CircuitCompiler.Token

open Text

/-- The names of what stands before a token. -/
def leadingNames (t : Token) : List String := t.leading.map (·.kind.name)

/-- The line of the `number`-th token. -/
def listingLine (f : SourceFile) (number : Nat) (t : Token) : String :=
  let start := f.position t.span.start
  let stop := f.position t.span.stop
  padLeft 3 (toString number) ++ ": " ++ padRight 15 t.kind.name ++
    (if t.text.isEmpty then "" else " " ++ Quoted.ofBytes t.text) ++
    (if t.value.isEmpty || t.value == t.text then "" else " = " ++ Quoted.ofBytes t.value) ++
    " at " ++ toString start.line ++ ":" ++ toString start.column ++ "-" ++
    toString stop.line ++ ":" ++ toString stop.column ++
    (if t.leading.isEmpty then ""
      else " (leading: " ++ String.intercalate ", " t.leadingNames ++ ")") ++ "\n"

/-- The table of tokens. -/
def listing (f : SourceFile) (ts : List Token) : String :=
  String.join ((ts.zipIdx 1).map fun (t, number) => listingLine f number t)

/-- A span as a JSON value. -/
def spanJson (s : Span) : Json :=
  .object [("File", .ofNat s.file), ("Start", .ofNat s.start), ("End", .ofNat s.stop)]

/-- A token as a JSON value; empty parts are left out. -/
def json (t : Token) : Json :=
  .object ([("kind", .ofString t.kind.name)] ++
    (if t.text.isEmpty then [] else [("text", .string t.text)]) ++
    (if t.value.isEmpty || t.value == t.text then [] else [("value", .string t.value)]) ++
    [("span", spanJson t.span)] ++
    (if t.leading.isEmpty then [] else [("leading", .ofStrings t.leadingNames)]))

/-- The tokens as JSON text. -/
def listingJson (ts : List Token) : String := (Json.array (ts.map json)).pretty

end CircuitCompiler.Token
