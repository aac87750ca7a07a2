import CircuitCompiler.Text.Layout

/-!
# Lines of VHDL

Emitted text is a list of lines with their depth; the width of a step is chosen when they are
written out. A parenthesised list puts one item on a line.
-/

namespace CircuitCompiler.Vhdl

/-- A line of text at a depth, or an empty line. -/
inductive Line where
  | text (depth : Nat) (body : String)
  | blank
  deriving DecidableEq, Repr, Inhabited

namespace Line

/-- The line one step deeper. -/
def deeper : Line → Line
  | text depth body => text (depth + 1) body
  | blank => blank

/-- The line with its indentation. -/
def render (step : Nat) : Line → String
  | text depth body => Text.spaces (depth * step) ++ body ++ "\n"
  | blank => "\n"

end Line

/-- A line that is not indented. -/
def flush (body : String) : Line := .text 0 body

/-- Lines one step deeper. -/
def indented (ls : List Line) : List Line := ls.map Line.deeper

/-- The items of a list, a separator behind all but the last. -/
def separated (sep : String) : List String → List String
  | [] => []
  | [item] => [item]
  | item :: rest => (item ++ sep) :: separated sep rest

/-- A list in parentheses behind a word; nothing if it has no items. -/
def clause (head : String) (items : List String) (sep tail : String) : List Line :=
  if items.isEmpty then []
  else flush (head ++ " (") :: indented ((separated sep items).map flush) ++ [flush (")" ++ tail)]

/-- The text of lines; `step` is the width of one step of indentation. -/
def renderLines (step : Nat) (ls : List Line) : String := String.join (ls.map (Line.render step))

end CircuitCompiler.Vhdl
