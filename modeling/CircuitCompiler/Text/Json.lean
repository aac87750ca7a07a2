import CircuitCompiler.Text.Quoted

/-!
# JSON text

A JSON value with its fields in the order in which they are written, and its two written forms: in
one line (`Json.compact`) and indented by two spaces a level (`Json.pretty`). Strings are byte
strings; a byte that is part of no character is written as the replacement character, and the
characters that have a meaning in a web page are written as escapes.
-/

namespace CircuitCompiler.Text

/-- A JSON value; a number is given by its text. -/
inductive Json where
  | null
  | bool (b : Bool)
  | number (text : String)
  | string (b : Bytes)
  | array (items : List Json)
  | object (fields : List (String × Json))
  deriving Repr, Inhabited

namespace Json

/-- A string value. -/
def ofString (s : String) : Json := .string (Bytes.ofString s)

/-- A whole number. -/
def ofNat (n : Nat) : Json := .number (toString n)

/-- An array of strings. -/
def ofStrings (ss : List String) : Json := .array (ss.map ofString)

/-! ## Strings -/

/-- The written form of a character inside a string. -/
def escapeChar (c : Char) : List Char :=
  if c == '"' || c == '\\' then ['\\', c]
  else if c.toNat == 8 then ['\\', 'b']
  else if c.toNat == 12 then ['\\', 'f']
  else if c.toNat == 10 then ['\\', 'n']
  else if c.toNat == 13 then ['\\', 'r']
  else if c.toNat == 9 then ['\\', 't']
  else if c.toNat < 0x20 || c == '<' || c == '>' || c == '&' || c.toNat == 0x2028 ||
      c.toNat == 0x2029 then '\\' :: 'u' :: hexDigits 4 c.toNat
  else [c]

/-- The written form of one step of reading. -/
def escapeRune : Bytes.Rune → List Char
  | .char c => escapeChar c
  | .bad _ => [Bytes.replacement]

/-- A string between quotes. -/
def quote (b : Bytes) : String := String.ofList ('"' :: b.runes.flatMap escapeRune ++ ['"'])

/-! ## Values -/

mutual

/-- A value in one line. -/
def compact : Json → String
  | .null => "null"
  | .bool b => if b then "true" else "false"
  | .number text => text
  | .string b => quote b
  | .array items => "[" ++ String.intercalate "," (compactItems items) ++ "]"
  | .object fields => "\x7b" ++ String.intercalate "," (compactFields fields) ++ "\x7d"

/-- The items of an array, each in one line. -/
def compactItems : List Json → List String
  | [] => []
  | j :: rest => j.compact :: compactItems rest

/-- The fields of an object, each in one line. -/
def compactFields : List (String × Json) → List String
  | [] => []
  | (name, j) :: rest => (quote (Bytes.ofString name) ++ ":" ++ j.compact) :: compactFields rest

end

/-- A line break and the indentation of a level. -/
def breakAt (level : Nat) : String := "\n" ++ String.ofList (List.replicate (2 * level) ' ')

/-- Parts between brackets, one a line; empty brackets stay together. -/
def enclose (opening closing : String) (level : Nat) (parts : List String) : String :=
  if parts.isEmpty then opening ++ closing
  else opening ++ breakAt (level + 1) ++ String.intercalate ("," ++ breakAt (level + 1)) parts ++
    breakAt level ++ closing

mutual

/-- A value that starts at an indentation level. -/
def prettyAt (level : Nat) : Json → String
  | .null => "null"
  | .bool b => if b then "true" else "false"
  | .number text => text
  | .string b => quote b
  | .array items => enclose "[" "]" level (prettyItems (level + 1) items)
  | .object fields => enclose "\x7b" "\x7d" level (prettyFields (level + 1) fields)

/-- The items of an array at an indentation level. -/
def prettyItems (level : Nat) : List Json → List String
  | [] => []
  | j :: rest => j.prettyAt level :: prettyItems level rest

/-- The fields of an object at an indentation level. -/
def prettyFields (level : Nat) : List (String × Json) → List String
  | [] => []
  | (name, j) :: rest =>
    (quote (Bytes.ofString name) ++ ": " ++ j.prettyAt level) :: prettyFields level rest

end

/-- A value indented by two spaces a level, with a final newline. -/
def pretty (j : Json) : String := j.prettyAt 0 ++ "\n"

end Json
end CircuitCompiler.Text
