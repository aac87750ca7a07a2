import CircuitCompiler.Text.Quoted

/-!
# TOML documents

A document is written as a list of statements: headers of tables, headers of elements of arrays of
tables, and pairs of a key and a value. What it means is a table of values by name.
-/

namespace CircuitCompiler.Toml

/-- A key: the names from the outermost table inwards. -/
abbrev Key := List String

/-- A value as it is written. -/
inductive Written where
  | text (s : String)
  | integer (n : Int)
  | float (digits : String)
  | boolean (b : Bool)
  /-- A date, a time of day, or both. -/
  | moment (digits : String)
  | array (items : List Written)
  | inlineTable (fields : List (Key × Written))
  deriving Repr, Inhabited

/-- A statement of a document. -/
inductive Statement where
  /-- The pairs that follow stand in this table. -/
  | table (key : Key)
  /-- The pairs that follow stand in a new element of this array of tables. -/
  | element (key : Key)
  | pair (key : Key) (value : Written)
  deriving Repr, Inhabited

/-- A value. -/
inductive Value where
  | text (s : String)
  | integer (n : Int)
  | float (digits : String)
  | boolean (b : Bool)
  | moment (digits : String)
  | array (items : List Value)
  | table (entries : List (String × Value))
  /-- An array whose elements have headers of their own. -/
  | tables (items : List (List (String × Value)))
  deriving Repr, Inhabited

/-- The entries of a table, in the order in which they were defined. -/
abbrev Entries := List (String × Value)

/-! ## Written names and strings -/

/-- Whether a name may consist of this character without quotes. -/
def isBare (c : Char) : Bool := c.isAlphanum || c == '_' || c == '-'

/-- The written form of a character in a string. -/
def escapeChar (c : Char) : List Char :=
  if c == '"' || c == '\\' then ['\\', c]
  else if c.toNat == 8 then ['\\', 'b']
  else if c.toNat == 9 then ['\\', 't']
  else if c.toNat == 10 then ['\\', 'n']
  else if c.toNat == 12 then ['\\', 'f']
  else if c.toNat == 13 then ['\\', 'r']
  else if c.toNat < 0x20 || c.toNat == 0x7F then '\\' :: 'u' :: Text.hexDigits 4 c.toNat
  else [c]

/-- A string between quotes. -/
def quote (s : String) : String := String.ofList ('"' :: s.toList.flatMap escapeChar ++ ['"'])

/-- A name of a key, with quotes where it needs them. -/
def nameText (name : String) : String :=
  if name != "" && name.all isBare then name else quote name

/-- The written form of a key. -/
def Key.text (key : Key) : String := String.intercalate "." (key.map nameText)

end CircuitCompiler.Toml
