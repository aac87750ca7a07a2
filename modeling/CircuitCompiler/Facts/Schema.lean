import CircuitCompiler.Text.Json
import CircuitCompiler.Token.Scan

/-!
# The schema of interface facts

What the written form of the tables must look like. Records are closed: a field that the schema does
not name is refused. `Shape.accepts` decides whether a value has a shape.
-/

namespace CircuitCompiler.Facts

open Text (Json)

/-- The shape of a value. -/
inductive Shape where
  /-- Any text. -/
  | text
  /-- One of some words. -/
  | oneOf (words : List String)
  /-- A letter or underscore, then letters, digits and underscores. -/
  | identifier
  /-- A positive decimal number or an identifier. -/
  | width
  /-- A whole number that is not negative. -/
  | count
  /-- A list of values of one shape. -/
  | listOf (item : Shape)
  /-- A record whose field names are identifiers, with values of one shape. -/
  | mapOf (value : Shape)
  /-- A record of named fields, with their shapes and whether they must be there. -/
  | record (fields : List (String × Bool × Shape))
  deriving Repr, Inhabited

namespace Shape

/-- Whether a byte begins an identifier. -/
def isIdentifierStart (b : UInt8) : Bool := Scan.isLetter b || b == 95

/-- Whether text is an identifier. -/
def isIdentifier : Bytes → Bool
  | [] => false
  | b :: rest => isIdentifierStart b && rest.all Scan.isNameByte

/-- Whether text is a positive decimal number without leading zeros. -/
def isPositive : Bytes → Bool
  | [] => false
  | b :: rest => Scan.isDecimal b && b != 48 && rest.all Scan.isDecimal

/-- Whether a number is whole and not negative. -/
def isCount (text : String) : Bool := !text.isEmpty && text.all Char.isDigit

/-- The shape of a field of a record. -/
def fieldShape? (fields : List (String × Bool × Shape)) (name : String) : Option Shape :=
  (fields.lookup name).map (·.2)

/-- Whether every field that must be there is there. -/
def complete (fields : List (String × Bool × Shape)) (given : List (String × Json)) : Bool :=
  fields.all fun f => !f.2.1 || given.any fun g => g.1 == f.1

mutual

/-- Whether a value has a shape. -/
def accepts (s : Shape) : Json → Bool
  | .null => false
  | .bool _ => false
  | .number n => match s with
    | .count => isCount n
    | _ => false
  | .string b => match s with
    | .text => true
    | .oneOf words => words.any fun w => Bytes.ofString w == b
    | .identifier => isIdentifier b
    | .width => isPositive b || isIdentifier b
    | _ => false
  | .array items => match s with
    | .listOf item => acceptsAll item items
    | _ => false
  | .object given => match s with
    | .mapOf value =>
      acceptsFields
        (fun name => if isIdentifier (Bytes.ofString name) then some value else none) given
    | .record fields => complete fields given && acceptsFields (fieldShape? fields) given
    | _ => false

/-- Whether all values have a shape. -/
def acceptsAll (s : Shape) : List Json → Bool
  | [] => true
  | j :: rest => s.accepts j && acceptsAll s rest

/-- Whether all fields are known and have their shape. -/
def acceptsFields (shapeOf : String → Option Shape) : List (String × Json) → Bool
  | [] => true
  | (name, j) :: rest =>
    (match shapeOf name with
      | some s => s.accepts j
      | none => false) && acceptsFields shapeOf rest

end

end Shape

namespace Schema

open Shape

/-- A field that must be there. -/
def required (name : String) (s : Shape) : String × Bool × Shape := (name, true, s)

/-- A field that may be left out. -/
def optional (name : String) (s : Shape) : String × Bool × Shape := (name, false, s)

/-- A value type of the language. -/
def type : Shape := oneOf ["int", "uint", "vec", "bool"]

/-- A row on a component. -/
def component : Shape := record [required "name" identifier, required "file" text,
  required "line" count, optional "arch" identifier, required "order" count]

/-- A row on a generic. -/
def generic : Shape := record [required "component" identifier, required "name" identifier,
  required "type" type]

/-- A row on a port. -/
def port : Shape := record [required "component" identifier, required "name" identifier,
  required "direction" (oneOf ["input", "output"]), required "type" type, optional "width" width,
  required "line" count]

/-- A row on a declaration. -/
def signal : Shape := record [required "component" identifier, required "name" identifier,
  required "kind" (oneOf ["signal", "variable", "const"]), required "type" type,
  optional "width" text]

/-- A row on an instance. -/
def inst : Shape := record [required "component" identifier, required "name" identifier,
  required "target" identifier, optional "generics" (mapOf text), required "line" count]

/-- A row on a dependency. -/
def dependency : Shape := record [required "from" identifier, required "to" identifier]

/-- All tables; a table that is left out is empty. -/
def tables : Shape := record [optional "components" (listOf component),
  optional "generics" (listOf generic), optional "ports" (listOf port),
  optional "signals" (listOf signal), optional "instances" (listOf inst),
  optional "dependencies" (listOf dependency)]

end Schema
end CircuitCompiler.Facts
