import CircuitCompiler.Facts.Schema
import CircuitCompiler.Notation.Evaluate

/-!
# Facts from outside

Facts that are handed in as text are judged by the schema. The text is in a notation that describes
values by constraints and that JSON is a part of, so that it may leave values open or compute them;
it is valid if together with the schema it leaves nothing open. `Shape.expr` is the schema in this
notation.
-/

namespace CircuitCompiler.Facts

namespace Shape

/-- A text in the notation. -/
def word (s : String) : Notation.Expr := .atom (.ofString s)

/-- The texts that match a pattern. -/
def like (pattern : String) : Notation.Expr := .unary .like (word pattern)

/-- The texts that are identifiers. -/
def identifiers : Notation.Expr := like "^[A-Za-z_][A-Za-z0-9_]*$"

/-- Whether a field is there even if no text provides it: a list that is left out is empty. -/
def isAlwaysThere (required : Bool) : Shape → Bool
  | listOf _ => true
  | _ => required

mutual

/-- A shape in the notation. -/
def expr : Shape → Notation.Expr
  | text => .name "string"
  | oneOf words => .choice (words.map fun w => (false, word w))
  | identifier => identifiers
  | width => like "^([1-9][0-9]*|[A-Za-z_][A-Za-z0-9_]*)$"
  | count => .binary .both (.name "int") (.unary .atLeast (.atom (.number { digits := 0 })))
  | listOf item => .list [] (some item.expr)
  | mapOf value => .record [.pattern none identifiers value.expr]
  | record fields => .record (decls fields)

/-- The fields of a record in the notation. -/
def decls : List (String × Bool × Shape) → List Notation.Decl
  | [] => []
  | (name, required, s) :: rest =>
    let presence := if s.isAlwaysThere required then .present else .optional
    .field ⟨name, false⟩ none presence s.expr :: decls rest

end

end Shape

/-- What is to be said of facts. -/
inductive Verdict where
  | valid
  /-- The text is not in the notation or contradicts itself. -/
  | unreadable
  /-- The text contradicts the schema or leaves something open. -/
  | mismatched
  deriving DecidableEq, Repr, Inhabited

namespace Verdict

/-- The schema as a definition, which is closed. -/
def schema : Notation.Conjunct := .mk Schema.tables.expr [] true []

/-- The verdict on conjuncts of facts, with fuel for evaluation. -/
def ofConjunct (fuel : Nat) (given : Notation.Conjunct) : Verdict :=
  let alone := Notation.Eval.groupsOf fuel [] [given]
  let together := Notation.Eval.groupsOf fuel [] [schema, given]
  if Notation.Eval.fails fuel alone || Notation.Eval.status fuel alone == .contradictory then
    unreadable
  else if Notation.Eval.status fuel together == .settled then valid
  else mismatched

/-- The verdict on a text. -/
def ofText (text : Bytes) : Verdict :=
  match Notation.parse? text with
  | some ds =>
    if Notation.Decl.areSound ds then
      ofConjunct (8 * text.length + 200) (.mk (.record ds) [] false [])
    else unreadable
  | none => unreadable

end Verdict
end CircuitCompiler.Facts
