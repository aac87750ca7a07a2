import CircuitCompiler.Toml.Parse

/-!
# The meaning of TOML

The tables that the statements of a document define, and its keys in the order in which they were
written. A table that was only mentioned on the way to another one is implicit and may still be
defined, and what follows an array under the same key takes its place; everything else is defined
once.
-/

namespace CircuitCompiler.Toml

/-! ## Places in tables -/

/-- The entries of the table a key leads to; in an array of tables the way goes through the last. -/
def entriesAt? : Key → Entries → Option Entries
  | [], es => some es
  | name :: rest, es =>
    match es.lookup name with
    | some (.table sub) => entriesAt? rest sub
    | some (.tables ts) => ts.getLast?.bind (entriesAt? rest)
    | _ => none

/-- The entries with a value under a name, in place of the one before. -/
def put (es : Entries) (name : String) (v : Value) : Entries :=
  if (es.lookup name).isSome then es.map fun e => if e.1 == name then (name, v) else e
  else es ++ [(name, v)]

/-- Changes the entries of the table a key leads to. -/
def modifyAt (f : Entries → Entries) : Key → Entries → Entries
  | [], es => f es
  | name :: rest, es =>
    match es.lookup name with
    | some (.table sub) => put es name (.table (modifyAt f rest sub))
    | some (.tables ts) =>
      put es name (.tables (ts.dropLast ++ ts.getLast?.toList.map (modifyAt f rest)))
    | _ => es

/-! ## Documents -/

/-- A document as far as it has been read. -/
structure Document where
  root : Entries := []
  /-- The tables that were only mentioned. -/
  implicit : List Key := []
  /-- The keys whose value is an array. -/
  arrays : List Key := []
  /-- The keys in the order in which they were written. -/
  keys : List Key := []
  deriving Inhabited

namespace Document

/-- Notes that a table was only mentioned. -/
def mention (d : Document) (key : Key) : Document := { d with implicit := key :: d.implicit }

/-- Notes that a table is defined. -/
def settle (d : Document) (key : Key) : Document :=
  { d with implicit := d.implicit.filter (· != key) }

/-- Notes a key as written. -/
def list (d : Document) (key : Key) : Document := { d with keys := d.keys ++ [key] }

/-- Puts a value under a name into a table. -/
def store (d : Document) (table : Key) (name : String) (v : Value) : Document :=
  { d with root := modifyAt (put · name v) table d.root }

/-- Defines a name in a table. The value of a key that is noted as an array is replaced; a table
that was only mentioned keeps its entries. -/
def define? (d : Document) (table : Key) (name : String) (v : Value) : Option Document := do
  let es ← entriesAt? table d.root
  let key := table ++ [name]
  if (es.lookup name).isNone then some (d.store table name v)
  else if d.arrays.contains key then some ((d.settle key).store table name v)
  else if d.implicit.contains key then some (d.settle key)
  else none

/-- Mentions the tables on the way along some names, from a table on. -/
def reach? (d : Document) (table : Key) : List String → Option Document
  | [] => some d
  | name :: rest => do
    let es ← entriesAt? table d.root
    let key := table ++ [name]
    match es.lookup name with
    | none => reach? ((d.mention key).store table name (.table [])) key rest
    | some (.table _) | some (.tables _) => reach? d key rest
    | some _ => none

/-- Opens the table of a key. -/
def openTable? (d : Document) (key : Key) : Option Document := do
  (← d.reach? [] key.dropLast).define? key.dropLast (key.getLast?.getD "") (.table [])

/-- Opens a new element of the array of tables of a key. -/
def openElement? (d : Document) (key : Key) : Option Document := do
  let d ← d.reach? [] key.dropLast
  let name := key.getLast?.getD ""
  match (← entriesAt? key.dropLast d.root).lookup name with
  | none => some (d.store key.dropLast name (.tables [[]]))
  | some (.tables ts) => some (d.store key.dropLast name (.tables (ts ++ [[]])))
  | some _ => none

/-- Opens the tables that a dotted key mentions, from a table on. -/
def openMentioned? (d : Document) (table : Key) : List String → Option Document
  | [] => some d
  | name :: rest => do
    let key := table ++ [name]
    openMentioned? (← (d.mention key).openTable? key) key rest

/-- The key whose kind is noted for a name in a table: an empty name speaks for the table itself, if
that is not the outermost one. -/
def notedKey (table : Key) (name : String) : Key :=
  if name == "" && !table.isEmpty then table else table ++ [name]

/-- Notes whether the value of a key is an array. -/
def noteKind (d : Document) (key : Key) : Value → Document
  | .array _ => { d with arrays := key :: d.arrays }
  | _ => { d with arrays := d.arrays.filter (· != key) }

mutual

/-- The value of a written value under a name in a table. A table written in one line is opened like
any other; in an array it is an element. -/
def evaluate? (d : Document) (table : Key) (name : String) (inArray : Bool) :
    Written → Option (Value × Document)
  | .text s => some (.text s, d)
  | .integer n => some (.integer n, d)
  | .float t => some (.float t, d)
  | .boolean b => some (.boolean b, d)
  | .moment t => some (.moment t, d)
  | .array items => do
    let (vs, d) ← evaluateItems? (d.noteKind (notedKey table name) (.array [])) table name items
    some (.array vs, d)
  | .inlineTable fields => do
    let key := table ++ [name]
    let d := d.mention key
    let d ← if inArray then d.openElement? key else d.openTable? key
    let (es, d) ← evaluateFields? d key [] fields
    some (.table es, d)

/-- The values of the items of an array. -/
def evaluateItems? (d : Document) (table : Key) (name : String) :
    List Written → Option (List Value × Document)
  | [] => some ([], d)
  | w :: rest => do
    let (v, d) ← evaluate? d table name true w
    let (vs, d) ← evaluateItems? d table name rest
    some (v :: vs, d)

/-- The entries of a table written in one line, added to those before by the last names of their
keys. -/
def evaluateFields? (d : Document) (table : Key) (es : Entries) :
    List (Key × Written) → Option (Entries × Document)
  | [] => some (es, d)
  | (key, w) :: rest => do
    let d ← d.openMentioned? table key.dropLast
    let inner := table ++ key.dropLast
    let name := key.getLast?.getD ""
    let (v, d) ← evaluate? (d.list (inner ++ [name])) inner name false w
    let d := (← d.define? inner name v).noteKind (notedKey inner name) v
    evaluateFields? d table (put es name v) rest

end

/-- Adds a pair to a table. -/
def pair? (d : Document) (table key : Key) (w : Written) : Option Document :=
  (d.evaluateFields? table [] [(key, w)]).map (·.2)

/-- Reads statements on, with the table in which pairs stand. -/
def readFrom? : Document → Key → List Statement → Option Document
  | d, _, [] => some d
  | d, table, s :: rest => do
    match s with
    | .table key => readFrom? ((← d.openTable? key).noteKind key (.table []) |>.list key) key rest
    | .element key =>
      readFrom? ((← d.openElement? key).noteKind key (.tables []) |>.list key) key rest
    | .pair key w => readFrom? (← d.pair? table key w) table rest

/-- The document a text stands for, if it is TOML. -/
def parse? (text : Bytes) : Option Document := do readFrom? {} [] (← Toml.parse? text)

end Document
end CircuitCompiler.Toml
