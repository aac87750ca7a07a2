import CircuitCompiler.Diagnostic.Basic

/-!
# Bags of diagnostics

A bag collects diagnostics in the order they are reported, up to a limit. `Bag.sort` brings them
into the order in which they are shown and `Bag.dedup` keeps the first of those that report the same
code at the same place.
-/

namespace CircuitCompiler

/-- Diagnostics in reporting order; a limit that is not positive stands for none. -/
structure Bag where
  limit : Int
  items : List Diagnostic := []
  deriving DecidableEq, Repr, Inhabited

namespace Bag

/-- The empty bag with a limit. -/
def new (limit : Int) : Bag := { limit := limit }

/-- Whether the bag takes no more diagnostics. -/
def isFull (b : Bag) : Bool := 0 < b.limit && b.limit ≤ b.items.length

/-- Adds a diagnostic, unless the bag is full. -/
def add (b : Bag) (d : Diagnostic) : Bag :=
  if b.isFull then b else { b with items := b.items ++ [d] }

/-- Adds diagnostics one after the other. -/
def addAll (b : Bag) (ds : List Diagnostic) : Bag := ds.foldl add b

/-- Whether some diagnostic takes its component out of the build. -/
def hasErrors (b : Bag) : Bool := b.items.any (·.severity.isFatal)

/-- Appends all of another bag, raising a limit that is too low. -/
def merge (b other : Bag) : Bag :=
  let total := b.items.length + other.items.length
  { limit := if 0 < b.limit && b.limit < total then total else b.limit
    items := b.items ++ other.items }

/-- Whether `d` is shown before or beside `e`: by file, start and end of the primary span, then the
graver first, then by code. -/
def ranksBefore (d e : Diagnostic) : Bool :=
  if d.primary.file != e.primary.file then d.primary.file ≤ e.primary.file
  else if d.primary.start != e.primary.start then d.primary.start ≤ e.primary.start
  else if d.primary.stop != e.primary.stop then d.primary.stop ≤ e.primary.stop
  else if d.severity != e.severity then e.severity.rank ≤ d.severity.rank
  else d.code.number ≤ e.code.number

/-- Brings the diagnostics into the order in which they are shown; equals keep their order. -/
def sort (b : Bag) : Bag := { b with items := b.items.mergeSort ranksBefore }

/-- What tells findings apart: the number of the code and the place, as text. -/
def findingKey (d : Diagnostic) : String := toString d.code.number ++ ":" ++ d.primary.text

/-- Whether two diagnostics report the same code at the same place. -/
def sameFinding (d e : Diagnostic) : Bool := findingKey d == findingKey e

/-- Drops from a list what repeats an earlier finding. -/
def dedupItems : List Diagnostic → List Diagnostic
  | [] => []
  | d :: rest => d :: (dedupItems rest).filter fun e => !sameFinding d e

/-- Keeps the first diagnostic of each code and place. -/
def dedup (b : Bag) : Bag := { b with items := dedupItems b.items }

end Bag
end CircuitCompiler
