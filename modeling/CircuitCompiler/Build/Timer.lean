import CircuitCompiler.Diagnostic.Bag
import CircuitCompiler.Text.Decimal
import CircuitCompiler.Text.Json
import CircuitCompiler.Text.Layout

/-!
# Timings

A timer lists the phases of a run with a remark and their duration. Its summary is a table for
readers; its report can be added to the diagnostics, whose limit it does not count against.
-/

namespace CircuitCompiler.Build

open Text (Json)

/-- A phase of a run; the duration is in milliseconds. -/
structure Phase where
  name : String
  note : String := ""
  millis : Float := 0
  deriving Repr, Inhabited

/-- The phases of a run in the order in which they began. -/
structure Timer where
  phases : List Phase := []
  deriving Repr, Inhabited

namespace Timer

/-- Begins a phase; its number is the number of phases before. -/
def start (t : Timer) (name : String) : Nat × Timer :=
  (t.phases.length, ⟨t.phases ++ [{ name := name }]⟩)

/-- Ends the phase with a number; a number that no phase has is ignored. -/
def stop (t : Timer) (number : Int) (note : String) : Timer :=
  ⟨t.phases.mapIdx fun i p => if (i : Int) = number then { p with note } else p⟩

/-- The duration of all phases together. -/
def total (t : Timer) : Float := t.phases.foldl (fun sum p => sum + p.millis) 0

/-- A duration with two places. -/
def millisText (x : Float) : String := (Text.Dyadic.ofFloat x).fixed 2

/-- A line of the summary. -/
def line (name : String) (millis : Float) (note : String) : String :=
  "  " ++ Text.padRight 12 name ++ " " ++ Text.padLeft 8 (millisText millis) ++ " ms" ++
    (if note == "" then "" else "  // " ++ note) ++ "\n"

/-- The phases as a table. -/
def summary (t : Timer) : String :=
  "timings:\n" ++ String.join (t.phases.map fun p => line p.name p.millis p.note) ++
    line "total" t.total ""

end Timer

/-- The durations of a run; the phases are missing where none were taken down. -/
structure TimingReport where
  total : Float
  phases : Option (List Phase)

namespace TimingReport

/-- The report of a timer. -/
def ofTimer (t : Timer) : TimingReport := ⟨t.total, some t.phases⟩

/-- A number with the fewest digits that read back. -/
def number (x : Float) : Json := .number (Text.Dyadic.ofFloat x).shortestText

/-- A phase in the written form. -/
def phaseJson (p : Phase) : Json :=
  .object ([("name", .ofString p.name), ("duration_ms", number p.millis)] ++
    if p.note == "" then [] else [("note", .ofString p.note)])

/-- The written form. -/
def json (r : TimingReport) (kind : String) : Json :=
  .object [("kind", .ofString kind), ("total_ms", number r.total),
    ("phases", match r.phases with
      | some ps => .array (ps.map phaseJson)
      | none => .null)]

/-- The diagnostic that reports durations. -/
def diagnostic (r : TimingReport) (kind : String) : Diagnostic :=
  let kind := if kind == "" then "pipeline" else kind
  { severity := .info, code := .timings, primary := .zero
    message := "timings (" ++ kind ++ "): total " ++ Timer.millisText r.total ++ " ms"
    notes := [⟨.zero, (r.json kind).compact⟩] }

/-- Adds the report to a bag, even if it is full. -/
def addTo (r : TimingReport) (kind : String) (b : Bag) : Bag :=
  let d := r.diagnostic kind
  if b.isFull then b.merge { limit := 1, items := [d] } else b.add d

end TimingReport
end CircuitCompiler.Build
