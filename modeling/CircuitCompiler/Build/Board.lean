import CircuitCompiler.Build.Progress
import CircuitCompiler.Text.Decimal
import CircuitCompiler.Text.Layout
import CircuitCompiler.Text.Terminal

/-!
# The progress board

What a terminal shows while a build runs: a title with the stage of the build, a line for each
component with its state, and a bar. Components that are not known beforehand join the board with
their first report. The bar moves only when a frame of its animation is drawn; without one it stands
at nothing until the build is done.
-/

namespace CircuitCompiler.Build

open Text

/-- A line of the board. -/
structure BoardItem where
  name : String
  status : String := "queued"
  stage : Stage := .load
  deriving DecidableEq, Repr, Inhabited

/-- The state of the board. -/
structure Board where
  title : String
  items : List BoardItem := []
  /-- The state of the build as a whole. -/
  label : String := ""
  width : Int := 80
  barWidth : Int := 76
  finished : Bool := false
  deriving DecidableEq, Repr, Inhabited

namespace Board

/-- The word for being in a stage; none for an unknown stage. -/
def stageLabel (s : Stage) : String :=
  if s == .load then "loading"
  else if s == .parse then "parsing"
  else if s == .check then "checking"
  else if s == .emit then "emitting"
  else if s == .write then "writing"
  else ""

/-- The word for a report; none for one that changes nothing. A component is done once it is
written. -/
def statusLabel (stage : Stage) (status : Status) : String :=
  if status == .queued then "queued"
  else if status == .cached then "cached"
  else if status == .done then if stage == .write then "done" else stageLabel stage
  else if status == .error then "error"
  else if status == .working then stageLabel stage
  else ""

/-- The board with a line for a component. -/
def join (b : Board) (name : String) : Board :=
  if b.items.any fun i => i.name == name then b
  else { b with items := b.items ++ [{ name := name }] }

/-- The board before the first report. -/
def start (title : String) (components : List String) : Board :=
  components.foldl join { title := title }

/-- Takes a report in. -/
def report (b : Board) (component : String) (stage : Stage) (status : Status) : Board :=
  let word := statusLabel stage status
  if component == "" then if word == "" then b else { b with label := word }
  else
    let b := b.join component
    if word == "" then b
    else { b with items := b.items.map fun i =>
        if i.name == component then { i with status := word, stage } else i }

/-- Fits the board to a terminal; a width that is not positive is ignored. -/
def resize (b : Board) (width : Int) : Board :=
  if 0 < width then { b with width, barWidth := width - 4 } else b

/-- Marks the build as done. -/
def finish (b : Board) : Board := { b with finished := true }

/-! ## How far the build is -/

/-- The share of the work that lies behind a component in a stage. -/
def stageShare (s : Stage) : Float :=
  if s == .parse then 0.2
  else if s == .check then 0.4
  else if s == .emit then 0.7
  else if s == .write then 0.9
  else 0.0

/-- The share of the work that lies behind a component. -/
def itemShare (i : BoardItem) : Float :=
  if i.status == "done" || i.status == "cached" || i.status == "error" then 1.0
  else stageShare i.stage

/-- The share of the work that is done. -/
def share (b : Board) : Float :=
  if b.items.isEmpty then 0
  else b.items.foldl (fun sum i => sum + itemShare i) 0 / b.items.length.toFloat

/-- The share with six places. -/
def shareText (b : Board) : String := (Dyadic.ofFloat b.share).fixed 6

/-! ## The picture -/

/-- A text cut to a number of columns, with dots at its end where there is room for them. -/
def shorten (s : String) (width : Int) : String :=
  if width ≤ 0 then s
  else (cutTo width (if width ≤ 3 then [] else Bytes.ofString "...") (Bytes.ofString s)).text

/-- The bar before the build is done and behind it. -/
def bar (b : Board) : String :=
  let room := (b.barWidth - 5).toNat
  if b.finished then String.ofList (List.replicate room '█') ++ " 100%"
  else String.ofList (List.replicate room '░') ++ "   0%"

/-- A tab is shown as four spaces. -/
def untabbed (s : String) : String := s.replace "\t" "    "

/-- Fills every line up to the widest. -/
def squared (s : String) : String :=
  let lines := s.splitOn "\n"
  let widest := (lines.map cells).foldl max 0
  String.intercalate "\n" (lines.map fun l => l ++ spaces (widest - cells l))

/-- The title, which is one line unless it has line breaks of its own. -/
def header (b : Board) : String :=
  let title := if b.label == "" then b.title else b.title ++ " (" ++ b.label ++ ")"
  squared (untabbed (if b.finished then "done: " ++ title else "⣾  " ++ title))

/-- The line of a component. -/
def itemLine (b : Board) (i : BoardItem) : String :=
  "  " ++ padLeft 12 i.status ++ " " ++ shorten i.name (max 20 (b.width - 16)) ++ "\n"

/-- The board as it is shown; nothing before the first report if no components are known. -/
def view (b : Board) : String :=
  if b.items.isEmpty && b.label == "" then ""
  else b.header ++ "\n\n" ++ String.join (b.items.map b.itemLine) ++ "\n" ++ b.bar ++ "\n"

end Board
end CircuitCompiler.Build
