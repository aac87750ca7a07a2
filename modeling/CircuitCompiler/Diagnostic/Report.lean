import CircuitCompiler.Diagnostic.Bag
import CircuitCompiler.Diagnostic.Place
import CircuitCompiler.Text.Json

/-!
# Diagnostics for programs

The diagnostics of a bag as a JSON document.
-/

namespace CircuitCompiler

open Text (Json)

/-- How diagnostics are written for programs. -/
structure ReportView where
  /-- Whether lines and columns are written beside offsets. -/
  positions : Bool := false
  paths : PathView := {}
  /-- The number of diagnostics written; all of them if it is not positive. -/
  limit : Int := 0
  notes : Bool := false
  deriving DecidableEq, Repr, Inhabited

namespace Report

/-- A field that is left out where its number is zero. -/
def unlessZero (name : String) (n : Nat) : List (String × Json) :=
  if n == 0 then [] else [(name, .ofNat n)]

/-- The place of a span, or nothing if it points into no file. -/
def location (v : ReportView) (files : Option FileSet) (d : Diagnostic) (span : Span) :
    List (String × Json) :=
  match d.fileOf? files span with
  | none => []
  | some f =>
    let start := f.position span.start
    let stop := f.position span.stop
    let positions := if v.positions then
        unlessZero "start_line" start.line ++ unlessZero "start_col" start.column ++
          unlessZero "end_line" stop.line ++ unlessZero "end_col" stop.column
      else []
    [("location", .object ([("file", .ofString (v.paths.show f.path)),
      ("start_byte", .ofNat span.start), ("end_byte", .ofNat span.stop)] ++ positions))]

/-- A note. -/
def note (v : ReportView) (files : Option FileSet) (d : Diagnostic) (n : Note) : Json :=
  .object (("message", .ofString n.message) :: location v files d n.span)

/-- A diagnostic. Timings are nothing without their notes, so they always keep them. -/
def diagnostic (v : ReportView) (files : Option FileSet) (d : Diagnostic) : Json :=
  let notes := if v.notes || d.code == .timings then d.notes else []
  .object ([("severity", .ofString d.severity.name), ("code", .ofString d.code.id),
    ("title", .ofString d.code.title), ("message", .ofString d.message)] ++
    location v files d d.primary ++
    if notes.isEmpty then [] else [("notes", .array (notes.map (note v files d)))])

end Report

/-- The diagnostics of a bag as a JSON document. -/
def Bag.report (b : Bag) (files : Option FileSet) (v : ReportView) : Json :=
  let items := if 0 < v.limit then b.items.take v.limit.toNat else b.items
  .object [("diagnostics", .array (items.map (Report.diagnostic v files))),
    ("count", .ofNat items.length)]

end CircuitCompiler
