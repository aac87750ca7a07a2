import CircuitCompiler.Text.Decimal
import CircuitCompiler.Text.Json
import CircuitCompiler.Text.Layout
import CircuitCompiler.Text.Time

/-!
# Trace events

What a run reports about its own progress: spans that begin and end, and points in between, each of
some granularity. A level says which granularities are reported. An event is written as a line of
text or as a line of JSON.
-/

namespace CircuitCompiler.Trace

open Text

/-- The member of a list under a number counted from `first`. -/
def numbered (first : Nat) (names : List String) (n : Nat) : String :=
  if n < first then "unknown" else names.getD (n - first) "unknown"

/-- How fine an event is; a lower rank is coarser. -/
structure Granularity where
  rank : Nat
  deriving DecidableEq, Repr, Inhabited

namespace Granularity

/-- The command as a whole. -/
def driver : Granularity := ⟨1⟩

/-- One phase of the command. -/
def phase : Granularity := ⟨2⟩

/-- One component inside a phase. -/
def component : Granularity := ⟨3⟩

/-- Anything finer. -/
def detail : Granularity := ⟨4⟩

/-- The word shown for a granularity. -/
def name (g : Granularity) : String :=
  numbered 1 ["driver", "phase", "component", "detail"] g.rank

end Granularity

/-- What an event marks. -/
structure Mark where
  number : Nat
  deriving DecidableEq, Repr, Inhabited

namespace Mark

/-- The begin of a span. -/
def start : Mark := ⟨1⟩

/-- The end of a span. -/
def stop : Mark := ⟨2⟩

/-- A single moment. -/
def point : Mark := ⟨3⟩

/-- The word shown for a mark. -/
def name (m : Mark) : String := numbered 1 ["begin", "end", "point"] m.number

/-- The sign drawn before the name of an event. -/
def sign (m : Mark) : String :=
  match m.number with
  | 1 => "→ "
  | 2 => "← "
  | 3 => "• "
  | _ => ""

end Mark

/-- How much is reported. -/
inductive Level where
  | off
  | phase
  | component
  | debug
  deriving DecidableEq, Repr, Inhabited

namespace Level

/-- The word for a level. -/
def name : Level → String
  | off => "off"
  | phase => "phase"
  | component => "component"
  | debug => "debug"

/-- All levels. -/
def all : List Level := [off, phase, component, debug]

/-- Whether events of a granularity are reported. -/
def admits (l : Level) (g : Granularity) : Bool :=
  match l with
  | off => false
  | phase => g.rank ≤ 2
  | component => g.rank ≤ 3
  | debug => true

/-- The level a word names, in letters of any case; no word at all is `off`. -/
def parse (s : String) : Except String Level :=
  let word := s.map Char.toLower
  if word == "" then .ok .off
  else match all.find? (·.name == word) with
    | some l => .ok l
    | none => .error ("invalid trace level: " ++ Quoted.ofString s ++
        " (expected: off|phase|component|debug)")

end Level

/-- How events are written. -/
inductive Format where
  | auto
  | text
  | ndjson
  deriving DecidableEq, Repr, Inhabited

/-- The format a word names, in letters of any case. -/
def Format.parse (s : String) : Except String Format :=
  match s.map Char.toLower with
  | "" | "auto" => .ok .auto
  | "text" => .ok .text
  | "ndjson" | "json" => .ok .ndjson
  | _ => .error ("invalid trace format: " ++ Quoted.ofString s ++ " (expected: auto|text|ndjson)")

/-- One event; times are in nanoseconds. -/
structure Event where
  mark : Mark
  granularity : Granularity
  name : String
  detail : String := ""
  seq : Nat := 0
  span : Nat := 0
  parent : Nat := 0
  elapsed : Int := 0
  time : Int := 0
  extra : List (String × String) := []
  deriving DecidableEq, Repr, Inhabited

namespace Event

/-- Microseconds as milliseconds with three places, as precise as a floating-point number is. -/
def millis (micros : Int) : String := (Dyadic.ofFloat (Float.ofInt micros / 1000)).fixed 3

/-- The extra pairs in the order of their keys. -/
def sortedExtra (e : Event) : List (String × String) :=
  e.extra.mergeSort fun a b => decide (a.1 ≤ b.1)

/-- An event as a line of text; the time counts from `started`. -/
def line (e : Event) (started : Int) : String :=
  "[" ++ padLeft 8 (millis ((nearestDuration (e.time - started)).tdiv 1000)) ++ "ms] " ++
    spaces (2 * (e.granularity.rank - 1)) ++ e.mark.sign ++ e.name ++
    (if e.mark == .stop then " " ++ durationText (roundTo 1000 e.elapsed) else "") ++
    (if e.detail == "" then "" else " (" ++ e.detail ++ ")") ++
    (if e.extra.isEmpty then ""
      else " \x7b" ++ String.intercalate ", " (e.sortedExtra.map fun (k, v) => k ++ "=" ++ v) ++
        "\x7d") ++ "\n"

/-- An event as a line of JSON; empty parts are left out. -/
def jsonLine (e : Event) : String :=
  let micros := e.elapsed.tdiv 1000
  (Json.object ([("time", .ofString (momentText e.time)), ("seq", .ofNat e.seq),
    ("kind", .ofString e.mark.name), ("scope", .ofString e.granularity.name),
    ("span_id", .ofNat e.span)] ++
    (if e.parent == 0 then [] else [("parent_id", .ofNat e.parent)]) ++
    [("name", .ofString e.name)] ++
    (if e.detail == "" then [] else [("detail", .ofString e.detail)]) ++
    (if micros == 0 then [] else [("elapsed_us", .number (toString micros))]) ++
    (if e.extra.isEmpty then []
      else [("extra", .object (e.sortedExtra.map fun (k, v) => (k, .ofString v)))]))).compact ++
    "\n"

/-- An event in a format; only JSON is asked for by name. -/
def render (e : Event) (format : Format) (started : Int) : String :=
  if format == .ndjson then e.jsonLine else e.line started

end Event
end CircuitCompiler.Trace
