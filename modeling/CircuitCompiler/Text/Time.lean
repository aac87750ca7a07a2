import CircuitCompiler.Text.Layout

/-!
# Durations and moments

The text of a duration in nanoseconds, such as `1m0.5s`, and of a moment in coordinated universal
time, such as `1970-01-01T00:00:00.5Z`. Fractions are written without trailing zeros.
-/

namespace CircuitCompiler.Text

/-- The digits behind a decimal point, without trailing zeros; nothing at all for zero. -/
def fraction (places n : Nat) : String :=
  let digits := ((padZeros places n).toList.reverse.dropWhile (· == '0')).reverse
  if digits.isEmpty then "" else "." ++ String.ofList digits

/-- The duration nearest to a number of nanoseconds among those of 64 bits. -/
def nearestDuration (n : Int) : Int := max (-9223372036854775808) (min n 9223372036854775807)

/-- The nearest multiple of `unit`, or the longest duration if that is beyond it; halves go away
from zero. -/
def roundTo (unit : Nat) (n : Int) : Int :=
  let size := n.natAbs
  let near := (2 * size + unit) / (2 * unit) * unit
  nearestDuration (if n < 0 then -(near : Int) else near)

/-- The text of a number of nanoseconds. -/
def durationText (n : Int) : String :=
  let size := n.natAbs
  let text :=
    if size == 0 then "0s"
    else if size < 1000 then toString size ++ "ns"
    else if size < 1000000 then toString (size / 1000) ++ fraction 3 (size % 1000) ++ "µs"
    else if size < 1000000000 then toString (size / 1000000) ++ fraction 6 (size % 1000000) ++ "ms"
    else
      let seconds := size / 1000000000
      let minutes := seconds / 60
      let tail := toString (seconds % 60) ++ fraction 9 (size % 1000000000) ++ "s"
      if minutes == 0 then tail
      else if minutes < 60 then toString minutes ++ "m" ++ tail
      else toString (minutes / 60) ++ "h" ++ toString (minutes % 60) ++ "m" ++ tail
  if n < 0 then "-" ++ text else text

/-- Year, month and day of a day counted from the first of January 1970. Years are counted from
March, so that a leap day is the last of its year. -/
def civilDate (day : Int) : Int × Nat × Nat :=
  let shifted := day + 719468
  let era := shifted.fdiv 146097
  let dayOfEra := (shifted - era * 146097).toNat
  let yearOfEra := (dayOfEra - dayOfEra / 1460 + dayOfEra / 36524 - dayOfEra / 146096) / 365
  let dayOfYear := dayOfEra - (365 * yearOfEra + yearOfEra / 4 - yearOfEra / 100)
  let march := (5 * dayOfYear + 2) / 153
  let month := if march < 10 then march + 3 else march - 9
  (era * 400 + yearOfEra + (if month ≤ 2 then 1 else 0), month,
    dayOfYear - (153 * march + 2) / 5 + 1)

/-- The text of a moment in nanoseconds since the first of January 1970. -/
def momentText (n : Int) : String :=
  let perDay : Nat := 86400000000000
  let day := n.fdiv perDay
  let inDay := (n - day * perDay).toNat
  let (year, month, dayOfMonth) := civilDate day
  let seconds := inDay / 1000000000
  padZeros 4 year.toNat ++ "-" ++ padZeros 2 month ++ "-" ++ padZeros 2 dayOfMonth ++ "T" ++
    padZeros 2 (seconds / 3600) ++ ":" ++ padZeros 2 (seconds / 60 % 60) ++ ":" ++
    padZeros 2 (seconds % 60) ++ fraction 9 (inDay % 1000000000) ++ "Z"

end CircuitCompiler.Text
