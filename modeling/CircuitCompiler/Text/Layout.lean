/-!
# Columns

Texts filled up with spaces to a number of characters.
-/

namespace CircuitCompiler.Text

/-- `n` spaces. -/
def spaces (n : Nat) : String := String.ofList (List.replicate n ' ')

/-- The text with spaces before it up to a width. -/
def padLeft (width : Nat) (s : String) : String := spaces (width - s.length) ++ s

/-- The text with spaces behind it up to a width. -/
def padRight (width : Nat) (s : String) : String := s ++ spaces (width - s.length)

/-- The decimal digits of `n`, with zeros before them up to a width. -/
def padZeros (width n : Nat) : String :=
  let digits := toString n
  String.ofList (List.replicate (width - digits.length) '0') ++ digits

end CircuitCompiler.Text
