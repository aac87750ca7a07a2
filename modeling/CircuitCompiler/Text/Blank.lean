/-!
# Blanks around a text

The characters that leave no mark on the paper, and a text without those at its two ends.
-/

namespace CircuitCompiler.Text

/-- The blank characters: the six of ASCII, and the spaces and line ends beyond it. -/
def blanks : List Nat :=
  [0x09, 0x0A, 0x0B, 0x0C, 0x0D, 0x20, 0x85, 0xA0, 0x1680, 0x2000, 0x2001, 0x2002, 0x2003, 0x2004,
    0x2005, 0x2006, 0x2007, 0x2008, 0x2009, 0x200A, 0x2028, 0x2029, 0x202F, 0x205F, 0x3000]

/-- Whether a character is blank. -/
def isBlank (c : Char) : Bool := blanks.contains c.toNat

/-- A text without the blanks at its ends. -/
def trimmed (s : String) : String :=
  String.ofList (((s.toList.dropWhile isBlank).reverse.dropWhile isBlank).reverse)

/-- The lower case of a letter where that is a letter of ASCII; two capitals beyond it have one. -/
def lowerChar (c : Char) : Char :=
  if c.toNat == 0x130 then 'i' else if c.toNat == 0x212A then 'k' else c.toLower

/-- A text in lower case as far as that leads to letters of ASCII. -/
def lowered (s : String) : String := String.ofList (s.toList.map lowerChar)

end CircuitCompiler.Text
