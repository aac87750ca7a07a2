import CircuitCompiler.Text.Columns

/-!
# Lines on a terminal

How many cells a line takes that a terminal reads byte by byte. Control characters and control
sequences take none. `Mode.next` is the terminal's reading of control sequences; where it reads
text, a printable ASCII character takes one cell and any other character is taken together with its
cluster.

A cluster is as wide as its first character if that is a pictograph, a regional indicator or the
leading consonant of a syllable, and otherwise as wide as its characters together; a selector behind
a pictograph decides whether it is shown as text or as a picture.
-/

namespace CircuitCompiler.Text

/-! ## Cells of a cluster -/

/-- Pictographs that are wide as letters and yet take one cell. -/
def slimPictographRanges : List (Nat × Nat) := [
  (0x3030, 0x3030), (0x303d, 0x303d), (0x3297, 0x3297), (0x3299, 0x3299), (0x1f202, 0x1f202),
  (0x1f237, 0x1f237), (0x1f260, 0x1f265)]

/-- Ideographic description characters and strokes that take one cell. -/
def slimStrokeRanges : List (Nat × Nat) := [(0x2ffc, 0x2fff), (0x31ef, 0x31ef)]

/-- The number of cells of a character. -/
def charCells (n : Nat) : Nat :=
  match BreakClass.ofCodePoint n with
  | .control | .carriageReturn | .lineFeed | .extend | .joiner => 0
  | .regional => 2
  | .pictograph => if within wideRanges n && !within slimPictographRanges n then 2 else 1
  | _ =>
    if n == 0x2E3A then 3
    else if n == 0x2E3B then 4
    else if within wideRanges n && !within slimStrokeRanges n then 2
    else 1

/-- The number of cells of a pictograph with the characters behind it: the last selector decides. -/
def pictographCells (start : Nat) (rest : List Nat) : Nat :=
  rest.foldl (fun w n => if n == 0xFE0E then 1 else if n == 0xFE0F then 2 else w) start

/-- The number of cells of the characters of a cluster. -/
def clusterCells : List Nat → Nat
  | [] => 0
  | n :: rest =>
    match BreakClass.ofCodePoint n with
    | .pictograph => pictographCells (charCells n) rest
    | .regional | .leading => charCells n
    | _ => charCells n + (rest.map charCells).foldr (· + ·) 0

/-- The code points of a byte string. -/
def codePoints (b : Bytes) : List Nat := b.runes.map fun r => r.toChar.toNat

/-! ## Control sequences -/

/-- What a terminal is reading. -/
inductive Mode where
  | text
  /-- Behind an escape character. -/
  | escape
  | escapeTail
  /-- The start of a control sequence, its parameters, and what follows them. -/
  | control
  | parameters
  | controlTail
  /-- The start of a device control string, its parameters, what follows them, and its data. -/
  | device
  | deviceParameters
  | deviceTail
  | deviceData
  /-- An operating system command. -/
  | command
  /-- A string that is not shown. -/
  | silent
  deriving DecidableEq, Repr, Inhabited

namespace Mode

/-- Whether the mode takes a byte beyond ASCII for data. -/
def takesAnyByte (m : Mode) : Bool := m == deviceData || m == command

/-- Whether a byte begins a character beyond ASCII, which is then shown in any mode that does not
take it for data. -/
def showsFrom (m : Mode) (b : UInt8) : Bool := 0xC2 ≤ b && b ≤ 0xF4 && !m.takesAnyByte

/-- The mode behind a byte beyond ASCII. -/
def nextHigh (m : Mode) (b : UInt8) : Mode :=
  if b == 0x9C then text
  else if m.takesAnyByte then m
  else if b == 0x90 then device
  else if b == 0x98 || b == 0x9E || b == 0x9F then silent
  else if b == 0x9B then control
  else if b == 0x9D then command
  else text

/-- The mode behind an escape character and a graphic character. -/
def nextEscape (b : UInt8) : Mode :=
  if b < 0x30 then escapeTail
  else if b == 0x50 then device
  else if b == 0x58 || b == 0x5E || b == 0x5F then silent
  else if b == 0x5B then control
  else if b == 0x5D then command
  else text

/-- The mode behind a graphic character. -/
def nextGraphic (m : Mode) (b : UInt8) : Mode :=
  match m with
  | text => text
  | escape => nextEscape b
  | escapeTail => if b < 0x30 then escapeTail else text
  | control | parameters =>
    if b < 0x30 then controlTail else if b < 0x40 then parameters else text
  | controlTail => if b < 0x30 then controlTail else text
  | device | deviceParameters =>
    if b < 0x30 then deviceTail else if b < 0x40 then deviceParameters else deviceData
  | deviceTail => if b < 0x30 then deviceTail else deviceData
  | deviceData => deviceData
  | command => command
  | silent => silent

/-- The mode behind a byte. -/
def next (m : Mode) (b : UInt8) : Mode :=
  if 0x80 ≤ b then m.nextHigh b
  else if b == 0x18 || b == 0x1A then text
  else if b == 0x1B then if m == device then deviceData else escape
  else if b == 0x07 && m == command then text
  else if m == device && 0x08 ≤ b && b ≤ 0x0D then deviceData
  else if b < 0x20 || b == 0x7F then m
  else m.nextGraphic b

/-- Whether the mode shows an ASCII character. -/
def shows (m : Mode) (b : UInt8) : Bool := m == text && 0x20 ≤ b && b < 0x7F

end Mode

/-- The number of cells of a line from a mode on. -/
def cellsFrom : Mode → Bytes → Nat
  | _, [] => 0
  | m, b :: rest =>
    if m.showsFrom b then
      let size := clusterLength b rest
      clusterCells (codePoints (b :: rest.take (size - 1))) + cellsFrom .text (rest.drop (size - 1))
    else (if m.shows b then 1 else 0) + cellsFrom (m.next b) rest
termination_by _ b => b.length
decreasing_by
  · simp only [List.length_drop, List.length_cons]; omega
  · simp

/-- The number of cells of a line. -/
def cells (s : String) : Nat := cellsFrom .text (Bytes.ofString s)

end CircuitCompiler.Text
