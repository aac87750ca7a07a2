import CircuitCompiler.Notation.Number

/-!
# Quoted text of the notation

Text stands between double quotes and byte strings between single ones; hash marks around the quotes
move the escape character away from the content. Three quotes begin text of several lines, which
loses the indentation of its closing quotes. `Quote.body?` finds the end of the content,
`Quote.content?` reads the escapes in it. An escape with a parenthesis leads to an expression in the
middle of the text.
-/

namespace CircuitCompiler.Notation

/-- How a text is quoted. -/
structure Quote where
  mark : Char
  hashes : Nat := 0
  /-- Whether the text has several lines. -/
  long : Bool := false
  deriving DecidableEq, Repr, Inhabited

/-- Where the content of a quoted text stops. -/
inductive Stop where
  | closed
  /-- At an expression in the middle of the text. -/
  | interrupted
  deriving DecidableEq, Repr, Inhabited

namespace Quote

/-- Whether the quotes stand for bytes. -/
def isBytes (q : Quote) : Bool := q.mark == '\''

/-- The hash marks. -/
def hashMarks (q : Quote) : List Char := List.replicate q.hashes '#'

/-- The closing quotes. -/
def closing (q : Quote) : List Char :=
  List.replicate (if q.long then 3 else 1) q.mark ++ q.hashMarks

/-- What begins an escape. -/
def escape (q : Quote) : List Char := '\\' :: q.hashMarks

/-- The content up to its end as it is written, and what follows. Text in one line has no line
break. -/
def body? (q : Quote) : Nat → List Char → Option (List Char × Stop × List Char)
  | 0, _ => none
  | _ + 1, [] => none
  | fuel + 1, c :: cs =>
    if c == '\n' && !q.long then none
    else if q.closing.isPrefixOf (c :: cs) then some ([], .closed, (c :: cs).drop q.closing.length)
    else if q.escape.isPrefixOf (c :: cs) then
      match (c :: cs).drop q.escape.length with
      | '(' :: rest => some ([], .interrupted, rest)
      | e :: rest => do
        let (body, stop, rest) ← body? q fuel rest
        some (q.escape ++ e :: body, stop, rest)
      | [] => none
    else do
      let (body, stop, rest) ← body? q fuel cs
      some (c :: body, stop, rest)

/-! ## Escapes -/

/-- What a one-letter escape stands for. -/
def letters : List (Char × Char) :=
  [('a', '\x07'), ('b', '\x08'), ('f', '\x0c'), ('n', '\n'), ('r', '\r'), ('t', '\t'),
    ('v', '\x0b'), ('\\', '\\'), ('/', '/')]

/-- A unit of the content: a code point, or a byte of a byte string. -/
inductive Piece where
  | point (n : Nat)
  | byte (b : UInt8)

/-- The value of exactly `n` digits of a base, and the rest. -/
def coded? (base n : Nat) (cs : List Char) : Option (Nat × List Char) :=
  let ds := cs.take n
  if ds.length = n && ds.all fun c => c != '_' && Number.isDigitOf base c then
    some (Number.valueOf base ds, cs.drop n)
  else none

/-- The piece of an escape, behind what begins it. -/
def escaped? (q : Quote) : List Char → Option (Piece × List Char)
  | 'u' :: rest => (coded? 16 4 rest).map fun (n, rest) => (.point n, rest)
  | 'U' :: rest => do
    let (n, rest) ← coded? 16 8 rest
    if n ≤ 0x10FFFF then some (.point n, rest) else none
  | 'x' :: rest => do
    let (n, rest) ← if q.isBytes then coded? 16 2 rest else none
    some (.byte n.toUInt8, rest)
  | e :: rest =>
    if e == q.mark then some (.point e.toNat, rest)
    else if '0' ≤ e && e ≤ '7' then do
      let (n, rest) ← if q.isBytes then coded? 8 3 (e :: rest) else none
      if n ≤ 255 then some (.byte n.toUInt8, rest) else none
    else (letters.lookup e).map fun c => (.point c.toNat, rest)
  | [] => none

/-- The code points whose halves make a pair. -/
def isHigh (n : Nat) : Bool := 0xD800 ≤ n && n < 0xDC00

/-- The second half of a pair. -/
def isLow (n : Nat) : Bool := 0xDC00 ≤ n && n < 0xE000

/-- The bytes of pieces; halves of a pair stand together. -/
def join? : List Piece → Option Bytes
  | [] => some []
  | .byte b :: rest => (join? rest).map (b :: ·)
  | .point n :: rest =>
    if isHigh n then
      match rest with
      | .point m :: rest =>
        if isLow m then
          let c := Char.ofNat (0x10000 + (n - 0xD800) * 1024 + (m - 0xDC00))
          (join? rest).map (Bytes.ofString (String.singleton c) ++ ·)
        else none
      | _ => none
    else if n.isValidChar then
      (join? rest).map (Bytes.ofString (String.singleton (Char.ofNat n)) ++ ·)
    else none

/-- The pieces of a content. In text of several lines a line break can be escaped. -/
def pieces? (q : Quote) : Nat → List Char → Option (List Piece)
  | 0, _ => none
  | _ + 1, [] => some []
  | fuel + 1, c :: cs =>
    if q.escape.isPrefixOf (c :: cs) then
      match (c :: cs).drop q.escape.length with
      | '\n' :: rest => if q.long then pieces? q fuel rest else none
      | rest => do
        let (p, rest) ← escaped? q rest
        (← pieces? q fuel rest) |> fun ps => some (p :: ps)
    else (pieces? q fuel cs).map (.point c.toNat :: ·)

/-! ## Several lines -/

/-- Whether a character can indent a line. -/
def isIndent (c : Char) : Bool := c == ' ' || c == '\t'

/-- The lines of a text. -/
def lines (cs : List Char) : List (List Char) := ((String.ofList cs).splitOn "\n").map String.toList

/-- A line without its indentation; a line without any character has none. -/
def outdent? (indent line : List Char) : Option (List Char) :=
  if indent.isPrefixOf line then some (line.drop indent.length)
  else if line.isEmpty then some []
  else none

/-- The content of several lines: the last line, which only holds the closing quotes, indents all
others. -/
def block? (body : List Char) : Option (List Char) := do
  let ls := lines (body.filter (· != '\r'))
  let indent := ((ls.getLast?.getD []).reverse.takeWhile isIndent).reverse
  let ls ← ls.mapM (outdent? indent)
  let ls := if ls.getLast?.getD [] == [] then ls.dropLast else ls
  some (String.intercalate "\n" (ls.map String.ofList)).toList

/-- The bytes of a content. -/
def content? (q : Quote) (whole : Bool) (body : List Char) : Option Bytes := do
  let body ← if !q.long then if body.contains '\r' then none else some body
    else if whole then block? body
    else some (body.filter (· != '\r'))
  join? (← pieces? q (body.length + 1) body)

end Quote
end CircuitCompiler.Notation
