import CircuitCompiler.Toml.Scalar

/-!
# Reading TOML

From a text to its statements. A text is UTF-8 without control characters other than tabs and line
ends; each statement ends with its line. Reading fails as a whole, without a reason.
-/

namespace CircuitCompiler.Toml

/-! ## Characters -/

/-- Whether a character divides words within a line. -/
def isGap (c : Char) : Bool := c == ' ' || c == '\t'

/-- Whether a character belongs to a line end. -/
def isLineEnd (c : Char) : Bool := c == '\n' || c == '\r'

/-- Whether a text may hold a character, in front of the rest: no control characters, a carriage
return only as part of a line end, and nothing that stands for a character lost. -/
def admits (c : Char) (rest : List Char) : Bool :=
  if c == '\t' || c == '\n' then true
  else if c == '\r' then rest.head? == some '\n'
  else 0x20 ≤ c.toNat && c.toNat != 0x7F && c != Bytes.replacement

/-- Whether all characters are admitted. -/
def admitsAll : List Char → Bool
  | [] => true
  | c :: rest => admits c rest && admitsAll rest

/-- A text without its byte order mark. -/
def withoutMark (text : Bytes) : Bytes :=
  if text.startsWith [0xFF, 0xFE] || text.startsWith [0xFE, 0xFF] then text.drop 2
  else if text.startsWith [0xEF, 0xBB, 0xBF] then text.drop 3
  else text

/-- The characters of a text, if all are admitted. -/
def characters? (text : Bytes) : Option (List Char) :=
  let text := withoutMark text
  if text.isUtf8 && admitsAll text.text.toList then some text.text.toList else none

/-- The text from the next line end on. -/
def skipLine (cs : List Char) : List Char := cs.dropWhile (!isLineEnd ·)

/-- The text behind blanks, line ends and comments. -/
def skipAll : Nat → List Char → List Char
  | 0, cs => cs
  | fuel + 1, cs =>
    match cs.dropWhile fun c => isGap c || isLineEnd c with
    | '#' :: rest => skipAll fuel (skipLine rest)
    | rest => rest

/-! ## Strings -/

/-- What a one-letter escape stands for. -/
def escapes : List (Char × Char) :=
  [('b', '\x08'), ('t', '\t'), ('n', '\n'), ('f', '\x0c'), ('r', '\r'), ('"', '"'), ('\\', '\\')]

/-- The character whose code has `n` hexadecimal digits, and the rest. -/
def coded? (n : Nat) (cs : List Char) : Option (Char × List Char) :=
  let ds := cs.take n
  let code := digitsValue 16 ds
  if ds.length = n && ds.all isHexDigit && code.isValidChar then some (Char.ofNat code, cs.drop n)
  else none

/-- The character of an escape behind its backslash, and the rest. -/
def escape? : List Char → Option (Char × List Char)
  | 'u' :: rest => coded? 4 rest
  | 'U' :: rest => coded? 8 rest
  | e :: rest => (escapes.lookup e).map (·, rest)
  | [] => none

/-- A string in one line behind its opening quote: its characters and the rest. -/
def basic? : Nat → List Char → Option (List Char × List Char)
  | 0, _ => none
  | _ + 1, [] => none
  | fuel + 1, c :: cs =>
    if c == '"' then some ([], cs)
    else if isLineEnd c then none
    else do
      let (d, rest) ← if c == '\\' then escape? cs else some (c, cs)
      let (ds, rest) ← basic? fuel rest
      some (d :: ds, rest)

/-- A string without escapes in one line behind its opening quote. -/
def literal? (cs : List Char) : Option (List Char × List Char) :=
  let body := cs.takeWhile fun c => c != '\'' && !isLineEnd c
  match cs.drop body.length with
  | '\'' :: rest => some (body, rest)
  | _ => none

/-- A text without a line end at its front. -/
def withoutFirstLineEnd : List Char → List Char
  | '\n' :: rest => rest
  | '\r' :: '\n' :: rest => rest
  | cs => cs

/-- The quotes directly before a place in a string of several lines: how many there are, and whether
a backslash stands before them. -/
structure QuoteRun where
  count : Nat := 0
  slash : Bool := false

/-- What a quote in a string of several lines does. -/
inductive QuoteRole where
  | closes
  | belongs
  | excess

/-- The role of a quote, from what stands before and behind it. Three quotes close a string, of more
the last three do; of five before the last two are still part of the string, and a sixth is too
many. -/
def QuoteRun.role (run : QuoteRun) (mark : Char) (behind : List Char) : QuoteRole :=
  if behind.take 2 != [mark, mark] then .belongs
  else if (behind.drop 2).head? != some mark then .closes
  else if run.count + 3 < 5 || (run.count + 3 == 5 && run.slash) then .belongs
  else .excess

/-- A string of several lines behind its opening quotes. A backslash at the end of a line joins it
with the next text. -/
def longBasic? : Nat → QuoteRun → List Char → Option (List Char × List Char)
  | 0, _, _ => none
  | _ + 1, _, [] => none
  | fuel + 1, run, c :: cs =>
    if c == '"' then
      match run.role '"' cs with
      | .closes => some ([], cs.drop 2)
      | .excess => none
      | .belongs => do
        let (ds, rest) ← longBasic? fuel { run with count := run.count + 1 } cs
        some (c :: ds, rest)
    else if c == '\\' then
      let space := cs.takeWhile fun c => isGap c || isLineEnd c
      if space.isEmpty then do
        let (d, rest) ← escape? cs
        let run : QuoteRun := match cs.head? with
          | some '"' => ⟨1, true⟩
          | e => ⟨0, e == some '\\'⟩
        let (ds, rest) ← longBasic? fuel run rest
        some (d :: ds, rest)
      else if space.contains '\n' then longBasic? fuel {} (cs.drop space.length)
      else none
    else do
      let (ds, rest) ← longBasic? fuel {} cs
      some (c :: ds, rest)

/-- A string without escapes of several lines behind its opening quotes. -/
def longLiteral? : QuoteRun → List Char → Option (List Char × List Char)
  | _, [] => none
  | run, c :: cs =>
    if c == '\'' then
      match run.role '\'' cs with
      | .closes => some ([], cs.drop 2)
      | .excess => none
      | .belongs =>
        (longLiteral? { run with count := run.count + 1 } cs).map fun (ds, rest) =>
          (c :: ds, rest)
    else (longLiteral? {} cs).map fun (ds, rest) => (c :: ds, rest)

/-- A string in one line. -/
def string? (cs : List Char) : Option (String × List Char) := do
  let (ds, rest) ← match cs with
    | '"' :: rest => basic? (rest.length + 1) rest
    | '\'' :: rest => literal? rest
    | _ => none
  some (String.ofList ds, rest)

/-- A string of either kind. -/
def anyString? (cs : List Char) : Option (String × List Char) := do
  match cs with
  | '"' :: '"' :: '"' :: rest =>
    let body := withoutFirstLineEnd rest
    let (ds, rest) ← longBasic? (body.length + 1) {} body
    some (String.ofList ds, rest)
  | '\'' :: '\'' :: '\'' :: rest =>
    let (ds, rest) ← longLiteral? {} (withoutFirstLineEnd rest)
    some (String.ofList ds, rest)
  | _ => string? cs

/-! ## Keys -/

/-- A name of a key: a string in one line, or a bare name. -/
def name? (cs : List Char) : Option (String × List Char) :=
  if cs.head? == some '"' || cs.head? == some '\'' then string? cs
  else
    let bare := cs.takeWhile isBare
    if bare.isEmpty then none else some (String.ofList bare, cs.drop bare.length)

/-- A key: names with dots between them. The rest begins behind the blanks that follow. -/
def key? : Nat → List Char → Option (Key × List Char)
  | 0, _ => none
  | fuel + 1, cs => do
    let (name, rest) ← name? (cs.dropWhile isGap)
    match rest.dropWhile isGap with
    | '.' :: rest =>
      let (names, rest) ← key? fuel rest
      some (name :: names, rest)
    | rest => some ([name], rest)

/-! ## Values -/

mutual

/-- A value at the front, behind blanks. -/
def value? : Nat → List Char → Option (Written × List Char)
  | 0, _ => none
  | fuel + 1, cs =>
    match cs.dropWhile isGap with
    | '[' :: rest => do
      let (items, rest) ← items? fuel rest
      some (.array items, rest)
    | '\x7b' :: rest => do
      match rest.dropWhile isGap with
      | '\x7d' :: rest => some (.inlineTable [], rest)
      | rest =>
        let (fields, rest) ← fields? fuel rest
        some (.inlineTable fields, rest)
    | cs =>
      if cs.head? == some '"' || cs.head? == some '\'' then
        (anyString? cs).map fun (s, rest) => (.text s, rest)
      else scalar? cs

/-- The items of an array up to its closing bracket; the last may be followed by a comma. -/
def items? : Nat → List Char → Option (List Written × List Char)
  | 0, _ => none
  | fuel + 1, cs =>
    match skipAll (cs.length + 1) cs with
    | ']' :: rest => some ([], rest)
    | cs => do
      let (v, rest) ← value? fuel cs
      match skipAll (rest.length + 1) rest with
      | ',' :: rest =>
        let (vs, rest) ← items? fuel rest
        some (v :: vs, rest)
      | ']' :: rest => some ([v], rest)
      | _ => none

/-- The fields of a table in one line, up to its closing brace. -/
def fields? : Nat → List Char → Option (List (Key × Written) × List Char)
  | 0, _ => none
  | fuel + 1, cs => do
    let (key, rest) ← key? (cs.length + 1) cs
    let (v, rest) ← match rest with
      | '=' :: rest => value? fuel rest
      | _ => none
    match rest.dropWhile isGap with
    | ',' :: rest =>
      let (fields, rest) ← fields? fuel rest
      some ((key, v) :: fields, rest)
    | '\x7d' :: rest => some ([(key, v)], rest)
    | _ => none

end

/-! ## Statements -/

/-- The statement at the front, and the rest. -/
def statement? (cs : List Char) : Option (Statement × List Char) := do
  match cs with
  | '[' :: '[' :: rest =>
    let (key, rest) ← key? (rest.length + 1) rest
    match rest with
    | ']' :: ']' :: rest => some (.element key, rest)
    | _ => none
  | '[' :: rest =>
    let (key, rest) ← key? (rest.length + 1) rest
    match rest with
    | ']' :: rest => some (.table key, rest)
    | _ => none
  | _ =>
    let (key, rest) ← key? (cs.length + 1) cs
    match rest with
    | '=' :: rest =>
      let (v, rest) ← value? (2 * rest.length + 2) rest
      some (.pair key v, rest)
    | _ => none

/-- Whether a statement may end here: with its line, a comment or the text. -/
def endsStatement (cs : List Char) : Bool :=
  match cs.dropWhile isGap with
  | [] => true
  | c :: _ => c == '#' || isLineEnd c

/-- All statements. -/
def statements? : Nat → List Char → Option (List Statement)
  | 0, _ => none
  | fuel + 1, cs =>
    match skipAll (cs.length + 1) cs with
    | [] => some []
    | cs => do
      let (s, rest) ← statement? cs
      if endsStatement rest then some (s :: (← statements? fuel rest)) else none

/-- The statements of a text, if it is TOML. -/
def parse? (text : Bytes) : Option (List Statement) := do
  let cs ← characters? text
  statements? (cs.length + 1) cs

end CircuitCompiler.Toml
