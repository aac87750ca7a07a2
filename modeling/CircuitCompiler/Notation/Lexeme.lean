import CircuitCompiler.Notation.Quoted
import CircuitCompiler.Text.Letter

/-!
# Lexemes of the notation

The text of facts as a list of lexemes. A line that ends in a lexeme which can end a declaration
ends with a comma that is not written, unless the next line goes on with a comma or a colon. A
quoted text with expressions in it is divided: its first part, the lexemes of an expression, the
part behind it.
-/

namespace CircuitCompiler.Notation

/-- A lexeme of the notation. -/
inductive Lexeme where
  /-- An operator or a bracket. -/
  | mark (text : String)
  | name (text : String)
  | number (n : Number)
  /-- A quoted text, or the first part of one that is interrupted by an expression. -/
  | quoted (bytes : Bool) (content : Bytes) (stop : Stop)
  /-- The part of a quoted text behind an expression. -/
  | resumed (content : Bytes) (stop : Stop)
  | comma (written : Bool)
  /-- A remark for other tools. -/
  | remark
  deriving DecidableEq, Repr, Inhabited

namespace Lexeme

/-! ## Names and marks -/

/-- Whether a character begins a name that is not hidden. -/
def startsName (c : Char) : Bool := Text.isLetter c || c == '$' || c == '#'

/-- Whether a character goes on with a name. -/
def continuesName (c : Char) : Bool :=
  Text.isLetter c || Text.isDecimalDigit c || c == '_' || c == '$'

/-- The length of the name at the front: an underscore for hidden names, a hash mark for
definitions, then letters and digits; a digit does not follow the hash mark. -/
def nameLength (cs : List Char) : Nat :=
  let hidden := if cs.head? == some '_' then 1 else 0
  let again := if hidden == 1 && (cs.drop 1).head? == some '_' then 1 else 0
  let start := hidden + again
  let hash := if (cs.drop start).head? == some '#' then 1 else 0
  let rest := cs.drop (start + hash)
  if hash == 1 && rest.head?.any Text.isDecimalDigit then start + hash
  else start + hash + (rest.takeWhile continuesName).length

/-- The operators and brackets, a longer one before those it begins with. -/
def marks : List String :=
  ["...", "_|_", "::", "<=", "<-", ">=", "==", "=~", "!=", "!~", "&&", "||", "\x7b", "\x7d",
    "[", "]", "(", ")", ":", ";", "?", ".", "+", "-", "*", "/", "<", ">", "=", "!", "&", "|"]

/-- The operator or bracket at the front. -/
def mark? (cs : List Char) : Option (String × List Char) := do
  let m ← marks.find? fun m => m.toList.isPrefixOf cs
  some (m, cs.drop m.length)

/-- Whether a line that ends in this lexeme ends with a comma that is not written. -/
def closesLine : Lexeme → Bool
  | mark m => ["...", "_|_", "]", "\x7d", ")", ";", "?"].contains m
  | quoted _ _ stop | resumed _ stop => stop == .closed
  | comma _ => false
  | _ => true

/-! ## Remarks -/

/-- The text behind the parenthesis that closes a remark; quoted text inside it does not count. -/
def skipRemark : Nat → Nat → List Char → Option (List Char)
  | 0, _, _ => none
  | _ + 1, _, [] => none
  | fuel + 1, depth, c :: cs =>
    if c == '(' || c == '[' || c == '\x7b' then skipRemark fuel (depth + 1) cs
    else if c == ')' || c == ']' || c == '\x7d' then
      if depth == 0 then if c == ')' then some cs else none else skipRemark fuel (depth - 1) cs
    else if c == '"' || c == '\'' then do
      let (_, _, rest) ← Quote.body? ⟨c, 0, false⟩ fuel cs
      skipRemark fuel depth rest
    else skipRemark fuel depth cs

/-- The text behind a remark, behind its announcement. -/
def remark? (cs : List Char) : Option (List Char) :=
  match (cs.drop (nameLength cs)).dropWhile fun c => c == ' ' || c == '\t' with
  | '(' :: rest => skipRemark (rest.length + 1) 0 rest
  | _ => none

/-! ## Quoted text -/

/-- The lexeme of a quoted text from its content on. -/
def quotedFrom? (fuel : Nat) (q : Quote) (first : Bool) (cs : List Char) :
    Option (Lexeme × List Char) := do
  let (body, stop, rest) ← q.body? fuel cs
  let content ← q.content? (first && stop == .closed) body
  some (if first then quoted q.isBytes content stop else resumed content stop, rest)

/-- How the text at the front is quoted, and the text behind the opening quotes. Three quotes are
followed by a line break. -/
def quote? (cs : List Char) : Option (Quote × List Char) :=
  let hashes := (cs.takeWhile (· == '#')).length
  match cs.drop hashes with
  | m :: rest =>
    if m != '"' && m != '\'' then none
    else if rest.take 2 == [m, m] then
      match rest.drop 2 with
      | '\n' :: rest | '\r' :: '\n' :: rest => some (⟨m, hashes, true⟩, rest)
      | _ => none
    else some (⟨m, hashes, false⟩, rest)
  | [] => none

/-! ## All lexemes -/

/-- What is left open while lexemes are read: whether the line so far would end with a comma, and
the quotes around the expression that is being read, each with the number of parentheses open in it.
-/
structure Reading where
  ends : Bool := false
  quotes : List (Quote × Nat) := []

/-- Counts parentheses inside an expression of a quoted text. -/
def Reading.count (s : Reading) (m : String) : Reading :=
  match s.quotes with
  | (q, n) :: rest =>
    if m == "(" then { s with quotes := (q, n + 1) :: rest }
    else if m == ")" then { s with quotes := (q, n - 1) :: rest }
    else s
  | [] => s

/-- The lexeme at the front of a text that does not begin with a blank, with the quotes that are
then open. -/
def first? (fuel : Nat) (s : Reading) (cs : List Char) : Option (Lexeme × Reading × List Char) := do
  let c ← cs.head?
  match s.quotes, c with
  | (q, 0) :: outer, ')' =>
    let (l, rest) ← quotedFrom? fuel q false (cs.drop 1)
    let quotes := if l.closesLine then outer else (q, 0) :: outer
    some (l, { s with quotes }, rest)
  | _, _ =>
    if c.isDigit || c == '.' && (cs.drop 1).head?.any Char.isDigit then
      let (n, rest) ← Number.read? cs
      some (number n, s, rest)
    else if (quote? cs).isSome then
      let (q, rest) ← quote? cs
      let (l, rest) ← quotedFrom? fuel q true rest
      some (l, if l.closesLine then s else { s with quotes := (q, 0) :: s.quotes }, rest)
    else if c == ',' then some (comma true, s, cs.drop 1)
    else if c == '@' then some (remark, s, ← remark? (cs.drop 1))
    else if startsName c || c == '_' && (cs.drop 1).head? != some '|' then
      let n := nameLength cs
      some (name (String.ofList (cs.take n)), s, cs.drop n)
    else
      let (m, rest) ← mark? cs
      some (mark m, s.count m, rest)

/-- Whether a character is a blank. -/
def isBlank (c : Char) : Bool := c == ' ' || c == '\t' || c == '\r'

/-- All lexemes. -/
def all? : Nat → Reading → List Char → Option (List Lexeme)
  | 0, _, _ => none
  | _ + 1, s, [] => if s.quotes.isEmpty then some (if s.ends then [comma false] else []) else none
  | fuel + 1, s, c :: cs =>
    if c == '\n' then
      let rest := cs.dropWhile fun c => isBlank c || c == '\n'
      let goesOn := rest.head?.any fun c => c == ',' || c == ':'
      (all? fuel { s with ends := false } rest).map fun ls =>
        if s.ends && !goesOn then comma false :: ls else ls
    else if isBlank c then all? fuel s cs
    else if c == '/' && cs.head? == some '/' then
      (all? fuel { s with ends := false } (cs.dropWhile (· != '\n'))).map fun ls =>
        if s.ends then comma false :: ls else ls
    else do
      let (l, s, rest) ← first? (fuel + 1) s (c :: cs)
      (← all? fuel { s with ends := l.closesLine } rest) |> fun ls => some (l :: ls)

/-- The byte order mark. -/
def byteOrderMark : Char := Char.ofNat 0xFEFF

/-- The lexemes of a text, which is UTF-8 with a byte order mark at most in front. -/
def ofText? (text : Bytes) : Option (List Lexeme) :=
  if text.isUtf8 then
    let cs := text.text.toList
    let cs := if cs.head? == some byteOrderMark then cs.drop 1 else cs
    if cs.any fun c => c.toNat == 0 || c == byteOrderMark then none
    else all? (cs.length + 1) {} cs
  else none

end Lexeme
end CircuitCompiler.Notation
