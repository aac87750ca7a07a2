import CircuitCompiler.Token.Basic

/-!
# Scanning

How bytes fall into lexemes. `gap` reads the white space and comments at the front of a byte string,
`lexeme` the one token or fault that follows, and `read` both with their places. The scope decides
only which of their two kinds the lexemes `<=` and `:` get.
-/

namespace CircuitCompiler
namespace Scan

/-! ## Classes of bytes -/

/-- A letter, which is what names start with. -/
def isLetter (b : UInt8) : Bool := (65 ≤ b && b ≤ 90) || (97 ≤ b && b ≤ 122)

/-- A decimal digit. -/
def isDecimal (b : UInt8) : Bool := 48 ≤ b && b ≤ 57

/-- A binary digit. -/
def isBinary (b : UInt8) : Bool := b == 48 || b == 49

/-- A hexadecimal digit of either case. -/
def isHexadecimal (b : UInt8) : Bool :=
  isDecimal b || (97 ≤ b && b ≤ 102) || (65 ≤ b && b ≤ 70)

/-- A letter, digit or underscore, which is what names go on with. -/
def isNameByte (b : UInt8) : Bool := isLetter b || isDecimal b || b == 95

/-- White space other than the newline. -/
def isSpace (b : UInt8) : Bool := b == 32 || b == 9 || b == 13 || b == 12 || b == 11

/-! ## White space and comments -/

/-- One run of white space or one comment; `closed` is false for a comment without an end. -/
structure Trivium where
  kind : TriviaKind
  text : Bytes
  closed : Bool := true

/-- The front of `b` up to and including the first end of a block comment. -/
def toCommentEnd : Bytes → Option Bytes
  | 42 :: 47 :: _ => some [42, 47]
  | b :: rest => (toCommentEnd rest).map (b :: ·)
  | [] => none

/-- The white space or comment at the front of a byte string. -/
def trivium : Bytes → Option Trivium
  | [] => none
  | b :: rest =>
    if isSpace b then some ⟨.space, b :: rest.takeWhile isSpace, true⟩
    else if b == 10 then some ⟨.newline, b :: rest.takeWhile (· == 10), true⟩
    else if b == 47 then
      match rest with
      | 47 :: _ => some ⟨.lineComment, b :: rest.takeWhile (· != 10), true⟩
      | 42 :: body =>
        match toCommentEnd body with
        | some text => some ⟨.blockComment, b :: 42 :: text, true⟩
        | none => some ⟨.blockComment, b :: rest, false⟩
      | _ => none
    else none

/-- Trivia take at least one byte. -/
theorem trivium_shortens {b : Bytes} {t : Trivium} (h : trivium b = some t) :
    (b.drop t.text.length).length < b.length := by
  cases b with
  | nil => simp [trivium] at h
  | cons c rest =>
    have pos : 0 < t.text.length := by
      simp only [trivium] at h
      repeat' split at h
      all_goals first | (injection h with h; subst h; simp) | cases h
    simp only [List.length_drop, List.length_cons]
    omega

/-- What stands before a token: the trivia, the fault if a comment has no end, and the place behind.
-/
structure Gap where
  trivia : List Trivia
  fault : Option CompileError
  pos : Nat
  rest : Bytes

/-- Reads all white space and comments at the front of `b`, which starts at offset `pos`. -/
def gap (file pos : Nat) (b : Bytes) : Gap :=
  match _h : trivium b with
  | none => ⟨[], none, pos, b⟩
  | some t =>
    let span : Span := ⟨file, pos, pos + t.text.length⟩
    let more := gap file (pos + t.text.length) (b.drop t.text.length)
    { more with
      trivia := ⟨t.kind, span, t.text⟩ :: more.trivia
      fault := if t.closed then more.fault else some ⟨.unterminatedComment, span⟩ }
termination_by b.length
decreasing_by exact trivium_shortens _h

/-! ## Lexemes -/

/-- The lexeme at the front of a byte string. A broken one has a cause and the place in its text
where the fault starts. -/
inductive Lexeme where
  | token (kind : Kind) (text value : Bytes)
  | broken (text : Bytes) (cause : Cause) (faultAt : Nat)

/-- The bytes of a lexeme. -/
def Lexeme.text : Lexeme → Bytes
  | token _ text _ => text
  | broken text _ _ => text

/-- A name or reserved word that starts with the letter `b`. -/
def word (b : UInt8) (rest : Bytes) : Lexeme :=
  let text := b :: rest.takeWhile isNameByte
  match Keyword.ofSpelling? (Bytes.latin text) with
  | some w => .token (.keyword w) text text
  | none => .token .ident text text

/-- The radix that the start of a number selects: its form, its digits and its mark. -/
def radix : Bytes → LiteralForm × (UInt8 → Bool) × Bytes
  | 48 :: 120 :: _ => (.hexInt, isHexadecimal, [48, 120])
  | 48 :: 98 :: _ => (.binInt, isBinary, [48, 98])
  | _ => (.int, isDecimal, [])

/-- A number; it is broken if its radix mark has no digits or if name bytes are glued to it. -/
def number (b : Bytes) : Lexeme :=
  let (form, isDigit, mark) := radix b
  let body := b.drop mark.length
  let digits := body.takeWhile isDigit
  let glued := (body.drop digits.length).takeWhile isNameByte
  let text := mark ++ digits ++ glued
  if digits.isEmpty || !glued.isEmpty then .broken text (.malformedInteger text) 0
  else .token (.literal form) text digits

/-- A vector literal behind its opening; digits reach up to a quote on the same line. -/
def vector (form : LiteralForm) (isDigit : UInt8 → Bool) (opening rest : Bytes) : Lexeme :=
  let digits := rest.takeWhile isDigit
  match rest.drop digits.length with
  | [] => .broken (opening ++ digits) .unterminatedVector 0
  | b :: _ =>
    if b == 34 then .token (.literal form) (opening ++ digits ++ [b]) digits
    else if b == 10 then .broken (opening ++ digits) .unterminatedVector 0
    else .broken (opening ++ digits ++ [b]) .badVectorDigit (opening.length + digits.length)

/-- The symbols of two bytes. -/
def symbol2 (scope : Scope) (b0 b1 : UInt8) : Option Symbol :=
  match Char.ofNat b0.toNat, Char.ofNat b1.toNat with
  | '*', '*' => some .starStar
  | '=', '=' => some .eqEq
  | '!', '=' => some .bangEq
  | '>', '=' => some .gtEq
  | '<', '=' => some (if scope = .relational then .ltEq else .sigAssign)
  | _, _ => none

/-- The symbols of one byte. -/
def symbol1 (scope : Scope) (b : UInt8) : Option Symbol :=
  match Char.ofNat b.toNat with
  | '+' => some .plus
  | '-' => some .minus
  | '*' => some .star
  | '/' => some .slash
  | '%' => some .percent
  | '?' => some .question
  | ':' => some (if scope = .index then .rangeSep else .colon)
  | '&' => some .amp
  | '|' => some .pipe
  | '^' => some .caret
  | '!' => some .bang
  | '<' => some .lt
  | '>' => some .gt
  | '=' => some .assign
  | '(' => some .lparen
  | ')' => some .rparen
  | '{' => some .lbrace
  | '}' => some .rbrace
  | '[' => some .lbracket
  | ']' => some .rbracket
  | ',' => some .comma
  | '.' => some .dot
  | ';' => some .semicolon
  | _ => none

/-- The symbol of two bytes at the front of `b :: rest`, if there is one. -/
def leadingPair (scope : Scope) (b : UInt8) (rest : Bytes) : Option (Symbol × UInt8) :=
  match rest with
  | [] => none
  | b1 :: _ => (symbol2 scope b b1).map (·, b1)

/-- A symbol, the longer one where two fit; any other byte is a fault that takes the rest of its
character along. -/
def punctuation (scope : Scope) (b : UInt8) (rest : Bytes) : Lexeme :=
  match leadingPair scope b rest with
  | some (s, b1) => .token (.symbol s) [b, b1] [b, b1]
  | none =>
    match symbol1 scope b with
    | some s => .token (.symbol s) [b] [b]
    | none =>
      let text := b :: rest.takeWhile Bytes.isContinuation
      .broken text (.unknownCharacter text) 0

/-- The lexeme at the front of `b :: rest`, where no white space or comment stands. -/
def lexeme (scope : Scope) (b : UInt8) (rest : Bytes) : Lexeme :=
  if b == 120 && rest.head? == some 34 then vector .hexVec isHexadecimal [b, 34] (rest.drop 1)
  else if isLetter b then word b rest
  else if isDecimal b then number (b :: rest)
  else if b == 34 then vector .binVec isBinary [b] rest
  else punctuation scope b rest

/-! ## Tokens -/

/-- A token with the place behind it, and the fault if there is one. -/
structure Step where
  token : Token
  fault : Option CompileError
  pos : Nat
  rest : Bytes

/-- Reads one token of `b`, which starts at offset `pos`. -/
def read (scope : Scope) (file pos : Nat) (b : Bytes) : Step :=
  let g := gap file pos b
  match g.fault with
  | some e => ⟨.invalid e.span, some e, g.pos, g.rest⟩
  | none =>
    match g.rest with
    | [] => ⟨.eof (.point file g.pos), none, g.pos, []⟩
    | c :: rest =>
      let found := lexeme scope c rest
      let stop := g.pos + found.text.length
      let behind := (c :: rest).drop found.text.length
      match found with
      | .token kind text value =>
        ⟨⟨kind, ⟨file, g.pos, stop⟩, text, value, g.trivia⟩, none, stop, behind⟩
      | .broken text cause faultAt =>
        ⟨⟨.invalid, ⟨file, g.pos, stop⟩, text, [], g.trivia⟩,
          some ⟨cause, ⟨file, g.pos + faultAt, stop⟩⟩, stop, behind⟩

end Scan
end CircuitCompiler
