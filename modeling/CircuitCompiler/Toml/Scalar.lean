import CircuitCompiler.Text.Bytes
import CircuitCompiler.Toml.Basic

/-!
# Numbers, dates and times

The written forms of the values that are neither strings nor collections. Each reader takes a value
from the front of a text. Digits may be set apart by single underscores; a whole number of several
digits does not begin with zero and fits into 64 bits; a float is not beyond the largest of double
precision.
-/

namespace CircuitCompiler.Toml

/-- The value of digits. -/
def digitsValue (radix : Nat) (cs : List Char) : Nat :=
  Bytes.number radix (Bytes.ofString (String.ofList cs))

/-- Whether a character is a hexadecimal digit. -/
def isHexDigit (c : Char) : Bool :=
  c.isDigit || ('a' ≤ c && c ≤ 'f') || ('A' ≤ c && c ≤ 'F')

/-- Whether underscores stand between digits only: none at an end and no two together. -/
def spacedWell (cs : List Char) : Bool := go false cs
where
  /-- Walks the characters; `after` says whether a digit stands directly before. -/
  go (after : Bool) : List Char → Bool
    | [] => after
    | c :: rest => if c == '_' then after && go false rest else go true rest

/-- The digits without the underscores between them, if these are well placed. -/
def digits? (cs : List Char) : Option (List Char) :=
  if spacedWell cs then some (cs.filter (· != '_')) else none

/-- The digits of a whole number without leading zero. -/
def whole? (cs : List Char) : Option (List Char) := do
  let ds ← digits? cs
  if cs.head? == some '0' && 1 < cs.length then none else some ds

/-! ## Whole numbers -/

/-- A whole number, if it fits into 64 bits. -/
def integer? (negative : Bool) (n : Nat) : Option Written :=
  if negative then if n ≤ Nat.pow 2 63 then some (.integer (-n)) else none
  else if n < Nat.pow 2 63 then some (.integer n) else none

/-- The digits of the bases other than ten, by the letter that announces the base. -/
def base? : Char → Option (Nat × (Char → Bool))
  | 'b' => some (2, fun c => c == '0' || c == '1')
  | 'o' => some (8, fun c => '0' ≤ c && c ≤ '7')
  | 'x' => some (16, isHexDigit)
  | _ => none

/-- A number of another base, behind the letter that announces the base. -/
def based? (radix : Nat) (isDigit : Char → Bool) (cs : List Char) :
    Option (Written × List Char) := do
  let part (c : Char) : Bool := isDigit c || c == '_'
  let ds ← digits? (cs.takeWhile part)
  some (← integer? false (digitsValue radix ds), cs.dropWhile part)

/-! ## Floats -/

/-- The first value too large for double precision: half a step above the largest. -/
def doubleLimit : Nat := Nat.pow 2 1024 - Nat.pow 2 970

/-- Whether `n · 10^power` is too large for double precision. -/
def isTooLarge (n : Nat) (power : Int) : Bool :=
  if n = 0 then false
  else if 0 ≤ power then 400 < power || doubleLimit ≤ n * Nat.pow 10 power.toNat
  else if (Nat.toDigits 10 n).length < power.natAbs then false
  else doubleLimit * Nat.pow 10 power.natAbs ≤ n

/-- Splits off a sign. -/
def sign : List Char → Option Char × List Char
  | '+' :: rest => (some '+', rest)
  | '-' :: rest => (some '-', rest)
  | cs => (none, cs)

/-- The exponent of a float: nothing, or a letter and a whole number. -/
def exponent? : List Char → Option Int
  | [] => some 0
  | e :: rest => do
    if e != 'e' && e != 'E' then none
    else
      let (s, rest) := sign rest
      let digits ← if rest.all (fun c => c.isDigit || c == '_') then digits? rest else none
      let n := digitsValue 10 digits
      some (if s == some '-' then -(n : Int) else n)

/-- Whether a text of digits, points, signs and letters is a float, behind its sign. -/
def isFloat (cs : List Char) : Bool :=
  let part (c : Char) : Bool := c.isDigit || c == '_'
  let rest := cs.dropWhile part
  let (fraction?, rest) := match rest with
    | '.' :: more => (digits? (more.takeWhile part), more.dropWhile part)
    | _ => (some [], rest)
  match whole? (cs.takeWhile part), fraction?, exponent? rest with
  | some whole, some fraction, some power =>
    !isTooLarge (digitsValue 10 (whole ++ fraction)) (power - fraction.length)
  | _, _, _ => false

/-- A decimal number behind its sign. -/
def decimal? (sign? : Option Char) (cs : List Char) : Option (Written × List Char) := do
  let part (c : Char) : Bool := c.isDigit || c == '_'
  let rest := cs.dropWhile part
  if rest.head?.any fun c => c == '.' || c == 'e' || c == 'E' then
    let more (c : Char) : Bool := part c || ".-+eE".toList.contains c
    let lexeme := cs.takeWhile more
    if isFloat lexeme then some (.float (String.ofList (sign?.toList ++ lexeme)), cs.dropWhile more)
    else none
  else
    let ds ← whole? (cs.takeWhile part)
    some (← integer? (sign? == some '-') (digitsValue 10 ds), rest)

/-! ## Dates and times -/

/-- The number of days of a month. -/
def daysIn (year month : Nat) : Nat :=
  if month == 2 then
    if year % 4 == 0 && (year % 100 != 0 || year % 400 == 0) then 29 else 28
  else if [4, 6, 9, 11].contains month then 30 else 31

/-- A number of exactly `n` digits. -/
def fixed? (n : Nat) (cs : List Char) : Option (Nat × List Char) :=
  let ds := cs.take n
  if ds.length = n && ds.all Char.isDigit then some (digitsValue 10 ds, cs.drop n) else none

/-- The text behind one character. -/
def behind? (c : Char) : List Char → Option (List Char)
  | d :: rest => if c == d then some rest else none
  | [] => none

/-- A date of four, two and two digits. -/
def date? (cs : List Char) : Option (List Char) := do
  let (year, cs) ← fixed? 4 cs
  let (month, cs) ← fixed? 2 (← behind? '-' cs)
  let (day, cs) ← fixed? 2 (← behind? '-' cs)
  if 1 ≤ month && month ≤ 12 && 1 ≤ day && day ≤ daysIn year month then some cs else none

/-- A time of day; the hour may have one digit, and the seconds a fraction. -/
def time? (cs : List Char) : Option (List Char) := do
  let (hour, cs) ← (fixed? 2 cs).orElse fun _ => fixed? 1 cs
  let (minute, cs) ← fixed? 2 (← behind? ':' cs)
  let (second, cs) ← fixed? 2 (← behind? ':' cs)
  let cs := match cs with
    | '.' :: more => if more.head?.any Char.isDigit then more.dropWhile Char.isDigit else cs
    | _ => cs
  if hour < 24 && minute < 60 && second < 60 then some cs else none

/-- The distance of a place's time from universal time. -/
def offset? (cs : List Char) : Option (List Char) :=
  match cs with
  | 'Z' :: rest => some rest
  | s :: rest => do
    if s != '+' && s != '-' then none
    else
      let (hours, cs) ← fixed? 2 rest
      let (minutes, cs) ← fixed? 2 (← behind? ':' cs)
      if hours ≤ 24 && minutes ≤ 60 then some cs else none
  | [] => none

/-- Whether a text is a date, a time of day, or both with or without an offset. -/
def isMoment (cs : List Char) : Bool :=
  match date? cs with
  | some [] => true
  | some ('T' :: rest) =>
    match time? rest with
    | some [] => true
    | some cs => offset? cs == some []
    | none => false
  | _ => time? cs == some []

/-- The marks of dates and times in one spelling: a blank or `t` divides date and time as `T` does.
-/
def momentMark (c : Char) : Char :=
  if c == 't' || c == ' ' then 'T' else if c == 'z' then 'Z' else c

/-- A date or time at the front; blanks behind it do not belong to it. -/
def moment? (cs : List Char) : Option (Written × List Char) :=
  let part (c : Char) : Bool := c.isDigit || "-:Tt .Zz+".toList.contains c
  let lexeme := ((cs.takeWhile part).reverse.dropWhile (· == ' ')).reverse.map momentMark
  if isMoment lexeme then some (.moment (String.ofList lexeme), cs.dropWhile part) else none

/-! ## All of them -/

/-- A number, date or time that begins with a digit. -/
def digitsFirst? (cs : List Char) : Option (Written × List Char) :=
  let ds := cs.takeWhile Char.isDigit
  let next := (cs.dropWhile Char.isDigit).head?
  match (if ds == ['0'] then next.bind base? else none) with
  | some (radix, isDigit) => based? radix isDigit (cs.drop 2)
  | none =>
    if ds != ['0'] && next.any fun c => c == '-' || c == ':' then moment? cs else decimal? none cs

/-- The words that stand for values. -/
def words : List (String × Written) :=
  [("true", .boolean true), ("false", .boolean false), ("inf", .float "inf"), ("nan", .float "nan")]

/-- A word that stands for a value. -/
def word? (cs : List Char) : Option (Written × List Char) :=
  words.findSome? fun (w, v) =>
    if w.toList.isPrefixOf cs then some (v, cs.drop w.length) else none

/-- A number behind a sign. -/
def signed? (s : Char) (cs : List Char) : Option (Written × List Char) :=
  match word? cs with
  | some (.float w, rest) => some (.float (String.singleton s ++ w), rest)
  | some _ => none
  | none =>
    if cs.head?.any Char.isDigit then
      if cs.head? == some '0' && ((cs.drop 1).head?.bind base?).isSome then none
      else decimal? (some s) cs
    else none

/-- A number, a date, a time or a word at the front. -/
def scalar? (cs : List Char) : Option (Written × List Char) :=
  match cs with
  | '+' :: rest => signed? '+' rest
  | '-' :: rest => signed? '-' rest
  | c :: _ => if c.isDigit then digitsFirst? cs else word? cs
  | [] => none

end CircuitCompiler.Toml
