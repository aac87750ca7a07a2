import CircuitCompiler.Text.Bytes
import CircuitCompiler.Text.Printable

/-!
# Quoted text

A quoted text stands between double quotes. The quote and the backslash are escaped with a
backslash, the seven control characters with a letter of their own by that letter, any other
unprintable character by its code, and a byte that is part of no character by its two hexadecimal
digits; so the quoted form names the byte string exactly.
-/

namespace CircuitCompiler.Text

/-- The low `n` hexadecimal digits of `x`, in lower case. -/
def hexDigits : Nat → Nat → List Char
  | 0, _ => []
  | n + 1, x => hexDigits n (x / 16) ++ [Nat.digitChar (x % 16)]

namespace Quoted

/-- The letter that stands for a control character after a backslash. -/
def shortEscape (c : Char) : Option Char :=
  match c.toNat with
  | 7 => some 'a'
  | 8 => some 'b'
  | 9 => some 't'
  | 10 => some 'n'
  | 11 => some 'v'
  | 12 => some 'f'
  | 13 => some 'r'
  | _ => none

/-- The quoted form of one character. -/
def char (c : Char) : List Char :=
  if c == '"' || c == '\\' then ['\\', c]
  else if isPrintable c then [c]
  else match shortEscape c with
    | some letter => ['\\', letter]
    | none =>
      if c.toNat < 0x20 || c.toNat == 0x7F then '\\' :: 'x' :: hexDigits 2 c.toNat
      else if c.toNat < 0x10000 then '\\' :: 'u' :: hexDigits 4 c.toNat
      else '\\' :: 'U' :: hexDigits 8 c.toNat

/-- The quoted form of one step of reading. -/
def rune : Bytes.Rune → List Char
  | .char c => char c
  | .bad b => '\\' :: 'x' :: hexDigits 2 b.toNat

/-- A byte string between quotes. -/
def ofBytes (b : Bytes) : String := String.ofList ('"' :: b.runes.flatMap rune ++ ['"'])

/-- A text between quotes. -/
def ofString (s : String) : String := String.ofList ('"' :: s.toList.flatMap char ++ ['"'])

end Quoted
end CircuitCompiler.Text
