/-!
# Byte text

Source files are byte strings and need not be well-formed UTF-8. `Bytes` is the carrier of all text
that comes from a file; `Bytes.runes` reads it as UTF-8, one `Rune` a step, and keeps a byte that
begins no well-formed character as it is. `Bytes.latin` is the faithful picture of a byte string as
text, one character a byte; on ASCII, which is all that names and literals admit, it is the usual
reading.
-/

namespace CircuitCompiler

/-- A byte string. -/
abbrev Bytes := List UInt8

namespace Bytes

/-- The UTF-8 bytes of `s`. -/
def ofString (s : String) : Bytes := s.toUTF8.toList

/-- One character for each byte, with the byte as its code point. -/
def latin (b : Bytes) : String := String.ofList (b.map fun x => Char.ofNat x.toNat)

/-- The bytes of `b` from `start` up to, not including, `stop`. -/
def slice (b : Bytes) (start stop : Nat) : Bytes := (b.take stop).drop start

theorem slice_append (b : Bytes) {lo mid hi : Nat} (front : lo ≤ mid) (back : mid ≤ hi) :
    b.slice lo mid ++ b.slice mid hi = b.slice lo hi := by
  have split := List.take_append_drop (mid - lo) (b.slice lo hi)
  rw [slice, List.take_drop, List.drop_drop, Nat.add_sub_cancel' front, List.take_take,
    Nat.min_eq_left back] at split
  exact split

/-- Whether `head` is how `b` begins. -/
def startsWith (b head : Bytes) : Bool := head.isPrefixOf b

/-- Lexicographic comparison of byte strings. -/
def le : Bytes → Bytes → Bool
  | [], _ => true
  | _ :: _, [] => false
  | a :: as, b :: bs => if a < b then true else if b < a then false else le as bs

/-- The digits of a hexadecimal byte in lower case. -/
def hexByte (b : UInt8) : List Char :=
  [Nat.digitChar (b.toNat / 16), Nat.digitChar (b.toNat % 16)]

/-- Lower-case hexadecimal text of all bytes. -/
def hex (b : Bytes) : String := String.ofList (b.flatMap hexByte)

/-- The value of digits in a radix; letters of either case are digits from ten on. -/
def number (radix : Nat) (digits : Bytes) : Nat :=
  digits.foldl (fun n b =>
    let d := if b ≤ 57 then b.toNat - 48 else if b ≤ 70 then b.toNat - 55 else b.toNat - 87
    n * radix + d) 0

/-! ## Reading UTF-8 -/

/-- A step of reading UTF-8: a character, or a byte that begins none. -/
inductive Rune where
  | char (c : Char)
  | bad (b : UInt8)
  deriving DecidableEq, Repr, Inhabited

/-- Whether `b` continues a multi-byte character. -/
def isContinuation (b : UInt8) : Bool := b.toNat / 64 == 2

/-- Whether `b` lies between the two bounds. -/
private def between (low high : Nat) (b : UInt8) : Bool := low ≤ b.toNat && b.toNat ≤ high

/-- The well-formed character at the front of `b :: rest` and the number of bytes of `rest` it
takes. -/
def leadingChar (b : UInt8) (rest : Bytes) : Option (Char × Nat) :=
  let n := b.toNat
  let low (x : UInt8) := x.toNat % 64
  if n < 0x80 then some (Char.ofNat n, 0)
  else if between 0xC2 0xDF b then
    match rest with
    | b1 :: _ => if isContinuation b1 then some (Char.ofNat ((n % 32) * 64 + low b1), 1) else none
    | [] => none
  else if between 0xE0 0xEF b then
    match rest with
    | b1 :: b2 :: _ =>
      let least := if n == 0xE0 then 0xA0 else 0x80
      let greatest := if n == 0xED then 0x9F else 0xBF
      if between least greatest b1 && isContinuation b2 then
        some (Char.ofNat ((n % 16) * 4096 + low b1 * 64 + low b2), 2)
      else none
    | _ => none
  else if between 0xF0 0xF4 b then
    match rest with
    | b1 :: b2 :: b3 :: _ =>
      let least := if n == 0xF0 then 0x90 else 0x80
      let greatest := if n == 0xF4 then 0x8F else 0xBF
      if between least greatest b1 && isContinuation b2 && isContinuation b3 then
        some (Char.ofNat ((n % 8) * 262144 + low b1 * 4096 + low b2 * 64 + low b3), 3)
      else none
    | _ => none
  else none

/-- All runes of a byte string. -/
def runes : Bytes → List Rune
  | [] => []
  | b :: rest =>
    match leadingChar b rest with
    | some (c, n) => .char c :: runes (rest.drop n)
    | none => .bad b :: runes rest
termination_by b => b.length
decreasing_by
  · simp only [List.length_drop, List.length_cons]; omega
  · simp

/-- The replacement character. -/
def replacement : Char := Char.ofNat 0xFFFD

/-- The character of a rune, a stray byte being shown as the replacement character. -/
def Rune.toChar : Rune → Char
  | .char c => c
  | .bad _ => replacement

/-- Whether the bytes are well-formed UTF-8. -/
def isUtf8 (b : Bytes) : Bool := b.runes.all fun r => match r with
  | .char _ => true
  | .bad _ => false

/-- The text of a byte string, each stray byte being shown as the replacement character. -/
def text (b : Bytes) : String := String.ofList (b.runes.map Rune.toChar)

end Bytes
end CircuitCompiler
