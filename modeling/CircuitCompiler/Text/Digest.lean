import CircuitCompiler.Text.Bytes

/-!
# SHA-256 digests

A `Digest` is a string of thirty-two bytes. `Digest.ofBytes` computes the SHA-256 digest of a byte
string: the message is padded to whole blocks of sixty-four bytes (`pad`), and the blocks are folded
into a chaining state of eight words (`compress`).
-/

namespace CircuitCompiler

/-- Thirty-two bytes that stand for a longer byte string. -/
structure Digest where
  bytes : Bytes
  size : bytes.length = 32
  deriving DecidableEq

namespace Digest

/-- The four bytes of a word, most significant first. -/
def bigEndian32 (w : UInt32) : Bytes :=
  [(w >>> 24).toUInt8, (w >>> 16).toUInt8, (w >>> 8).toUInt8, w.toUInt8]

/-- The eight bytes of a 64-bit number, most significant first. -/
def bigEndian64 (n : Nat) : Bytes :=
  bigEndian32 (UInt32.ofNat (n / 4294967296)) ++ bigEndian32 (UInt32.ofNat n)

/-- The four bytes of a 32-bit number, least significant first. -/
def littleEndian32 (n : Nat) : Bytes :=
  [UInt8.ofNat n, UInt8.ofNat (n / 256), UInt8.ofNat (n / 65536), UInt8.ofNat (n / 16777216)]

/-- The two bytes of a 16-bit number, least significant first. -/
def littleEndian16 (n : Nat) : Bytes := [UInt8.ofNat n, UInt8.ofNat (n / 256)]

/-- The round constants: the first thirty-two fractional bits of the cube roots of the first
sixty-four primes. -/
def roundConstants : List UInt32 := [
  0x428a2f98, 0x71374491, 0xb5c0fbcf, 0xe9b5dba5, 0x3956c25b, 0x59f111f1, 0x923f82a4, 0xab1c5ed5,
  0xd807aa98, 0x12835b01, 0x243185be, 0x550c7dc3, 0x72be5d74, 0x80deb1fe, 0x9bdc06a7, 0xc19bf174,
  0xe49b69c1, 0xefbe4786, 0x0fc19dc6, 0x240ca1cc, 0x2de92c6f, 0x4a7484aa, 0x5cb0a9dc, 0x76f988da,
  0x983e5152, 0xa831c66d, 0xb00327c8, 0xbf597fc7, 0xc6e00bf3, 0xd5a79147, 0x06ca6351, 0x14292967,
  0x27b70a85, 0x2e1b2138, 0x4d2c6dfc, 0x53380d13, 0x650a7354, 0x766a0abb, 0x81c2c92e, 0x92722c85,
  0xa2bfe8a1, 0xa81a664b, 0xc24b8b70, 0xc76c51a3, 0xd192e819, 0xd6990624, 0xf40e3585, 0x106aa070,
  0x19a4c116, 0x1e376c08, 0x2748774c, 0x34b0bcb5, 0x391c0cb3, 0x4ed8aa4a, 0x5b9cca4f, 0x682e6ff3,
  0x748f82ee, 0x78a5636f, 0x84c87814, 0x8cc70208, 0x90befffa, 0xa4506ceb, 0xbef9a3f7, 0xc67178f2]

/-- The chaining state between blocks. -/
structure Chain where
  a : UInt32
  b : UInt32
  c : UInt32
  d : UInt32
  e : UInt32
  f : UInt32
  g : UInt32
  h : UInt32

namespace Chain

/-- The first thirty-two fractional bits of the square roots of the first eight primes. -/
def first : Chain :=
  ⟨0x6a09e667, 0xbb67ae85, 0x3c6ef372, 0xa54ff53a, 0x510e527f, 0x9b05688c, 0x1f83d9ab, 0x5be0cd19⟩

/-- Adds two states word by word. -/
def add (s t : Chain) : Chain :=
  ⟨s.a + t.a, s.b + t.b, s.c + t.c, s.d + t.d, s.e + t.e, s.f + t.f, s.g + t.g, s.h + t.h⟩

/-- The words of a state, most significant byte first. -/
def bytes (s : Chain) : Bytes :=
  bigEndian32 s.a ++ bigEndian32 s.b ++ bigEndian32 s.c ++ bigEndian32 s.d ++
  bigEndian32 s.e ++ bigEndian32 s.f ++ bigEndian32 s.g ++ bigEndian32 s.h

theorem length_bytes (s : Chain) : s.bytes.length = 32 := rfl

end Chain

/-- Rotates the bits of a word to the right; `n` lies between 1 and 31. -/
def rotate (w : UInt32) (n : UInt32) : UInt32 := (w >>> n) ||| (w <<< (32 - n))

/-- One of the sixty-four rounds, with its constant and its scheduled word. -/
def round (s : Chain) (step : UInt32 × UInt32) : Chain :=
  let sum1 := rotate s.e 6 ^^^ rotate s.e 11 ^^^ rotate s.e 25
  let choice := (s.e &&& s.f) ^^^ (~~~ s.e &&& s.g)
  let t1 := s.h + sum1 + choice + step.1 + step.2
  let sum0 := rotate s.a 2 ^^^ rotate s.a 13 ^^^ rotate s.a 22
  let majority := (s.a &&& s.b) ^^^ (s.a &&& s.c) ^^^ (s.b &&& s.c)
  ⟨t1 + (sum0 + majority), s.a, s.b, s.c, s.d + t1, s.e, s.f, s.g⟩

/-- Extends the sixteen words of a block by one scheduled word. -/
def extend (w : Array UInt32) (i : Nat) : Array UInt32 :=
  let x := w.getD (i + 1) 0
  let y := w.getD (i + 14) 0
  let s0 := rotate x 7 ^^^ rotate x 18 ^^^ (x >>> 3)
  let s1 := rotate y 17 ^^^ rotate y 19 ^^^ (y >>> 10)
  w.push (w.getD i 0 + s0 + w.getD (i + 9) 0 + s1)

/-- The sixty-four scheduled words of a block. -/
def schedule (block : List UInt32) : Array UInt32 := (List.range 48).foldl extend block.toArray

/-- Folds one block of sixteen words into the state. -/
def compress (s : Chain) (block : List UInt32) : Chain :=
  s.add ((roundConstants.zip (schedule block).toList).foldl round s)

/-- Reads big-endian words; the length of padded text is a multiple of four. -/
def words : Bytes → List UInt32
  | b0 :: b1 :: b2 :: b3 :: rest =>
    (b0.toUInt32 <<< 24 ||| b1.toUInt32 <<< 16 ||| b2.toUInt32 <<< 8 ||| b3.toUInt32) :: words rest
  | _ => []

/-- Groups words into blocks of sixteen, at most as many as there is fuel for. -/
def blocksUpTo : Nat → List UInt32 → List (List UInt32)
  | 0, _ => []
  | fuel + 1, ws => if ws.isEmpty then [] else ws.take 16 :: blocksUpTo fuel (ws.drop 16)

/-- Groups words into blocks of sixteen; the number of words bounds that of the blocks. -/
def blocks (ws : List UInt32) : List (List UInt32) := blocksUpTo ws.length ws

/-- The message, a one bit, zeros up to a whole block less eight bytes, and the length in bits. -/
def pad (message : Bytes) : Bytes :=
  message ++ 0x80 :: List.replicate ((119 - message.length % 64) % 64) 0 ++
    bigEndian64 (8 * message.length)

/-- The SHA-256 digest of a byte string. -/
def ofBytes (message : Bytes) : Digest :=
  let final := (blocks (words (pad message))).foldl compress Chain.first
  ⟨final.bytes, final.length_bytes⟩

/-- Thirty-two zero bytes. -/
def zero : Digest := ⟨List.replicate 32 0, rfl⟩

/-- The first thirty-two bytes of `b`, filled up with zeros on the right. -/
def padded (b : Bytes) : Digest :=
  ⟨(b ++ List.replicate 32 0).take 32, by simp⟩

/-- Lower-case hexadecimal text of a digest. -/
def hex (d : Digest) : String := d.bytes.hex

end Digest
end CircuitCompiler
