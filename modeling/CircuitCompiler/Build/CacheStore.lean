import CircuitCompiler.Build.Cache
import CircuitCompiler.FileTree

/-!
# The cache on disk

Each entry of a cache is a file of its own, named after its key. The file holds the version, three
texts with their lengths before them, and the key; any other file is an entry that cannot be read.
-/

namespace CircuitCompiler.Cache

/-! ## Entries as bytes -/

/-- A text with its length before it. -/
def encodeText (s : String) : Bytes :=
  let b := Bytes.ofString s
  Digest.littleEndian32 b.length ++ b

/-- The bytes of an entry. -/
def encode (u : CachedUnit) : Bytes :=
  Digest.littleEndian16 u.version ++
    encodeText u.name ++ encodeText u.source ++ encodeText u.vhdl ++
    u.key.bytes

/-- The number whose bytes these are, the least significant first. -/
def littleEndian (b : Bytes) : Nat := b.foldr (fun x n => x.toNat + 256 * n) 0

/-- Splits off some bytes, if there are as many. -/
def cut? (n : Nat) (b : Bytes) : Option (Bytes × Bytes) :=
  if n ≤ b.length then some (b.take n, b.drop n) else none

/-- Splits off a text. -/
def decodeText? (b : Bytes) : Option (String × Bytes) := do
  let (size, b) ← cut? 4 b
  let (text, b) ← cut? (littleEndian size) b
  if text.isUtf8 then some (text.text, b) else none

/-- The entry whose bytes these are. -/
def decode? (b : Bytes) : Option CachedUnit := do
  let (version, b) ← cut? 2 b
  let (name, b) ← decodeText? b
  let (source, b) ← decodeText? b
  let (vhdl, b) ← decodeText? b
  if h : b.length = 32 then some ⟨littleEndian version, name, source, vhdl, ⟨b, h⟩⟩ else none

/-! ## Entries as files -/

/-- The directory of the entries below the directory of the cache. -/
def entriesDir (dir : String) : String := PathName.join [dir, "units"]

/-- The path of the entry of a key. -/
def entryPath (dir : String) (key : Digest) : String :=
  PathName.join [entriesDir dir, String.ofList (key.hex.toList.take 2), key.hex ++ ".unit"]

/-- The value of a hexadecimal digit in lower case. -/
def hexDigit? (c : Char) : Option Nat :=
  if c.isDigit then some (c.toNat - 48)
  else if 'a' ≤ c && c ≤ 'f' then some (c.toNat - 87)
  else none

/-- The bytes that pairs of hexadecimal digits stand for. -/
def hexBytes? : List Char → Option Bytes
  | [] => some []
  | a :: b :: rest => do
    let high ← hexDigit? a
    let low ← hexDigit? b
    some (UInt8.ofNat (16 * high + low) :: (← hexBytes? rest))
  | [_] => none

/-- The key of the entry that a file name stands for. -/
def keyOfName? (name : String) : Option Digest := do
  let b ← hexBytes? (name.toList.take 64)
  if h : b.length = 32 then some ⟨b, h⟩ else none

/-- The cache in a directory. -/
def load (t : FileTree) (dir : String) : Cache :=
  match t.locate (entriesDir dir) with
  | .error _ => {}
  | .ok place => ⟨(t.filesBelow place).filterMap fun (es, content) => do
      let key ← keyOfName? (es.getLast?.getD "")
      let entry := match decode? content with
        | some u => CacheEntry.unit u
        | none => .unreadable
      some (key, entry)⟩

/-- Writes an entry; what cannot be written is not stored. -/
def writeEntry (dir : String) (t : FileTree) (e : Digest × CacheEntry) : FileTree :=
  match e.2 with
  | .unreadable => t
  | .unit u =>
    let path := entryPath dir e.1
    match t.makeDirs (PathName.dir path) >>= (·.write path (encode u)) with
    | .ok t => t
    | .error _ => t

/-- Writes the entries of a cache into a directory. -/
def save (c : Cache) (t : FileTree) (dir : String) : FileTree := c.entries.foldl (writeEntry dir) t

end CircuitCompiler.Cache
