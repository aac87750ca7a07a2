import CircuitCompiler.Text.Digest

/-!
# The output cache

A cache keeps generated VHDL under keys. An entry also holds the key it was stored under and the
version of the format: an entry of another version or key is a miss, and one that cannot be read is
told apart from a miss.
-/

namespace CircuitCompiler

/-- The stored output of one component. -/
structure CachedUnit where
  version : Nat
  name : String
  /-- The path of the source. -/
  source : String
  vhdl : String
  key : Digest
  deriving DecidableEq

/-- What is stored under a key. -/
inductive CacheEntry where
  | unit (u : CachedUnit)
  /-- Bytes that are no entry. -/
  | unreadable
  deriving DecidableEq

/-- What looking for a key finds. -/
inductive Lookup where
  | miss
  | hit (u : CachedUnit)
  | unreadable
  deriving DecidableEq

/-- Entries by key. -/
structure Cache where
  entries : List (Digest × CacheEntry) := []

namespace Cache

/-- The version of the format. -/
def version : Nat := 1

/-- The stored entry of a key. -/
def entry? (c : Cache) (key : Digest) : Option CacheEntry :=
  (c.entries.find? fun e => e.1 == key).map (·.2)

/-- Stores an entry in place of the one before. -/
def store (c : Cache) (key : Digest) (e : CacheEntry) : Cache :=
  ⟨(c.entries.filter fun f => f.1 != key) ++ [(key, e)]⟩

/-- Stores the output of a component. -/
def put (c : Cache) (key : Digest) (name source vhdl : String) : Cache :=
  c.store key (.unit ⟨version, name, source, vhdl, key⟩)

/-- Looks for a key. -/
def get (c : Cache) (key : Digest) : Lookup :=
  match c.entry? key with
  | none => .miss
  | some .unreadable => .unreadable
  | some (.unit u) => if u.version = version ∧ u.key = key then .hit u else .miss

/-- The cache without entries. -/
def drop (_ : Cache) : Cache := {}

/-- Makes the entry of a key unreadable, if there is one. -/
def corrupt (c : Cache) (key : Digest) : Cache :=
  if (c.entry? key).isSome then c.store key .unreadable else c

/-- Makes all entries unreadable. -/
def corruptAll (c : Cache) : Cache := ⟨c.entries.map fun e => (e.1, .unreadable)⟩

/-- Stores the entry of one key under another as it is. -/
def copy (c : Cache) (source target : Digest) : Cache :=
  match c.entry? source with
  | some e => c.store target e
  | none => c

end Cache
end CircuitCompiler
