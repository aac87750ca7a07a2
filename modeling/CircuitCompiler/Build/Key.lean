import CircuitCompiler.Build.Analysis
import CircuitCompiler.Build.PatternSort
import CircuitCompiler.Text.Digest

/-!
# Keys

The key of a component stands for everything its VHDL depends on: the text of its chunk, the chosen
indentation, and the keys of the components it instantiates. It is a digest of a byte string that
determines these parts, so components with equal keys have equal output as far as the digest keeps
byte strings apart.
-/

namespace CircuitCompiler

/-- A component that another one depends on, with its key. -/
structure Dependency where
  name : String
  key : Digest
  deriving DecidableEq

namespace Key

/-- The byte string of one dependency: the length of its name, the name, its key. -/
def dependencyBytes (d : Dependency) : Bytes :=
  let name := Bytes.ofString d.name
  Digest.littleEndian32 name.length ++ name ++ d.key.bytes

/-- Dependencies in the order of their names. Different names leave only one order, and a few
dependencies keep the order in which they are given where names are equal. -/
def sortDependencies (ds : List Dependency) : List Dependency :=
  if ds.length ≤ 12 ∨ (ds.map (·.name)).Nodup then ds.mergeSort fun a b => nameLe a.name b.name
  else PatternSort.sort (fun a b => !nameLe b.name a.name) ds

/-- The byte string that stands for content and dependencies. -/
def combinedBytes (content : Digest) (ds : List Dependency) : Bytes :=
  content.bytes ++ (sortDependencies ds).flatMap dependencyBytes

/-- The key of a component with a content and dependencies; the order of the dependencies does not
matter. -/
def combine (content : Digest) (ds : List Dependency) : Digest :=
  Digest.ofBytes (combinedBytes content ds)

/-- The version of the output that the keys are for. -/
def version : Nat := 1

/-- The byte string that stands for the content of a component: version, indentation as a 16-bit
number, text. -/
def contentBytes (text : Bytes) (indent : Int) : Bytes :=
  Digest.littleEndian16 version ++ Digest.littleEndian16 (indent % 65536).toNat ++ text

/-- The digest of the content of a component. -/
def content (text : Bytes) (indent : Int) : Digest := Digest.ofBytes (contentBytes text indent)

end Key

namespace Build.Analysis

/-- The bytes of a chunk of one of the files. -/
def chunkText (a : Analysis) (c : Chunk) : Bytes :=
  ((a.sources.files.get? c.file).map fun f => c.text f).getD []

/-- The keys found so far of the components that a component instantiates. -/
def dependencyKeys (a : Analysis) (keys : List Dependency) (name : String) : List Dependency :=
  (a.design.depNames name).filterMap fun dep => keys.find? fun k => k.name == dep

/-- Adds the key of a component to those of the components before it. -/
def addKey (a : Analysis) (indent : Int) (keys : List Dependency) (name : String) :
    List Dependency :=
  match a.chunk? name with
  | none => keys
  | some c =>
    keys ++ [⟨name, Key.combine (Key.content (a.chunkText c) indent) (a.dependencyKeys keys name)⟩]

/-- The keys of the components that passed the check, each behind those it depends on. -/
def keys (a : Analysis) (indent : Int) : List Dependency :=
  a.verdict.order.foldl (a.addKey indent) []

end Build.Analysis
end CircuitCompiler
