import CircuitCompiler.Component.Parse

/-!
# Chunks

A file is cut before every `component` that stands outside braces, and the chunks are read on their
own: an error in one leaves the others alone. What stands before the first `component` belongs to
the first chunk. Cutting goes on behind bytes that form no token; the chunk they fall into reports
them.
-/

namespace CircuitCompiler

/-- The part of a file that holds one component. -/
structure Chunk where
  file : Nat
  path : String
  /-- The number of the chunk in its file. -/
  index : Nat
  start : Nat
  stop : Nat
  /-- The name behind `component`, or nothing where none is found. -/
  name : String
  deriving DecidableEq, Repr, Inhabited

namespace Chunk

/-- What a chunk is called, even if its name is not known. -/
def label (c : Chunk) : String :=
  if c.name == "" then c.path ++ "#" ++ toString c.index else c.name

/-- The bytes of a chunk. -/
def text (f : SourceFile) (c : Chunk) : Bytes := f.content.slice c.start c.stop

/-! ## Cutting -/

/-- Where a chunk starts and the name of its component. -/
structure Cut where
  start : Nat
  name : String
  deriving DecidableEq, Repr, Inhabited

/-- The state of cutting: how many braces are open, and the cuts made. -/
structure Cutting where
  depth : Nat := 0
  cuts : List Cut := []
  deriving DecidableEq, Repr, Inhabited

namespace Cutting

/-- Makes sure that there is a chunk for what was just met. -/
def begun (s : Cutting) : Cutting := if s.cuts.isEmpty then { s with cuts := [⟨0, ""⟩] } else s

/-- Cuts before a `component`; the first chunk starts with the file. -/
def cut (s : Cutting) (start : Nat) (name : String) : Cutting :=
  { s with cuts := s.cuts ++ [⟨if s.cuts.isEmpty then 0 else start, name⟩] }

/-- The name that the next token gives to a component. -/
def nameIn : List Token → String
  | t :: _ => if t.kind = .ident then t.name else ""
  | [] => ""

/-- Walks over tokens. -/
def walk : Cutting → List Token → Cutting
  | s, [] => s
  | s, t :: rest =>
    match t.kind with
    | .symbol .lbrace => walk { s with depth := s.depth + 1 }.begun rest
    | .symbol .rbrace => walk { s with depth := s.depth - 1 }.begun rest
    | .keyword .component =>
      if s.depth = 0 then walk (s.cut t.span.start (nameIn rest)) rest else walk s.begun rest
    | _ => walk s.begun rest

/-- Walks over a file from an offset on. Behind bytes that form no token it starts again, at least
one byte further on, so the length of the file bounds the number of starts. -/
def walkFile (f : SourceFile) : Nat → Nat → Cutting → Cutting
  | 0, _, s => s
  | fuel + 1, pos, s =>
    let stream := Stream.scan f.id pos (f.content.drop pos)
    let s := s.walk stream.tokens
    match stream.stop with
    | .eof _ => s
    | .fault e =>
      let resume := max e.span.stop (e.span.start + 1)
      if f.content.length ≤ resume then s.begun else walkFile f fuel resume s.begun

end Cutting

/-- The cuts of a file. -/
def cuts (f : SourceFile) : List Cut := (Cutting.walkFile f (f.content.length + 1) 0 {}).cuts

/-- The chunks between cuts, the first of which has the number `index`; the last chunk ends with the
file. -/
def between (f : SourceFile) (index : Nat) : List Cut → List Chunk
  | [] => []
  | [c] => [⟨f.id, f.path, index, c.start, f.content.length, c.name⟩]
  | c :: d :: rest =>
    ⟨f.id, f.path, index, c.start, d.start, c.name⟩ :: between f (index + 1) (d :: rest)

/-- The chunks of a file. -/
def split (f : SourceFile) : List Chunk := between f 0 (cuts f)

/-! ## Reading -/

/-- Reads the one component of a chunk; nothing may follow it. `keepText` keeps the text of raw
blocks. -/
def parse (f : SourceFile) (c : Chunk) (keepText : Bool) : Except CompileError Component :=
  let cursor := Cursor.ofRange f c.start c.stop
  let source? := if keepText then some f.content else none
  match Parse.component f.id (Reading.ofStream (.ofCursor cursor) cursor.point source?) with
  | (.error e, _) => .error e
  | (.ok component, r) =>
    match r.tokens, r.stop with
    | [], .eof _ => .ok component
    | [], .fault e => .error e
    | t :: _, _ => .error ⟨.unexpected .component t.kind.name, t.span⟩

end Chunk
end CircuitCompiler
