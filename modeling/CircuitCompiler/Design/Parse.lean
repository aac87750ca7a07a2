import CircuitCompiler.Component.Parse
import CircuitCompiler.Design.Basic

/-!
# Reading designs

A file is a sequence of components with distinct names. Each component is read with fresh
declarations; the first error ends the file.
-/

namespace CircuitCompiler

/-- Forgets what the component before declared. -/
def Reading.fresh (r : Reading) : Reading :=
  { r with widths := [], names := [], last := .point r.current.span.file r.current.span.stop }

namespace Design

/-- Reads components until the end of the tokens; the tokens left bound their number. -/
def parseFrom (file : Nat) : Nat → Reading → Design → Except CompileError Design
  | 0, r, _ => .error ⟨.parseFailed, r.last⟩
  | fuel + 1, r, d =>
    if r.current.kind = .eof then .ok d
    else
      match Parse.component file r.fresh with
      | (.error e, _) => .error e
      | (.ok c, r') =>
        match d.add? c with
        | some d' => parseFrom file fuel r' d'
        | none => .error ⟨.duplicateComponent c.name, c.nameSpan⟩

/-- Reads a file as a sequence of components; `keepText` keeps the text of raw blocks. -/
def parse (f : SourceFile) (keepText : Bool) : Except CompileError Design :=
  let c := Cursor.ofFile f
  let r := Reading.ofStream (.ofCursor c) c.point (if keepText then some f.content else none)
  parseFrom f.id (r.tokens.length + 1) r {}

end Design
end CircuitCompiler
