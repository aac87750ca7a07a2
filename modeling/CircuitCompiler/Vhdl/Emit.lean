import CircuitCompiler.Vhdl.Line
import CircuitCompiler.Vhdl.Lowering

/-!
# Emitting VHDL

Each component becomes one design unit: library clauses, an entity with its generics and ports, and
an architecture with the interfaces of its subcomponents, its declarations, its instances and its
assignments. Raw blocks are left as a remark.
-/

namespace CircuitCompiler.Vhdl

/-- The lines every design unit starts with. -/
def libraryClauses : List Line :=
  [flush "library ieee;", flush "use ieee.std_logic_1164.all;", flush "use ieee.numeric_std.all;"]

/-! ## Interfaces -/

/-- A generic as the interface lists it. -/
def genericItem (d : Decl) : String := d.name ++ " : " ++ d.vhdlType

/-- The mode of a port, filled up so that types line up. -/
def portMode : Role → String
  | .port .output => "out"
  | _ => "in "

/-- A port as the interface lists it, its name filled up to a width. -/
def portItem (nameWidth : Nat) (d : Decl) : String :=
  Text.padRight nameWidth d.name ++ " : " ++ portMode d.role ++ " " ++ d.vhdlType

/-- The length of the longest name. -/
def longestName (ds : List Decl) : Nat := (ds.map (·.name.length)).foldl max 0

/-- The generics and ports of a component. -/
def interfaceLines (c : Component) : List Line :=
  clause "generic" (c.generics.map genericItem) ";" ";" ++
    clause "port" (c.ports.map (portItem (longestName c.ports))) ";" ";"

/-- The entity of a component. -/
def entityLines (c : Component) : List Line :=
  flush ("entity " ++ c.name ++ " is") :: indented (interfaceLines c) ++ [flush "end entity;"]

/-! ## Declarations -/

/-- The known components that are instantiated, each once and in the order of their first instance.
-/
def subcomponents (l : Lowering) : List Component :=
  (l.sockets.filterMap (·.sub?)).eraseDupsBy fun a b => a.name == b.name

/-- The declaration of a subcomponent. -/
def subcomponentLines (c : Component) : List Line :=
  flush ("component " ++ c.name ++ " is") :: indented (interfaceLines c) ++ [flush "end component;"]

/-- Whether a declaration is one of a signal. -/
def isSignal (d : Decl) : Bool := d.role matches .signal

/-- The declaration of a signal, a variable or a constant. -/
def declLine (d : Decl) : Line :=
  match d.role with
  | .variableRole => flush ("shared variable " ++ d.name ++ " : " ++ d.vhdlType ++ ";")
  | .constant value =>
    flush ("constant " ++ d.name ++ " : " ++ d.vhdlType ++ " := " ++ value.vhdl ++ ";")
  | _ => flush ("signal " ++ d.name ++ " : " ++ d.vhdlType ++ ";")

/-- The declarations of an architecture: signals first, then the others. -/
def declLines (c : Component) : List Line :=
  ((c.innerDecls.filter isSignal) ++ (c.innerDecls.filter fun d => !isSignal d)).map declLine

/-- The declaration of a signal that stands for a port. -/
def wireLine (w : Wire) : Line := flush ("signal " ++ w.name ++ " : " ++ w.type ++ ";")

/-! ## Statements -/

/-- An instance with its maps. An instance of an unknown component refers to the entity. -/
def socketLines (s : Socket) : List Line :=
  let head := s.inst.name ++ (if s.sub?.isSome then " : " else " : entity work.") ++ s.inst.type
  let ports := s.connections.map fun c => c.port ++ " => " ++ c.signal
  let generics := s.inst.bindings.map Binding.vhdl
  if generics.isEmpty && ports.isEmpty then [flush (head ++ ";")]
  else flush head :: indented (
    clause "generic map" generics "," (if ports.isEmpty then ";" else "") ++
      clause "port map" ports "," ";")

/-- A lowered assignment. -/
def assignLine (a : Expr × Expr) : Line := flush (a.1.vhdl ++ " <= " ++ a.2.vhdl ++ ";")

/-- The remark in place of a raw block. -/
def blockLine? : Stmt → Option Line
  | .block _ kind _ => some (flush ("-- " ++ kind.name ++ " block (not lowered)"))
  | _ => none

/-- The architecture of a component. -/
def archLines (c : Component) (l : Lowering) : List Line :=
  let name := (c.arch?.map (·.name)).getD Architecture.defaultName
  flush ("architecture " ++ name ++ " of " ++ c.name ++ " is") ::
    indented ((subcomponents l).flatMap subcomponentLines ++ declLines c ++ l.wires.map wireLine) ++
    flush "begin" ::
    indented (l.sockets.flatMap socketLines ++ l.assigns.map assignLine ++
      c.stmts.filterMap blockLine?) ++
    [flush "end architecture;"]

/-- The design unit of a lowered component. -/
def unitLines (c : Component) (l : Lowering) : List Line :=
  libraryClauses ++ .blank :: entityLines c ++ .blank :: archLines c l

/-! ## Generators -/

/-- The width of one step of indentation: four where none is chosen, and no indentation at all for a
negative choice. -/
def indentStep (chosen : Int) : Nat := if chosen = 0 then 4 else chosen.toNat

/-- What emits components one after the other: the design that supplies the interfaces of
subcomponents, the chosen indentation, and the working state of the component emitted last. -/
structure Generator where
  library : Option Design
  indent : Int
  work : Lowering := default
  deriving DecidableEq, Repr, Inhabited

namespace Generator

/-- Emits a component: the text of its design unit or the first error, and the generator behind it.
-/
def emit (g : Generator) (c : Component) : Except CompileError String × Generator :=
  match lowerIn g.work g.library c with
  | (.error e, l) => (.error e, { g with work := l })
  | (.ok _, l) => (.ok (renderLines (indentStep g.indent) (unitLines c l)), { g with work := l })

/-- Emits components one after the other. -/
def emitAll : Generator → List Component → List (Except CompileError String) × Generator
  | g, [] => ([], g)
  | g, c :: rest =>
    let (out, g') := g.emit c
    let (outs, g'') := emitAll g' rest
    (out :: outs, g'')

end Generator
end CircuitCompiler.Vhdl
