import CircuitCompiler.Design.Basic
import CircuitCompiler.Diagnostic.Error
import CircuitCompiler.Vhdl.Type

/-!
# Wiring instances up

VHDL has no dotted paths. A reference `unit.port` is replaced by a signal `unit_port`, which the
port map of the instance connects to the port. Lowering goes through the assignments in source
order: it rewrites each path and records, once each and in order of first occurrence, the signals to
declare and the port maps of the instances.
-/

namespace CircuitCompiler.Vhdl

/-- An entry of a port map: a port and the signal it is connected to. -/
structure Connection where
  port : String
  signal : String
  deriving DecidableEq, Repr, Inhabited

/-- A signal that stands for the port of an instance. -/
structure Wire where
  name : String
  type : String
  span : Span
  deriving DecidableEq, Repr, Inhabited

/-- An instance with what is known of its component and the ports connected so far. -/
structure Socket where
  inst : Instance
  /-- The component, if its interface is known. -/
  sub? : Option Component
  connections : List Connection := []
  deriving DecidableEq, Repr, Inhabited

/-- The working state of lowering one component. -/
structure Lowering where
  component : String
  /-- The names that the component declares. -/
  declared : List String
  sockets : List Socket
  wires : List Wire := []
  assigns : List (Expr × Expr) := []
  deriving DecidableEq, Repr, Inhabited

end Vhdl

/-- The names that a component declares. -/
def Component.declaredNames (c : Component) : List String :=
  c.generics.map (·.name) ++ c.ports.map (·.name) ++ c.innerDecls.map (·.name) ++
    c.instances.map (·.name)

namespace Vhdl

/-- The interface of a component, where a design is at hand. -/
def interface? (library : Option Design) (type : String) : Option Component :=
  library.bind fun d => d.get? type

namespace Lowering

/-- The state before the first assignment of a component. -/
def start (library : Option Design) (c : Component) : Lowering where
  component := c.name
  declared := c.declaredNames
  sockets := c.instances.map fun i => { inst := i, sub? := interface? library i.type }

/-- The state that is left of an earlier component, made ready for another. -/
def reset (l : Lowering) (c : Component) : Lowering :=
  { l with
    component := c.name
    declared := c.declaredNames
    sockets := []
    wires := []
    assigns := [] }

/-- Adds an instance, of which no port is connected yet. -/
def addSocket (library : Option Design) (l : Lowering) (i : Instance) : Lowering :=
  { l with sockets := l.sockets ++ [{ inst := i, sub? := interface? library i.type }] }

/-- The instance with a name. -/
def socket? (l : Lowering) (name : String) : Option Socket :=
  l.sockets.find? fun s => s.inst.name == name

end Lowering

/-- The port a path leads to: what is behind the instance, joined by underscores. -/
def portName (p : Path) : String := String.intercalate "_" (p.tail.map (·.name))

/-- The signal that stands for a path. -/
def signalName (p : Path) : String := String.intercalate "_" p.names

namespace Socket

/-- The type of the signal for a port: that of the port at this instance, or a single bit where the
port's component or its width is not known. A port that its component lacks has no type. -/
def wireType? (s : Socket) (port : String) : Option String :=
  match s.sub? with
  | none => some bitType
  | some sub => (sub.port? port).map fun d =>
    ((d.width.forInstance? s.inst.bindings).map d.type.vhdl).getD bitType

/-- Connects a port, unless it is connected already. -/
def connect (s : Socket) (port signal : String) : Socket :=
  if s.connections.any fun c => c.port == port then s
  else { s with connections := s.connections ++ [⟨port, signal⟩] }

end Socket

namespace Lowering

/-- Declares a signal, unless it is declared already. -/
def addWire (l : Lowering) (w : Wire) : Lowering :=
  if l.wires.any fun v => v.name == w.name then l else { l with wires := l.wires ++ [w] }

/-- Connects a port of the instance with a name. -/
def connect (l : Lowering) (inst port signal : String) : Lowering :=
  { l with sockets := l.sockets.map fun s =>
      if s.inst.name == inst then s.connect port signal else s }

end Lowering

/-- A step of lowering; what was done before an error stays done. -/
abbrev Lower (α : Type) : Type := ExceptT CompileError (StateM Lowering) α

namespace Lower

/-- Records a dotted path and gives the signal that stands for it. -/
def wire (p : Path) : Lower String := do
  let l ← get
  match l.socket? p.head.name with
  | none => throw ⟨.unknownInstance p.head.name l.component, p.span⟩
  | some s =>
    let signal := signalName p
    if l.declared.contains signal then
      throw ⟨.signalTaken signal p.text l.component, p.span⟩
    match s.wireType? (portName p) with
    | none => throw ⟨.unknownPort s.inst.type (portName p), p.span⟩
    | some type =>
      set ((l.connect p.head.name (portName p) signal).addWire ⟨signal, type, p.span⟩)
      return signal

/-- Replaces a dotted path by its signal and keeps a plain name. -/
def path (p : Path) : Lower Path := do
  if p.isPlain then return p
  else return { head := ⟨← wire p, p.span⟩ }

/-- Replaces the dotted paths of an expression. -/
def expr : Expr → Lower Expr
  | .ref p => return .ref (← path p)
  | .const span value => return .const span value
  | .binary span op left right => return .binary span op (← expr left) (← expr right)
  | .unary span op operand => return .unary span op (← expr operand)
  | .choice span cond yes no => return .choice span (← expr cond) (← expr yes) (← expr no)
  | .index span target bit => return .index span (← path target) (← expr bit)
  | .range span target high low =>
    return .range span (← path target) (← expr high) (← expr low)

/-- Lowers assignments one after the other. -/
def assigns : List (Expr × Expr) → Lower Unit
  | [] => return
  | (target, value) :: rest => do
    let target ← expr target
    let value ← expr value
    modify fun l => { l with assigns := l.assigns ++ [(target, value)] }
    assigns rest

end Lower

/-- Lowers a component: the first error, if any, and the state reached. -/
def lower (library : Option Design) (c : Component) : Except CompileError Unit × Lowering :=
  (Lower.assigns c.assignments).run.run (.start library c)

/-- Lowers a component in the state that is left of an earlier one: first its instances are added,
then its assignments are lowered. -/
def lowerIn (l : Lowering) (library : Option Design) (c : Component) :
    Except CompileError Unit × Lowering :=
  (Lower.assigns c.assignments).run.run (c.instances.foldl (.addSocket library) (l.reset c))

end Vhdl
end CircuitCompiler
