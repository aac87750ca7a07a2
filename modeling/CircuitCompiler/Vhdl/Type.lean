import CircuitCompiler.Component.Basic
import CircuitCompiler.Vhdl.Expr

/-!
# Types in VHDL

A vector of one bit is a `std_logic`, a wider one is an `unsigned` that counts down to zero. The
width of a port may hang on a generic of its component; `Width.forInstance?` says what it is for an
instance that gives the generic a value.
-/

namespace CircuitCompiler

/-- The VHDL text of a value that is known before the circuit runs. -/
def Setting.vhdl : Setting → String
  | .name s => s.name
  | .literal _ value => value.vhdl

/-- The VHDL text of a binding. -/
def Binding.vhdl (b : Binding) : String := b.name.name ++ " => " ++ b.value.vhdl

namespace Vhdl

/-- The type of a single bit. -/
def bitType : String := "std_logic"

end Vhdl

/-- The bounds of a vector of a width. -/
def Width.vhdlRange : Width → String
  | .generic name => name ++ " - 1 downto 0"
  | .literal n => toString ((n : Int) - 1) ++ " downto 0"
  | .scalar => "0 downto 0"

/-- The VHDL type of a declaration. -/
def DataType.vhdl : DataType → Width → String
  | .int, _ => "integer"
  | .uint, _ => "natural"
  | .bool, _ => "boolean"
  | .vec, .scalar => Vhdl.bitType
  | .vec, w => "unsigned(" ++ w.vhdlRange ++ ")"

/-- The VHDL type of what is declared. -/
def Decl.vhdlType (d : Decl) : String := d.type.vhdl d.width

/-- The number an integer constant stands for; other constants stand for none. -/
def Constant.number? (c : Constant) : Option Nat :=
  match c.form with
  | .int => some (Bytes.number 10 (Bytes.ofString c.digits))
  | .hexInt => some (Bytes.number 16 (Bytes.ofString c.digits))
  | .binInt => some (Bytes.number 2 (Bytes.ofString c.digits))
  | .binVec | .hexVec | .bool => none

/-- The width a value stands for: a generic passed on, or a positive integer of 32 bits. -/
def Setting.width? : Setting → Option Width
  | .name s => some (.generic s.name)
  | .literal _ value => value.number?.bind Width.ofNat?

/-- The value the bindings give to a generic; of several, the last. -/
def Binding.value? (bs : List Binding) (name : String) : Option Setting :=
  (bs.reverse.find? fun b => b.name.name == name).map (·.value)

/-- The width that a port has at an instance with the given bindings, unless it hangs on a generic
that has no usable value there. -/
def Width.forInstance? (bs : List Binding) : Width → Option Width
  | .generic name => (Binding.value? bs name).bind Setting.width?
  | w => some w

end CircuitCompiler
