import CircuitCompiler.Expr.Arena
import CircuitCompiler.Vhdl.Expr
import CircuitCompiler.Vhdl.Lowering

/-!
# VHDL from expressions in tables

The VHDL text of an expression that is kept as numbered nodes, and its lowering: the nodes are copied
into another arena, in which a node of its own stands for each dotted path.
-/

namespace CircuitCompiler

/-- The VHDL spelling of what joins two parts. -/
def Connective.vhdl : Connective → String
  | operator op => op.vhdl
  | joint .binding => "=>"
  | joint j => j.spelling

/-- The step of writing an expression in VHDL. -/
def Arena.vhdlStep (a : Arena) (vhdl : Nat → Option String) (id : Nat) : Option String := do
  match ← a.content? id with
  | .ident name => return name
  | .const value => return value.vhdl
  | .binary (.joint .member) left right => return (← vhdl left) ++ "." ++ (← vhdl right)
  | .binary (.joint .list) left right => return (← vhdl left) ++ ", " ++ (← vhdl right)
  | .binary op left right => return (← vhdl left) ++ " " ++ op.vhdl ++ " " ++ (← vhdl right)
  | .unary op operand => return op.vhdl (← vhdl operand)
  | .ternary cond yes no =>
    return "(" ++ (← vhdl yes) ++ ") when (" ++ (← vhdl cond) ++ ") else (" ++ (← vhdl no) ++ ")"
  | .splice target high low =>
    let high ← vhdl high
    let low ← vhdl low
    if low == high then return (← vhdl target) ++ "(" ++ high ++ ")"
    else return (← vhdl target) ++ "(" ++ high ++ " downto " ++ low ++ ")"

/-- The VHDL text of an expression. -/
def Arena.vhdl (a : Arena) : Nat → Option String := a.pass none a.vhdlStep

namespace Vhdl

/-- A step of lowering between arenas; the arena that is filled is dropped with the first error. -/
abbrev Relower (α : Type) : Type := StateT Arena (ExceptT CompileError (StateT Lowering Option)) α

namespace Relower

/-- Allocates a node of the lowered expression. -/
def allocate (span : Span) (c : Content) : Relower Nat := fun a => pure (a.new span c)

/-- A step of lowering that allocates nothing. -/
def lift {α : Type} (m : Lower α) : Relower α := fun a l =>
  let (result, l') := m.run.run l
  some (result.map (·, a), l')

/-- A path of which all segments have the place of the whole. -/
def pathAt (span : Span) (head : String) (tail : List String) : Path :=
  ⟨⟨head, span⟩, tail.map (⟨·, span⟩)⟩

/-- Where no step of lowering comes to an end. -/
def endless : Relower Nat := fun _ _ => none

end Relower

end Vhdl

open Vhdl in
/-- The step of copying an expression, where signals take the place of dotted paths. -/
def Arena.lowerStep (a : Arena) (lower : Nat → Relower Nat) (id : Nat) : Relower Nat := do
  let span ← a.span? id
  match ← a.content? id with
  | .ident name => Relower.allocate span (.ident name)
  | .const value => Relower.allocate span (.const value)
  | .binary (.joint .member) _ _ =>
    match ← a.names? id with
    | some (head :: tail) =>
      let signal ← Relower.lift (Lower.wire (Relower.pathAt span head tail))
      Relower.allocate span (.ident signal)
    | _ =>
      let text ← a.listForm id
      throw ⟨.notAPortReference text, span⟩
  | .binary op left right =>
    let left ← lower left
    let right ← lower right
    Relower.allocate span (.binary op left right)
  | .unary op operand =>
    let operand ← lower operand
    Relower.allocate span (.unary op operand)
  | .ternary cond yes no =>
    let cond ← lower cond
    let yes ← lower yes
    let no ← lower no
    Relower.allocate span (.ternary cond yes no)
  | .splice target high low =>
    let target ← lower target
    let high' ← lower high
    if low = high then Relower.allocate span (.splice target high' high')
    else
      let low ← lower low
      Relower.allocate span (.splice target high' low)

open Vhdl in
/-- Copies an expression into another arena and replaces its dotted paths by signals. -/
def Arena.lower (a : Arena) : Nat → Relower Nat := a.pass Relower.endless a.lowerStep

end CircuitCompiler
