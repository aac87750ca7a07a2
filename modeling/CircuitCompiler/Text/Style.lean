import CircuitCompiler.Text.Bytes

/-!
# Terminal styles

A style is a list of attributes that a terminal switches on before a text and off behind it. A text
without a style is left alone.
-/

namespace CircuitCompiler.Text

/-- An attribute of terminal text. -/
inductive Attribute where
  | bold
  | red
  | green
  | yellow
  | blue
  | magenta
  | cyan
  deriving DecidableEq, Repr, Inhabited

namespace Attribute

/-- The number that switches an attribute on. -/
def on : Attribute → Nat
  | bold => 1
  | red => 31
  | green => 32
  | yellow => 33
  | blue => 34
  | magenta => 35
  | cyan => 36

/-- The number that switches an attribute off: weight has one of its own, colours share one. -/
def off : Attribute → Nat
  | bold => 22
  | _ => 0

end Attribute

/-- An escape sequence that selects attributes by number. -/
def selectAttributes (numbers : List Nat) : String :=
  "\x1b[" ++ String.intercalate ";" (numbers.map toString) ++ "m"

/-- The text between switching attributes on and off. -/
def styled (style : List Attribute) (s : String) : String :=
  selectAttributes (style.map Attribute.on) ++ s ++ selectAttributes (style.map Attribute.off)

/-- The text in a style, if styles are wanted. -/
def styledIf (wanted : Bool) (style : List Attribute) (s : String) : String :=
  if wanted then styled style s else s

end CircuitCompiler.Text
