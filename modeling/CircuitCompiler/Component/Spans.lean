import CircuitCompiler.Component.Basic

/-!
# How the spans of a component nest

A component lies inside its file, its parts inside the component and its statements inside the
architecture. `Component.spanFault` names the first part that does not.
-/

namespace CircuitCompiler.Component

/-- The first statement of an architecture that is empty or leaves it. -/
def stmtFault (arch : Span) : List Stmt → Option String
  | [] => none
  | s :: rest =>
    if s.span.stop ≤ s.span.start then some ("empty statement span: " ++ s.span.text)
    else if !s.span.within arch then
      some ("statement span " ++ s.span.text ++ " is outside arch span " ++ arch.text)
    else stmtFault arch rest

/-- The first part of a component that is empty or leaves it. -/
def itemFault (whole : Span) : List Item → Option String
  | [] => none
  | it :: rest =>
    if it.span.stop ≤ it.span.start then some ("empty item span: " ++ it.span.text)
    else if !it.span.within whole then
      some ("item span " ++ it.span.text ++ " is outside component span " ++ whole.text)
    else (it.arch?.bind fun a => stmtFault a.span a.stmts).or (itemFault whole rest)

/-- What is wrong with the spans of a component of the file `file`, which has `size` bytes. -/
def spanFault (c : Component) (file size : Nat) : Option String :=
  let complain (what : String) : Option String := some ("component " ++ c.name ++ ": " ++ what)
  if c.span.stop ≤ c.span.start then complain ("span is empty: " ++ c.span.text)
  else if c.span.file != file then
    complain ("span points to different file id: got=" ++ toString c.span.file ++ " want=" ++
      toString file)
  else if size < c.span.stop then
    complain ("span end beyond content: " ++ toString c.span.stop ++ " > " ++ toString size)
  else if !c.nameSpan.within c.span then
    complain ("name span " ++ c.nameSpan.text ++ " is outside " ++ c.span.text)
  else itemFault c.span c.items

end CircuitCompiler.Component
