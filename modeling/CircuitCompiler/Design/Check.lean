import CircuitCompiler.Design.Basic
import CircuitCompiler.Design.Graph
import CircuitCompiler.Diagnostic.Error

/-!
# Checking a design

The check orders the components of a design so that every one comes behind those it instantiates,
and finds what is wrong across components: names that differ in case only, instances of unknown
components, paths that lead to no port, cycles. A component that is broken, or that instantiates a
broken one, drops out of the order; the others stay.

Components are numbered in the order of their names, so the result does not depend on the order in
which they were registered.
-/

namespace CircuitCompiler

/-- What is wrong with one component. -/
structure Finding where
  component : String
  error : CompileError
  notes : List Note := []
  deriving DecidableEq, Repr

/-- The diagnostic that reports a finding. -/
def Finding.diagnostic (f : Finding) : Diagnostic := f.error.diagnostic f.notes

/-- The findings so far, in the order they were made. -/
abbrev Findings := List Finding

namespace Findings

/-- The first finding about a component. -/
def on? (fs : Findings) (name : String) : Option Finding := fs.find? fun f => f.component == name

/-- Whether a component is broken. -/
def has (fs : Findings) (name : String) : Bool := fs.any fun f => f.component == name

end Findings

namespace Component

/-- The distinct types of the instances of a component, in source order. -/
def usedTypes (c : Component) : List String := (c.instances.map (·.type)).eraseDups

/-- The type of the instance with a name; of several, the last. -/
def instanceType? (c : Component) (name : String) : Option String :=
  (c.instances.reverse.find? fun i => i.name == name).map (·.type)

/-- The dotted paths of the assignments, in source order. -/
def dottedPaths (c : Component) : List Path :=
  c.assignments.flatMap fun (target, value) => target.paths ++ value.paths

end Component

namespace Design

/-- The number of a component, by the order of names. -/
def number? (names : List String) (name : String) : Option Nat :=
  if names.contains name then some (names.idxOf name) else none

/-- Which components each component instantiates, by number and in increasing order. Unknown types
are left out. -/
def graph (d : Design) : Graph :=
  let names := d.sortedNames
  ⟨names.map fun name =>
    match d.get? name with
    | some c => (c.usedTypes.filterMap (number? names)).mergeSort (· ≤ ·)
    | none => []⟩

/-- The components a component instantiates, in the order of their names. -/
def depNames (d : Design) (name : String) : List String :=
  let names := d.sortedNames
  match number? names name with
  | some v => (d.graph.depsOf v).map fun w => names.getD w ""
  | none => []

/-! ## The single checks -/

/-- A name without the difference between capital and small letters. -/
def foldCase (name : String) : String := name.map Char.toLower

/-- The place of a component's name. -/
def nameSpan (d : Design) (name : String) : Span := ((d.get? name).map (·.nameSpan)).getD .zero

/-- Names that are an earlier name up to case. -/
def collisions (d : Design) : List String → List String → Findings
  | _, [] => []
  | seen, name :: rest =>
    match seen.find? fun s => foldCase s == foldCase name with
    | some earlier =>
      ⟨name, ⟨.collidingComponent name earlier, d.nameSpan name⟩,
        [⟨d.nameSpan earlier, "previous declaration of " ++ earlier⟩]⟩ :: d.collisions seen rest
    | none => d.collisions (seen ++ [name]) rest

/-- What is wrong with a path of a component. -/
def pathError? (d : Design) (c : Component) (p : Path) : Option CompileError :=
  match c.instanceType? p.head.name with
  | none => some ⟨.unknownInstance p.head.name c.name, p.span⟩
  | some type =>
    match p.tail with
    | [port] =>
      if ((d.get? type).bind (·.port? port.name)).isSome then none
      else some ⟨.unknownPort type port.name, p.span⟩
    | _ => some ⟨.pathTooDeep p.text p.head.name, p.span⟩

/-- The first thing wrong inside a component: an instance of an unknown type, else a path that leads
to no port. -/
def componentError? (d : Design) (c : Component) : Option CompileError :=
  match c.instances.find? fun i => !d.has i.type with
  | some i => some ⟨.unknownComponent c.name i.type, i.typeSpan⟩
  | none => c.dottedPaths.findSome? (d.pathError? c)

/-- Adds a finding for each name that is not broken yet and for which `test` finds something; later
names see the earlier findings. -/
def sweep (test : Findings → String → Option Finding) (names : List String) (fs : Findings) :
    Findings :=
  names.foldl (fun fs name =>
    if fs.has name then fs
    else match test fs name with
      | some f => fs ++ [f]
      | none => fs) fs

/-- Finds what is wrong inside the component with a name. -/
def insideTest (d : Design) (_ : Findings) (name : String) : Option Finding := do
  let c ← d.get? name
  let e ← d.componentError? c
  some ⟨name, e, []⟩

/-- Finds out whether the component with a name lies on a cycle. -/
def cycleTest (d : Design) (_ : Findings) (name : String) : Option Finding := do
  let names := d.sortedNames
  let v ← number? names name
  let cycle ← d.graph.cycleThrough? v
  some ⟨name, ⟨.circular name (cycle.map fun w => names.getD w ""), d.nameSpan name⟩, []⟩

/-- Where a component first instantiates another. -/
def useSpan (d : Design) (user type : String) : Span :=
  (((d.get? user).bind fun c => c.instances.find? fun i => i.type == type).map (·.typeSpan)).getD
    (d.nameSpan user)

/-- Finds out whether the component with a name instantiates a broken one. -/
def dependencyTest (d : Design) (fs : Findings) (name : String) : Option Finding := do
  let dep ← (d.depNames name).find? fs.has
  let cause ← fs.on? dep
  some ⟨name, ⟨.dependencyFailed cause.error.kind name dep, d.useSpan name dep⟩,
    [⟨cause.error.span, "first error in dependency: " ++ cause.error.message⟩]⟩

/-- Breaks the users of broken components, round by round. Every round but the last adds a finding,
so the number of components bounds the rounds. -/
def spread (d : Design) (names : List String) : Nat → Findings → Findings
  | 0, fs => fs
  | rounds + 1, fs => d.spread names rounds (sweep d.dependencyTest names fs)

/-- The verdict on the top-level component, where one is named: an error of its own if it does not
exist, a finding if it declares generics. -/
def topVerdict (d : Design) (top : String) (fs : Findings) : Option CompileError × Option Finding :=
  if top == "" then (none, none)
  else match d.get? top with
    | none => (some ⟨.unknownTop top, .zero⟩, none)
    | some c =>
      match c.generics with
      | [] => (none, none)
      | g :: _ =>
        if fs.has top then (none, none)
        else (none, some ⟨top, ⟨.topHasGenerics top g.name, g.span⟩, []⟩)

end Design

/-! ## The whole check -/

/-- The result of checking a design. -/
structure Verdict where
  design : Design
  findings : Findings
  topError : Option CompileError
  deriving DecidableEq, Repr

namespace Design

/-- The findings before the top-level component is looked at. -/
def findings (d : Design) : Findings :=
  let names := d.sortedNames
  let inside := sweep d.insideTest names (d.collisions [] names)
  let cyclic := sweep d.cycleTest (d.graph.blocked.map fun v => names.getD v "") inside
  d.spread names names.length cyclic

/-- Checks a design; `top` names the component that synthesis starts from, or is empty. -/
def check (d : Design) (top : String) : Verdict :=
  let fs := d.findings
  let (topError, finding?) := d.topVerdict top fs
  ⟨d, fs ++ finding?.toList, topError⟩

end Design

namespace Verdict

/-- The component names in their order. -/
def names (v : Verdict) : List String := v.design.sortedNames

/-- The components that are not broken among the numbered ones. -/
def sound (v : Verdict) (nodes : List Nat) : List String :=
  (nodes.map fun n => v.names.getD n "").filter fun name => !v.findings.has name

/-- The components that are not broken, each behind those it instantiates. -/
def order (v : Verdict) : List String := v.sound v.design.graph.order

/-- The components that are not broken, in layers that depend on earlier layers only. -/
def batches (v : Verdict) : List (List String) :=
  (v.design.graph.layers.map v.sound).filter fun names => !names.isEmpty

/-- The broken components in the order of their names, with their errors. -/
def failed (v : Verdict) : List (String × CompileError) :=
  v.names.filterMap fun name => (v.findings.on? name).map fun f => (name, f.error)

/-- What is reported, in the order it was found. -/
def diagnostics (v : Verdict) : List Diagnostic :=
  v.findings.map Finding.diagnostic ++ (v.topError.map (·.diagnostic [])).toList

/-- All errors: the one about the top-level component, then those of the components by name. -/
def errors (v : Verdict) : List CompileError := v.topError.toList ++ v.failed.map (·.2)

/-- The components with what they instantiate and what is wrong with them, one a line. -/
def text (v : Verdict) : String :=
  String.join (v.names.map fun name =>
    name ++ " -> [" ++ String.intercalate ", " (v.design.depNames name) ++ "]" ++
      (match v.findings.on? name with
        | some f => " error: " ++ f.error.message
        | none => "") ++ "\n")

end Verdict
end CircuitCompiler
