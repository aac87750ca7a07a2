import CircuitCompiler.Proofs.Signals

/-!
# Components are emitted separately

All that emission sees of another component is its interface: the generics and the ports, with their
types and widths. Everything else in a library may change, and places may change with it, without a
trace in the VHDL or in the error of a user.

* `Component.shell`: a component cut down to its interface;
* `Vhdl.Lower.Blind`: a step of lowering that goes the same way over shells; all steps do;
* `Vhdl.unitLines_shelled`: the lines of a design unit over shells;
* `Vhdl.Generator.emit_eq_of_sameInterface`: emission under two libraries.
-/

namespace CircuitCompiler

/-! ## Interfaces -/

/-- What a declaration says, apart from its role and its place. -/
def Decl.shape (d : Decl) : String × DataType × Width := (d.name, d.type, d.width)

/-- Two components have the same generics, and the same ports with the same directions, in the same
order. -/
structure Component.SameInterface (a b : Component) : Prop where
  generics : a.generics.map Decl.shape = b.generics.map Decl.shape
  ports : a.ports.map (fun d => (d.role, d.shape)) = b.ports.map fun d => (d.role, d.shape)

/-- A declaration of a role and a shape that has no place. -/
def Decl.ofShape (role : Role) (shape : String × DataType × Width) : Decl :=
  ⟨role, shape.1, .zero, shape.2.1, shape.2.2, .zero⟩

/-- A component cut down to its interface. -/
def Component.shell (c : Component) : Component where
  name := c.name
  nameSpan := .zero
  span := .zero
  file := 0
  items := (c.generics.map fun d => .generic .zero (.ofShape .generic d.shape)) ++
    [.ports .zero (c.ports.map fun d => .ofShape d.role d.shape)]
  widths := []

namespace Component

theorem generics_shell (c : Component) :
    c.shell.generics = c.generics.map fun d => .ofShape .generic d.shape := by
  have each : (Item.generic? ∘ fun d : Decl => .generic .zero (.ofShape .generic d.shape)) =
      fun d => some (.ofShape .generic d.shape) := rfl
  rw [generics, shell, List.filterMap_append, List.filterMap_map, each, List.filterMap_eq_map']
  exact List.append_nil _

theorem ports_shell (c : Component) :
    c.shell.ports = c.ports.map fun d => .ofShape d.role d.shape := by
  have none : (c.generics.map fun d => Item.generic .zero (.ofShape .generic d.shape)).findSome?
      Item.ports? = none := by
    rw [List.findSome?_map]
    exact List.findSome?_eq_none_iff.mpr fun _ _ => rfl
  rw [ports, shell, List.findSome?_append, none]
  rfl

theorem port?_shell (c : Component) (name : String) :
    c.shell.port? name = (c.port? name).map fun d => .ofShape d.role d.shape := by
  rw [port?, ports_shell, List.find?_map]
  rfl

theorem SameInterface.shell_eq {a b : Component} (same : a.SameInterface b)
    (name : a.name = b.name) : a.shell = b.shell := by
  have generics := congrArg (List.map fun s => Item.generic .zero (.ofShape .generic s))
    same.generics
  have ports := congrArg (List.map fun p => Decl.ofShape p.1 p.2) same.ports
  rw [List.map_map, List.map_map] at generics ports
  simp only [shell, name]
  congr 2
  exact congrArg (fun ds => [Item.ports .zero ds]) ports

end Component

namespace Vhdl

/-! ## Working states over shells -/

/-- An instance at work that knows no more than the interface of its component. -/
def Socket.shelled (s : Socket) : Socket := { s with sub? := s.sub?.map Component.shell }

/-- A working state that knows no more than interfaces of other components. -/
def Lowering.shelled (l : Lowering) : Lowering :=
  { l with sockets := l.sockets.map Socket.shelled }

theorem Socket.wireType?_shelled (s : Socket) (port : String) :
    s.shelled.wireType? port = s.wireType? port := by
  cases known : s.sub? with
  | none => simp only [wireType?, shelled, known, Option.map_none]
  | some sub =>
    simp only [wireType?, shelled, known, Option.map_some, Component.port?_shell, Option.map_map]
    rfl

theorem Socket.connect_shelled (s : Socket) (port signal : String) :
    s.shelled.connect port signal = (s.connect port signal).shelled := by
  have used : s.shelled.connections = s.connections := rfl
  simp only [connect, used]
  split <;> rfl

namespace Lowering

theorem socket?_shelled (l : Lowering) (name : String) :
    l.shelled.socket? name = (l.socket? name).map Socket.shelled := by
  rw [socket?, shelled, List.find?_map]
  rfl

theorem connect_shelled (l : Lowering) (inst port signal : String) :
    l.shelled.connect inst port signal = (l.connect inst port signal).shelled := by
  simp only [connect, shelled, List.map_map, Lowering.mk.injEq, true_and, and_true]
  refine List.map_congr_left fun s _ => ?_
  have name : s.shelled.inst.name = s.inst.name := rfl
  simp only [Function.comp, name, s.connect_shelled]
  split <;> rfl

theorem addWire_shelled (l : Lowering) (w : Wire) :
    l.shelled.addWire w = (l.addWire w).shelled := by
  have known : l.shelled.wires = l.wires := rfl
  simp only [addWire, known]
  split <;> rfl

end Lowering

/-! ## Lowering over shells -/

namespace Lower

/-- The step does the same where only the interfaces of other components are known. -/
def Blind {α : Type} (p : Lower α) : Prop :=
  ∀ l, p.run.run l.shelled = ((p.run.run l).1, (p.run.run l).2.shelled)

namespace Blind

variable {α β : Type}

theorem pure (a : α) : Blind (Pure.pure a : Lower α) := fun _ => rfl

theorem bind {p : Lower α} {f : α → Lower β} (first : Blind p) (rest : ∀ a, Blind (f a)) :
    Blind (p >>= f) := by
  intro l
  rw [run_bind, run_bind, first l]
  rcases p.run.run l with ⟨e | a, l'⟩
  · rfl
  · exact rest a l'

theorem wire (p : Path) : Blind (Lower.wire p) := by
  intro l
  rw [run_wire, run_wire, l.socket?_shelled]
  cases l.socket? p.head.name with
  | none => rfl
  | some s =>
    have declared : l.shelled.declared = l.declared := rfl
    simp only [Option.map_some, s.wireType?_shelled, declared]
    split
    · rfl
    · cases s.wireType? (portName p) with
      | none => rfl
      | some type =>
        simp only [l.connect_shelled, Lowering.addWire_shelled]

theorem path (p : Path) : Blind (Lower.path p) := by
  unfold Lower.path
  split
  · exact pure p
  · exact (wire p).bind fun signal => pure _

theorem expr (e : Expr) : Blind (Lower.expr e) := by
  induction e with
  | ref p => exact (path p).bind fun p => pure _
  | const span value => exact pure _
  | binary span op left right ihl ihr => exact ihl.bind fun l => ihr.bind fun r => pure _
  | unary span op operand ih => exact ih.bind fun x => pure _
  | choice span cond yes no ihc ihy ihn =>
    exact ihc.bind fun c => ihy.bind fun y => ihn.bind fun n => pure _
  | index span target bit ih => exact (path target).bind fun p => ih.bind fun b => pure _
  | range span target high low ihh ihl =>
    exact (path target).bind fun p => ihh.bind fun h => ihl.bind fun l => pure _

theorem assigns (as : List (Expr × Expr)) : Blind (Lower.assigns as) := by
  induction as with
  | nil => exact pure ()
  | cons a rest ih =>
    obtain ⟨target, value⟩ := a
    have append : ∀ t v, Blind
        (modify fun l => { l with assigns := l.assigns ++ [(t, v)] } : Lower PUnit) :=
      fun t v l => rfl
    exact (expr target).bind fun t => (expr value).bind fun v => (append t v).bind fun _ => ih

end Blind

end Lower

/-! ## Design units over shells -/

theorem interfaceLines_shell (c : Component) : interfaceLines c.shell = interfaceLines c := by
  have longest : longestName c.shell.ports = longestName c.ports := by
    simp only [longestName, Component.ports_shell, List.map_map]
    rfl
  simp only [interfaceLines, longest]
  rw [Component.generics_shell, Component.ports_shell, List.map_map, List.map_map]
  rfl

theorem subcomponents_shelled (l : Lowering) :
    subcomponents l.shelled = (subcomponents l).map Component.shell := by
  -- repeated types are dropped by their names, which a shell keeps
  have known : l.shelled.sockets.filterMap (·.sub?) =
      (l.sockets.filterMap (·.sub?)).map Component.shell := by
    simp only [Lowering.shelled, List.filterMap_map, List.map_filterMap]
    rfl
  rw [subcomponents, known, eraseDupsBy_map (f := Component.shell) fun _ _ => rfl]
  rfl

theorem socketLines_shelled (s : Socket) : socketLines s.shelled = socketLines s := by
  have known : s.shelled.sub?.isSome = s.sub?.isSome := Option.isSome_map
  simp only [socketLines, known]
  rfl

/-- The lines of a design unit show no more than the interfaces of other components. -/
theorem unitLines_shelled (c : Component) (l : Lowering) : unitLines c l.shelled = unitLines c l := by
  have subs : (subcomponents l.shelled).flatMap subcomponentLines =
      (subcomponents l).flatMap subcomponentLines := by
    have lines : (fun s => subcomponentLines (Component.shell s)) = subcomponentLines := by
      funext s
      simp only [subcomponentLines, interfaceLines_shell]
      rfl
    rw [subcomponents_shelled, List.flatMap_map, lines]
  have sockets : l.shelled.sockets.flatMap socketLines = l.sockets.flatMap socketLines := by
    simp only [Lowering.shelled, List.flatMap_map, socketLines_shelled]
  simp only [unitLines, archLines, subs, sockets]
  rfl

/-! ## Two libraries -/

theorem start_shelled {d d' : Design} {c : Component}
    (same : ∀ i ∈ c.instances, Option.Rel Component.SameInterface (d.get? i.type) (d'.get? i.type)) :
    (Lowering.start (some d) c).shelled = (Lowering.start (some d') c).shelled := by
  simp only [Lowering.start, Lowering.shelled, List.map_map, Lowering.mk.injEq, true_and, and_true]
  refine List.map_congr_left fun i hi => ?_
  have shells : (d.get? i.type).map Component.shell = (d'.get? i.type).map Component.shell := by
    have related := same i hi
    generalize found : d.get? i.type = sub, found' : d'.get? i.type = sub' at related
    cases related with
    | none => rfl
    | some interface =>
      obtain ⟨-, name⟩ := Design.get?_eq_some_iff.mp found
      obtain ⟨-, name'⟩ := Design.get?_eq_some_iff.mp found'
      exact congrArg some (interface.shell_eq (name.trans name'.symm))
  simp only [Function.comp, Socket.shelled, interface?, Option.bind_some, shells]

/-- Under two designs in which the components that a component instantiates are both missing or have
the same interface, the component has the same VHDL or the same error. -/
theorem Generator.emit_eq_of_sameInterface {d d' : Design} {c : Component} {indent : Int}
    {work work' : Lowering}
    (same : ∀ i ∈ c.instances, Option.Rel Component.SameInterface (d.get? i.type) (d'.get? i.type)) :
    ((⟨some d, indent, work⟩ : Generator).emit c).1 =
      ((⟨some d', indent, work'⟩ : Generator).emit c).1 := by
  -- over shells, the two runs start from one state and so end in one
  have blind := Lower.Blind.assigns c.assignments (.start (some d) c)
  have blind' := Lower.Blind.assigns c.assignments (.start (some d') c)
  rw [start_shelled same] at blind
  have both := blind.symm.trans blind'
  rw [emit_eq, emit_eq]
  unfold lower
  revert both
  rcases (Lower.assigns c.assignments).run.run (.start (some d) c) with ⟨e | _, l⟩ <;>
    rcases (Lower.assigns c.assignments).run.run (.start (some d') c) with ⟨e' | _, l'⟩ <;>
    intro both
  · cases congrArg Prod.fst both
    rfl
  · cases congrArg Prod.fst both
  · cases congrArg Prod.fst both
  · have lines : unitLines c l = unitLines c l' := by
      rw [← unitLines_shelled c l, ← unitLines_shelled c l']
      exact congrArg (unitLines c) (congrArg Prod.snd both)
    simp only [lines]

/-- A component with one port, as `onePort`, and an architecture that drives a signal by the port. -/
def drivenPort (name port : String) : Component where
  name := name
  nameSpan := ⟨1, 10, 11⟩
  span := ⟨1, 0, 40⟩
  file := 1
  items := [.ports ⟨1, 12, 20⟩ [⟨.port .input, port, ⟨1, 14, 15⟩, .vec, .scalar, ⟨1, 13, 15⟩⟩],
    .arch ⟨.zero, "", .zero, [
      .decl ⟨.signal, "s", .zero, .vec, .scalar, .zero⟩,
      .assign .zero (.ref ⟨⟨"s", .zero⟩, []⟩) (.ref ⟨⟨port, .zero⟩, []⟩)]⟩]
  widths := [("s", .scalar)]

/-- The components with ports in another order, with another inside. -/
def drivenPorts : Design where
  components := [drivenPort "B" "b", drivenPort "A" "a_b"]
  distinct := by decide

theorem emit_eq_of_sameInterface_drivenPorts :
    (portUsersGenerator.emit (portUser "T" "v")).1 =
      ((⟨some drivenPorts, 4, default⟩ : Generator).emit (portUser "T" "v")).1 := by
  refine Generator.emit_eq_of_sameInterface fun i hi => ?_
  have types : i.type ∈ ["A", "B"] := by
    have all : (portUser "T" "v").instances.map (·.type) = ["A", "B"] := rfl
    exact all ▸ List.mem_map_of_mem hi
  rcases List.mem_pair.mp types with type | type
  · rw [type]
    exact .some ⟨rfl, rfl⟩
  · rw [type]
    exact .some ⟨rfl, rfl⟩

end Vhdl
end CircuitCompiler
