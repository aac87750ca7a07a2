import CircuitCompiler.Proofs.Erasure
import CircuitCompiler.Proofs.Reuse

/-!
# VHDL has no places

Lowering carries places along for its errors only. A relocation of a component and of the interfaces
it uses commutes with every step of lowering, and the text of a design unit does not see it.

* `Vhdl.lower_moved`: lowering commutes with relocation;
* `Vhdl.unitLines_moved`: the lines of a design unit stay as they are;
* `Vhdl.Generator.emit_moved`: components that a relocation makes the same have the same VHDL, or
  errors that it makes the same, where the interfaces they use are.
-/

namespace CircuitCompiler

namespace Relocation

open Vhdl

variable (m : Relocation)

/-! ## The parts of a component -/

theorem generics_component (file : Nat) (c : Component) :
    (m.component file c).generics = c.generics.map m.decl := by
  simp only [Component.generics, component, List.filterMap_map, List.map_filterMap]
  exact List.filterMap_congr fun i _ => m.generic?_item i

theorem ports_component (file : Nat) (c : Component) :
    (m.component file c).ports = c.ports.map m.decl := by
  simp only [Component.ports, component]
  induction c.items with
  | nil => rfl
  | cons i rest ih =>
    rw [List.map_cons, List.findSome?_cons, List.findSome?_cons, ports?_item]
    cases i.ports? with
    | some ds => rfl
    | none => exact ih

theorem arch?_component (file : Nat) (c : Component) :
    (m.component file c).arch? = c.arch?.map m.arch := by
  simp only [Component.arch?, component]
  induction c.items with
  | nil => rfl
  | cons i rest ih =>
    rw [List.map_cons, List.findSome?_cons, List.findSome?_cons, arch?_item]
    cases i.arch? with
    | some a => rfl
    | none => exact ih

theorem stmts_component (file : Nat) (c : Component) :
    (m.component file c).stmts = c.stmts.map m.stmt := by
  rw [Component.stmts, arch?_component, Component.stmts]
  cases c.arch? with
  | some a => rfl
  | none => rfl

/-- What is picked out of statements by a choice that relocation respects. -/
theorem filterMap_stmts {α : Type} {pick : Stmt → Option α} {view : α → α}
    (respects : ∀ s, pick (m.stmt s) = (pick s).map view) (file : Nat) (c : Component) :
    (m.component file c).stmts.filterMap pick = (c.stmts.filterMap pick).map view := by
  rw [stmts_component, List.filterMap_map, List.map_filterMap]
  exact List.filterMap_congr fun s _ => respects s

theorem instances_component (file : Nat) (c : Component) :
    (m.component file c).instances = c.instances.map m.inst :=
  m.filterMap_stmts (fun s => by cases s <;> rfl) file c

/-- An assignment in its new place. -/
def assign (a : Expr × Expr) : Expr × Expr := (m.expr a.1, m.expr a.2)

theorem assignments_component (file : Nat) (c : Component) :
    (m.component file c).assignments = c.assignments.map m.assign :=
  m.filterMap_stmts (fun s => by cases s <;> rfl) file c

theorem innerDecls_component (file : Nat) (c : Component) :
    (m.component file c).innerDecls = c.innerDecls.map m.decl :=
  m.filterMap_stmts (fun s => by cases s <;> rfl) file c

theorem port?_component (file : Nat) (c : Component) (name : String) :
    (m.component file c).port? name = (c.port? name).map m.decl := by
  rw [Component.port?, ports_component, List.find?_map]
  rfl

theorem declaredNames_component (file : Nat) (c : Component) :
    (m.component file c).declaredNames = c.declaredNames := by
  simp only [Component.declaredNames, generics_component, ports_component, innerDecls_component,
    instances_component, List.map_map]
  rfl

/-! ## The text of a component -/

@[simp] theorem vhdl_expr (e : Expr) : (m.expr e).vhdl = e.vhdl := by
  induction e with
  | ref p => exact m.path_text p
  | const => rfl
  | binary s op left right ihl ihr => simp only [expr, Expr.vhdl, ihl, ihr]
  | unary s op operand ih => simp only [expr, Expr.vhdl, ih]
  | choice s cond yes no ihc ihy ihn => simp only [expr, Expr.vhdl, ihc, ihy, ihn]
  | index s target bit ih => simp only [expr, Expr.vhdl, path_text, ih]
  | range s target high low ihh ihl => simp only [expr, Expr.vhdl, path_text, ihh, ihl]

@[simp] theorem vhdl_setting (v : Setting) : (m.setting v).vhdl = v.vhdl := by
  cases v <;> rfl

@[simp] theorem vhdl_binding (b : Binding) : (m.binding b).vhdl = b.vhdl := by
  simp only [Binding.vhdl, binding, vhdl_setting, segment]

theorem portItem_decl (width : Nat) (d : Decl) : portItem width (m.decl d) = portItem width d := by
  have mode : portMode (m.role d.role) = portMode d.role := by
    cases d.role <;> rfl
  simp only [portItem, decl, mode]
  rfl

theorem declLine_decl (d : Decl) : declLine (m.decl d) = declLine d := by
  obtain ⟨r, name, nameSpan, type, width, span⟩ := d
  cases r with
  | constant value => simp only [declLine, decl, role, vhdl_setting]; rfl
  | _ => rfl

theorem interfaceLines_component (file : Nat) (c : Component) :
    interfaceLines (m.component file c) = interfaceLines c := by
  have longest : longestName (c.ports.map m.decl) = longestName c.ports := by
    simp only [longestName, List.map_map]
    rfl
  have ports : portItem (longestName c.ports) ∘ m.decl = portItem (longestName c.ports) :=
    funext (m.portItem_decl _)
  simp only [interfaceLines, generics_component, ports_component, longest, List.map_map, ports]
  rfl

theorem declLines_component (file : Nat) (c : Component) :
    declLines (m.component file c) = declLines c := by
  have signal : isSignal ∘ m.decl = isSignal := by
    funext d
    obtain ⟨r, name, nameSpan, type, width, span⟩ := d
    cases r <;> rfl
  have other : (fun d => !isSignal d) ∘ m.decl = fun d => !isSignal d :=
    congrArg (fun f d => !f d) signal
  have lines : declLine ∘ m.decl = declLine := funext m.declLine_decl
  simp only [declLines, innerDecls_component, List.filter_map, signal, other, ← List.map_append,
    List.map_map, lines]

/-! ## Working states -/

/-- An instance at work, with the interface of its component, in its new place. -/
def socket (file : Nat) (s : Socket) : Socket :=
  { s with inst := m.inst s.inst, sub? := s.sub?.map (m.component file) }

/-- A signal in its new place. -/
def wire (w : Wire) : Wire := { w with span := m.span w.span }

/-- A working state in its new place. -/
def lowering (file : Nat) (l : Lowering) : Lowering :=
  { l with
    sockets := l.sockets.map (m.socket file), wires := l.wires.map m.wire
    assigns := l.assigns.map m.assign }

/-- An error in its new place. -/
def error (e : CompileError) : CompileError := { e with span := m.span e.span }

theorem value?_binding (bs : List Binding) (name : String) :
    Binding.value? (bs.map m.binding) name = (Binding.value? bs name).map m.setting := by
  rw [Binding.value?, ← List.map_reverse, List.find?_map, Binding.value?]
  simp only [Option.map_map]
  rfl

theorem forInstance?_binding (bs : List Binding) (w : Width) :
    w.forInstance? (bs.map m.binding) = w.forInstance? bs := by
  cases w with
  | generic name =>
    rw [Width.forInstance?, value?_binding, Width.forInstance?]
    cases Binding.value? bs name with
    | none => rfl
    | some v => cases v <;> rfl
  | _ => rfl

theorem wireType?_socket (file : Nat) (s : Socket) (port : String) :
    (m.socket file s).wireType? port = s.wireType? port := by
  cases known : s.sub? with
  | none => simp only [Socket.wireType?, socket, known, Option.map_none]
  | some sub =>
    simp only [Socket.wireType?, socket, known, Option.map_some, port?_component, Option.map_map]
    refine Option.map_congr fun d _ => ?_
    simp only [Function.comp, decl, inst, forInstance?_binding]

theorem socket?_lowering (file : Nat) (l : Lowering) (name : String) :
    (m.lowering file l).socket? name = (l.socket? name).map (m.socket file) := by
  rw [Lowering.socket?, lowering, List.find?_map]
  rfl

theorem connect_lowering (file : Nat) (l : Lowering) (inst port signal : String) :
    (m.lowering file l).connect inst port signal =
      m.lowering file (l.connect inst port signal) := by
  simp only [Lowering.connect, lowering, List.map_map, Lowering.mk.injEq, true_and, and_true]
  refine List.map_congr_left fun s _ => ?_
  have name : (m.socket file s).inst.name = s.inst.name := rfl
  simp only [Function.comp, name]
  split
  · have used : (m.socket file s).connections = s.connections := rfl
    simp only [Socket.connect, used]
    split
    · rfl
    · rfl
  · rfl

theorem addWire_lowering (file : Nat) (l : Lowering) (w : Wire) :
    (m.lowering file l).addWire (m.wire w) = m.lowering file (l.addWire w) := by
  have known : (m.lowering file l).wires.any (fun v => v.name == (m.wire w).name) =
      l.wires.any fun v => v.name == w.name := by
    simp only [lowering, List.any_map]
    rfl
  simp only [Lowering.addWire, known]
  split
  · rfl
  · simp only [lowering, List.map_append, List.map_cons, List.map_nil]

end Relocation

/-! ## Lowering -/

namespace Vhdl

theorem Lower.run_bind {α β : Type} (p : Lower α) (f : α → Lower β) (l : Lowering) :
    (p >>= f).run.run l = match p.run.run l with
      | (.ok a, l') => (f a).run.run l'
      | (.error e, l') => (.error e, l') := by
  show (ExceptT.bindCont f (p.run.run l).1).run (p.run.run l).2 = _
  rcases p.run.run l with ⟨_ | _, _⟩ <;> rfl

theorem Lower.run_wire (p : Path) (l : Lowering) : (Lower.wire p).run.run l =
    match l.socket? p.head.name with
    | none => (.error ⟨.unknownInstance p.head.name l.component, p.span⟩, l)
    | some s =>
      if l.declared.contains (signalName p) then
        (.error ⟨.signalTaken (signalName p) p.text l.component, p.span⟩, l)
      else
        match s.wireType? (portName p) with
        | none => (.error ⟨.unknownPort s.inst.type (portName p), p.span⟩, l)
        | some type => (.ok (signalName p),
            (l.connect p.head.name (portName p) (signalName p)).addWire
              ⟨signalName p, type, p.span⟩) := by
  have getRuns : (get : Lower Lowering).run.run l = (.ok l, l) := rfl
  rw [Lower.wire, Lower.run_bind, getRuns]
  simp only
  cases l.socket? p.head.name with
  | none => rfl
  | some s =>
    by_cases taken : l.declared.contains (signalName p) = true
    · simp only [taken, if_true]
      rfl
    · simp only [taken, Bool.false_eq_true, if_false]
      cases s.wireType? (portName p) with
      | none => rfl
      | some type => rfl

/-- A step of lowering, and one that does the same in other places. -/
def Moves {α β : Type} (m : Relocation) (file : Nat) (view : α → β) (p : Lower α) (q : Lower β) :
    Prop :=
  ∀ l, q.run.run (m.lowering file l) = match p.run.run l with
    | (.ok a, l') => (.ok (view a), m.lowering file l')
    | (.error e, l') => (.error (m.error e), m.lowering file l')

namespace Moves

variable {m : Relocation} {file : Nat} {α β γ δ : Type}

theorem pure {view : α → β} (a : α) : Moves m file view (Pure.pure a) (Pure.pure (view a)) :=
  fun _ => rfl

theorem bind {view : α → β} {view' : γ → δ} {p : Lower α} {q : Lower β} {f : α → Lower γ}
    {g : β → Lower δ} (first : Moves m file view p q)
    (rest : ∀ a, Moves m file view' (f a) (g (view a))) :
    Moves m file view' (p >>= f) (q >>= g) := by
  intro l
  rw [Lower.run_bind, Lower.run_bind, first l]
  rcases p.run.run l with ⟨e | a, l'⟩
  · rfl
  · exact rest a l'

theorem modified {f f' : Lowering → Lowering}
    (respects : ∀ l, f' (m.lowering file l) = m.lowering file (f l)) :
    Moves m file id (modify f : Lower PUnit) (modify f') := fun l => Prod.ext rfl (respects l)

/-- A dotted path has the same signal in other places. -/
theorem wire (p : Path) : Moves m file id (Lower.wire p) (Lower.wire (m.path p)) := by
  intro l
  have port : portName (m.path p) = portName p :=
    congrArg (String.intercalate "_") (m.segment_names p.tail)
  have signal : signalName (m.path p) = signalName p :=
    congrArg (String.intercalate "_") (m.path_names p)
  rw [Lower.run_wire, Lower.run_wire, m.socket?_lowering, port, signal, m.path_text, m.path_span]
  cases found : l.socket? p.head.name with
  | none =>
    have found : l.socket? (m.path p).head.name = none := found
    rw [found]
    rfl
  | some s =>
    have found : l.socket? (m.path p).head.name = some s := found
    rw [found]
    simp only [Option.map_some, m.wireType?_socket]
    have declared : (m.lowering file l).declared = l.declared := rfl
    rw [declared]
    split
    · rfl
    · cases s.wireType? (portName p) with
      | none => rfl
      | some type =>
        rw [m.connect_lowering]
        exact Prod.ext rfl (m.addWire_lowering file _ ⟨signalName p, type, p.span⟩)

theorem path (p : Path) : Moves m file m.path (Lower.path p) (Lower.path (m.path p)) := by
  have plain : (m.path p).isPlain = p.isPlain := List.isEmpty_map
  unfold Lower.path
  rw [plain]
  split
  · exact .pure p
  · refine .bind (.wire p) fun signal => ?_
    rw [m.path_span]
    exact .pure _

theorem expr (e : Expr) : Moves m file m.expr (Lower.expr e) (Lower.expr (m.expr e)) := by
  induction e with
  | ref p => exact .bind (.path p) fun p => .pure _
  | const span value => exact .pure _
  | binary span op left right ihl ihr => exact .bind ihl fun l => .bind ihr fun r => .pure _
  | unary span op operand ih => exact .bind ih fun x => .pure _
  | choice span cond yes no ihc ihy ihn =>
    exact .bind ihc fun c => .bind ihy fun y => .bind ihn fun n => .pure _
  | index span target bit ih => exact .bind (.path target) fun p => .bind ih fun b => .pure _
  | range span target high low ihh ihl =>
    exact .bind (.path target) fun p => .bind ihh fun h => .bind ihl fun l => .pure _

theorem assigns (as : List (Expr × Expr)) :
    Moves m file id (Lower.assigns as) (Lower.assigns (as.map m.assign)) := by
  induction as with
  | nil => exact .pure ()
  | cons a rest ih =>
    obtain ⟨target, value⟩ := a
    refine .bind (.expr target) fun target => .bind (.expr value) fun value => ?_
    have append : Moves m file id
        (modify fun l => { l with assigns := l.assigns ++ [(target, value)] })
        (modify fun l => { l with assigns := l.assigns ++ [m.assign (target, value)] }) := by
      refine .modified fun l => ?_
      simp only [Relocation.lowering, List.map_append, List.map_cons, List.map_nil]
    exact .bind append fun _ => ih

end Moves

/-! ## Design units -/

section Units

variable (m : Relocation) (file : Nat)

theorem eraseDupsBy_map {α : Type} {f : α → α} {same : α → α → Bool}
    (respects : ∀ a b, same (f a) (f b) = same a b) (as : List α) :
    (as.map f).eraseDupsBy same = (as.eraseDupsBy same).map f := by
  have loop : ∀ as done, List.eraseDupsBy.loop same (as.map f) (done.map f) =
      (List.eraseDupsBy.loop same as done).map f := by
    intro as
    induction as with
    | nil =>
      intro done
      simp only [List.map_nil, List.eraseDupsBy.loop, List.map_reverse]
    | cons a rest ih =>
      intro done
      have known : (done.map f).any (same (f a)) = done.any (same a) := by
        rw [List.any_map]
        exact congrArg done.any (funext (respects a))
      simp only [List.map_cons, List.eraseDupsBy.loop, known]
      split
      · exact ih done
      · exact ih (a :: done)
  exact loop as []

theorem subcomponents_moved (l : Lowering) :
    subcomponents (m.lowering file l) = (subcomponents l).map (m.component file) := by
  have known : (m.lowering file l).sockets.filterMap (·.sub?) =
      (l.sockets.filterMap (·.sub?)).map (m.component file) := by
    simp only [Relocation.lowering, List.filterMap_map, List.map_filterMap]
    rfl
  rw [subcomponents, known, eraseDupsBy_map (f := m.component file) fun _ _ => rfl]
  rfl

theorem socketLines_moved (s : Socket) : socketLines (m.socket file s) = socketLines s := by
  have generics : (m.socket file s).inst.bindings.map Binding.vhdl =
      s.inst.bindings.map Binding.vhdl := by
    simp only [Relocation.socket, Relocation.inst, List.map_map]
    exact List.map_congr_left fun b _ => m.vhdl_binding b
  have known : (m.socket file s).sub?.isSome = s.sub?.isSome := Option.isSome_map
  simp only [socketLines, generics, known]
  rfl

theorem archLines_moved (c : Component) (l : Lowering) :
    archLines (m.component file c) (m.lowering file l) = archLines c l := by
  have name : ((m.component file c).arch?.map (·.name)).getD Architecture.defaultName =
      (c.arch?.map (·.name)).getD Architecture.defaultName := by
    rw [m.arch?_component]
    cases c.arch? <;> rfl
  have subs : (subcomponents (m.lowering file l)).flatMap subcomponentLines =
      (subcomponents l).flatMap subcomponentLines := by
    have lines : (fun c => subcomponentLines (m.component file c)) = subcomponentLines := by
      funext c
      simp only [subcomponentLines, m.interfaceLines_component]
      rfl
    rw [subcomponents_moved, List.flatMap_map, lines]
  have wires : (m.lowering file l).wires.map wireLine = l.wires.map wireLine := by
    simp only [Relocation.lowering, List.map_map]
    rfl
  have sockets : (m.lowering file l).sockets.flatMap socketLines = l.sockets.flatMap socketLines := by
    simp only [Relocation.lowering, List.flatMap_map, socketLines_moved]
  have assigns : (m.lowering file l).assigns.map assignLine = l.assigns.map assignLine := by
    simp only [Relocation.lowering, List.map_map]
    refine List.map_congr_left fun a _ => ?_
    simp only [Function.comp, assignLine, Relocation.assign, m.vhdl_expr]
  have blocks : (m.component file c).stmts.filterMap blockLine? = c.stmts.filterMap blockLine? := by
    rw [m.stmts_component, List.filterMap_map]
    exact List.filterMap_congr fun s _ => by cases s <;> rfl
  simp only [archLines, name, subs, m.declLines_component, wires, sockets, assigns, blocks]
  rfl

/-- The lines of a design unit do not depend on places. -/
theorem unitLines_moved (c : Component) (l : Lowering) :
    unitLines (m.component file c) (m.lowering file l) = unitLines c l := by
  simp only [unitLines, entityLines, m.interfaceLines_component, archLines_moved]
  rfl

end Units

/-- The state before the first assignment, for a component in other places. -/
theorem start_moved (m : Relocation) (library : Option Design) (c : Component) :
    m.lowering 0 (.start library c) =
      { component := (m.component 0 c).name, declared := (m.component 0 c).declaredNames
        sockets := (m.component 0 c).instances.map fun i =>
          { inst := i, sub? := (interface? library i.type).map (m.component 0) } } := by
  rw [Relocation.declaredNames_component, Relocation.instances_component]
  simp only [Relocation.lowering, Lowering.start, List.map_map, List.map_nil]
  rfl

/-- Components that a relocation makes the same are emitted alike where it makes the interfaces they
use the same: with the same VHDL, or with errors that it makes the same. -/
theorem Generator.emit_moved (m : Relocation) {g g' : Generator} {c c' : Component}
    (indent : g.indent = g'.indent) (same : m.component 0 c = m.component 0 c')
    (interfaces : ∀ i ∈ c.instances, (interface? g.library i.type).map (m.component 0) =
      (interface? g'.library i.type).map (m.component 0)) :
    (g.emit c).1.mapError m.error = (g'.emit c').1.mapError m.error := by
  have starts : m.lowering 0 (.start g.library c) = m.lowering 0 (.start g'.library c') := by
    rw [start_moved, start_moved, ← same]
    refine congrArg (fun sockets => (⟨_, _, sockets, [], []⟩ : Lowering)) ?_
    refine List.map_congr_left fun j hj => ?_
    rw [Relocation.instances_component] at hj
    obtain ⟨i, hi, rfl⟩ := List.mem_map.mp hj
    exact congrArg (fun sub? => (⟨_, sub?, []⟩ : Socket)) (interfaces i hi)
  have assigns : c.assignments.map m.assign = c'.assignments.map m.assign := by
    rw [← m.assignments_component 0, ← m.assignments_component 0]
    exact congrArg Component.assignments same
  have lowers : Moves m 0 id (Lower.assigns c.assignments)
      (Lower.assigns (c.assignments.map m.assign)) := .assigns _
  have lowers' : Moves m 0 id (Lower.assigns c'.assignments)
      (Lower.assigns (c'.assignments.map m.assign)) := .assigns _
  -- both are lowered as the component in its new place is
  have both := (lowers (.start g.library c)).symm.trans
    ((assigns ▸ starts ▸ lowers' (.start g'.library c')))
  have lines : ∀ l l', m.lowering 0 l = m.lowering 0 l' → unitLines c l = unitLines c' l' := by
    intro l l' states
    rw [← unitLines_moved m 0 c l, ← unitLines_moved m 0 c' l', states]
    exact congrArg (unitLines · _) same
  rw [Generator.emit_eq, Generator.emit_eq]
  unfold lower
  revert both
  rcases (Lower.assigns c.assignments).run.run (.start g.library c) with ⟨e | _, l⟩ <;>
    rcases (Lower.assigns c'.assignments).run.run (.start g'.library c') with ⟨e' | _, l'⟩ <;>
    intro both
  · exact congrArg Except.error (Except.error.inj (congrArg Prod.fst both))
  · cases congrArg Prod.fst both
  · cases congrArg Prod.fst both
  · simp only [Except.mapError, indent, lines l l' (congrArg Prod.snd both)]

theorem toOption_mapError {α ε δ : Type} (f : ε → δ) (x : Except ε α) :
    (x.mapError f).toOption = x.toOption := by
  cases x <;> rfl

/-- Components that are the same up to places have the same VHDL where the interfaces they use are
the same up to places. -/
theorem Generator.emit_eq_of_plain_eq {g g' : Generator} {c c' : Component}
    (indent : g.indent = g'.indent) (same : c.plain = c'.plain)
    (interfaces : ∀ i ∈ c.instances, (interface? g.library i.type).map Component.plain =
      (interface? g'.library i.type).map Component.plain) :
    (g.emit c).1.toOption = (g'.emit c').1.toOption := by
  have alike := congrArg Except.toOption (emit_moved (.erased none) indent same interfaces)
  rwa [toOption_mapError, toOption_mapError] at alike

end Vhdl
end CircuitCompiler
