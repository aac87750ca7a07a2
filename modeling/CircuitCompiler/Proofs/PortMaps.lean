import CircuitCompiler.Proofs.Agreement

/-!
# Port maps and the references they come from

Lowering visits the dotted paths of a component in source order. Each of them connects a port and
declares a signal, unless that was done before, so both lists are the references without their
repetitions, in the order in which they first occur.

* `Vhdl.Lower.Relates`: a relation of states that a path keeps is kept by a whole run;
* `Vhdl.Socket.ports_foldl`, `Vhdl.Declares`: the ports of one instance, and the signals of all;
* `Vhdl.emit_reflects`: port maps and declared signals of a component that passes the check.
-/

namespace CircuitCompiler

/-- The references to ports in the assignments of a component: instance and port, in source order.
-/
def Component.references (c : Component) : List (String × String) :=
  c.dottedPaths.filterMap fun p => match p.names with
    | [inst, port] => some (inst, port)
    | _ => none

/-- The ports of an instance that the assignments of a component refer to, in source order. -/
def Component.portsOf (c : Component) (inst : String) : List String :=
  (c.references.filter fun r => r.1 == inst).map (·.2)

namespace Vhdl

/-! ## Lists without repetitions -/

/-- A name joins a list, unless it is there. -/
def addNew (names : List String) (name : String) : List String :=
  if names.contains name then names else names ++ [name]

/-- Names that join one after the other stand in the order of their first occurrence. -/
theorem foldl_addNew (names : List String) : names.foldl addNew [] = names.eraseDups := by
  induction names using List.reverseRecOn with
  | nil => rfl
  | append_singleton names name ih =>
    rw [List.foldl_append, ih, List.eraseDups_append, List.foldl_cons, List.foldl_nil, addNew]
    by_cases known : name ∈ names
    · rw [if_pos (by simpa using known)]
      simp [List.removeAll, known]
    · rw [if_neg (by simpa using known)]
      simp [List.removeAll, known, List.eraseDups_cons]

/-! ## Port maps -/

/-- The ports of an instance that are connected. -/
def Socket.ports (s : Socket) : List String := s.connections.map (·.port)

theorem Socket.ports_connect (s : Socket) (port signal : String) :
    (s.connect port signal).ports = addNew s.ports port := by
  have known : (s.connections.any fun c => c.port == port) = s.ports.contains port := by
    rw [ports, List.contains_eq_any_beq, List.any_map]
    simp [Function.comp_def, BEq.comm]
  unfold connect addNew
  rw [known]
  split
  · rfl
  · exact List.map_append

theorem Socket.inst_seen (s : Socket) (p : Path) : (s.seen p).inst = s.inst := by
  unfold seen
  split
  · exact congrArg Prod.fst (s.unit_connect _ _)
  · rfl

theorem Socket.inst_foldl (s : Socket) (ps : List Path) : (ps.foldl seen s).inst = s.inst := by
  induction ps generalizing s with
  | nil => rfl
  | cons p rest ih => exact (ih (s.seen p)).trans (s.inst_seen p)

/-- The ports that paths connect are those of the paths to the instance. -/
theorem Socket.ports_foldl (s : Socket) (ps : List Path) :
    (ps.foldl seen s).ports =
      ((ps.filter fun p => p.head.name == s.inst.name).map portName).foldl addNew s.ports := by
  induction ps generalizing s with
  | nil => rfl
  | cons p rest ih =>
    rw [List.foldl_cons, ih, List.filter_cons, inst_seen]
    by_cases here : s.inst.name = p.head.name
    · have step : s.seen p = s.connect (portName p) (signalName p) :=
        if_pos (beq_iff_eq.mpr here)
      rw [step, if_pos (beq_iff_eq.mpr here.symm), ports_connect]
      rfl
    · have step : s.seen p = s := if_neg (by simpa using here)
      rw [step, if_neg (by simpa using Ne.symm here)]

/-! ## What paths do to a state -/

namespace Lower

variable {α β : Type} {R : List Path → Lowering → Lowering → Prop}

/-- Where the step succeeds, the states before and behind it are related over the paths. -/
def Relates (R : List Path → Lowering → Lowering → Prop) (ps : List Path) (p : Lower α) : Prop :=
  ∀ l a l', p.run.run l = (.ok a, l') → R ps l l'

/-- The relation holds over a path that is wired up, over no path where assignments alone change,
and over paths one after the other where it holds over each. -/
structure Kept (R : List Path → Lowering → Lowering → Prop) : Prop where
  wire : ∀ p, Relates R [p] (Lower.wire p)
  assigns : ∀ l as, R [] l { l with assigns := as }
  trans : ∀ ps ps' l l' l'', R ps l l' → R ps' l' l'' → R (ps ++ ps') l l''

namespace Kept

variable {ps ps' : List Path}

theorem pure (kept : Kept R) (a : α) : Relates R [] (Pure.pure a : Lower α) := by
  intro l b l' h
  cases h
  exact kept.assigns l l.assigns

theorem bind (kept : Kept R) {p : Lower α} {f : α → Lower β} (first : Relates R ps p)
    (second : ∀ a, Relates R ps' (f a)) : Relates R (ps ++ ps') (p >>= f) := by
  intro l b l'' h
  rw [run_bind] at h
  cases run : p.run.run l with
  | mk result l' =>
    rw [run] at h
    cases result with
    | error e => cases h
    | ok a => exact kept.trans _ _ _ _ _ (first l a l' run) (second a l' b l'' h)

theorem map (kept : Kept R) {p : Lower α} {f : α → β} (h : Relates R ps p) :
    Relates R ps (p >>= fun a => Pure.pure (f a)) := by
  have both : Relates R (ps ++ []) (p >>= fun a => Pure.pure (f a)) :=
    kept.bind h fun a => kept.pure (f a)
  rwa [List.append_nil] at both

theorem path (kept : Kept R) (p : Path) : Relates R (Expr.paths.dotted p) (Lower.path p) := by
  unfold Lower.path Expr.paths.dotted
  by_cases plain : p.isPlain = true
  · rw [if_pos plain, if_pos plain]
    exact kept.pure p
  · rw [if_neg plain, if_neg plain]
    exact kept.map (kept.wire p)

theorem expr (kept : Kept R) (e : Expr) : Relates R e.paths (Lower.expr e) := by
  induction e with
  | ref p => exact kept.map (kept.path p)
  | const span value => exact kept.pure _
  | binary span op left right ihl ihr => exact kept.bind ihl fun _ => kept.map ihr
  | unary span op operand ih => exact kept.map ih
  | choice span cond yes no ihc ihy ihn =>
    rw [Expr.paths, List.append_assoc]
    exact kept.bind ihc fun _ => kept.bind ihy fun _ => kept.map ihn
  | index span target bit ih => exact kept.bind (kept.path target) fun _ => kept.map ih
  | range span target high low ihh ihl =>
    rw [Expr.paths, List.append_assoc]
    exact kept.bind (kept.path target) fun _ => kept.bind ihh fun _ => kept.map ihl

/-- What a path keeps is kept by lowering all assignments. -/
theorem run (kept : Kept R) (as : List (Expr × Expr)) :
    Relates R (as.flatMap fun a => a.1.paths ++ a.2.paths) (Lower.assigns as) := by
  induction as with
  | nil => exact kept.pure ()
  | cons a rest ih =>
    obtain ⟨target, value⟩ := a
    have append : ∀ b : Expr × Expr, Relates R []
        (modify fun l => { l with assigns := l.assigns ++ [b] } : Lower PUnit) := by
      intro b l u l' h
      cases h
      exact kept.assigns l _
    rw [List.flatMap_cons, List.append_assoc]
    exact kept.bind (kept.expr target) fun t => kept.bind (kept.expr value) fun v =>
      kept.bind (append (t, v)) fun _ => ih

end Kept

end Lower

/-! ## Declared signals -/

/-- From `l` to `l'`, both of lowering one component, the signals of the paths `ps` are declared.
None of them has the name of a declaration, and each path starts at an instance. -/
structure Declares (ps : List Path) (l l' : Lowering) : Prop where
  alike : l.Alike l'
  wires : l'.wires.map (·.name) = (ps.map signalName).foldl addNew (l.wires.map (·.name))
  free : ∀ p ∈ ps, signalName p ∉ l.declared
  known : ∀ p ∈ ps, (l.socket? p.head.name).isSome

theorem Lowering.Alike.trans {l l' l'' : Lowering} (h : l.Alike l') (h' : l'.Alike l'') :
    l.Alike l'' where
  component := h'.component.trans h.component
  declared := h'.declared.trans h.declared
  sockets := h'.sockets.trans h.sockets

theorem Lowering.wires_addWire (l : Lowering) (w : Wire) :
    (l.addWire w).wires.map (·.name) = addNew (l.wires.map (·.name)) w.name := by
  have known : (l.wires.any fun v => v.name == w.name) =
      (l.wires.map (·.name)).contains w.name := by
    rw [List.contains_eq_any_beq, List.any_map]
    simp [Function.comp_def, BEq.comm]
  unfold addWire addNew
  rw [known]
  split
  · rfl
  · exact List.map_append

theorem declares_kept : Lower.Kept Declares where
  wire := by
    intro p l signal l' h
    rw [Lower.run_wire] at h
    split at h
    · cases h
    · next s found =>
      split at h
      · cases h
      · next free =>
        split at h
        · cases h
        · next type _ =>
          cases h
          constructor
          case alike => exact ((Lowering.Alike.refl l).connect _ _ _).addWire _
          case wires => exact Lowering.wires_addWire _ _
          case free => simpa using free
          case known => simp [found]
  assigns := fun l as => ⟨⟨rfl, rfl, rfl⟩, rfl, by simp, by simp⟩
  trans := by
    intro ps ps' l l' l'' h h'
    constructor
    case alike => exact h.alike.trans h'.alike
    case wires => rw [h'.wires, h.wires, List.map_append, List.foldl_append]
    case free =>
      refine List.forall_mem_append.mpr ⟨h.free, fun p hp => ?_⟩
      rw [← h.alike.declared]
      exact h'.free p hp
    case known =>
      refine List.forall_mem_append.mpr ⟨h.known, fun p hp => ?_⟩
      have same := congrArg Option.isSome (h.alike.socket? p.head.name)
      rw [Option.isSome_map, Option.isSome_map] at same
      exact same ▸ h'.known p hp

/-! ## Emitted components -/

section Lowered

variable {library : Option Design} {c : Component} {l : Lowering}

theorem lower_declares (h : lower library c = (.ok (), l)) :
    Declares c.dottedPaths (.start library c) l :=
  declares_kept.run c.assignments _ () l h

/-- The instances of a lowered component are those of its tree. -/
theorem lower_insts (h : lower library c = (.ok (), l)) : l.sockets.map (·.inst) = c.instances := by
  have units := congrArg (List.map Prod.fst) (lower_declares h).alike.sockets
  simpa [List.map_map, Function.comp_def, Socket.unit, Lowering.start] using units

/-- The port map of an instance of a lowered component. -/
theorem lower_connections (h : lower library c = (.ok (), l)) {s : Socket} (hs : s ∈ l.sockets) :
    s.connections = ((c.dottedPaths.filter fun p => p.head.name == s.inst.name).map
      portName).eraseDups.map fun port => ⟨port, s.inst.name ++ "_" ++ port⟩ := by
  have ports : s.ports = ((c.dottedPaths.filter fun p => p.head.name == s.inst.name).map
      portName).eraseDups := by
    rw [(Lowers.assigns c.assignments _ () l h).2.sockets] at hs
    obtain ⟨s₀, hs₀, rfl⟩ := List.mem_map.mp hs
    obtain ⟨i, -, rfl⟩ := List.mem_map.mp hs₀
    rw [Socket.inst_foldl, Socket.ports_foldl, ← foldl_addNew]
    rfl
  have signals : ∀ k ∈ s.connections, k = ⟨k.port, s.inst.name ++ "_" ++ k.port⟩ := by
    intro k hk
    obtain ⟨p, hp, inst, rfl⟩ := (mem_connections_iff h hs).mp hk
    rw [inst, connection, signalName_eq (Component.dottedPaths_dotted hp)]
  rw [← ports, Socket.ports, List.map_map]
  calc s.connections = s.connections.map id := (List.map_id _).symm
    _ = _ := List.map_congr_left signals

/-- The signals that a lowered component declares, in the order of their paths. -/
theorem lower_wires (h : lower library c = (.ok (), l)) :
    l.wires.map (·.name) = (c.dottedPaths.map signalName).eraseDups := by
  rw [(lower_declares h).wires, ← foldl_addNew]
  rfl

theorem exists_wire_iff (h : lower library c = (.ok (), l)) {name : String} :
    (∃ w ∈ l.wires, w.name = name) ↔ ∃ p ∈ c.dottedPaths, signalName p = name := by
  rw [← List.mem_map, lower_wires h, List.mem_eraseDups, List.mem_map]

/-- Every path of a lowered component starts at one of its instances. -/
theorem exists_socket (h : lower library c = (.ok (), l)) {p : Path} (hp : p ∈ c.dottedPaths) :
    ∃ s ∈ l.sockets, s.inst.name = p.head.name := by
  have declares := lower_declares h
  have same := congrArg Option.isSome (declares.alike.socket? p.head.name)
  rw [Option.isSome_map, Option.isSome_map, declares.known p hp] at same
  obtain ⟨s, found⟩ := Option.isSome_iff_exists.mp same
  exact ⟨s, List.mem_of_find?_eq_some found, by simpa using List.find?_some found⟩

end Lowered

/-- The port maps and the declared signals of a lowered component are its references: those to an
instance, without repetition and in the order of their first occurrence, are its port map, and so
are the names of all of them, which the component itself does not declare. -/
structure Reflects (c : Component) (l : Lowering) : Prop where
  instances : l.sockets.map (·.inst) = c.instances
  portMaps : ∀ s ∈ l.sockets, s.connections =
    (c.portsOf s.inst.name).eraseDups.map fun port => ⟨port, s.inst.name ++ "_" ++ port⟩
  wires : l.wires.map (·.name) = (c.references.map fun r => r.1 ++ "_" ++ r.2).eraseDups
  bound : ∀ name, (∃ w ∈ l.wires, w.name = name) ↔
    ∃ s ∈ l.sockets, ∃ k ∈ s.connections, k.signal = name
  free : ∀ w ∈ l.wires, w.name ∉ c.declaredNames

/-- The references of a component whose paths have two segments. -/
theorem references_eq {c : Component} (short : ∀ p ∈ c.dottedPaths, ∃ s, p.tail = [s]) :
    c.references = c.dottedPaths.map fun p => (p.head.name, portName p) := by
  rw [Component.references, ← List.filterMap_eq_map]
  refine List.filterMap_congr fun p hp => ?_
  obtain ⟨s, one⟩ := short p hp
  simp [Path.names, Path.segments, portName, one]

theorem lower_reflects {library : Option Design} {c : Component} {l : Lowering}
    (h : lower library c = (.ok (), l)) (short : ∀ p ∈ c.dottedPaths, ∃ s, p.tail = [s]) :
    Reflects c l := by
  have references := references_eq short
  constructor
  case instances => exact lower_insts h
  case portMaps =>
    intro s hs
    rw [lower_connections h hs, Component.portsOf, references, List.filter_map, List.map_map]
    rfl
  case wires =>
    rw [lower_wires h, references, List.map_map]
    exact congrArg List.eraseDups
      (List.map_congr_left fun p hp => signalName_eq (Component.dottedPaths_dotted hp))
  case bound =>
    intro name
    rw [exists_wire_iff h]
    constructor
    · rintro ⟨p, hp, rfl⟩
      obtain ⟨s, hs, inst⟩ := exists_socket h hp
      exact ⟨s, hs, connection p, (mem_connections_iff h hs).mpr ⟨p, hp, inst, rfl⟩, rfl⟩
    · rintro ⟨s, hs, k, hk, rfl⟩
      obtain ⟨p, hp, -, rfl⟩ := (mem_connections_iff h hs).mp hk
      exact ⟨p, hp, rfl⟩
  case free =>
    intro w hw
    obtain ⟨p, hp, name⟩ := (exists_wire_iff h).mp ⟨w, hw, rfl⟩
    exact name ▸ (lower_declares h).free p hp

/-- The paths of a component that passes the check have two segments. -/
theorem short_of_passes {d : Design} {top : String} {c : Component} (known : c ∈ d.components)
    (passes : c.name ∈ (d.check top).order) : ∀ p ∈ c.dottedPaths, ∃ s, p.tail = [s] := by
  intro p hp
  by_contra deep
  refine (Design.mem_order_iff.mp passes).2.1 (.badPath known hp ?_)
  rintro ⟨i, port, -, one, -⟩
  exact deep ⟨port, one⟩

/-- A component that passes the check and is emitted is written out from a state whose port maps and
signals are its references. -/
theorem emit_reflects {d : Design} {top : String} {c : Component} {g g' : Generator}
    {text : String} (known : c ∈ d.components) (passes : c.name ∈ (d.check top).order)
    (emits : g.emit c = (.ok text, g')) :
    text = renderLines (indentStep g.indent) (unitLines c g'.work) ∧ Reflects c g'.work := by
  obtain ⟨lowers, written⟩ := lower_of_emit emits
  exact ⟨written, lower_reflects lowers (short_of_passes known passes)⟩

/-- A component with two instances of one type: it reads the port `q` of one of them twice. -/
def pairUser : Component where
  name := "T"
  nameSpan := .zero
  span := .zero
  file := 0
  items := [
    .ports .zero [⟨.port .input, "x", .zero, .vec, .scalar, .zero⟩,
      ⟨.port .output, "y", .zero, .vec, .scalar, .zero⟩],
    .arch ⟨.zero, "", .zero, [
      .inst .zero ⟨"u", .zero, "A", .zero, []⟩,
      .inst .zero ⟨"v", .zero, "A", .zero, []⟩,
      .assign .zero (.ref ⟨⟨"u", .zero⟩, [⟨"a", .zero⟩]⟩) (.ref ⟨⟨"x", .zero⟩, []⟩),
      .assign .zero (.ref ⟨⟨"v", .zero⟩, [⟨"a", .zero⟩]⟩) (.ref ⟨⟨"u", .zero⟩, [⟨"q", .zero⟩]⟩),
      .assign .zero (.ref ⟨⟨"y", .zero⟩, []⟩) (.binary .zero .boolAnd
        (.ref ⟨⟨"v", .zero⟩, [⟨"q", .zero⟩]⟩) (.ref ⟨⟨"u", .zero⟩, [⟨"q", .zero⟩]⟩))]⟩]
  widths := []

/-- The user of two instances and the component that they are of. -/
def pairDesign : Design where
  components := [pairUser,
    { name := "A", nameSpan := .zero, span := .zero, file := 0, widths := []
      items := [.ports .zero [⟨.port .input, "a", .zero, .vec, .scalar, .zero⟩,
        ⟨.port .output, "q", .zero, .vec, .scalar, .zero⟩]] }]
  distinct := by decide

/-- The second reading of `u.q` adds neither a connection nor a signal. -/
theorem emit_reflects_pairUser :
    ∃ text g', (⟨some pairDesign, 4, default⟩ : Generator).emit pairUser = (.ok text, g') ∧
      Reflects pairUser g'.work ∧ g'.work.wires.map (·.name) = ["u_a", "v_a", "u_q", "v_q"] := by
  have passes : pairUser.name ∈ (pairDesign.check "").order := by
    have order : (pairDesign.check "").order = ["A", "T"] := by cbv
    rw [order]
    decide
  obtain ⟨text, g', run⟩ : ∃ text g', (⟨some pairDesign, 4, default⟩ : Generator).emit pairUser =
      (.ok text, g') := emitted_of_isOk (by decide)
  obtain ⟨-, reflects⟩ := emit_reflects List.mem_cons_self passes run
  exact ⟨text, g', run, reflects, reflects.wires.trans (by decide)⟩

end Vhdl
end CircuitCompiler
