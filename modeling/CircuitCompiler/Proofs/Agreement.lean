import CircuitCompiler.Proofs.Declared
import CircuitCompiler.Proofs.Signals

/-!
# What the check leaves to emission

The check looks up every dotted path of a component, and lowering looks each of them up again. Where
the check passes a component, lowering finds the instance and the port of every path, so only one
thing can still go wrong: the signal for a port has the name of a declaration.

* `Vhdl.Lower.Guarded`: a step of lowering fails at the first path whose signal is taken, and else
  succeeds; all steps do, over paths that lead to ports;
* `Vhdl.emit_fails_iff`: when emission fails, and with which error.
-/

namespace CircuitCompiler

/-- The path names a port of an instance, and the signal for the port has the name of a declaration
of the component. -/
def Component.Collides (c : Component) (p : Path) : Prop :=
  ∃ inst port, p.names = [inst, port] ∧ inst ++ "_" ++ port ∈ c.declaredNames

namespace Vhdl

/-! ## States of one component -/

/-- What an instance at work is of, apart from the ports connected so far. -/
def Socket.unit (s : Socket) : Instance × Option Component := (s.inst, s.sub?)

theorem Socket.wireType?_congr {s t : Socket} (same : s.unit = t.unit) (port : String) :
    s.wireType? port = t.wireType? port := by
  obtain ⟨inst, sub⟩ := Prod.mk.inj same
  simp only [wireType?, inst, sub]

theorem Socket.unit_connect (s : Socket) (port signal : String) :
    (s.connect port signal).unit = s.unit := by
  unfold connect
  split <;> rfl

/-- The two states are of lowering the same component: they have the same instances and declared
names. -/
structure Lowering.Alike (l l' : Lowering) : Prop where
  component : l'.component = l.component
  declared : l'.declared = l.declared
  sockets : l'.sockets.map Socket.unit = l.sockets.map Socket.unit

namespace Lowering

variable {l l' : Lowering}

theorem Alike.refl (l : Lowering) : l.Alike l := ⟨rfl, rfl, rfl⟩

/-- The instances that a name leads to agree. -/
theorem Alike.socket? (alike : l.Alike l') (name : String) :
    (l'.socket? name).map Socket.unit = (l.socket? name).map Socket.unit := by
  have byUnit : ∀ l : Lowering, (l.socket? name).map Socket.unit =
      (l.sockets.map Socket.unit).find? fun u => u.1.name == name := by
    intro l
    rw [List.find?_map]
    rfl
  rw [byUnit, byUnit, alike.sockets]

theorem Alike.connect (alike : l.Alike l') (inst port signal : String) :
    l.Alike (l'.connect inst port signal) where
  component := alike.component
  declared := alike.declared
  sockets := by
    rw [← alike.sockets, Lowering.connect, List.map_map]
    refine List.map_congr_left fun s _ => ?_
    rw [Function.comp_apply]
    split
    · exact s.unit_connect port signal
    · rfl

theorem Alike.addWire (alike : l.Alike l') (w : Wire) : l.Alike (l'.addWire w) := by
  unfold Lowering.addWire
  split
  · exact alike
  · exact ⟨alike.component, alike.declared, alike.sockets⟩

/-- The path leads to an instance of a component that has the port, or of an unknown one. -/
def Reaches (l : Lowering) (p : Path) : Prop :=
  ∃ s type, l.socket? p.head.name = some s ∧ s.wireType? (portName p) = some type

theorem Reaches.alike {p : Path} (h : l.Reaches p) (alike : l.Alike l') : l'.Reaches p := by
  obtain ⟨s, type, found, typed⟩ := h
  have same := alike.socket? p.head.name
  rw [found] at same
  obtain ⟨t, found', same⟩ := Option.map_eq_some_iff.mp same
  exact ⟨t, type, found', (Socket.wireType?_congr same _).trans typed⟩

/-- The first of the paths whose signal has the name of a declaration. -/
def firstTaken? (l : Lowering) (ps : List Path) : Option Path :=
  ps.find? fun p => l.declared.contains (signalName p)

/-- The complaint about a path whose signal has the name of a declaration. -/
def takenError (l : Lowering) (p : Path) : CompileError :=
  ⟨.signalTaken (signalName p) p.text l.component, p.span⟩

end Lowering

/-! ## Steps of lowering -/

namespace Lower

/-- From every state like `l₀` on, the step fails at the first of the paths whose signal is taken,
and succeeds if there is none. -/
def Guarded {α : Type} (l₀ : Lowering) (ps : List Path) (p : Lower α) : Prop :=
  ∀ l, l₀.Alike l → match l₀.firstTaken? ps with
    | none => ∃ a l', p.run.run l = (.ok a, l') ∧ l₀.Alike l'
    | some q => ∃ l', p.run.run l = (.error (l₀.takenError q), l')

namespace Guarded

variable {α β : Type} {l₀ : Lowering} {ps ps' : List Path}

theorem pure (a : α) : Guarded l₀ [] (Pure.pure a : Lower α) :=
  fun l alike => ⟨a, l, rfl, alike⟩

theorem bind {p : Lower α} {f : α → Lower β} (first : Guarded l₀ ps p)
    (second : ∀ a, Guarded l₀ ps' (f a)) : Guarded l₀ (ps ++ ps') (p >>= f) := by
  intro l alike
  have here := first l alike
  rw [Lowering.firstTaken?, List.find?_append, ← Lowering.firstTaken?]
  cases taken : l₀.firstTaken? ps with
  | some q =>
    rw [taken] at here
    obtain ⟨l', fails⟩ := here
    exact ⟨l', by rw [run_bind, fails]⟩
  | none =>
    rw [taken] at here
    obtain ⟨a, l', runs, alike'⟩ := here
    rw [Option.none_or, run_bind, runs]
    exact second a l' alike'

theorem map {p : Lower α} {f : α → β} (h : Guarded l₀ ps p) :
    Guarded l₀ ps (p >>= fun a => Pure.pure (f a)) := by
  have both : Guarded l₀ (ps ++ []) (p >>= fun a => Pure.pure (f a)) :=
    h.bind fun a => pure (f a)
  rwa [List.append_nil] at both

theorem wire {p : Path} (reaches : l₀.Reaches p) : Guarded l₀ [p] (Lower.wire p) := by
  intro l alike
  obtain ⟨s, type, found, typed⟩ := reaches.alike alike
  rw [run_wire, found, alike.declared, alike.component]
  by_cases taken : l₀.declared.contains (signalName p) = true
  · have first : l₀.firstTaken? [p] = some p := by
      rw [Lowering.firstTaken?, List.find?_singleton, if_pos taken]
    rw [first]
    exact ⟨l, if_pos taken⟩
  · have first : l₀.firstTaken? [p] = none := by
      rw [Lowering.firstTaken?, List.find?_singleton, if_neg taken]
    rw [first]
    simp only [if_neg taken, typed]
    exact ⟨_, _, rfl, (alike.connect _ _ _).addWire _⟩

theorem path {p : Path} (reaches : ∀ q ∈ Expr.paths.dotted p, l₀.Reaches q) :
    Guarded l₀ (Expr.paths.dotted p) (Lower.path p) := by
  unfold Lower.path
  unfold Expr.paths.dotted at reaches ⊢
  by_cases plain : p.isPlain = true
  · rw [if_pos plain, if_pos plain]
    exact pure p
  · rw [if_neg plain] at reaches
    rw [if_neg plain, if_neg plain]
    exact (wire (reaches p List.mem_cons_self)).map

theorem expr {e : Expr} (reaches : ∀ p ∈ e.paths, l₀.Reaches p) :
    Guarded l₀ e.paths (Lower.expr e) := by
  -- on the expression: the paths stand in the order in which lowering comes to them
  induction e with
  | ref p => exact (path reaches).map
  | const span value => exact pure _
  | binary span op left right ihl ihr =>
    obtain ⟨hl, hr⟩ := List.forall_mem_append.mp reaches
    exact (ihl hl).bind fun _ => (ihr hr).map
  | unary span op operand ih => exact (ih reaches).map
  | choice span cond yes no ihc ihy ihn =>
    rw [Expr.paths, List.append_assoc] at reaches ⊢
    obtain ⟨hc, later⟩ := List.forall_mem_append.mp reaches
    obtain ⟨hy, hn⟩ := List.forall_mem_append.mp later
    exact (ihc hc).bind fun _ => (ihy hy).bind fun _ => (ihn hn).map
  | index span target bit ih =>
    obtain ⟨ht, hb⟩ := List.forall_mem_append.mp reaches
    exact (path ht).bind fun _ => (ih hb).map
  | range span target high low ihh ihl =>
    rw [Expr.paths, List.append_assoc] at reaches ⊢
    obtain ⟨ht, later⟩ := List.forall_mem_append.mp reaches
    obtain ⟨hh, hl⟩ := List.forall_mem_append.mp later
    exact (path ht).bind fun _ => (ihh hh).bind fun _ => (ihl hl).map

theorem append (a : Expr × Expr) :
    Guarded l₀ [] (modify fun l => { l with assigns := l.assigns ++ [a] } : Lower PUnit) :=
  fun _ alike => ⟨⟨⟩, _, rfl, ⟨alike.component, alike.declared, alike.sockets⟩⟩

theorem assigns {as : List (Expr × Expr)}
    (reaches : ∀ p ∈ as.flatMap fun a => a.1.paths ++ a.2.paths, l₀.Reaches p) :
    Guarded l₀ (as.flatMap fun a => a.1.paths ++ a.2.paths) (Lower.assigns as) := by
  induction as with
  | nil => exact pure ()
  | cons a rest ih =>
    obtain ⟨target, value⟩ := a
    rw [List.flatMap_cons, List.append_assoc] at reaches ⊢
    obtain ⟨ht, later⟩ := List.forall_mem_append.mp reaches
    obtain ⟨hv, hr⟩ := List.forall_mem_append.mp later
    exact (expr ht).bind fun t => (expr hv).bind fun v => (append (t, v)).bind fun _ => ih hr

end Guarded

end Lower

/-! ## Components that pass the check -/

/-- Where the instances of a component have distinct names, a path that the check leads to a port
is led there by lowering, too. -/
theorem reaches_of_leadsToPort {d : Design} {c : Component} {p : Path}
    (distinct : (c.instances.map (·.name)).Nodup) (leads : d.LeadsToPort c p) :
    (Lowering.start (some d) c).Reaches p := by
  obtain ⟨i, port, ⟨before, after, split, name, -⟩, one, sub, hsub, typed, decl, hdecl, named⟩ :=
    leads
  have mem : i ∈ c.instances := by rw [split]; simp
  -- the check looks at the last instance of the name, lowering at the first: there is only one
  have found : c.instances.find? (fun j => j.name == p.head.name) = some i := by
    obtain ⟨j, hj⟩ : ∃ j, c.instances.find? (fun j => j.name == p.head.name) = some j :=
      Option.isSome_iff_exists.mp (List.find?_isSome.mpr ⟨i, mem, by simpa using name⟩)
    have here : j.name = p.head.name := by simpa using List.find?_some hj
    rw [hj, List.inj_on_of_nodup_map distinct (List.mem_of_find?_eq_some hj) mem
      (here.trans name.symm)]
  have socket : (Lowering.start (some d) c).socket? p.head.name =
      some ⟨i, d.get? i.type, []⟩ := by
    rw [Lowering.socket?, Lowering.start, List.find?_map]
    exact congrArg _ found
  have known : d.get? i.type = some sub := Design.get?_eq_some_iff.mpr ⟨hsub, typed⟩
  obtain ⟨decl', hdecl'⟩ : ∃ decl', sub.port? (portName p) = some decl' := by
    refine Option.isSome_iff_exists.mp (List.find?_isSome.mpr ⟨decl, hdecl, ?_⟩)
    simp [portName, one, named]
  rw [known] at socket
  have typed : ∃ type, Socket.wireType? ⟨i, some sub, []⟩ (portName p) = some type := by
    simp only [Socket.wireType?, hdecl', Option.map_some, Option.some.injEq, exists_eq']
  obtain ⟨type, typed⟩ := typed
  exact ⟨_, type, socket, typed⟩

theorem collides_iff {d : Design} {c : Component} {p : Path} (leads : d.LeadsToPort c p) :
    c.Collides p ↔ signalName p ∈ c.declaredNames := by
  obtain ⟨-, port, -, one, -⟩ := leads
  have names : p.names = [p.head.name, port.name] := by simp [Path.names, Path.segments, one]
  have signal : signalName p = p.head.name ++ "_" ++ port.name := by
    rw [signalName, names]
    rfl
  rw [signal]
  constructor
  · rintro ⟨inst, port', names', taken⟩
    rw [names] at names'
    cases names'
    exact taken
  · exact fun taken => ⟨_, _, names, taken⟩

theorem emit_error_iff {g : Generator} {c : Component} {e : CompileError} :
    (g.emit c).1 = .error e ↔ (lower g.library c).1 = .error e := by
  rw [Generator.emit_eq]
  rcases lower g.library c with ⟨_ | _, l⟩ <;> simp

theorem guarded_assigns {d : Design} {top : String} {c : Component} (parsed : c.Parsed)
    (known : c ∈ d.components) (passes : c.name ∈ (d.check top).order) :
    (∀ p ∈ c.dottedPaths, d.LeadsToPort c p) ∧
      Lower.Guarded (.start (some d) c) c.dottedPaths (Lower.assigns c.assignments) := by
  have leads : ∀ p ∈ c.dottedPaths, d.LeadsToPort c p := by
    intro p hp
    by_contra bad
    exact (Design.mem_order_iff.mp passes).2.1 (.badPath known hp bad)
  exact ⟨leads, .assigns fun p hp => reaches_of_leadsToPort parsed.instances_nodup (leads p hp)⟩

/-- The emission of a component that was parsed and passes the check fails exactly if the signal for
one of its paths has the name of a declaration, and then it says so of the first such path. -/
theorem emit_fails_iff {d : Design} {top : String} {c : Component} {g : Generator}
    (parsed : c.Parsed) (known : c ∈ d.components) (passes : c.name ∈ (d.check top).order)
    (library : g.library = some d) :
    ((∃ e, (g.emit c).1 = .error e) ↔ ∃ p ∈ c.dottedPaths, c.Collides p) ∧
      ∀ e, (g.emit c).1 = .error e → e.kind = .naming ∧ e.code = .duplicateDeclaration ∧
        ∃ before p after, c.dottedPaths = before ++ p :: after ∧
          (∀ q ∈ before, ¬c.Collides q) ∧ c.Collides p ∧
          e = ⟨.signalTaken (signalName p) p.text c.name, p.span⟩ := by
  obtain ⟨leads, guarded⟩ := guarded_assigns parsed known passes
  have collides : ∀ p ∈ c.dottedPaths,
      (c.declaredNames.contains (signalName p) = true ↔ c.Collides p) := by
    intro p hp
    rw [List.contains_iff_mem, collides_iff (leads p hp)]
  have run := guarded (.start (some d) c) (.refl _)
  cases taken : (Lowering.start (some d) c).firstTaken? c.dottedPaths with
  | none =>
    rw [taken] at run
    obtain ⟨_, l, runs, -⟩ := run
    have succeeds : ∀ e, (g.emit c).1 ≠ .error e := by
      intro e fails
      rw [emit_error_iff, library, lower, runs] at fails
      cases fails
    refine ⟨⟨?_, ?_⟩, fun e fails => absurd fails (succeeds e)⟩
    · rintro ⟨e, fails⟩
      exact absurd fails (succeeds e)
    · rintro ⟨p, hp, bad⟩
      exact absurd ((collides p hp).mpr bad) (List.find?_eq_none.mp taken p hp)
  | some p =>
    rw [taken] at run
    obtain ⟨l, runs⟩ := run
    have fails : (g.emit c).1 = .error ⟨.signalTaken (signalName p) p.text c.name, p.span⟩ := by
      rw [emit_error_iff, library, lower, runs]
      rfl
    obtain ⟨bad, before, after, split, free⟩ := List.find?_eq_some_iff_append.mp taken
    have mem : p ∈ c.dottedPaths := List.mem_of_find?_eq_some taken
    refine ⟨⟨fun _ => ⟨p, mem, (collides p mem).mp bad⟩, fun _ => ⟨_, fails⟩⟩, fun e fails' => ?_⟩
    obtain rfl := Except.error.inj (fails.symm.trans fails')
    refine ⟨rfl, rfl, before, p, after, split, fun q hq collision => ?_, (collides p mem).mp bad,
      rfl⟩
    have taken' := (collides q (by rw [split]; exact List.mem_append_left _ hq)).mpr collision
    have free := free q hq
    rw [Bool.not_eq_true'] at free
    exact absurd (free.symm.trans taken') (by decide)

/-- A component that drives a port and declares a signal with the name that stands for it. -/
def takenSource : SourceFile where
  id := 0
  path := ""
  content := Bytes.ofString ("component A { port { input vec b; } } " ++
    "component S { arch { A u = new A(); signal vec u_b; u.b <= u_b; } }")
  flags := 0

/-- The component as it is read. -/
def takenUser : Component where
  name := "S"
  nameSpan := ⟨0, 48, 49⟩
  span := ⟨0, 38, 105⟩
  file := 0
  items := [
    .arch ⟨⟨0, 52, 103⟩, "implementation", .zero, [
      .inst ⟨0, 59, 73⟩ ⟨"u", ⟨0, 61, 62⟩, "A", ⟨0, 59, 60⟩, []⟩,
      .decl ⟨.signal, "u_b", ⟨0, 85, 88⟩, .vec, .scalar, ⟨0, 74, 88⟩⟩,
      .assign ⟨0, 90, 101⟩ (.ref ⟨⟨"u", ⟨0, 90, 91⟩⟩, [⟨"b", ⟨0, 92, 93⟩⟩]⟩)
        (.ref ⟨⟨"u_b", ⟨0, 97, 100⟩⟩, []⟩)]⟩]
  widths := [("u_b", .scalar)]

/-- The source as it is read. -/
def takenDesign : Design where
  components := [
    ⟨"A", ⟨0, 10, 11⟩, ⟨0, 0, 37⟩, 0, [.ports ⟨0, 14, 35⟩
      [⟨.port .input, "b", ⟨0, 31, 32⟩, .vec, .scalar, ⟨0, 21, 32⟩⟩]], [("b", .scalar)]⟩,
    takenUser]
  distinct := by decide

theorem emit_fails_iff_takenUser :
    ∃ e, ((Generator.mk (some takenDesign) 4 default).emit takenUser).1 = .error e ∧
      e.code = .duplicateDeclaration := by
  have read : Design.parse takenSource false = .ok takenDesign :=
    Design.parse_of_toOption (by decide +kernel)
  have known : takenUser ∈ takenDesign.components := by decide
  have passes : takenUser.name ∈ (takenDesign.check "").order := by
    have order : (takenDesign.check "").order = ["A", "S"] := by cbv
    rw [order]
    decide
  have collision : ∃ p ∈ takenUser.dottedPaths, takenUser.Collides p :=
    ⟨⟨⟨"u", ⟨0, 90, 91⟩⟩, [⟨"b", ⟨0, 92, 93⟩⟩]⟩, by decide, "u", "b", by decide, by decide⟩
  obtain ⟨fails, blames⟩ := emit_fails_iff (g := ⟨some takenDesign, 4, default⟩)
    (Design.parsed_of_parse read takenUser known) known passes rfl
  obtain ⟨e, failed⟩ := fails.mpr collision
  exact ⟨e, failed, (blames e failed).2.1⟩

end Vhdl
end CircuitCompiler
