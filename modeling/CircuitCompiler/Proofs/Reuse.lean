import CircuitCompiler.Vhdl.Emit

/-!
# Generators that are used again

A generator keeps its working state from one component to the next, and where lowering fails the
state is left half filled. The next component starts with a reset, so nothing of this shows.

* `Vhdl.lowerIn_eq`: lowering in a state that is left over is lowering from the start;
* `Vhdl.Generator.emit_eq`: emitting a component, without the state that is there;
* `Vhdl.Generator.emitAll_as_fresh`: every component is emitted as by a new generator.
-/

namespace CircuitCompiler.Vhdl

/-! ## Lowering in a state that is left over -/

theorem Lowering.foldl_addSocket (library : Option Design) (is : List Instance) (l : Lowering) :
    is.foldl (.addSocket library) l =
      { l with
        sockets := l.sockets ++
          is.map fun i => { inst := i, sub? := interface? library i.type } } := by
  induction is generalizing l with
  | nil => simp
  | cons i rest ih => simp [ih, addSocket]

/-- Behind the reset the instances lead to the state that lowering starts in. -/
theorem Lowering.reset_start (l : Lowering) (library : Option Design) (c : Component) :
    c.instances.foldl (.addSocket library) (l.reset c) = .start library c := by
  rw [foldl_addSocket]
  rfl

theorem lowerIn_eq (l : Lowering) (library : Option Design) (c : Component) :
    lowerIn l library c = lower library c := by
  rw [lowerIn, Lowering.reset_start, lower]

/-! ## Generators -/

namespace Generator

/-- A new generator, which has no working state yet. -/
def fresh (library : Option Design) (indent : Int) : Generator := { library, indent }

theorem emit_eq (g : Generator) (c : Component) :
    g.emit c =
      match lower g.library c with
      | (.error e, l) => (.error e, { g with work := l })
      | (.ok _, l) =>
        (.ok (renderLines (indentStep g.indent) (unitLines c l)), { g with work := l }) := by
  rw [← lowerIn_eq g.work]
  rfl

/-- The design and the indentation of a generator stay, and its working state has no part in what it
emits and leaves behind. -/
theorem emit_fresh (g : Generator) (c : Component) :
    g.emit c = (fresh g.library g.indent).emit c ∧
      (g.emit c).2.library = g.library ∧ (g.emit c).2.indent = g.indent := by
  refine ⟨?_, ?_⟩
  · rw [emit_eq g, emit_eq (fresh g.library g.indent)]
    rfl
  · rw [emit_eq]
    rcases lower g.library c with ⟨_ | _, l⟩ <;> exact ⟨rfl, rfl⟩

theorem emitAll_fresh (g : Generator) (cs : List Component) :
    (g.emitAll cs).1 = cs.map (fun c => ((fresh g.library g.indent).emit c).1) ∧
      (g.emitAll cs).2.library = g.library ∧ (g.emitAll cs).2.indent = g.indent := by
  induction cs generalizing g with
  | nil => exact ⟨rfl, rfl, rfl⟩
  | cons c rest ih =>
    obtain ⟨first, library, indent⟩ := emit_fresh g c
    obtain ⟨more, library', indent'⟩ := ih (g.emit c).2
    rw [library, indent] at more
    refine ⟨?_, library'.trans library, indent'.trans indent⟩
    rw [emitAll, List.map_cons, ← more, ← first]

/-- A generator that emits components one after the other, whether it fails for some of them or not,
has for each of them the text or the error that a new generator has; and behind them it emits a
component as a new one does and is left in the same state. -/
theorem emitAll_as_fresh (library : Option Design) (indent : Int) (cs : List Component) :
    ((fresh library indent).emitAll cs).1 = cs.map (fun c => ((fresh library indent).emit c).1) ∧
      ∀ c, ((fresh library indent).emitAll cs).2.emit c = (fresh library indent).emit c := by
  obtain ⟨results, library', indent'⟩ := emitAll_fresh (fresh library indent) cs
  refine ⟨results, fun c => ?_⟩
  obtain ⟨same, -, -⟩ := emit_fresh ((fresh library indent).emitAll cs).2 c
  rwa [library', indent'] at same

/-- `S { arch { A u = new A(); u.b <= v.c; } }`, which has no instance `v`. -/
def halfWired : Component where
  name := "S"
  nameSpan := ⟨0, 10, 11⟩
  span := ⟨0, 0, 55⟩
  file := 0
  items := [
    .arch ⟨⟨0, 14, 53⟩, "implementation", .zero, [
      .inst ⟨0, 21, 35⟩ ⟨"u", ⟨0, 23, 24⟩, "A", ⟨0, 21, 22⟩, []⟩,
      .assign ⟨0, 36, 46⟩ (.ref ⟨⟨"u", ⟨0, 36, 37⟩⟩, [⟨"b", ⟨0, 38, 39⟩⟩]⟩)
        (.ref ⟨⟨"v", ⟨0, 43, 44⟩⟩, [⟨"c", ⟨0, 45, 46⟩⟩]⟩)]⟩]
  widths := []

/-- A component that fails leaves a signal and a connection behind. -/
example :
    let (out, g) := (fresh none 4).emit halfWired
    out.isOk = false ∧ g.work.wires.map (·.name) = ["u_b"] ∧
      g.work.sockets.map (·.connections) = [[⟨"b", "u_b"⟩]] := by
  decide +kernel

end Generator
end CircuitCompiler.Vhdl
