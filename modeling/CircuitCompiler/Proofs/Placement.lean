import CircuitCompiler.Component.Spans
import CircuitCompiler.Proofs.PlacedComponent

/-!
# Where the parts of a component stand

What is read of a file stands in it where it was read. For the places this means that parts lie in
their component, statements in their architecture and operands in their expression, one behind the
other; for the names, that a component declares no name twice, and that its list of vectors and its
bit selections fit to its declarations.

* `Component.Placed.spanFault`: the check of spans has nothing to complain about;
* `Design.parse_nests`: the places of components and of all nodes of their expressions;
* `Component.declares_consistently`: the declarations, the vectors and the bit selections.
-/

namespace CircuitCompiler

/-! ## The check of spans -/

namespace Component

variable {f : SourceFile}

theorem stmtFault_of_between {arch : Span} (file : arch.file = f.id) {stmts : List Stmt}
    (inside : ∀ s ∈ stmts, s.span.Between f arch.start arch.stop) :
    stmtFault arch stmts = none := by
  induction stmts with
  | nil => rfl
  | cons s rest ih =>
    obtain ⟨here, inside⟩ := List.forall_mem_cons.mp inside
    have pos : ¬s.span.stop ≤ s.span.start := Nat.not_le.mpr here.pos
    unfold stmtFault
    rw [if_neg pos, here.within file]
    exact ih inside

theorem itemFault_of_between {whole : Span} (file : whole.file = f.id) {items : List Item}
    (inside : ∀ it ∈ items, it.span.Between f whole.start whole.stop ∧ it.Holds f) :
    itemFault whole items = none := by
  induction items with
  | nil => rfl
  | cons it rest ih =>
    obtain ⟨⟨here, holds⟩, inside⟩ := List.forall_mem_cons.mp inside
    have pos : ¬it.span.stop ≤ it.span.start := Nat.not_le.mpr here.pos
    have stmts : (it.arch?.bind fun a => stmtFault a.span a.stmts) = none := by
      cases it with
      | arch a => exact stmtFault_of_between here.file (holds a rfl)
      | generic | ports => rfl
    unfold itemFault
    rw [if_neg pos, here.within file, stmts]
    exact ih inside

/-- The spans of a component in its place pass their check. -/
theorem Placed.spanFault {c : Component} (h : c.Placed f) :
    c.spanFault f.id f.content.length = none := by
  have pos : ¬c.span.stop ≤ c.span.start := Nat.not_le.mpr h.between.pos
  have file : (c.span.file != f.id) = false := by simp [h.between.file]
  have upTo : ¬f.content.length < c.span.stop := Nat.not_lt.mpr h.between.stop
  unfold Component.spanFault
  rw [if_neg pos, file, if_neg upTo, h.nameSpan.within h.between.file]
  exact itemFault_of_between h.between.file h.items

end Component

/-! ## Places of a design -/

namespace Design

/-- The components of a design that was read from a file pass the check of their spans. Every node
of their expressions has the nodes below it in its place, in source order and without overlap; what
the file has at an identifier is its name, and at a constant the constant as it is written. The
nodes of any expression in them come with offsets that never go back. -/
theorem parse_nests {f : SourceFile} {keepText : Bool} {d : Design}
    (parsed : parse f keepText = .ok d) :
    ∀ c ∈ d.components,
      c.spanFault f.id f.content.length = none ∧
        (∀ t ∈ c.trees, ∀ u ∈ t.subtrees,
          u.WellPlaced f.content ∧ (NodeTree.starts u.nodes).Pairwise (· ≤ ·)) ∧
        ∀ e : Expr, (∃ t ∈ c.trees, e.tree ∈ t.subtrees) →
          (e.nodes.map (·.span.start)).Pairwise (· ≤ ·) := by
  intro c hc
  have placed := placed_of_parse parsed c hc
  have nodes : ∀ t ∈ c.trees, ∀ u ∈ t.subtrees,
      u.WellPlaced f.content ∧ (NodeTree.starts u.nodes).Pairwise (· ≤ ·) := by
    intro t ht u hu
    have nests := placed.trees t ht
    exact ⟨nests u hu, (nests.subtree hu).sorted⟩
  refine ⟨placed.spanFault, nodes, ?_⟩
  rintro e ⟨t, ht, he⟩
  obtain ⟨-, sorted⟩ := nodes t ht e.tree he
  have same : e.nodes.map (·.span.start) = NodeTree.starts e.tree.nodes := by
    rw [← e.nodes_tree, List.map_map, NodeTree.starts]
    refine List.map_congr_left ?_
    rintro ⟨label, span⟩ -
    cases label <;> rfl
  rw [same]
  exact sorted

/-- A component with bits taken of a vector, in parentheses and beside a member of an instance. -/
def selecting : SourceFile :=
  ⟨0, "S", Bytes.ofString "component A\x7bvec v[4];arch\x7bv[3:1]<=(v[0]&u.q);\x7d\x7d", 0⟩

theorem parse_nests_selecting : ∃ d, parse selecting false = .ok d ∧
    (d.components.map fun c => (c.name, c.trees.map fun t => t.subtrees.length)) = [("A", [13])] ∧
    ∀ c ∈ d.components, ∀ t ∈ c.trees, ∀ u ∈ t.subtrees, u.WellPlaced selecting.content := by
  have fine : (parse selecting false).toOption.isSome = true := by decide +kernel
  have shape : ((parse selecting false).toOption.map fun d => d.components.map fun c =>
      (c.name, c.trees.map fun t => t.subtrees.length)) = some [("A", [13])] := by decide +kernel
  cases parsed : parse selecting false with
  | error e =>
    rw [parsed] at fine
    cases fine
  | ok d =>
    rw [parsed] at shape
    refine ⟨d, rfl, Option.some.inj shape, ?_⟩
    intro c hc t ht u hu
    exact ((parse_nests parsed c hc).2.1 t ht u hu).1

end Design

/-! ## Declarations of a component -/

namespace Component

/-- A component that is read with fresh declarations from any place of a source declares each name
once. Its vectors are its declarations of vectors, in source order and with their widths; and bits
are taken only of single names, of which each is that of a vector declared before. -/
theorem declares_consistently {source : Cursor} {r r' : Reading} {c : Component}
    (tokens : r.tokens <:+ (Stream.ofCursor source).tokens) (names : r.names = [])
    (widths : r.widths = []) (parsed : Parse.component source.file.id r = (.ok c, r')) :
    c.declared.Nodup ∧
      c.widths = (c.decls.filter fun d => d.type = .vec).map (fun d => (d.name, d.width)) ∧
      c.decls.Pairwise (fun d e => d.span.stop ≤ e.span.start) ∧
      ∀ p ∈ c.splices, p.tail = [] ∧
        ∃ d ∈ c.decls, d.type = .vec ∧ d.name = p.head.name ∧ d.span.stop ≤ p.span.start := by
  have opens : r.Opens source.file := by
    refine ⟨?_, ?_, names, widths⟩
    · intro t ht
      exact Stream.scan_lies source t (tokens.mem ht)
    · exact (Stream.scan_apart _ _ _).sublist tokens.sublist
  obtain ⟨placed, -⟩ := Parse.places_component opens parsed
  have distinct : c.Parsed := ⟨source.file.id, r, r', parsed, names⟩
  refine ⟨distinct.declared_nodup, placed.widths, placed.apart, ?_⟩
  intro p hp
  obtain ⟨plain, d, hd, vector, name, before⟩ := placed.splices p hp
  refine ⟨plain, d, hd, vector, ?_, before⟩
  rw [name, Path.text, Path.names, Path.segments, plain]
  rfl

theorem declares_consistently_selecting :
    let start := Reading.ofStream (.ofCursor (.ofFile Design.selecting)) .zero none
    ∃ c r', Parse.component 0 start = (.ok c, r') ∧ c.widths = [("v", .literal 4)] ∧
      c.declared.Nodup ∧ (c.splices.map (·.names)) = [["v"], ["v"]] ∧
      ∀ p ∈ c.splices, ∃ d ∈ c.decls, d.name = p.head.name ∧ d.span.stop ≤ p.span.start := by
  intro start
  have shape : (Parse.component 0 start).1.toOption.map (fun c =>
      (c.widths, c.splices.map (·.names))) = some ([("v", .literal 4)], [["v"], ["v"]]) := by
    decide +kernel
  cases run : Parse.component 0 start with
  | mk result r' =>
    rw [run] at shape
    cases result with
    | error e => cases shape
    | ok c =>
      obtain ⟨widths, splices⟩ := Prod.mk.inj (Option.some.inj shape)
      obtain ⟨distinct, -, -, targets⟩ :=
        @declares_consistently (.ofFile Design.selecting) start r' c
          (List.suffix_refl _) rfl rfl run
      refine ⟨c, r', rfl, widths, distinct, splices, ?_⟩
      intro p hp
      obtain ⟨-, d, hd, -, name, before⟩ := targets p hp
      exact ⟨d, hd, name, before⟩

end Component
end CircuitCompiler
