import CircuitCompiler.Proofs.Flattening
import CircuitCompiler.Source.File

/-!
# Trees whose places nest

A node of an expression is well placed when the places of the nodes below it lie in its own, one
behind the other, and when a name or a constant is what the source has there. Where all nodes of a
tree are well placed, the nodes come in the order of their places.

* `NodeTree.WellPlaced`, `NodeTree.Nests`: a node, and a tree of them;
* `NodeTree.Nests.sorted`: the nodes of a tree in source order;
* `Component.trees`: the trees of all expressions of a component, with `Stmt.length_nodes_trees`.
-/

namespace CircuitCompiler

/-! ## Spans between two offsets -/

/-- The span is not empty and covers bytes of the file `f` between two offsets. -/
structure Span.Between (f : SourceFile) (lo hi : Nat) (s : Span) : Prop where
  file : s.file = f.id
  start : lo ≤ s.start
  pos : s.start < s.stop
  stop : s.stop ≤ hi

namespace Span

variable {f : SourceFile} {lo mid hi lo' hi' : Nat} {s t : Span}

theorem Between.mono (h : s.Between f lo hi) (front : lo' ≤ lo) (back : hi ≤ hi') :
    s.Between f lo' hi' where
  file := h.file
  start := Nat.le_trans front h.start
  pos := h.pos
  stop := Nat.le_trans h.stop back

/-- The cover of two spans of which neither starts or ends before the first. -/
theorem cover_eq (file : s.file = t.file) (start : s.start ≤ t.start) (stop : s.stop ≤ t.stop) :
    s.cover t = ⟨s.file, s.start, t.stop⟩ := by
  rw [cover, if_pos (beq_iff_eq.mpr file), Nat.min_eq_left start, Nat.max_eq_right stop]

theorem Between.cover_eq (hs : s.Between f lo mid) (ht : t.Between f mid hi) :
    s.cover t = ⟨f.id, s.start, t.stop⟩ := by
  have order : s.stop ≤ t.start := Nat.le_trans hs.stop ht.start
  have pos := hs.pos
  have pos' := ht.pos
  have both := Span.cover_eq (hs.file.trans ht.file.symm) (by omega) (by omega)
  rw [both, hs.file]

theorem Between.cover (hs : s.Between f lo mid) (ht : t.Between f mid hi) :
    (s.cover t).Between f lo hi := by
  have order : s.stop ≤ t.start := Nat.le_trans hs.stop ht.start
  have pos := hs.pos
  have pos' := ht.pos
  rw [hs.cover_eq ht]
  exact ⟨rfl, hs.start, by simp only; omega, ht.stop⟩

/-- A span starts where it starts and ends where it ends. -/
theorem Between.tight (h : s.Between f lo hi) : s.Between f s.start s.stop :=
  ⟨h.file, Nat.le_refl _, h.pos, Nat.le_refl _⟩

/-- A span that comes behind another one ends where it ends. -/
theorem Between.behind (h : s.Between f mid hi) (front : lo ≤ mid) : s.Between f lo s.stop :=
  ⟨h.file, Nat.le_trans front h.start, h.pos, Nat.le_refl _⟩

theorem Between.start_le (h : s.Between f lo hi) : s.start ≤ hi :=
  Nat.le_trans (Nat.le_of_lt h.pos) h.stop

/-- A span ends before a later one does. -/
theorem Between.stop_le (hs : s.Between f lo mid) (ht : t.Between f mid hi) : s.stop ≤ t.stop :=
  Nat.le_trans hs.stop (Nat.le_trans ht.start (Nat.le_of_lt ht.pos))

theorem Between.within (hs : s.Between f t.start t.stop) (ht : t.file = f.id) :
    s.within t = true := by
  have file : (s.file == t.file) = true := beq_iff_eq.mpr (hs.file.trans ht.symm)
  simp only [Span.within, file, Bool.true_and, Bool.and_eq_true, decide_eq_true_eq]
  exact ⟨hs.start, hs.stop⟩

end Span

/-! ## Nodes in their places -/

/-- What the source has at a node: the name, or the constant as it is written. -/
def NodeLabel.written? : NodeLabel → Option String
  | name n => some n
  | constant value => some value.text
  | _ => none

namespace NodeTree

/-- The place of the root. -/
def span : NodeTree → Span
  | node _ span _ => span

mutual

/-- The tree and all trees below it. -/
def subtrees : NodeTree → List NodeTree
  | node label span below => node label span below :: subtreesAll below

/-- All trees in trees. -/
def subtreesAll : List NodeTree → List NodeTree
  | [] => []
  | t :: rest => t.subtrees ++ subtreesAll rest

end

/-- The root has a place that is not empty, the nodes right below it have theirs in it and one
behind the other, and if it is a name or a constant, then that is what the source has there. -/
def WellPlaced (src : Bytes) : NodeTree → Prop
  | node label span below =>
    span.start < span.stop ∧
      (∀ t ∈ below, t.span.within span = true) ∧
      below.Pairwise (fun t u => t.span.stop ≤ u.span.start) ∧
      ∀ text, label.written? = some text → (src.slice span.start span.stop).latin = text

/-- All nodes of the tree are well placed. -/
def Nests (src : Bytes) (t : NodeTree) : Prop := ∀ u ∈ t.subtrees, u.WellPlaced src

variable {src : Bytes} {label : NodeLabel} {span : Span} {below : List NodeTree}

/-- What holds of a node whenever it holds of those right below it holds of every tree. -/
theorem induct {P : NodeTree → Prop}
    (node : ∀ label span below, (∀ t ∈ below, P t) → P (.node label span below)) (t : NodeTree) :
    P t :=
  @NodeTree.rec P (fun ts => ∀ t ∈ ts, P t) node (by simp)
    (fun _ _ here later => List.forall_mem_cons.mpr ⟨here, later⟩) t

theorem mem_subtreesAll {u : NodeTree} {ts : List NodeTree} :
    u ∈ subtreesAll ts ↔ ∃ t ∈ ts, u ∈ t.subtrees := by
  induction ts with
  | nil => simp [subtreesAll]
  | cons t rest ih => simp [subtreesAll, ih]

theorem mem_nodesAll {n : NodeLabel × Span} {ts : List NodeTree} :
    n ∈ nodesAll ts ↔ ∃ t ∈ ts, n ∈ t.nodes := by
  induction ts with
  | nil => simp [nodesAll]
  | cons t rest ih => simp [nodesAll, ih]

theorem nests_node : (node label span below).Nests src ↔
    (node label span below).WellPlaced src ∧ ∀ t ∈ below, t.Nests src := by
  constructor
  · intro h
    refine ⟨h _ (by simp [subtrees]), ?_⟩
    intro t ht u hu
    apply h
    rw [subtrees]
    exact List.mem_cons_of_mem _ (mem_subtreesAll.mpr ⟨t, ht, hu⟩)
  · rintro ⟨here, deeper⟩ u hu
    rw [subtrees] at hu
    rcases List.mem_cons.mp hu with rfl | hu
    · exact here
    · obtain ⟨t, ht, hu⟩ := mem_subtreesAll.mp hu
      exact deeper t ht u hu

/-- A tree in a nested tree is nested. -/
theorem Nests.subtree {t u : NodeTree} (h : t.Nests src) (hu : u ∈ t.subtrees) : u.Nests src := by
  induction t using NodeTree.induct with
  | node label span below ih =>
    have deeper := (nests_node.mp h).2
    rw [subtrees] at hu
    rcases List.mem_cons.mp hu with rfl | hu
    · exact h
    · obtain ⟨t, ht, hu⟩ := mem_subtreesAll.mp hu
      exact ih t ht (deeper t ht) hu

/-- A leaf that is what the source has at its place. -/
theorem nests_leaf (pos : span.start < span.stop)
    (text : ∀ text, label.written? = some text → (src.slice span.start span.stop).latin = text) :
    (node label span []).Nests src :=
  nests_node.mpr ⟨⟨pos, by simp, .nil, text⟩, by simp⟩

/-- The trees stand one behind the other between two offsets. -/
def InRow (f : SourceFile) : Nat → Nat → List NodeTree → Prop
  | lo, hi, [] => lo ≤ hi
  | lo, hi, t :: rest => t.span.Between f lo t.span.stop ∧ InRow f t.span.stop hi rest

theorem InRow.between {f : SourceFile} {hi : Nat} {ts : List NodeTree} :
    ∀ {lo : Nat}, InRow f lo hi ts →
      lo ≤ hi ∧ (∀ t ∈ ts, t.span.Between f lo hi) ∧
        ts.Pairwise fun t u => t.span.stop ≤ u.span.start := by
  induction ts with
  | nil =>
    intro lo row
    exact ⟨row, by simp, .nil⟩
  | cons t rest ih =>
    rintro lo ⟨here, row⟩
    obtain ⟨upTo, later, apart⟩ := ih row
    have front : lo ≤ t.span.stop := Nat.le_trans here.start (Nat.le_of_lt here.pos)
    refine ⟨Nat.le_trans front upTo, List.forall_mem_cons.mpr ⟨?_, ?_⟩,
      List.pairwise_cons.mpr ⟨?_, apart⟩⟩
    · exact here.mono (Nat.le_refl _) upTo
    · intro u hu
      exact (later u hu).mono front (Nat.le_refl _)
    · intro u hu
      exact (later u hu).start

/-- Trees in a row are well placed below a node that reaches over them. -/
theorem wellPlaced_of_inRow {f : SourceFile} (file : span.file = f.id)
    (pos : span.start < span.stop) (row : InRow f span.start span.stop below)
    (inner : label.written? = none) : (node label span below).WellPlaced f.content := by
  obtain ⟨-, between, apart⟩ := row.between
  refine ⟨pos, ?_, apart, ?_⟩
  · intro t ht
    exact (between t ht).within file
  · intro text written
    rw [inner] at written
    cases written

/-- A node that reaches from one span to a later one is well placed over a row between these. -/
theorem wellPlaced_cover {f : SourceFile} {lo mid hi : Nat} {s t : Span} (hs : s.Between f lo mid)
    (ht : t.Between f mid hi) (row : InRow f s.start t.stop below)
    (inner : label.written? = none) : (node label (s.cover t) below).WellPlaced f.content := by
  have span := hs.cover ht
  refine wellPlaced_of_inRow span.file span.pos ?_ inner
  rw [hs.cover_eq ht]
  exact row

/-- A node over two trees, one behind the other. -/
theorem wellPlaced_pair {f : SourceFile} {lo mid hi : Nat} {t u : NodeTree}
    (ht : t.span.Between f lo mid) (hu : u.span.Between f mid hi)
    (inner : label.written? = none) :
    (node label (t.span.cover u.span) [t, u]).WellPlaced f.content :=
  wellPlaced_cover ht hu ⟨ht.tight, hu.behind ht.stop, Nat.le_refl _⟩ inner

/-! ## Nodes in source order -/

/-- The offsets at which nodes start. -/
def starts (nodes : List (NodeLabel × Span)) : List Nat := nodes.map (·.2.start)

/-- In a nested tree every node starts in the place of the root. -/
theorem Nests.start_between {t : NodeTree} (h : t.Nests src) :
    ∀ n ∈ t.nodes, t.span.start ≤ n.2.start ∧ n.2.start < t.span.stop := by
  induction t using NodeTree.induct with
  | node label span below ih =>
    obtain ⟨⟨pos, inside, -, -⟩, deeper⟩ := nests_node.mp h
    intro n hn
    rw [nodes] at hn
    rcases List.mem_cons.mp hn with rfl | hn
    · exact ⟨Nat.le_refl _, pos⟩
    · obtain ⟨t, ht, hn⟩ := mem_nodesAll.mp hn
      have within := inside t ht
      simp only [Span.within, Bool.and_eq_true, decide_eq_true_eq] at within
      obtain ⟨⟨-, front⟩, back⟩ := within
      obtain ⟨from_, upTo⟩ := ih t ht (deeper t ht) n hn
      exact ⟨Nat.le_trans front from_, Nat.lt_of_lt_of_le upTo back⟩

/-- Where trees stand one behind the other, so do their nodes. -/
theorem starts_nodesAll {ts : List NodeTree} (nested : ∀ t ∈ ts, t.Nests src)
    (apart : ts.Pairwise fun t u => t.span.stop ≤ u.span.start)
    (sorted : ∀ t ∈ ts, (starts t.nodes).Pairwise (· ≤ ·)) :
    (starts (nodesAll ts)).Pairwise (· ≤ ·) := by
  induction ts with
  | nil => exact .nil
  | cons t rest ih =>
    obtain ⟨first, apart⟩ := List.pairwise_cons.mp apart
    obtain ⟨here, nested⟩ := List.forall_mem_cons.mp nested
    obtain ⟨order, sorted⟩ := List.forall_mem_cons.mp sorted
    rw [nodesAll, starts, List.map_append]
    refine List.pairwise_append.mpr ⟨order, ih nested apart sorted, ?_⟩
    -- a node of `t` starts before `t` ends, and a later one in a tree that starts behind that
    intro a ha b hb
    obtain ⟨n, hn, rfl⟩ := List.mem_map.mp ha
    obtain ⟨m, hm, rfl⟩ := List.mem_map.mp hb
    obtain ⟨u, hu, hm⟩ := mem_nodesAll.mp hm
    have before : n.2.start < t.span.stop := (here.start_between n hn).2
    have behind : u.span.start ≤ m.2.start := ((nested u hu).start_between m hm).1
    have between : t.span.stop ≤ u.span.start := first u hu
    omega

/-- The nodes of a nested tree come in the order in which they start. -/
theorem Nests.sorted {t : NodeTree} (h : t.Nests src) : (starts t.nodes).Pairwise (· ≤ ·) := by
  induction t using NodeTree.induct with
  | node label span below ih =>
    have between := h.start_between
    obtain ⟨⟨-, -, apart, -⟩, deeper⟩ := nests_node.mp h
    rw [nodes] at between ⊢
    obtain ⟨-, between⟩ := List.forall_mem_cons.mp between
    rw [starts, List.map_cons]
    refine List.pairwise_cons.mpr ⟨?_, ?_⟩
    · intro start hstart
      obtain ⟨n, hn, rfl⟩ := List.mem_map.mp hstart
      exact (between n hn).1
    · exact starts_nodesAll deeper apart fun t ht => ih t ht (deeper t ht)

end NodeTree

/-! ## The expressions of a component -/

theorem Path.span_tree (p : Path) : p.tree.span = p.span := by
  obtain ⟨s, tail⟩ := p
  cases tail <;> rfl

theorem Expr.span_tree (e : Expr) : e.tree.span = e.span := by
  cases e with
  | ref p => exact p.span_tree
  | _ => rfl

/-- The tree of a value that is known before the circuit runs. -/
def Setting.tree : Setting → NodeTree
  | name s => .node (.name s.name) s.span []
  | literal span value => .node (.constant value) span []

/-- The tree of a binding: it has the name and the value below it and spans both. -/
def Binding.tree (b : Binding) : NodeTree :=
  .node (.joint .binding) (b.name.span.cover b.value.span)
    [.node (.name b.name.name) b.name.span [], b.value.tree]

/-- The tree of a binding and those behind it, which nests to the right. -/
def Binding.treeOver : Binding → List Binding → NodeTree
  | b, [] => b.tree
  | b, b' :: rest =>
    .node (.joint .list) (b.tree.span.cover (treeOver b' rest).span) [b.tree, treeOver b' rest]

/-- The trees of bindings: one, if there are any. -/
def Binding.trees : List Binding → List NodeTree
  | [] => []
  | b :: rest => [treeOver b rest]

/-- The trees of the expressions of a statement; the type of an instance is one of them. -/
def Stmt.trees : Stmt → List NodeTree
  | decl d => match d.role with
    | .constant value => [value.tree]
    | _ => []
  | inst _ i => .node (.name i.type) i.typeSpan [] :: Binding.trees i.bindings
  | assign _ target value => [assignmentTree (target, value)]
  | block .. => []

/-- The trees of the expressions of a part of a component. -/
def Item.trees : Item → List NodeTree
  | generic .. | ports .. => []
  | arch a => a.stmts.flatMap Stmt.trees

/-- The trees of all expressions of a component, in source order. -/
def Component.trees (c : Component) : List NodeTree := c.items.flatMap Item.trees

open NodeTree

theorem Expr.length_nodes_tree (e : Expr) : e.tree.nodes.length = e.size := by
  have chain : ∀ rest s, (Path.treeOver s rest).nodes.length = 2 * rest.length + 1 := by
    intro rest
    induction rest with
    | nil => exact fun _ => rfl
    | cons t rest ih =>
      intro s
      simp only [Path.treeOver, NodeTree.nodes, nodesAll, List.length_cons, List.length_append,
        List.length_nil, ih]
      omega
  have path : ∀ p : Path, p.tree.nodes.length = p.size := fun p => chain p.tail p.head
  induction e with
  | ref p => exact path p
  | const => rfl
  | unary span op operand ih =>
    simp only [tree, NodeTree.nodes, nodesAll, List.append_nil, List.length_cons, ih, size]
  | binary | choice | index | range =>
    simp only [tree, NodeTree.nodes, nodesAll, List.length_cons, List.length_append,
      List.length_nil, size, *]
    omega

theorem Binding.length_nodes_tree (b : Binding) : b.tree.nodes.length = 3 := by
  obtain ⟨name, value⟩ := b
  cases value <;> rfl

/-- The trees of a statement have as many nodes as the statement is counted for. -/
theorem Stmt.length_nodes_trees (s : Stmt) : (nodesAll s.trees).length = Component.stmtNodes s := by
  cases s with
  | decl d =>
    obtain ⟨role, name, nameSpan, type, width, span⟩ := d
    cases role with
    | constant value => cases value <;> rfl
    | _ => rfl
  | inst span i =>
    have list : ∀ rest b, (Binding.treeOver b rest).nodes.length = 4 * rest.length + 3 := by
      intro rest
      induction rest with
      | nil => exact fun b => b.length_nodes_tree
      | cons b' rest ih =>
        intro b
        simp only [Binding.treeOver, nodes, nodesAll, List.length_cons, List.length_append,
          List.length_nil, ih, Binding.length_nodes_tree]
        omega
    simp only [trees, nodesAll, nodes, List.length_append, List.length_cons, List.length_nil,
      Component.stmtNodes, Component.bindingNodes]
    cases i.bindings with
    | nil => rfl
    | cons b rest =>
      simp only [Binding.trees, nodesAll, List.length_append, List.length_nil, list,
        List.length_cons]
      omega
  | assign span target value =>
    simp only [trees, assignmentTree, nodesAll, nodes, List.length_cons, List.length_append,
      List.length_nil, Expr.length_nodes_tree, Component.stmtNodes]
    omega
  | block => rfl

end CircuitCompiler
